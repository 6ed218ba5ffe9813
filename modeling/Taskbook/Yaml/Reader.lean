/-
Texts as data.

A text of allowed characters is split into tokens, the tokens make up a tree, and the
document of the tree stands for a value. A text without a document stands for null.
-/

import Taskbook.Yaml.Document.Unfolding
import Taskbook.Yaml.Node.OfTokens
import Taskbook.Yaml.Token.Stream

namespace Taskbook.Yaml

/-- The value that a text of characters stands for. -/
def read [Depths] (text : String) : Except ReadError Value :=
  let characters := text.toList
  if !characters.all isAllowed then .error .malformed
  else do
    let (tokens, failure) := tokens characters
    match ← Node.ofTokens tokens failure with
    | none => return .null
    | some root => (Document.ofNode root).value

end Taskbook.Yaml
