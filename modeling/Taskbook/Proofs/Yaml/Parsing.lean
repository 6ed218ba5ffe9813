/-
The words of an outline make up the outline.

Trees are read by descent, with a bound on the depth and the length of what is read. For the words
of an outline four times their number is enough. What comes after a list under a key must not go on
with another item, since no block marks the end of the list.
-/

import Taskbook.Proofs.Outcome
import Taskbook.Proofs.Yaml.Outline
import Taskbook.Yaml.Node.OfTokens

namespace Taskbook.Yaml

namespace Read

variable {α β : Type} {failure : Option ReadError} {names : List String}
  {handles : List (String × String)} {depth : Nat}

/-! ### Single steps -/

theorem accept_cons (token : Token) (rest : List Token) :
    accept token ⟨token :: rest, failure, names, handles, depth⟩ =
      .ok (true, ⟨rest, failure, names, handles, depth⟩) := by
  have next : nextIs [token] ⟨token :: rest, failure, names, handles, depth⟩ =
      .ok (true, ⟨token :: rest, failure, names, handles, depth⟩) := by
    show Except.ok ([token].contains token, _) = _
    rw [List.contains_cons, beq_self_eq_true, Bool.true_or]
  rw [accept, bind_of_run next]
  rfl

theorem accept_of_ne {token other : Token} (differ : other ≠ token) (rest : List Token) :
    accept token ⟨other :: rest, failure, names, handles, depth⟩ =
      .ok (false, ⟨other :: rest, failure, names, handles, depth⟩) := by
  have next : nextIs [token] ⟨other :: rest, failure, names, handles, depth⟩ =
      .ok (false, ⟨other :: rest, failure, names, handles, depth⟩) := by
    show Except.ok ([token].contains other, _) = _
    rw [List.contains_eq_mem, decide_eq_false (by simpa using differ)]
  rw [accept, bind_of_run next]
  rfl

theorem expect_cons (token : Token) (rest : List Token) :
    expect token ⟨token :: rest, failure, names, handles, depth⟩ =
      .ok ((), ⟨rest, failure, names, handles, depth⟩) := by
  rw [expect, bind_of_run (accept_cons token rest)]
  rfl

theorem inside_of_ok [Depths] {parts : Read α} {tokens rest : List Token} {value : α}
    (shallow : depth < Depths.reading)
    (ran : parts ⟨tokens, failure, names, handles, depth + 1⟩ =
      .ok (value, ⟨rest, failure, names, handles, depth + 1⟩)) :
    inside parts ⟨tokens, failure, names, handles, depth⟩ =
      .ok (value, ⟨rest, failure, names, handles, depth⟩) := by
  rw [inside]
  show (if depth < Depths.reading then _ else _ : Read α) _ = _
  rw [if_pos shallow]
  show (parts ⟨tokens, failure, names, handles, depth + 1⟩ >>= fun result => _) = _
  rw [ran]
  rfl

/-! ### Nodes -/

/-- Whether a node without a name and without a tag starts with a token. -/
def starts : Token → Bool
  | .scalar .. => true
  | .flowSequenceStart => true
  | .flowMappingStart => true
  | .blockEntry => true
  | .blockMappingStart => true
  | _ => false

theorem nextIs_of_starts {token : Token} (starting : starts token = true) {marks : List Token}
    (noStarts : ∀ mark ∈ marks, starts mark = false) (rest : List Token) :
    nextIs marks ⟨token :: rest, failure, names, handles, depth⟩ =
      .ok (false, ⟨token :: rest, failure, names, handles, depth⟩) := by
  have other : token ∉ marks := fun member => by
    rw [noStarts token member] at starting
    cases starting
  show Except.ok (marks.contains token, _) = _
  rw [List.contains_eq_mem, decide_eq_false other]

/-- Nothing stands in front of the content of a node without a name and without a tag. -/
theorem node_of_starts [Depths] {token : Token} (starting : starts token = true)
    (block indentless : Bool) (bound : Nat) (rest : List Token) :
    node block indentless (bound + 1) ⟨token :: rest, failure, names, handles, depth⟩ =
      content block indentless none none bound ⟨token :: rest, failure, names, handles, depth⟩ := by
  rw [node]
  cases token with
  | scalar => rfl
  | flowSequenceStart => rfl
  | flowMappingStart => rfl
  | blockEntry => rfl
  | blockMappingStart => rfl
  | _ => cases starting

/-- A text has its tag by its looks, or by its quotes. -/
theorem scalarTag_isPlainText (text : String) :
    scalarTag none (isPlainText text) text = .str := by
  rw [scalarTag]
  split
  · rename_i plain
    rw [isPlainText, Bool.and_eq_true, decide_eq_true_eq] at plain
    exact plain.1
  · rfl

/-- The word of a text is read as the text. -/
theorem node_text [Depths] (block indentless : Bool) (bound : Nat) (text : String)
    (rest : List Token) :
    node block indentless (bound + 2)
        ⟨.scalar (isPlainText text) text :: rest, failure, names, handles, depth⟩ =
      .ok (.scalar none .str text, ⟨rest, failure, names, handles, depth⟩) := by
  rw [node_of_starts rfl, content]
  show Except.ok (Node.scalar none (scalarTag none (isPlainText text) text) text, _) = _
  rw [scalarTag_isPlainText]
  rfl

end Read

/-! ### Outlines -/

namespace Node

open Read

theorem words_sequence_cons {anchor : Option String} {tag : Tag} (item : Node)
    (others : List Node) :
    (sequence anchor tag (item :: others)).words =
      .blockEntry :: (item.words ++ itemWords others) := by
  rw [words, itemWords]
  simp

theorem words_mapping_cons {anchor : Option String} {tag : Tag} (entry : Node × Node)
    (others : List (Node × Node)) :
    (mapping anchor tag (entry :: others)).words =
      .blockMappingStart :: (entryWords (entry :: others) ++ [.blockEnd]) := by
  rw [words]
  simp

/-- The words of an outline begin with a token that starts a node. -/
theorem exists_words_eq_cons {node : Node} {column : Nat} (outline : node.IsOutline column) :
    ∃ token rest, node.words = token :: rest ∧ starts token = true ∧
      (node.isRecord = true → token = .blockMappingStart) := by
  cases node with
  | reference name => exact outline.elim
  | scalar anchor tag text => exact ⟨_, [], rfl, rfl, fun record => by cases record⟩
  | sequence anchor tag items =>
    cases items with
    | nil => exact ⟨_, _, rfl, rfl, fun record => by cases record⟩
    | cons item rest =>
      exact ⟨.blockEntry, item.words ++ itemWords rest, words_sequence_cons item rest, rfl,
        fun record => by cases record⟩
  | mapping anchor tag entries =>
    cases entries with
    | nil => exact ⟨_, _, rfl, rfl, fun record => by cases record⟩
    | cons entry rest =>
      exact ⟨.blockMappingStart, entryWords (entry :: rest) ++ [.blockEnd],
        words_mapping_cons entry rest, rfl, fun _ => rfl⟩

/-- After an entry comes another one or the end of the block. -/
theorem exists_head_entryWords (entries : List (Node × Node)) (rest : List Token) :
    ∃ next ≠ Token.blockEntry, (entryWords entries ++ .blockEnd :: rest).head? = some next := by
  cases entries with
  | nil => exact ⟨.blockEnd, by simp, rfl⟩
  | cons entry others => exact ⟨.key, by simp, rfl⟩

variable [Depths] {failure : Option ReadError} {names : List String}
  {handles : List (String × String)}

theorem blockPart_of_node {token : Token} (starting : starts token = true) {bound : Nat}
    {rest after : List Token} {depth : Nat} {made : Node}
    (read : Read.node true true bound ⟨token :: rest, failure, names, handles, depth⟩ =
      .ok (made, ⟨after, failure, names, handles, depth⟩)) :
    blockPart (bound + 1) ⟨token :: rest, failure, names, handles, depth⟩ =
      .ok (made, ⟨after, failure, names, handles, depth⟩) := by
  have next := @nextIs_of_starts failure names handles depth token starting
    [.key, .value, .blockEnd] (by decide) rest
  rw [blockPart, bind_of_run next]
  exact read

omit [Depths] in
/-- What comes after a mark of brackets is read like any parts of a collection. -/
theorem content_of_skip {α : Type} {parts : Read α} {make : α → Node} {token : Token}
    {tokens after : List Token} {depth : Nat} {made : α}
    (ran : parts ⟨tokens, failure, names, handles, depth⟩ =
      .ok (made, ⟨after, failure, names, handles, depth⟩)) :
    (do skip; return make (← parts) : Read Node)
        ⟨token :: tokens, failure, names, handles, depth⟩ =
      .ok (make made, ⟨after, failure, names, handles, depth⟩) := by
  show (parts >>= fun made => pure (make made)) ⟨tokens, failure, names, handles, depth⟩ = _
  rw [bind_of_run ran]
  rfl

section

variable {depth : Nat} (shallow : depth < Depths.reading)
include shallow

/-- A pair of brackets is an empty list. -/
theorem node_noItems (indentless : Bool) (bound : Nat) (rest : List Token) :
    Read.node true indentless (bound + 3)
        ⟨.flowSequenceStart :: .flowSequenceEnd :: rest, failure, names, handles, depth⟩ =
      .ok (sequence none .seq [], ⟨rest, failure, names, handles, depth⟩) := by
  rw [node_of_starts rfl, content]
  refine content_of_skip (inside_of_ok shallow ?_)
  rw [flowItems]
  exact (bind_of_run (accept_cons .flowSequenceEnd rest) _).trans rfl

/-- A pair of braces is an empty mapping. -/
theorem node_noEntries (indentless : Bool) (bound : Nat) (rest : List Token) :
    Read.node true indentless (bound + 3)
        ⟨.flowMappingStart :: .flowMappingEnd :: rest, failure, names, handles, depth⟩ =
      .ok (mapping none .map [], ⟨rest, failure, names, handles, depth⟩) := by
  rw [node_of_starts rfl, content]
  refine content_of_skip (inside_of_ok shallow ?_)
  rw [flowEntries]
  exact (bind_of_run (accept_cons .flowMappingEnd rest) _).trans rfl

/-- Items under a key are a list. -/
theorem node_of_items {bound : Nat} {tokens rest : List Token} {items : List Node}
    (read : indentlessItems bound ⟨.blockEntry :: tokens, failure, names, handles, depth + 1⟩ =
      .ok (items, ⟨rest, failure, names, handles, depth + 1⟩)) :
    Read.node true true (bound + 2) ⟨.blockEntry :: tokens, failure, names, handles, depth⟩ =
      .ok (sequence none .seq items, ⟨rest, failure, names, handles, depth⟩) := by
  rw [node_of_starts rfl, content]
  show (inside (indentlessItems bound) >>= fun items =>
    pure (Node.sequence none .seq items)) _ = _
  rw [bind_of_run (inside_of_ok shallow read)]
  rfl

/-- Entries in a block are a mapping. -/
theorem node_of_entries (indentless : Bool) {bound : Nat} {tokens rest : List Token}
    {entries : List (Node × Node)}
    (read : blockEntries bound ⟨tokens, failure, names, handles, depth + 1⟩ =
      .ok (entries, ⟨rest, failure, names, handles, depth + 1⟩)) :
    Read.node true indentless (bound + 2)
        ⟨.blockMappingStart :: tokens, failure, names, handles, depth⟩ =
      .ok (mapping none .map entries, ⟨rest, failure, names, handles, depth⟩) := by
  have made := @content_of_skip failure names handles _ _ (Node.mapping none .map)
    .blockMappingStart _ _ _ _ (inside_of_ok shallow read)
  rw [node_of_starts rfl, content]
  cases indentless with
  | true => exact made
  | false => exact made

end

/-- What an outline holds is not too deep to be read. -/
theorem lt_reading {column depth : Nat} (near : column + 2 ≤ lastColumn)
    (shallow : depth ≤ column + 2) : depth < Depths.reading := by
  have room := Depths.reading_room
  unfold lastColumn at near
  omega

mutual

/-- The words of an outline are read as the outline. The depth of what is read is bounded by the
column. -/
theorem node_words {column : Nat} {node : Node} (outline : node.IsOutline column)
    {bound : Nat} (enough : 4 * node.words.length + 4 ≤ bound) {depth : Nat}
    (shallow : depth ≤ column + 2) (indentless : Bool) {rest : List Token}
    (listed : node.isSequence = true →
      indentless = true ∧ depth ≤ column + 1 ∧ ∃ next ≠ .blockEntry, rest.head? = some next) :
    Read.node true indentless bound ⟨node.words ++ rest, failure, names, handles, depth⟩ =
      .ok (node, ⟨rest, failure, names, handles, depth⟩) := by
  obtain ⟨bound, rfl⟩ := Nat.exists_eq_add_of_le' (show 3 ≤ bound by omega)
  cases node with
  | reference name => exact outline.elim
  | scalar anchor tag text =>
    obtain ⟨rfl, rfl, -, -⟩ := outline
    exact node_text true indentless (bound + 1) text rest
  | sequence anchor tag items =>
    obtain ⟨rfl, rfl, near, records⟩ := outline
    have inDepth := lt_reading near shallow
    cases items with
    | nil => exact node_noItems inDepth indentless bound rest
    | cons item others =>
      obtain ⟨rfl, shallower, ended⟩ := listed rfl
      have written : (sequence none .seq (item :: others)).words = itemWords (item :: others) :=
        words_sequence_cons item others
      rw [written] at enough ⊢
      exact node_of_items inDepth (indentlessItems_words records (show _ < bound + 1 by omega)
        (show depth + 1 ≤ column + 2 by omega) ended)
  | mapping anchor tag entries =>
    obtain ⟨rfl, rfl, near, outlines⟩ := outline
    have inDepth := lt_reading near shallow
    cases entries with
    | nil => exact node_noEntries inDepth indentless bound rest
    | cons entry others =>
      rw [words_mapping_cons, List.length_cons, List.length_append] at enough
      rw [words_mapping_cons, List.cons_append, List.append_assoc]
      exact node_of_entries inDepth indentless
        (blockEntries_words outlines (show _ < bound + 1 by omega) (by omega))

/-- The items of a list under a key, up to what is no item. -/
theorem indentlessItems_words {column : Nat} {items : List Node} (records : AreRecords column items)
    {bound : Nat} (enough : 4 * (itemWords items).length < bound) {depth : Nat}
    (shallow : depth ≤ column + 2) {rest : List Token}
    (ended : ∃ next ≠ .blockEntry, rest.head? = some next) :
    indentlessItems bound ⟨itemWords items ++ rest, failure, names, handles, depth⟩ =
      .ok (items, ⟨rest, failure, names, handles, depth⟩) := by
  obtain ⟨bound, rfl⟩ := Nat.exists_eq_add_of_le' (show 1 ≤ bound by omega)
  rw [indentlessItems]
  cases items with
  | nil =>
    obtain ⟨next, differ, head⟩ := ended
    obtain ⟨others, rfl⟩ := List.head?_eq_some_iff.mp head
    exact (bind_of_run (accept_of_ne differ others) _).trans rfl
  | cons item others =>
    obtain ⟨record, outline, othersRecords⟩ := records
    obtain ⟨token, inner, split, starting, isStart⟩ := exists_words_eq_cons outline
    obtain rfl := isStart record
    rw [itemWords, List.length_cons, List.length_append] at enough
    have itemRead : Read.node true false bound
        ⟨item.words ++ (itemWords others ++ rest), failure, names, handles, depth⟩ =
        .ok (item, ⟨itemWords others ++ rest, failure, names, handles, depth⟩) :=
      node_words outline (by omega) shallow false fun same =>
        absurd same (not_isSequence_of_isRecord record)
    have othersRead := indentlessItems_words othersRecords (show _ < bound by omega) shallow ended
    rw [itemWords, List.cons_append, List.append_assoc,
      bind_of_run (accept_cons .blockEntry _)]
    rw [split, List.cons_append] at itemRead ⊢
    have next : nextIs [.blockEntry, .key, .value, .blockEnd]
        ⟨.blockMappingStart :: (inner ++ (itemWords others ++ rest)), failure, names, handles,
          depth⟩ = .ok (false, ⟨.blockMappingStart :: (inner ++ (itemWords others ++ rest)), failure,
          names, handles, depth⟩) :=
      rfl
    show (nextIs _ >>= _) _ = _
    rw [bind_of_run next]
    show (Read.node true false bound >>= _) _ = _
    rw [bind_of_run itemRead]
    show (indentlessItems bound >>= fun others => pure (item :: others)) _ = _
    rw [bind_of_run othersRead]
    rfl

/-- The entries of a mapping up to the end of its block. -/
theorem blockEntries_words {column : Nat} {entries : List (Node × Node)}
    (outlines : HasOutlines column entries) {bound : Nat}
    (enough : 4 * (entryWords entries).length < bound) {depth : Nat}
    (shallow : depth ≤ column + 1) {rest : List Token} :
    blockEntries bound ⟨entryWords entries ++ .blockEnd :: rest, failure, names, handles, depth⟩ =
      .ok (entries, ⟨rest, failure, names, handles, depth⟩) := by
  obtain ⟨bound, rfl⟩ := Nat.exists_eq_add_of_le' (show 1 ≤ bound by omega)
  rw [blockEntries]
  cases entries with
  | nil =>
    rw [entryWords, List.nil_append, bind_of_run (accept_of_ne (by simp) rest)]
    exact (bind_of_run (expect_cons .blockEnd rest) _).trans rfl
  | cons entry others =>
    obtain ⟨key, value⟩ := entry
    obtain ⟨⟨name, rfl, named⟩, outline, -, -, othersOutlines⟩ := outlines
    obtain ⟨token, inner, split, starting, -⟩ := exists_words_eq_cons outline
    have written : entryWords ((scalar none .str name, value) :: others) = .key ::
        .scalar (isPlainText name) name :: .value :: (value.words ++ entryWords others) := rfl
    rw [written] at enough ⊢
    simp only [List.length_cons, List.length_append] at enough
    obtain ⟨bound, rfl⟩ := Nat.exists_eq_add_of_le' (show 3 ≤ bound by omega)
    have following := exists_head_entryWords others rest
    have keyRead := fun after => blockPart_of_node rfl
      (@node_text failure names handles depth _ true true bound name after)
    have valueRead : Read.node true true (bound + 2) ⟨value.words ++ (entryWords others ++
        .blockEnd :: rest), failure, names, handles, depth⟩ =
        .ok (value, ⟨entryWords others ++ .blockEnd :: rest, failure, names, handles, depth⟩) :=
      node_words outline (by omega) (by omega) true fun _ => ⟨rfl, shallow, following⟩
    have othersRead : blockEntries (bound + 3) ⟨entryWords others ++ .blockEnd :: rest, failure,
        names, handles, depth⟩ = .ok (others, ⟨rest, failure, names, handles, depth⟩) :=
      blockEntries_words othersOutlines (by omega) shallow
    rw [split, List.cons_append] at valueRead
    simp only [List.cons_append, List.append_assoc, split] at valueRead ⊢
    rw [bind_of_run (accept_cons .key _)]
    show (blockPart (bound + 3) >>= _) _ = _
    rw [bind_of_run (keyRead _)]
    show (accept .value >>= _) _ = _
    rw [bind_of_run (accept_cons .value _)]
    show (blockPart (bound + 3) >>= _) _ = _
    rw [bind_of_run (blockPart_of_node starting valueRead)]
    show (blockEntries (bound + 3) >>= fun others => pure (_ :: others)) _ = _
    rw [bind_of_run othersRead]
    rfl

end

/-- The words of an outline whose root is a mapping make up the outline. -/
theorem ofTokens_words {root : Node} (record : root.isRecord = true) (outline : root.IsOutline 0) :
    ofTokens root.words none = .ok (some root) := by
  obtain ⟨token, inner, split, -, isStart⟩ := exists_words_eq_cons outline
  obtain rfl := isStart record
  obtain ⟨bound, enough⟩ : ∃ bound, bound = 4 * root.words.length + 8 := ⟨_, rfl⟩
  have read : Read.node true false bound ⟨root.words ++ [], none, [], usualHandles, 0⟩ =
      .ok (root, ⟨[], none, [], usualHandles, 0⟩) :=
    node_words outline (by omega) (by omega) false fun same =>
      absurd same (not_isSequence_of_isRecord record)
  obtain ⟨bound, rfl⟩ := Nat.exists_eq_add_of_le' (show 1 ≤ bound by omega)
  rw [List.append_nil] at read
  have ended : expectEnd (bound + 1) ⟨[], none, [], usualHandles, 0⟩ =
      .ok ((), ⟨[], none, [], usualHandles, 0⟩) :=
    rfl
  rw [ofTokens, ← enough]
  show (document (bound + 1) ⟨root.words, none, [], [], 0⟩ >>= fun result => pure result.1) = _
  have implicit : document (bound + 1) ⟨root.words, none, [], [], 0⟩ =
      .ok (some root, ⟨[], none, [], usualHandles, 0⟩) := by
    rw [split] at read ⊢
    show ((Read.node true false (bound + 1) >>= fun root => do
      expectEnd (bound + 1)
      return some root) : Read (Option Node))
        ⟨.blockMappingStart :: inner, none, [], usualHandles, 0⟩ = _
    rw [bind_of_run read, bind_of_run ended]
    rfl
  rw [implicit]
  rfl

end Node

end Taskbook.Yaml
