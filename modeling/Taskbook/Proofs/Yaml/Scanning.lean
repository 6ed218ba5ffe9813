/-
How the tokens of a block are read.

A scan goes on from token to token: it skips white space, closes the blocks that it has left, and
reads what stands there. Outside brackets it is told by what is left of the text, the tokens read,
and the columns of the blocks around it. The place of a key that may have begun is forgotten on the
next line, so that a scan that comes to a new line stands as it would without it.
-/

import Taskbook.Proofs.Yaml.Wording
import Taskbook.Yaml.Token.Stream

namespace Taskbook.Yaml

open Sheet (blanks)

/-! ### Places in a text -/

/-- A place in a text, whatever is left of it. -/
structure Spot where
  index : Nat
  line : Nat
  column : Nat

namespace Spot

/-- What is left of a text from a place on. -/
def cursor (spot : Spot) (rest : List Char) : Cursor :=
  ⟨rest, rest.length, spot.index, spot.line, spot.column⟩

/-- So many characters further on the same line. -/
def right (spot : Spot) (count : Nat) : Spot :=
  ⟨spot.index + count, spot.line, spot.column + count⟩

/-- The start of the next line. -/
def below (spot : Spot) : Spot :=
  ⟨spot.index + 1, spot.line + 1, 0⟩

end Spot

namespace Cursor

variable {spot : Spot} {rest : List Char}

/-- A character is passed. -/
theorem next_cursor (spot : Spot) (character : Char) (rest : List Char) :
    ∃ later : Spot, (spot.cursor (character :: rest)).next = later.cursor rest ∧
      spot.line ≤ later.line := by
  rw [next]
  dsimp only [Spot.cursor]
  split
  · exact ⟨⟨_, _, 0⟩, rfl, Nat.le_succ _⟩
  · split
    · exact ⟨⟨_, _, _⟩, rfl, Nat.le_refl _⟩
    · exact ⟨⟨_, _, _⟩, rfl, Nat.le_refl _⟩

/-- Whether a character stays on its line and takes a column there. -/
def IsInLine (character : Char) : Prop :=
  isBreak character = false ∧ character ≠ byteOrderMark

theorem next_inLine {character : Char} (inLine : IsInLine character) :
    (spot.cursor (character :: rest)).next = (spot.right 1).cursor rest := by
  obtain ⟨noBreak, noMark⟩ := inLine
  rw [isBreak, Bool.or_eq_false_iff] at noBreak
  rw [next]
  dsimp only [Spot.cursor]
  rw [noBreak.1, noBreak.2, Bool.false_and, Bool.or_false, if_neg Bool.false_ne_true, if_neg noMark]
  rfl

theorem next_newline : (spot.cursor ('\n' :: rest)).next = spot.below.cursor rest :=
  rfl

theorem advance_append (cursor : Cursor) (first second : Nat) :
    cursor.advance (first + second) = (cursor.advance first).advance second := by
  induction first generalizing cursor with
  | zero => rw [Nat.zero_add]; rfl
  | succ first inductionHypothesis =>
    rw [Nat.succ_add]
    exact inductionHypothesis cursor.next

/-- Characters are passed. -/
theorem advance_cursor (spot : Spot) (characters rest : List Char) :
    ∃ later : Spot, (spot.cursor (characters ++ rest)).advance characters.length = later.cursor rest ∧
      spot.line ≤ later.line := by
  induction characters generalizing spot with
  | nil => exact ⟨spot, rfl, Nat.le_refl _⟩
  | cons character others inductionHypothesis =>
    obtain ⟨later, passed, further⟩ := next_cursor spot character (others ++ rest)
    obtain ⟨last, reached, after⟩ := inductionHypothesis later
    refine ⟨last, ?_, Nat.le_trans further after⟩
    rw [List.length_cons, advance, List.cons_append, passed, reached]

theorem advance_inLine {characters : List Char}
    (inLine : ∀ character ∈ characters, IsInLine character) :
    (spot.cursor (characters ++ rest)).advance characters.length =
      (spot.right characters.length).cursor rest := by
  induction characters generalizing spot with
  | nil => rfl
  | cons character others inductionHypothesis =>
    rw [List.length_cons, advance, List.cons_append, next_inLine (inLine _ List.mem_cons_self),
      inductionHypothesis fun other member => inLine other (List.mem_cons_of_mem _ member)]
    rw [Spot.right, Spot.right, Spot.right, Nat.add_assoc, Nat.add_assoc, Nat.add_comm 1]

theorem isInLine_blank : IsInLine ' ' :=
  ⟨rfl, by decide⟩

theorem advance_blanks (count : Nat) :
    (spot.cursor (blanks count ++ rest)).advance count = (spot.right count).cursor rest := by
  have passed := @advance_inLine spot rest (blanks count) fun character member => by
    rw [List.eq_of_mem_replicate member]
    exact isInLine_blank
  rwa [List.length_replicate] at passed

/-- A line end and the indentation after it are passed. -/
theorem advance_line (spot : Spot) (characters : List Char) (count : Nat) (rest : List Char) :
    ∃ later : Spot, (spot.cursor (characters ++ '\n' :: (blanks count ++ rest))).advance
        (characters.length + (1 + count)) = later.cursor rest ∧
      later.column = count ∧ spot.line < later.line := by
  obtain ⟨later, reached, further⟩ :=
    advance_cursor spot characters ('\n' :: (blanks count ++ rest))
  refine ⟨later.below.right count, ?_, Nat.zero_add count, Nat.lt_succ_of_le further⟩
  rw [advance_append, reached, advance_append, advance, next_newline]
  exact advance_blanks count

theorem moveTo_append (characters rest : List Char) :
    (spot.cursor (characters ++ rest)).moveTo rest =
      (spot.cursor (characters ++ rest)).advance characters.length := by
  rw [moveTo]
  congr 1
  show (characters ++ rest).length - rest.length = _
  rw [List.length_append, Nat.add_sub_cancel]

/-- A scan that goes on behind some characters. -/
theorem moveTo_cursor (spot : Spot) (characters rest : List Char) :
    ∃ later : Spot, (spot.cursor (characters ++ rest)).moveTo rest = later.cursor rest ∧
      spot.line ≤ later.line := by
  rw [moveTo_append]
  exact advance_cursor spot characters rest

/-- A scan that goes on in a new line. -/
theorem moveTo_line (spot : Spot) (characters : List Char) (count : Nat) (rest : List Char) :
    ∃ later : Spot, (spot.cursor (characters ++ '\n' :: (blanks count ++ rest))).moveTo rest =
        later.cursor rest ∧ later.column = count ∧ spot.line < later.line := by
  obtain ⟨later, reached, here, further⟩ := advance_line spot characters count rest
  refine ⟨later, ?_, here, further⟩
  rw [moveTo, ← reached]
  congr 1
  show (characters ++ '\n' :: (blanks count ++ rest)).length - rest.length = _
  rw [List.length_append, List.length_cons, List.length_append, List.length_replicate]
  omega

end Cursor

/-! ### Scans -/

namespace Scan

/-- What a step does after white space. -/
def act (scan : Scan) : Except ReadError (Scan × Bool) := do
  let closed := scan.outdent scan.cursor.column
  match closed.rest with
  | [] =>
    let done ← (closed.outdent (-1)).forgetPlace
    return (done, true)
  | first :: rest =>
    let next ← closed.token first rest
    return (← next.forgetStale, false)

theorem step_eq (scan : Scan) : scan.step = scan.toNextToken.forgetStale >>= act :=
  rfl

/-- Whether a scan that stands at a token reads these tokens in all. -/
inductive Leads : Scan → List Token → Prop where
  | ended {scan done : Scan} {read : List Token} (acts : scan.act = .ok (done, true))
    (all : done.tokens.reverse = read) : Leads scan read
  | on {scan next fresh : Scan} {read : List Token} (acts : scan.act = .ok (next, false))
    (skips : next.toNextToken.forgetStale = .ok fresh)
    (shorter : fresh.cursor.left < scan.cursor.left) (others : Leads fresh read) :
    Leads scan read

/-- Whether a scan that stands before white space reads these tokens in all. -/
def Proceeds (scan : Scan) (read : List Token) : Prop :=
  ∃ fresh, scan.toNextToken.forgetStale = .ok fresh ∧ fresh.cursor.left ≤ scan.cursor.left ∧
    Leads fresh read

theorem Proceeds.leads {scan next : Scan} {read : List Token} (proceeds : Proceeds next read)
    (acts : scan.act = .ok (next, false)) (shorter : next.cursor.left < scan.cursor.left) :
    Leads scan read := by
  obtain ⟨fresh, skips, notLonger, leads⟩ := proceeds
  exact .on acts skips (Nat.lt_of_le_of_lt notLonger shorter) leads

/-- A run reads the tokens that its scan leads to. -/
theorem run_of_leads {fresh : Scan} {read : List Token} (leads : Leads fresh read) {scan : Scan}
    (skips : scan.toNextToken.forgetStale = .ok fresh) {bound : Nat}
    (enough : fresh.cursor.left < bound) (settled : Nat) :
    scan.run bound settled = (read, none) := by
  induction leads generalizing scan bound settled with
  | @ended fresh done read acts all =>
    obtain ⟨bound, rfl⟩ := Nat.exists_eq_add_of_le' (show 1 ≤ bound by omega)
    have stepped : scan.step = .ok (done, true) := by
      rw [step_eq, skips]
      exact acts
    rw [run, stepped, ← all]
  | @on fresh next further read acts nextSkips shorter _ inductionHypothesis =>
    obtain ⟨bound, rfl⟩ := Nat.exists_eq_add_of_le' (show 1 ≤ bound by omega)
    have stepped : scan.step = .ok (next, false) := by
      rw [step_eq, skips]
      exact acts
    rw [run, stepped]
    exact inductionHypothesis nextSkips (by omega) _

/-- Two scans that do the same lead to the same tokens. -/
theorem Leads.congr {scan other : Scan} {read : List Token} (leads : Leads scan read)
    (acts : other.act = scan.act) (left : other.cursor.left = scan.cursor.left) :
    Leads other read := by
  cases leads with
  | ended overActs all => exact .ended (acts.trans overActs) all
  | on onActs skips shorter others => exact .on (acts.trans onActs) skips (left ▸ shorter) others

/-! ### Outside brackets -/

/-- A scan outside brackets: what is left of the text from a place on, the tokens read, and the
columns of the blocks around it. -/
def outside (rest : List Char) (spot : Spot) (tokens : List Token) (indent : Int)
    (outer : List Int) (free : Bool) (places : List KeyPlace) : Scan :=
  { cursor := spot.cursor rest, tokens := tokens, count := tokens.length, indent := indent
    outer := outer, level := 0, mayStartKey := free, places := places }

variable {rest next tail : List Char} {spot : Spot} {tokens read : List Token} {indent : Int}
  {outer : List Int} {free : Bool} {places : List KeyPlace}

/-- Whether places of keys are of no use any more on a line. -/
def AreIdle (line : Nat) (places : List KeyPlace) : Prop :=
  ∀ place ∈ places, place.required = false ∧ place.line < line

theorem AreIdle.optional {line : Nat} {places : List KeyPlace} (idle : AreIdle line places) :
    ∀ place ∈ places, place.required = false :=
  fun place member => (idle place member).1

theorem AreIdle.mono {line : Nat} {places fewer : List KeyPlace} (idle : AreIdle line places)
    (within : ∀ place ∈ fewer, place ∈ places) : AreIdle line fewer :=
  fun place member => idle place (within place member)

theorem forgetStale_of_idle (scan : Scan) (idle : AreIdle scan.cursor.line scan.places) :
    scan.forgetStale = .ok { scan with places := [] } := by
  have stale (place : KeyPlace) (member : place ∈ scan.places) :
      (decide (place.line ≠ scan.cursor.line) ||
        decide (scan.cursor.index - place.index > keyLimit)) = true := by
    have earlier := (idle place member).2
    rw [decide_eq_true (by omega), Bool.true_or]
  rw [forgetStale]
  dsimp only
  rw [if_neg, List.filter_eq_nil_iff.mpr]
  · intro place member
    rw [stale place member]
    decide
  · rw [List.any_eq_true]
    rintro ⟨place, member, lost⟩
    rw [(idle place member).1, Bool.and_false] at lost
    cases lost

/-- Places that are not required are forgotten or kept. -/
theorem forgetStale_of_optional (scan : Scan)
    (optional : ∀ place ∈ scan.places, place.required = false) :
    ∃ places, scan.forgetStale = .ok { scan with places := places } ∧
      ∀ place ∈ places, place ∈ scan.places := by
  rw [forgetStale]
  dsimp only
  rw [if_neg]
  · exact ⟨_, rfl, fun place member => (List.mem_filter.mp member).1⟩
  · rw [List.any_eq_true]
    rintro ⟨place, member, lost⟩
    rw [optional place member, Bool.and_false] at lost
    cases lost

theorem forgetPlace_of_optional (scan : Scan)
    (optional : ∀ place ∈ scan.places, place.required = false) :
    ∃ places, scan.forgetPlace = .ok { scan with places := places } ∧
      ∀ place ∈ places, place ∈ scan.places := by
  rw [forgetPlace, if_neg]
  · exact ⟨_, rfl, fun place member => (List.mem_filter.mp member).1⟩
  · rw [List.any_eq_true]
    rintro ⟨place, member, lost⟩
    rw [optional place member, Bool.and_false] at lost
    cases lost

/-! ### White space -/

/-- Whether a text is over or goes on with a token. -/
structure Rests (text : List Char) : Prop where
  noBlank : text.head? ≠ some ' '
  noComment : text.head? ≠ some '#'
  noMark : text.head? ≠ some byteOrderMark
  noBreak : lineBreak? text = none

theorem skipLines_blanks (rests : Rests next) (bound count : Nat) :
    skipLines (bound + 1) (outside (blanks count ++ next) spot tokens indent outer free places) =
      outside next (spot.right count) tokens indent outer free places := by
  have onlyBlanks : ∀ character ∈ blanks count, decide (character = ' ') = true := by
    intro character member
    rw [List.eq_of_mem_replicate member]
    rfl
  have stops : next.takeWhile (· = ' ') = [] := by
    cases next with
    | nil => rfl
    | cons first others =>
      rw [List.takeWhile_cons, decide_eq_false fun same => rests.noBlank (congrArg some same)]
      rfl
  have passed : (outside (blanks count ++ next) spot tokens indent outer free places).passWhile
      (· = ' ') = outside next (spot.right count) tokens indent outer free places := by
    rw [passWhile, Cursor.advanceWhile]
    show { outside (blanks count ++ next) spot tokens indent outer free places with
      cursor := (spot.cursor (blanks count ++ next)).advance
        ((blanks count ++ next).takeWhile (· = ' ')).length } = _
    rw [List.takeWhile_append_of_pos onlyBlanks, stops, List.append_nil, List.length_replicate,
      Cursor.advance_blanks]
    rfl
  have atToken : (outside next (spot.right count) tokens indent outer free places).rest = next :=
    rfl
  rw [skipLines, passed, atToken, if_neg rests.noComment, atToken, rests.noBreak]

/-- A text without a byte-order mark in front of it. -/
theorem toNextToken_eq {scan : Scan} (noMark : scan.rest.head? ≠ some byteOrderMark) :
    scan.toNextToken = skipLines scan.bound scan := by
  rw [toNextToken]
  split
  · rename_i first others _ isText
    rw [if_neg]
    rintro rfl
    rw [isText] at noMark
    exact noMark rfl
  · rfl

/-- Where a token stands nothing is skipped. -/
theorem toNextToken_of_rests {scan : Scan} (rests : Rests scan.rest) : scan.toNextToken = scan := by
  have stays : scan.passWhile (· = ' ') = scan := by
    have stops : scan.cursor.rest.takeWhile (· = ' ') = [] := by
      cases isText : scan.cursor.rest with
      | nil => rfl
      | cons first others =>
        have noBlank : first ≠ ' ' := by
          rintro rfl
          exact rests.noBlank (congrArg List.head? isText)
        rw [List.takeWhile_cons, decide_eq_false noBlank]
        rfl
    rw [passWhile, Cursor.advanceWhile, stops]
    rfl
  rw [toNextToken_eq rests.noMark, bound, skipLines, stays, if_neg rests.noComment, rests.noBreak]

/-- Blanks before a token are skipped. -/
theorem toNextToken_blanks (rests : Rests next) (count : Nat) :
    (outside (blanks count ++ next) spot tokens indent outer free places).toNextToken =
      outside next (spot.right count) tokens indent outer free places := by
  rw [toNextToken_eq]
  · exact skipLines_blanks rests _ count
  · cases count with
    | zero => exact rests.noMark
    | succ count => exact fun same => absurd (Option.some.inj same) (by decide)

/-- A line end before a token is skipped with the indentation after it. A key may begin there. -/
theorem toNextToken_line (rests : Rests next) (count : Nat) :
    (outside ('\n' :: (blanks count ++ next)) spot tokens indent outer free places).toNextToken =
      outside next (spot.below.right count) tokens indent outer true places := by
  rw [toNextToken_eq]
  · have stays : (outside ('\n' :: (blanks count ++ next)) spot tokens indent outer free
        places).passWhile (· = ' ') =
          outside ('\n' :: (blanks count ++ next)) spot tokens indent outer free places := by
      rw [passWhile, Cursor.advanceWhile]
      rfl
    have atBreak : (outside ('\n' :: (blanks count ++ next)) spot tokens indent outer free
        places).rest = '\n' :: (blanks count ++ next) := rfl
    have ends : lineBreak? ('\n' :: (blanks count ++ next)) = some ('\n', blanks count ++ next) := rfl
    have passed : (outside ('\n' :: (blanks count ++ next)) spot tokens indent outer free
        places).pass 1 =
          outside (blanks count ++ next) spot.below tokens indent outer free places := rfl
    have enough : (outside ('\n' :: (blanks count ++ next)) spot tokens indent outer free
        places).cursor.left = (blanks count ++ next).length + 1 := rfl
    have one : breakLength ('\n' :: (blanks count ++ next)) = 1 := rfl
    rw [bound, skipLines, stays, atBreak, if_neg (by simp), atBreak, ends, one, passed, enough]
    exact skipLines_blanks rests (blanks count ++ next).length count
  · exact fun same => absurd (Option.some.inj same) (by decide)

/-! ### Blocks -/

/-- A token that is not further left than its block closes none. -/
theorem outdent_of_le {scan : Scan} {column : Int} (inside : scan.indent ≤ column) :
    scan.outdent column = scan := by
  rw [outdent]
  split
  · rfl
  · cases outers : scan.outer with
    | nil => rfl
    | cons around further => rw [closeBlocks, if_neg (by omega)]

theorem act_of_token {scan step last : Scan} {first : Char} {others : List Char}
    (isText : scan.rest = first :: others) (stays : scan.outdent scan.cursor.column = scan)
    (isToken : scan.token first others = .ok step) (forgets : step.forgetStale = .ok last) :
    scan.act = .ok (last, false) := by
  rw [act, stays, isText]
  show (scan.token first others >>=
    fun next => next.forgetStale >>= fun later => Except.ok (later, false)) = _
  rw [isToken]
  show (step.forgetStale >>= fun later => Except.ok (later, false)) = _
  rw [forgets]
  rfl

theorem act_outside {first : Char} {others : List Char} {step last : Scan}
    (inside : indent ≤ spot.column)
    (isToken : (outside (first :: others) spot tokens indent outer free places).token first others =
      .ok step) (forgets : step.forgetStale = .ok last) :
    (outside (first :: others) spot tokens indent outer free places).act = .ok (last, false) :=
  act_of_token rfl (outdent_of_le inside) isToken forgets

/-- A block that the next token is left of ends before it. -/
theorem Leads.close
    (leads : Leads (outside next spot (.blockEnd :: tokens) indent outer free []) read)
    {column : Nat} (left : spot.column < column) :
    Leads (outside next spot tokens column (indent :: outer) free []) read := by
  refine leads.congr ?_ rfl
  have closes : (outside next spot tokens column (indent :: outer) free []).outdent spot.column =
      (outside next spot (.blockEnd :: tokens) indent outer free []).outdent spot.column := by
    show closeBlocks _ (outside next spot tokens column (indent :: outer) free []) (indent :: outer) =
      closeBlocks _ _ outer
    rw [closeBlocks, if_pos]
    · rfl
    · show (spot.column : Int) < column
      omega
  unfold act
  dsimp only
  rw [show (outside next spot tokens column (indent :: outer) free []).cursor.column = spot.column
    from rfl, closes]
  rfl

/-- At the end of a text its outermost block ends. -/
theorem leads_end :
    Leads (outside [] spot tokens 0 [-1] free []) (tokens.reverse ++ [.blockEnd]) := by
  have stays : (outside [] spot tokens 0 [-1] free []).outdent spot.column =
      outside [] spot tokens 0 [-1] free [] := outdent_of_le (Int.natCast_nonneg _)
  have closes : (outside [] spot tokens 0 [-1] free []).outdent (-1) =
      outside [] spot (.blockEnd :: tokens) (-1) [] free [] := rfl
  refine @Leads.ended _ (outside [] spot (.blockEnd :: tokens) (-1) [] free []) _ ?_ ?_
  · unfold act
    rw [show (outside [] spot tokens 0 [-1] free []).cursor.column = spot.column from rfl, stays]
    rfl
  · exact List.reverse_cons

/-- Whether a mark or a key in a column opens a block or goes on with the current one. -/
inductive Opens (token : Token) (tokens : List Token) (indent : Int) (outer : List Int)
    (column : Nat) : List Token → List Int → Prop where
  | deeper (further : indent < column) :
    Opens token tokens indent outer column (token :: tokens) (indent :: outer)
  | same (here : indent = column) : Opens token tokens indent outer column tokens outer

variable {token : Token} {opened : List Token} {around : List Int}

theorem Opens.inside {column : Nat} (opens : Opens token tokens indent outer column opened around) :
    indent ≤ column := by
  cases opens with
  | deeper further => exact Int.le_of_lt further
  | same here => exact Int.le_of_eq here

theorem openHere_outside (opens : Opens token tokens indent outer spot.column opened around) :
    (outside rest spot tokens indent outer free places).openHere token =
      outside rest spot opened spot.column around free places := by
  cases opens with
  | deeper further =>
    rw [openHere, openBlock?, if_pos]
    · rfl
    · exact further
  | same here =>
    rw [openHere, openBlock?, if_neg, ← here]
    show ¬indent < spot.column
    omega

end Scan

end Taskbook.Yaml
