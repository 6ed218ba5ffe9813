/-
How marks, keys and scalars are recognised.

A text resumes behind a node on a new line that is not further right than the block it stands in.
Whatever a scalar or a pair of brackets leaves behind, the scan stands there as if a key could begin,
and no place before it counts. A key on one line is recognised by its colon: the place where it began
is remembered until then, and the marks go in front of it.
-/

import Taskbook.Proofs.Yaml.Scanning

namespace Taskbook.Yaml

open Sheet (blanks)

namespace Scan

variable {rest next tail : List Char} {spot : Spot} {tokens opened read : List Token} {indent : Int}
  {outer around : List Int} {free : Bool} {places : List KeyPlace}

@[simp]
theorem rest_outside : (outside rest spot tokens indent outer free places).rest = rest :=
  rfl

@[simp]
theorem inFlow_outside : (outside rest spot tokens indent outer free places).inFlow = false :=
  rfl

@[simp]
theorem column_outside :
    (outside rest spot tokens indent outer free places).cursor.column = spot.column :=
  rfl

/-! ### Marks -/

theorem isMark_of_ne {first character : Char} (other : first ≠ character) (rest : List Char) :
    isMark character (first :: rest) = false := by
  match rest with
  | [] => rfl
  | [second] => rfl
  | second :: third :: others => simp [isMark, other]

/-- The mark of an item is no mark of a document. -/
theorem isMark_hyphen (character : Char) (rest : List Char) :
    isMark character ('-' :: ' ' :: rest) = false := by
  cases rest with
  | nil => rfl
  | cons third others =>
    by_cases hyphen : character = '-'
    · simp [isMark, hyphen]
    · exact isMark_of_ne (Ne.symm hyphen) _

/-- A question mark before a key that is no simple one. -/
theorem leads_question
    (opens : Opens .blockMappingStart tokens indent outer spot.column opened around)
    (proceeds : Proceeds (outside (' ' :: rest) (spot.right 1) (.key :: opened) spot.column around
      true []) read) :
    Leads (outside ('?' :: ' ' :: rest) spot tokens indent outer true []) read := by
  have dispatched : (outside ('?' :: ' ' :: rest) spot tokens indent outer true []).token '?'
      (' ' :: rest) = (outside ('?' :: ' ' :: rest) spot tokens indent outer true []).keyMark := by
    simp [Scan.token, isMark_of_ne, endsWord, isSpaceOrBreak, isSpace]
  have isToken : (outside ('?' :: ' ' :: rest) spot tokens indent outer true []).token '?'
      (' ' :: rest) = .ok (outside (' ' :: rest) (spot.right 1) (.key :: opened) spot.column around
        true []) := by
    rw [dispatched, keyMark, openHere_outside opens]
    rfl
  exact proceeds.leads (act_outside opens.inside isToken rfl) (Nat.lt_succ_self _)

/-- A colon after a key that is no simple one. -/
theorem leads_colon (here : indent = spot.column)
    (proceeds : Proceeds (outside (' ' :: rest) (spot.right 1) (.value :: tokens) indent outer
      true []) read) :
    Leads (outside (':' :: ' ' :: rest) spot tokens indent outer true []) read := by
  have dispatched : (outside (':' :: ' ' :: rest) spot tokens indent outer true []).token ':'
      (' ' :: rest) = (outside (':' :: ' ' :: rest) spot tokens indent outer true []).valueMark := by
    simp [Scan.token, isMark_of_ne, endsWord, isSpaceOrBreak, isSpace]
  have isToken : (outside (':' :: ' ' :: rest) spot tokens indent outer true []).token ':'
      (' ' :: rest) = .ok (outside (' ' :: rest) (spot.right 1) (.value :: tokens) spot.column outer
        true []) := by
    show _ = Except.ok _
    rw [dispatched]
    show (do
      if !false && !true then throw ReadError.malformed
      let cleared ← (((outside (':' :: ' ' :: rest) spot tokens indent outer true []).openHere
        .blockMappingStart).allowKey true).forgetPlace
      return cleared.mark .value) = _
    rw [openHere_outside (.same here)]
    rfl
  rw [← here] at isToken
  exact proceeds.leads (act_outside (Int.le_of_eq here) isToken rfl) (Nat.lt_succ_self _)

/-- The mark of an item. -/
theorem leads_hyphen (here : indent = spot.column)
    (proceeds : Proceeds (outside (' ' :: rest) (spot.right 1) (.blockEntry :: tokens) indent outer
      true []) read) :
    Leads (outside ('-' :: ' ' :: rest) spot tokens indent outer true []) read := by
  have dispatched : (outside ('-' :: ' ' :: rest) spot tokens indent outer true []).token '-'
      (' ' :: rest) = (outside ('-' :: ' ' :: rest) spot tokens indent outer true []).itemMark := by
    simp [Scan.token, isMark_hyphen, endsWord, isSpaceOrBreak, isSpace]
  have isToken : (outside ('-' :: ' ' :: rest) spot tokens indent outer true []).token '-'
      (' ' :: rest) = .ok (outside (' ' :: rest) (spot.right 1) (.blockEntry :: tokens) spot.column
        outer true []) := by
    rw [dispatched, itemMark]
    show (do
      if !false && !true then throw ReadError.malformed
      let cleared ← (((outside ('-' :: ' ' :: rest) spot tokens indent outer true []).openHere
        .blockSequenceStart).allowKey true).forgetPlace
      return cleared.mark .blockEntry) = _
    rw [openHere_outside (.same here)]
    rfl
  rw [← here] at isToken
  exact proceeds.leads (act_outside (Int.le_of_eq here) isToken rfl) (Nat.lt_succ_self _)

/-! ### Going on -/

theorem Leads.proceeds (rests : Rests next)
    (leads : Leads (outside next spot tokens indent outer free []) read) :
    Proceeds (outside next spot tokens indent outer free []) read := by
  have stays : (outside next spot tokens indent outer free []).toNextToken =
      outside next spot tokens indent outer free [] := toNextToken_of_rests rests
  refine ⟨_, ?_, Nat.le_refl _, leads⟩
  rw [stays]
  exact forgetStale_of_idle _ fun place member => by cases member

/-- Blanks before a token. -/
theorem Leads.blanks (rests : Rests next) (count : Nat)
    (leads : Leads (outside next (spot.right count) tokens indent outer free []) read) :
    Proceeds (outside (blanks count ++ next) spot tokens indent outer free []) read := by
  refine ⟨outside next (spot.right count) tokens indent outer free [], ?_, ?_, leads⟩
  · rw [toNextToken_blanks rests]
    exact forgetStale_of_idle _ fun place member => by cases member
  · show next.length ≤ (Sheet.blanks count ++ next).length
    rw [List.length_append]
    omega

/-- Whether a scan that comes to the end of a node in a block reads these tokens in all: the text
goes on in a line that is not further right, or is over. -/
def Resumes (tail : List Char) (tokens : List Token) (indent : Int) (outer : List Int)
    (read : List Token) : Prop :=
  ∃ count next, tail = '\n' :: (blanks count ++ next) ∧ (count : Int) ≤ indent ∧ Rests next ∧
    isDocumentMark (blanks count ++ next) = false ∧
    ∀ spot : Spot, spot.column = count → Leads (outside next spot tokens indent outer true []) read

theorem Resumes.close (resumes : Resumes tail (.blockEnd :: tokens) indent outer read)
    {column : Nat} (further : indent < column) :
    Resumes tail tokens column (indent :: outer) read := by
  obtain ⟨count, next, isTail, inside, rests, unmarked, leads⟩ := resumes
  exact ⟨count, next, isTail, by omega, rests, unmarked, fun spot here =>
    (leads spot here).close (by omega)⟩

/-- A line end and indentation before a token. -/
theorem proceeds_line (rests : Rests next) {count : Nat}
    (leads : ∀ later : Spot, later.column = count →
      Leads (outside next later tokens indent outer true []) read)
    (idle : AreIdle (spot.line + 1) places) :
    Proceeds (outside ('\n' :: (blanks count ++ next)) spot tokens indent outer free places) read := by
  refine ⟨outside next (spot.below.right count) tokens indent outer true [], ?_, ?_,
    leads _ (Nat.zero_add count)⟩
  · rw [toNextToken_line rests]
    exact forgetStale_of_idle _ idle
  · show next.length ≤ ('\n' :: (blanks count ++ next)).length
    rw [List.length_cons, List.length_append]
    omega

theorem Resumes.proceeds (resumes : Resumes tail tokens indent outer read)
    (idle : AreIdle (spot.line + 1) places) :
    Proceeds (outside tail spot tokens indent outer free places) read := by
  obtain ⟨count, next, rfl, inside, rests, unmarked, leads⟩ := resumes
  exact proceeds_line rests leads idle

theorem Resumes.head? (resumes : Resumes tail tokens indent outer read) :
    tail.head? = some '\n' := by
  obtain ⟨count, next, rfl, -⟩ := resumes
  rfl

/-! ### Places of keys -/

/-- The place of a key that may begin here. -/
def placeHere (spot : Spot) (tokens : List Token) (indent : Int) : KeyPlace :=
  { level := 0, number := tokens.length, required := decide (indent = spot.column)
    index := spot.index, line := spot.line, column := spot.column }

theorem rememberPlace_outside :
    (outside rest spot tokens indent outer free []).rememberPlace =
      .ok (outside rest spot tokens indent outer free
        (if free then [placeHere spot tokens indent] else [])) := by
  cases free with
  | true => rfl
  | false => rfl

theorem areIdle_placeHere (inside : indent < spot.column) {line : Nat} (later : spot.line < line) :
    AreIdle line (if free then [placeHere spot tokens indent] else []) := by
  intro place member
  split at member
  · rw [List.mem_singleton.mp member]
    exact ⟨decide_eq_false (by omega), later⟩
  · cases member

/-! ### Scalars -/

theorem startsPlain_of_start {first : Char} (start : IsPlainStart first rest) :
    startsPlain false first rest = true := by
  obtain ⟨noIndicator, solid, -, joined⟩ := start
  simp only [isIndicator, Bool.or_eq_false_iff, decide_eq_false_iff_not] at noIndicator
  rw [startsPlain]
  split
  · rw [joined (by tauto)]
    rfl
  · split
    · rename_i mark
      rw [joined (by simp at mark; tauto)]
      rfl
    · rw [solid, noIndicator.1, decide_eq_false noIndicator.2]
      rfl

theorem token_plain {first : Char} (start : IsPlainStart first rest)
    (unmarked : spot.column = 0 → isDocumentMark (first :: rest) = false) :
    (outside (first :: rest) spot tokens indent outer free places).token first rest =
      (outside (first :: rest) spot tokens indent outer free places).plainText := by
  have marks : (decide (spot.column = 0) && isMark '-' (first :: rest)) = false ∧
      (decide (spot.column = 0) && isMark '.' (first :: rest)) = false := by
    by_cases atMargin : spot.column = 0
    · have neither := unmarked atMargin
      rw [isDocumentMark, Bool.or_eq_false_iff] at neither
      rw [neither.1, neither.2, Bool.and_false]
      exact ⟨rfl, rfl⟩
    · rw [decide_eq_false atMargin]
      exact ⟨rfl, rfl⟩
  have goesOn (mark : Char) (among : mark = '?' ∨ mark = ':' ∨ mark = '-') :
      (decide (first = mark) && endsWord rest) = false := by
    by_cases same : first = mark
    · rw [start.joined (same ▸ among), Bool.and_false]
    · rw [decide_eq_false same, Bool.false_and]
  have plainly := startsPlain_of_start start
  have noIndicator := start.noIndicator
  simp [isIndicator] at noIndicator
  rw [Scan.token, rest_outside, inFlow_outside, column_outside]
  simp [marks, goesOn, noIndicator, plainly]

theorem token_quoted {first : Char} (isQuote : first = '"' ∨ first = quote) :
    (outside (first :: rest) spot tokens indent outer free places).token first rest =
      (outside (first :: rest) spot tokens indent outer free places).quotedText first := by
  rcases isQuote with rfl | rfl
  · simp [Scan.token, isMark_of_ne]
  · simp +decide [Scan.token, isMark_of_ne]

/-- Without marks a text is spelled by its characters. -/
theorem spelled_of_unmarked {characters : List Char} (unmarked : Text.mark ∉ characters) :
    Text.spelled characters = characters := by
  induction characters with
  | nil => rfl
  | cons first others inductionHypothesis =>
    rw [List.mem_cons, not_or] at unmarked
    rw [Text.spelled, List.flatMap_cons, Text.spelling, if_neg (Ne.symm unmarked.1)]
    exact congrArg (first :: ·) (inductionHypothesis unmarked.2)

theorem plainText_outside (tokens : List Token) (outer : List Int) (free : Bool) {words : Words}
    {later : Spot}
    (isWords : plainScalar (rest.length + 1) false (indent + 1) rest = words)
    (moved : (spot.cursor rest).moveTo words.rest = later.cursor words.rest) :
    (outside rest spot tokens indent outer free []).plainText =
      .ok (outside words.rest later
        (.scalar true (String.ofList (Text.spelled words.text)) :: tokens) indent outer
        words.brokeLine (if free then [placeHere spot tokens indent] else [])) := by
  have sameWords : plainScalar (outside rest spot tokens indent outer free []).bound
      (outside rest spot tokens indent outer free []).inFlow
      ((outside rest spot tokens indent outer free []).indent + 1)
      (outside rest spot tokens indent outer free []).rest = words := isWords
  rw [plainText, rememberPlace_outside, sameWords]
  show Except.ok (emit { outside rest spot tokens indent outer words.brokeLine
    (if free then [placeHere spot tokens indent] else []) with
      cursor := (spot.cursor rest).moveTo words.rest } _) = _
  rw [moved]
  rfl

theorem quotedText_outside (tokens : List Token) (indent : Int) (outer : List Int) (free : Bool)
    {first : Char} {characters : List Char} {later : Spot}
    (isText : quotedScalar ((first :: rest).length + 1) first rest = .ok (characters, next))
    (moved : (spot.cursor (first :: rest)).moveTo next = later.cursor next) :
    (outside (first :: rest) spot tokens indent outer free []).quotedText first =
      .ok (outside next later (.scalar false (String.ofList characters) :: tokens) indent outer
        false (if free then [placeHere spot tokens indent] else [])) := by
  have sameText : quotedScalar (outside (first :: rest) spot tokens indent outer free []).bound
      first ((outside (first :: rest) spot tokens indent outer free []).rest.drop 1) =
        .ok (characters, next) := isText
  rw [quotedText, rememberPlace_outside, sameText]
  show Except.ok (emit { outside (first :: rest) spot tokens indent outer false
    (if free then [placeHere spot tokens indent] else []) with
      cursor := (spot.cursor (first :: rest)).moveTo next } _) = _
  rw [moved]
  rfl

/-- A text without quotes is read, and so is what follows it. -/
theorem leads_plain {first : Char} {others characters : List Char}
    (start : IsPlainStart first others)
    (reads : ReadsWords (indent + 1) (first :: others) characters)
    (unmarked : Text.mark ∉ characters) (inside : indent < spot.column)
    (apart : 0 < spot.column)
    (resumes : Resumes tail (.scalar true (String.ofList characters) :: tokens) indent outer read) :
    Leads (outside (first :: (others ++ tail)) spot tokens indent outer free []) read := by
  obtain ⟨count, next, rfl, near, rests, noMark, leads⟩ := resumes
  have words : plainScalar ((first :: (others ++ '\n' :: (blanks count ++ next))).length + 1) false
      (indent + 1) (first :: (others ++ '\n' :: (blanks count ++ next))) =
        ⟨characters, next, true⟩ :=
    reads _ next true (ends_line (by omega) rests.noBlank rests.noBreak noMark) _ ⟨[], _, none⟩ rfl
      (Nat.lt_succ_self _)
  obtain ⟨later, moved, here, below⟩ := Cursor.moveTo_line spot (first :: others) count next
  have isToken := plainText_outside tokens outer free words moved
  rw [← token_plain (start.append _) (fun atMargin => by omega)] at isToken
  dsimp only at isToken
  rw [spelled_of_unmarked unmarked] at isToken
  have forgets := forgetStale_of_idle (outside next later
    (.scalar true (String.ofList characters) :: tokens) indent outer true
    (if free then [placeHere spot tokens indent] else [])) (areIdle_placeHere inside below)
  refine ((leads later here).proceeds rests).leads
    (act_outside (Int.le_of_lt inside) isToken forgets) ?_
  show next.length < (first :: (others ++ '\n' :: (blanks count ++ next))).length
  rw [List.length_cons, List.length_append, List.length_cons, List.length_append]
  omega

/-- A text between quotes is read, and so is what follows it. -/
theorem leads_quoted {first : Char} {body characters : List Char}
    (isQuote : first = '"' ∨ first = quote)
    (reads : ∀ bound, (body ++ tail).length < bound →
      quotedScalar bound first (body ++ tail) = .ok (characters, tail))
    (inside : indent < spot.column)
    (resumes : Resumes tail (.scalar false (String.ofList characters) :: tokens) indent outer read) :
    Leads (outside (first :: (body ++ tail)) spot tokens indent outer free []) read := by
  obtain ⟨later, moved, notBefore⟩ := Cursor.moveTo_cursor spot (first :: body) tail
  have isToken := quotedText_outside tokens indent outer free
    (reads _ (by rw [List.length_cons]; omega)) moved
  rw [← token_quoted isQuote] at isToken
  obtain ⟨places, forgets, among⟩ := forgetStale_of_optional (outside tail later
    (.scalar false (String.ofList characters) :: tokens) indent outer false
    (if free then [placeHere spot tokens indent] else [])) fun place member =>
      (areIdle_placeHere inside (Nat.lt_succ_self _) place member).1
  refine Proceeds.leads (resumes.proceeds fun place member => ?_)
    (act_outside (Int.le_of_lt inside) isToken forgets) ?_
  · exact areIdle_placeHere inside (Nat.lt_succ_of_le notBefore) place (among place member)
  · show tail.length < (first :: (body ++ tail)).length
    rw [List.length_cons, List.length_append]
    omega

/-! ### Brackets -/

/-- A pair of brackets with nothing between them: its characters and its tokens. -/
inductive IsPair : Char → Char → Token → Token → Prop where
  | sequence : IsPair '[' ']' .flowSequenceStart .flowSequenceEnd
  | mapping : IsPair '\x7b' '\x7d' .flowMappingStart .flowMappingEnd

/-- A scan between brackets. -/
def between (rest : List Char) (spot : Spot) (tokens : List Token) (indent : Int)
    (outer : List Int) (places : List KeyPlace) : Scan :=
  { outside rest spot tokens indent outer true places with level := 1 }

@[simp]
theorem rest_between : (between rest spot tokens indent outer places).rest = rest :=
  rfl

section

variable {first last : Char} {start ending : Token} {places : List KeyPlace}

theorem IsPair.rests (pair : IsPair first last start ending) (tail : List Char) :
    Rests (last :: tail) := by
  cases pair with
  | sequence => exact ⟨by simp, by simp, by simp +decide, rfl⟩
  | mapping => exact ⟨by simp, by simp, by simp +decide, rfl⟩

theorem token_opening (pair : IsPair first last start ending) :
    (outside (first :: last :: tail) spot tokens indent outer free []).token first (last :: tail) =
      .ok (between (last :: tail) (spot.right 1) (start :: tokens) indent outer
        (if free then [placeHere spot tokens indent] else [])) := by
  have dispatched : (outside (first :: last :: tail) spot tokens indent outer free []).token first
      (last :: tail) =
        (outside (first :: last :: tail) spot tokens indent outer free []).flowStart start := by
    cases pair with
    | sequence => simp [Scan.token, isMark_of_ne]
    | mapping => simp [Scan.token, isMark_of_ne]
  rw [dispatched, flowStart, rememberPlace_outside]
  cases pair with
  | sequence => rfl
  | mapping => rfl

theorem token_closing (pair : IsPair first last start ending)
    (optional : ∀ place ∈ places, place.required = false) :
    ∃ left, (between (last :: tail) spot tokens indent outer places).token last tail =
        .ok (outside tail (spot.right 1) (ending :: tokens) indent outer false left) ∧
      ∀ place ∈ left, place ∈ places := by
  have dispatched : (between (last :: tail) spot tokens indent outer places).token last tail =
      (between (last :: tail) spot tokens indent outer places).flowEnd ending := by
    cases pair with
    | sequence => simp [Scan.token, isMark_of_ne]
    | mapping => simp [Scan.token, isMark_of_ne]
  obtain ⟨left, cleared, among⟩ :=
    forgetPlace_of_optional (between (last :: tail) spot tokens indent outer places) optional
  refine ⟨left, ?_, among⟩
  rw [dispatched, flowEnd, cleared]
  cases pair with
  | sequence => rfl
  | mapping => rfl

/-- The second bracket of a pair is read, and so is what follows it. -/
theorem leads_closing (pair : IsPair first last start ending)
    (idle : AreIdle (spot.line + 1) places)
    (resumes : Resumes tail (ending :: tokens) indent outer read) :
    Leads (between (last :: tail) spot tokens indent outer places) read := by
  obtain ⟨left, isLast, amongPlaces⟩ := token_closing pair idle.optional
  have idleLeft : AreIdle (spot.line + 1) left := idle.mono amongPlaces
  obtain ⟨final, forgets, amongLeft⟩ := forgetStale_of_optional
    (outside tail (spot.right 1) (ending :: tokens) indent outer false left) idleLeft.optional
  have proceeds : Proceeds
      (outside tail (spot.right 1) (ending :: tokens) indent outer false final) read :=
    resumes.proceeds (idleLeft.mono amongLeft)
  exact proceeds.leads (act_of_token rfl rfl isLast forgets) (Nat.lt_succ_self _)

/-- A pair of brackets is read, and so is what follows it. -/
theorem leads_pair (pair : IsPair first last start ending) (inside : indent < spot.column)
    (resumes : Resumes tail (ending :: start :: tokens) indent outer read) :
    Leads (outside (first :: last :: tail) spot tokens indent outer free []) read := by
  have idle := @areIdle_placeHere _ tokens _ free inside _ (Nat.lt_succ_self spot.line)
  -- The place of the pair itself is kept until the next line.
  obtain ⟨once, forgets, amongFirst⟩ := forgetStale_of_optional
    (between (last :: tail) (spot.right 1) (start :: tokens) indent outer
      (if free then [placeHere spot tokens indent] else [])) idle.optional
  have idleOnce : AreIdle (spot.line + 1) once := idle.mono amongFirst
  obtain ⟨twice, skips, amongOnce⟩ := forgetStale_of_optional
    (between (last :: tail) (spot.right 1) (start :: tokens) indent outer once) idleOnce.optional
  have stays : (between (last :: tail) (spot.right 1) (start :: tokens) indent outer
      once).toNextToken = between (last :: tail) (spot.right 1) (start :: tokens) indent outer once :=
    toNextToken_of_rests (pair.rests tail)
  have proceeds : Proceeds (between (last :: tail) (spot.right 1) (start :: tokens) indent outer
      once) read := by
    refine ⟨between (last :: tail) (spot.right 1) (start :: tokens) indent outer twice, ?_,
      Nat.le_refl _, leads_closing pair (idleOnce.mono amongOnce) resumes⟩
    rw [stays]
    exact skips
  exact proceeds.leads (act_outside (Int.le_of_lt inside) (token_opening pair) forgets)
    (Nat.lt_succ_self _)

end

/-! ### Keys on one line -/

/-- The place where a key began is kept while the key goes on. -/
theorem forgetStale_placeHere {later : Spot} (sameLine : later.line = spot.line)
    (near : later.index - spot.index ≤ keyLimit) {begun : List Token} {column : Int} :
    (outside rest later tokens indent outer free [placeHere spot begun column]).forgetStale =
      .ok (outside rest later tokens indent outer free [placeHere spot begun column]) := by
  have fresh : (decide ((placeHere spot begun column).line ≠ later.line) ||
      decide (later.index - (placeHere spot begun column).index > keyLimit)) = false := by
    show (decide (spot.line ≠ later.line) || decide (later.index - spot.index > keyLimit)) = false
    rw [decide_eq_false (not_not_intro sameLine.symm), decide_eq_false (by omega)]
    rfl
  rw [forgetStale]
  show (if ([placeHere spot begun column].any fun place => (decide (place.line ≠ later.line) ||
      decide (later.index - place.index > keyLimit)) && place.required) = true then _ else
    Except.ok { outside rest later tokens indent outer free [placeHere spot begun column] with
      places := [placeHere spot begun column].filter fun place =>
        !(decide (place.line ≠ later.line) || decide (later.index - place.index > keyLimit)) }) = _
  rw [List.any_cons, fresh, List.filter_cons, fresh]
  rfl

/-- The marks of a key, and of the block that it opens, go in front of it. -/
theorem closeKey_outside {later : Spot} {scalar : Token}
    (opens : Opens .blockMappingStart tokens indent outer spot.column opened around) :
    (outside (':' :: rest) later (scalar :: tokens) indent outer false
        [placeHere spot tokens indent]).closeKey (placeHere spot tokens indent) =
      outside rest (later.right 1) (.value :: scalar :: .key :: opened) spot.column around false
        [] := by
  have one : tokens.length + 1 - tokens.length = 1 := Nat.add_sub_cancel_left ..
  have two : tokens.length + 1 + 1 - tokens.length = 2 := by omega
  cases opens with
  | deeper further =>
    simp [closeKey, outside, inFlow, insert, placeHere, openBlock?, one, two, further, mark, emit,
      pass, allowKey]
    rfl
  | same here =>
    simp [closeKey, outside, inFlow, insert, placeHere, openBlock?, one, mark, emit, pass, allowKey,
      here]
    rfl

/-- The colon after a key on its line. -/
theorem leads_closingColon {later : Spot} {scalar : Token}
    (opens : Opens .blockMappingStart tokens indent outer spot.column opened around)
    (behind : indent ≤ later.column) (apart : endsWord rest = true)
    (proceeds : Proceeds (outside rest (later.right 1) (.value :: scalar :: .key :: opened)
      spot.column around false []) read) :
    Leads (outside (':' :: rest) later (scalar :: tokens) indent outer false
      [placeHere spot tokens indent]) read := by
  have isToken : (outside (':' :: rest) later (scalar :: tokens) indent outer false
      [placeHere spot tokens indent]).token ':' rest =
        .ok (outside rest (later.right 1) (.value :: scalar :: .key :: opened) spot.column around
          false []) := by
    have dispatched : (outside (':' :: rest) later (scalar :: tokens) indent outer false
        [placeHere spot tokens indent]).token ':' rest =
          (outside (':' :: rest) later (scalar :: tokens) indent outer false
            [placeHere spot tokens indent]).valueMark := by
      simp [Scan.token, isMark_of_ne, apart]
    rw [dispatched, ← closeKey_outside opens]
    rfl
  exact proceeds.leads (act_outside behind isToken rfl) (Nat.lt_succ_self _)

end Scan

end Taskbook.Yaml
