/-
Numerals of any length.

A number of a text may have any number of digits in a base other than ten. As the key of a mapping
it is read as the number that it stands for, which may have more decimal digits than can be
written. A power of sixteen is an example for each length.
-/

import Mathlib.Algebra.Group.Nat.Defs
import Taskbook.Proofs.Project.Contents
import Taskbook.Proofs.Text
import Taskbook.Proofs.Yaml.Making
import Taskbook.Proofs.Yaml.Recognizing
import Taskbook.Yaml.Reader

namespace Taskbook.Yaml

/-! ### The numeral -/

/-- A power of sixteen in base sixteen. -/
def numeral (count : Nat) : List Char :=
  '0' :: 'x' :: '1' :: List.replicate count '0'

variable {count : Nat}

theorem forall_numeral {holds : Char → Prop} (zero : holds '0') (mark : holds 'x')
    (one : holds '1') : ∀ character ∈ numeral count, holds character := by
  simp only [numeral, List.forall_mem_cons]
  exact ⟨zero, mark, one, fun character member => List.eq_of_mem_replicate member ▸ zero⟩

theorem splitPoint?_of_none {text : List Char} (none : ∀ character ∈ text, character ≠ '.') :
    splitPoint? text = Option.none := by
  induction text with
  | nil => rfl
  | cons first rest inductionHypothesis =>
    obtain ⟨noPoint, others⟩ := List.forall_mem_cons.mp none
    rw [splitPoint?, inductionHypothesis others]
    · rfl
    · exact noPoint

theorem plainTag_numeral (count : Nat) : plainTag (String.ofList (numeral count)) = .int := by
  have unbroken : dropFinalBreak (numeral count) = numeral count := by
    refine if_neg fun isLast => ?_
    exact @forall_numeral count (· ≠ '\n') (by decide) (by decide) (by decide) _
      (List.mem_of_getLast? isLast) rfl
  have noPoint : splitPoint? (numeral count) = none :=
    splitPoint?_of_none (forall_numeral (by decide) (by decide) (by decide))
  have isHexadecimal : isInteger (numeral count) = true := by
    have digits : (List.replicate count '0').all
        (fun digit => (hexValue? digit).isSome || digit = '_') = true :=
      List.all_eq_true.mpr fun digit member => List.eq_of_mem_replicate member ▸ rfl
    rw [numeral, isInteger]
    rw [List.all_cons, digits]
    rfl
  have noWord : isTruthWord (numeral count) = false := by
    simp [isTruthWord, numeral]
  have noFloat : isFloat (numeral count) = false := by
    have noPointed : isPointed (unsigned (numeral count)) = false := by
      show isPointed (numeral count) = false
      rw [isPointed, noPoint]
    rw [isFloat, noPointed]
    simp [isFraction, isInfinity, isNotANumber, unsigned, numeral]
  rw [plainTag, String.toList_ofList, unbroken, noWord, noFloat]
  show (if isInteger (numeral count) then Tag.int else _) = _
  rw [if_pos isHexadecimal]

theorem dropWhile_of_forall {text : List Char} {holds : Char → Bool}
    (none : ∀ character ∈ text, holds character = false) : text.dropWhile holds = text := by
  cases text with
  | nil => rfl
  | cons first rest =>
    exact List.dropWhile_cons_of_neg (by simpa using none first List.mem_cons_self)

theorem ofBaseDigits?_zeros (count total : Nat) :
    Number.ofBaseDigits? 16 total (List.replicate count '0') = some (total * 16 ^ count) := by
  induction count generalizing total with
  | zero => rw [Nat.pow_zero, Nat.mul_one]; rfl
  | succ count inductionHypothesis =>
    have step : Number.ofBaseDigits? 16 total (List.replicate (count + 1) '0') =
        Number.ofBaseDigits? 16 (total * 16 + 0) (List.replicate count '0') := rfl
    rw [step, inductionHypothesis, Nat.add_zero, Nat.mul_assoc, ← Nat.pow_succ']

theorem integer_numeral (count : Nat) :
    integer (numeral count) = .ok (.int (16 ^ count : Nat)) := by
  have signed : signedDigits (numeral count) = .ok (false, numeral count) := by
    have noLine : (numeral count).filter (· ≠ '_') = numeral count :=
      List.filter_eq_self.mpr (forall_numeral rfl rfl rfl)
    rw [signedDigits, noLine]
    rfl
  have unsigned : unsignedInteger (numeral count) = .ok (16 ^ count : Nat) := by
    have noBlank : ∀ character ∈ '1' :: List.replicate count '0',
        Text.isNumeralBlank character = false :=
      List.forall_mem_cons.mpr ⟨rfl, fun digit member => List.eq_of_mem_replicate member ▸ rfl⟩
    have trimmed : Text.numeralOf (String.ofList ('1' :: List.replicate count '0')) =
        '1' :: List.replicate count '0' := by
      rw [Text.numeralOf, String.toList_ofList, dropWhile_of_forall noBlank, dropWhile_of_forall,
        List.reverse_reverse]
      exact fun character member => noBlank character (List.mem_reverse.mp member)
    have isRead : Number.readInt? 16 (String.ofList ('1' :: List.replicate count '0')) =
        some ((16 ^ count : Nat) : Int) := by
      have digits := ofBaseDigits?_zeros count 1
      rw [Nat.one_mul] at digits
      rw [Number.readInt?, trimmed]
      show Option.map (fun size : Int => if false = true then -size else size)
        (Number.ofBaseDigits? 16 1 (List.replicate count '0') >>= fun size =>
          pure (size : Int)) = _
      rw [digits]
      rfl
    show orFaulty (Number.readInt? 16 (String.ofList ('1' :: List.replicate count '0')))
      .wrongValue = _
    rw [isRead]
    rfl
  rw [integer, signed, ok_bind]
  dsimp only
  rw [unsigned]
  rfl

/-! ### Its tokens -/

theorem isWord_numeral (count : Nat) : IsWord (numeral count) where
  filled := List.cons_ne_nil _ _
  solid := forall_numeral rfl rfl rfl
  last character isLast :=
    @forall_numeral count (· ≠ ':') (by decide) (by decide) (by decide) character
      (List.mem_of_getLast? isLast)

theorem rests_numeral (rest : List Char) : Scan.Rests (numeral count ++ rest) where
  noBlank := by simp [numeral]
  noComment := by simp [numeral]
  noMark := by simp [numeral, byteOrderMark]
  noBreak := rfl

theorem tokens_numeral (count : Nat) : tokens ('?' :: ' ' :: (numeral count ++ ['\n'])) =
    ([.blockMappingStart, .key, .scalar true (String.ofList (numeral count)), .blockEnd],
      none) := by
  have start : IsPlainStart '0' ('x' :: '1' :: List.replicate count '0') :=
    ⟨rfl, rfl, by decide, fun _ => rfl⟩
  have unmarked : Text.mark ∉ numeral count := fun member =>
    @forall_numeral count (· ≠ Text.mark) (by decide) (by decide) (by decide) _ member rfl
  have ends : Scan.Resumes ['\n'] [.scalar true (String.ofList (numeral count)), .key,
      .blockMappingStart] 0 [-1] [.blockMappingStart, .key,
        .scalar true (String.ofList (numeral count)), .blockEnd] :=
    ⟨0, [], rfl, Int.le_refl _, ⟨by simp, by simp, by simp, rfl⟩, rfl, fun spot _ => Scan.leads_end⟩
  -- The numeral stands in the third column of the only line.
  have scalar : Scan.Leads (Scan.outside (numeral count ++ ['\n']) ⟨2, 0, 2⟩
      [.key, .blockMappingStart] 0 [-1] true []) _ :=
    Scan.leads_plain start (readsWords_last _ (isWord_numeral count)) unmarked (by decide)
      (by decide) ends
  have key : Scan.Leads (Scan.outside ('?' :: ' ' :: (numeral count ++ ['\n'])) ⟨0, 0, 0⟩ [] (-1) []
      true []) _ :=
    Scan.leads_question (.deeper (by decide)) (scalar.blanks (rests_numeral _) 1)
  have stays : (Scan.outside ('?' :: ' ' :: (numeral count ++ ['\n'])) ⟨0, 0, 0⟩ [] (-1) [] true
      []).toNextToken = _ :=
    Scan.toNextToken_of_rests ⟨by simp [Scan.rest, Scan.outside, Spot.cursor],
      by simp [Scan.rest, Scan.outside, Spot.cursor],
      by simp [Scan.rest, Scan.outside, Spot.cursor, byteOrderMark], rfl⟩
  have begins : (Scan.start ('?' :: ' ' :: (numeral count ++ ['\n']))).toNextToken.forgetStale =
      .ok (Scan.outside ('?' :: ' ' :: (numeral count ++ ['\n'])) ⟨0, 0, 0⟩ [] (-1) [] true
        []) := by
    show (Scan.outside ('?' :: ' ' :: (numeral count ++ ['\n'])) ⟨0, 0, 0⟩ [] (-1) [] true
      []).toNextToken.forgetStale = _
    rw [stays]
    exact Scan.forgetStale_of_idle _ fun place member => by cases member
  exact Scan.run_of_leads key begins (Nat.lt_succ_self _) 0

/-! ### Its document -/

theorem ofTokens_key (text : String) :
    Node.ofTokens [.blockMappingStart, .key, .scalar true text, .blockEnd] none =
      .ok (some (.mapping none .map [(.scalar none (plainTag text) text, Read.absent)])) :=
  rfl

/-- The nodes of a text that holds one key, an integer, and no value. -/
def keyParts (text : String) : Array Part :=
  #[⟨.map, .mapping [(1, 2)]⟩, ⟨.int, .scalar text⟩, ⟨.null, .scalar ""⟩]

/-- What has been made of these nodes, and the collections that are to be filled. -/
def keyDraft (text : String) (made : Array (Option Made)) (pending : List Nat) : Draft :=
  ⟨keyParts text, made, pending, 0, 3⟩

theorem ofNode_key (text : String) :
    Document.ofNode (.mapping none .map [(.scalar none .int text, Read.absent)]) =
      ⟨keyParts text, 0⟩ :=
  rfl

section

open Making

variable {text : String} {number : Int}

theorem ask_root : ask 0 (keyDraft text #[none, none, none] []) =
    .ok ((), keyDraft text #[some (.map []), none, none] [0]) := rfl

theorem ask_key (isNumber : integer text.toList = .ok (.int number)) :
    ask 1 (keyDraft text #[some (.map []), none, none] []) =
      .ok ((), keyDraft text #[some (.map []), some (.scalar (.int number)), none] []) := by
  have value : (liftM (scalarValue (keyParts text) 1) : Making Value)
      (keyDraft text #[some (.map []), none, none] []) =
        .ok (.int number, keyDraft text #[some (.map []), none, none] []) := by
    have isScalar : scalarValue (keyParts text) 1 = .ok (.int number) := by
      rw [← isNumber]
      rfl
    rw [isScalar]
    rfl
  show ((liftM (scalarValue (keyParts text) 1) : Making Value) >>= fun value =>
    make 1 (.scalar value)) (keyDraft text #[some (.map []), none, none] []) = _
  rw [bind_of_run value]
  rfl

theorem askEntries_key (isNumber : integer text.toList = .ok (.int number)) :
    askEntries 0 (keyDraft text #[some (.map []), none, none] []) =
      .ok ([(1, 2)], keyDraft text #[some (.map []), some (.scalar (.int number)),
        some (.scalar .null)] []) := by
  have merged : ofMerging (do
      let _ ← Merging.entries 0
      Merging.resolve 0 0
      Merging.entries 0) (keyDraft text #[some (.map []), none, none] []) =
        .ok ([(1, 2)], keyDraft text #[some (.map []), none, none] []) := rfl
  have keyAsked : askKey 1 (keyDraft text #[some (.map []), none, none] []) =
      .ok ((), keyDraft text #[some (.map []), some (.scalar (.int number)), none] []) := by
    rw [askKey, bind_of_run (ask_key isNumber)]
    rfl
  rw [askEntries, bind_of_run (get_apply _)]
  refine (bind_of_run merged _).trans ?_
  rw [List.foldlM_cons, bind_assoc]
  exact bind_of_run keyAsked _

theorem make_key (isNumber : integer text.toList = .ok (.int number)) :
    (⟨keyParts text, 0⟩ : Document).make =
      .ok #[some (.map [(1, 2)]), some (.scalar (.int number)), some (.scalar .null)] := by
  have filled : fillPending 4 (keyDraft text #[some (.map []), none, none] [0]) =
      .ok ((), keyDraft text #[some (.map [(1, 2)]), some (.scalar (.int number)),
        some (.scalar .null)] []) := by
    show (([0].forM fill >>= fun _ => fillPending 3) : Making Unit)
      (keyDraft text #[some (.map []), none, none] []) = _
    have filled : fill 0 (keyDraft text #[some (.map []), none, none] []) = .ok ((),
        keyDraft text #[some (.map [(1, 2)]), some (.scalar (.int number)),
          some (.scalar .null)] []) := by
      show (askEntries 0 >>= fun entries => make 0 (.map entries))
        (keyDraft text #[some (.map []), none, none] []) = _
      rw [bind_of_run (askEntries_key isNumber)]
      rfl
    have all : [0].forM fill (keyDraft text #[some (.map []), none, none] []) = .ok ((),
        keyDraft text #[some (.map [(1, 2)]), some (.scalar (.int number)),
          some (.scalar .null)] []) := by
      show (fill 0 >>= fun _ => pure ()) _ = _
      rw [bind_of_run filled]
      rfl
    rw [bind_of_run all]
    rfl
  have ran : (do
      ask 0
      fillPending 4 : Making Unit) (keyDraft text #[none, none, none] []) = .ok ((),
        keyDraft text #[some (.map [(1, 2)]), some (.scalar (.int number)),
          some (.scalar .null)] []) := by
    rw [bind_of_run ask_root, filled]
  have start : (keyParts text).map (fun _ => (none : Option Made)) = #[none, none, none] := by
    rw [keyParts, List.map_toArray]
    rfl
  rw [Document.make]
  dsimp only
  rw [start]
  exact bind_eq_ok.mpr ⟨_, ran, rfl⟩

theorem value_key (isNumber : integer text.toList = .ok (.int number)) :
    (⟨keyParts text, 0⟩ : Document).value = .ok (.map (some 0) [(.int number, .null)]) := by
  rw [Document.value, make_key isNumber, ok_bind]
  dsimp only
  rw [List.map_toArray]
  rfl

end

/-- The text whose only key is the numeral. -/
def numeralText (count : Nat) : String :=
  String.ofList ('?' :: ' ' :: (numeral count ++ ['\n']))

theorem forall_numeralText {holds : Char → Bool}
    (all : ['?', ' ', '0', 'x', '1', '\n'].all holds = true) (count : Nat) :
    ∀ character ∈ (numeralText count).toList, holds character = true := by
  simp only [List.all_eq_true, List.forall_mem_cons] at all
  obtain ⟨question, blank, zero, mark, one, line⟩ := all
  rw [numeralText, String.toList_ofList]
  simp only [List.forall_mem_cons, List.forall_mem_append]
  exact ⟨question, blank, forall_numeral zero mark one, line⟩

/-- A numeral of any length is read as the number it stands for. -/
theorem read_numeralText (count : Nat) :
    read (numeralText count) = .ok (.map (some 0) [(.int (16 ^ count : Nat), .null)]) := by
  have isNumber :
      integer (String.ofList (numeral count)).toList = .ok (.int (16 ^ count : Nat)) := by
    rw [String.toList_ofList, integer_numeral]
  have allowed : (numeralText count).toList.all isAllowed = true :=
    List.all_eq_true.mpr (forall_numeralText rfl count)
  rw [read, allowed, numeralText, String.toList_ofList, tokens_numeral]
  dsimp only
  rw [ofTokens_key, plainTag_numeral, ok_bind]
  dsimp only
  rw [ofNode_key, value_key isNumber]
  rfl

theorem said_numeralText (count : Nat) : said (some (numeralText count).toUTF8) =
    .ok (.map (some 0) [(.int (16 ^ count : Nat), .null)]) := by
  have decoded : String.fromUTF8? (numeralText count).toUTF8 = some (numeralText count) :=
    dif_pos (numeralText count).isValidUTF8
  have kept : Text.unifyEnds (numeralText count) = numeralText count :=
    Text.unifyEnds_of_kept (forall_numeralText rfl count)
  rw [said, decoded]
  dsimp only
  rw [kept, read_numeralText]

end Taskbook.Yaml
