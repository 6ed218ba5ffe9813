/-
Errors that a caller is told about.

An error names what is wrong, and some of what it names may be values that cannot be written. Such
an error is not worded, and the caller gets the fault of writing it instead. Here is what that means
for a chain of computations: it goes unreported exactly where its first failing link does.
-/

import Taskbook.Proofs.Rendering.References

namespace Taskbook

section

variable {α β : Type}

/-! ### Items up to the first that is wrong -/

/-- One of some items is bad, and all items before it are good. -/
def StopsAt (good bad : α → Prop) (items : List α) : Prop :=
  ∃ before item after, items = before ++ item :: after ∧ (∀ other ∈ before, good other) ∧
    bad item

variable {good bad : α → Prop}

theorem not_stopsAt_nil : ¬ StopsAt good bad [] := by
  rintro ⟨before, item, after, same, -, -⟩
  cases before with
  | nil => cases same
  | cons first rest => cases same

theorem stopsAt_cons {first : α} {rest : List α} :
    StopsAt good bad (first :: rest) ↔ bad first ∨ good first ∧ StopsAt good bad rest := by
  constructor
  · rintro ⟨before, item, after, same, allGood, isBad⟩
    cases before with
    | nil =>
      obtain ⟨rfl, -⟩ := List.cons.inj same
      exact Or.inl isBad
    | cons other others =>
      obtain ⟨rfl, rfl⟩ := List.cons.inj same
      exact Or.inr ⟨allGood _ List.mem_cons_self, others, item, after, rfl,
        fun further member => allGood further (List.mem_cons_of_mem _ member), isBad⟩
  · rintro (isBad | ⟨isGood, before, item, after, rfl, allGood, isBad⟩)
    · exact ⟨[], first, rest, rfl, fun other member => (List.not_mem_nil member).elim, isBad⟩
    · refine ⟨first :: before, item, after, rfl, fun other member => ?_, isBad⟩
      rcases List.mem_cons.mp member with rfl | inBefore
      · exact isGood
      · exact allGood other inBefore

/-! ### Unreported failures -/

/-- A computation fails, and no caller can be told why. -/
def IsUnreported (outcome : Except Error α) : Prop :=
  ∃ error fault, outcome = .error error ∧ error.message = .error fault

@[simp]
theorem not_isUnreported_ok (value : α) : ¬ IsUnreported (.ok value : Except Error α) := by
  rintro ⟨error, fault, failed, -⟩
  cases failed

theorem isUnreported_error {error : Error} :
    IsUnreported (.error error : Except Error α) ↔ ∃ fault, error.message = .error fault := by
  constructor
  · rintro ⟨other, fault, failed, unworded⟩
    obtain rfl := Except.error.inj failed
    exact ⟨fault, unworded⟩
  · rintro ⟨fault, unworded⟩
    exact ⟨error, fault, rfl, unworded⟩

/-- A failure that has a message is reported. -/
theorem not_isUnreported_of_message {error : Error} {message : String}
    (worded : error.message = .ok message) : ¬ IsUnreported (.error error : Except Error α) := by
  rw [isUnreported_error, worded]
  rintro ⟨fault, unworded⟩
  cases unworded

theorem isUnreported_orFault {outcome : Except Fault α} :
    IsUnreported (orFault outcome) ↔ ¬ ∃ value, outcome = .ok value := by
  cases outcome with
  | ok value => simp
  | error fault =>
    rw [orFault_error, isUnreported_error]
    refine iff_of_true ⟨fault, rfl⟩ ?_
    rintro ⟨value, given⟩
    cases given

/-- A chain goes unreported where its first link does, or where the rest does from there. -/
theorem isUnreported_bind {first : Except Error α} {next : α → Except Error β} :
    IsUnreported (first >>= next) ↔
      IsUnreported first ∨ ∃ value, first = .ok value ∧ IsUnreported (next value) := by
  cases first with
  | error error => simp [isUnreported_error]
  | ok value => simp

/-- Nothing goes unreported after a link if nothing fails there. -/
theorem isUnreported_bind_of_isOk {first : Except Error α} {next : α → Except Error β}
    (goesOn : ∀ value, ∃ result, next value = .ok result) :
    IsUnreported (first >>= next) ↔ IsUnreported first := by
  rw [isUnreported_bind]
  refine or_iff_left ?_
  rintro ⟨value, -, failed⟩
  obtain ⟨result, given⟩ := goesOn value
  rw [given] at failed
  exact not_isUnreported_ok result failed

/-- A run through some items goes unreported where one of its steps does. -/
theorem isUnreported_foldlM {step : β → α → Except Error β} {state : β} {items : List α} :
    IsUnreported (items.foldlM step state) ↔ ∃ before item after last,
      items = before ++ item :: after ∧ before.foldlM step state = .ok last ∧
        IsUnreported (step last item) := by
  induction items generalizing state with
  | nil =>
    refine iff_of_false (not_isUnreported_ok state) ?_
    rintro ⟨before, item, after, last, same, -⟩
    cases before <;> cases same
  | cons first rest inductionHypothesis =>
    rw [List.foldlM_cons, isUnreported_bind]
    constructor
    · rintro (unreported | ⟨next, given, unreported⟩)
      · exact ⟨[], first, rest, state, rfl, rfl, unreported⟩
      · obtain ⟨before, item, after, last, rfl, folded, unreported⟩ :=
          inductionHypothesis.mp unreported
        refine ⟨first :: before, item, after, last, rfl, ?_, unreported⟩
        rw [List.foldlM_cons, given]
        exact folded
    · rintro ⟨before, item, after, last, same, folded, unreported⟩
      cases before with
      | nil =>
        obtain ⟨rfl, -⟩ := List.cons.inj same
        obtain rfl := Except.ok.inj folded
        exact Or.inl unreported
      | cons other others =>
        obtain ⟨rfl, rfl⟩ := List.cons.inj same
        rw [List.foldlM_cons] at folded
        obtain ⟨next, given, folded⟩ := bind_eq_ok.mp folded
        exact Or.inr ⟨next, given, inductionHypothesis.mpr
          ⟨others, item, after, last, rfl, folded, unreported⟩⟩

theorem isUnreported_mapM {change : α → Except Error β} (items : List α) :
    IsUnreported (items.mapM change) ↔ StopsAt (fun item => ∃ result, change item = .ok result)
      (fun item => IsUnreported (change item)) items := by
  induction items with
  | nil => exact iff_of_false (not_isUnreported_ok []) not_stopsAt_nil
  | cons first rest inductionHypothesis =>
    rw [List.mapM_cons, isUnreported_bind, stopsAt_cons, ← inductionHypothesis]
    refine or_congr_right ?_
    rw [← exists_and_right]
    exact exists_congr fun result => and_congr_right fun _ =>
      isUnreported_bind_of_isOk fun _ => ⟨_, rfl⟩

end

/-! ### What a computation fails with -/

section

variable {α β : Type} {allowed : Error → Prop}

/-- A computation fails with errors of some kind only. -/
def FailsOnly (allowed : Error → Prop) (outcome : Except Error α) : Prop :=
  ∀ error, outcome = .error error → allowed error

theorem failsOnly_ok (value : α) : FailsOnly allowed (.ok value : Except Error α) :=
  fun error failed => by cases failed

theorem failsOnly_error {error : Error} (holds : allowed error) :
    FailsOnly allowed (.error error : Except Error α) := by
  intro other failed
  obtain rfl := Except.error.inj failed
  exact holds

theorem failsOnly_orFault (faults : ∀ fault, allowed (.fault fault)) (outcome : Except Fault α) :
    FailsOnly allowed (orFault outcome) := by
  cases outcome with
  | ok value => exact failsOnly_ok value
  | error fault => exact failsOnly_error (faults fault)

theorem FailsOnly.mono {outcome : Except Error α} {others : Error → Prop}
    (fails : FailsOnly allowed outcome) (wider : ∀ error, allowed error → others error) :
    FailsOnly others outcome :=
  fun error failed => wider error (fails error failed)

theorem FailsOnly.bind {first : Except Error α} {next : α → Except Error β}
    (fails : FailsOnly allowed first)
    (further : ∀ value, first = .ok value → FailsOnly allowed (next value)) :
    FailsOnly allowed (first >>= next) := by
  intro error failed
  rcases bind_eq_error.mp failed with firstFailed | ⟨value, given, nextFailed⟩
  · exact fails error firstFailed
  · exact further value given error nextFailed

theorem failsOnly_mapM {change : α → Except Error β} {items : List α}
    (each : ∀ item ∈ items, FailsOnly allowed (change item)) :
    FailsOnly allowed (items.mapM change) := by
  induction items with
  | nil => exact failsOnly_ok []
  | cons first rest inductionHypothesis =>
    obtain ⟨firstFails, restFail⟩ := List.forall_mem_cons.mp each
    rw [List.mapM_cons]
    exact firstFails.bind fun _ _ => (inductionHypothesis restFail).bind fun _ _ => failsOnly_ok _

/-- A run through some items fails with what one of its steps fails with. -/
theorem failsOnly_foldlM {step : β → α → Except Error β} {items : List α} {state : β}
    (each : ∀ before item after last, items = before ++ item :: after →
      before.foldlM step state = .ok last → FailsOnly allowed (step last item)) :
    FailsOnly allowed (items.foldlM step state) := by
  induction items generalizing state with
  | nil => exact failsOnly_ok state
  | cons first rest inductionHypothesis =>
    rw [List.foldlM_cons]
    refine (each [] first rest state rfl rfl).bind fun next given => inductionHypothesis ?_
    intro before item after last same folded
    refine each (first :: before) item after last (congrArg (first :: ·) same) ?_
    rw [List.foldlM_cons, given]
    exact folded

end

/-- An error that no caller can be told: it has no message. -/
def IsUntold (error : Error) : Prop :=
  ∃ fault, error.message = .error fault

theorem isUntold_fault (fault : Fault) : IsUntold (.fault fault) :=
  ⟨fault, rfl⟩

/-- What fails with such errors only succeeds, or goes unreported. -/
theorem failsOnly_isUntold_iff {α : Type} {outcome : Except Error α} :
    FailsOnly IsUntold outcome ↔ (∃ value, outcome = .ok value) ∨ IsUnreported outcome := by
  cases outcome with
  | ok value => exact iff_of_true (failsOnly_ok value) (Or.inl ⟨value, rfl⟩)
  | error error =>
    rw [isUnreported_error]
    constructor
    · exact fun fails => Or.inr (fails error rfl)
    · rintro (⟨value, given⟩ | untold)
      · cases given
      · exact failsOnly_error untold

/-- An error about invalid data, or about a conflict where there can be one. -/
def IsRefusal (conflicts : Prop) (error : Error) : Prop :=
  error.kind = .invalid ∨ error.kind = .conflict ∧ conflicts

theorem IsRefusal.imp {conflicts others : Prop} {error : Error} (refusal : IsRefusal conflicts error)
    (wider : conflicts → others) : IsRefusal others error :=
  refusal.imp_right fun held => ⟨held.1, wider held.2⟩

theorem isRefusal_fault {conflicts : Prop} (fault : Fault) : IsRefusal conflicts (.fault fault) :=
  Or.inl rfl

/-! ### Answers -/

section

variable {α : Type} {conflicts : Prop}

/-- A caller gets a value, or is told what is invalid or, where there can be one, in conflict. -/
def IsAnswered (conflicts : Prop) (outcome : Except Error α) : Prop :=
  (∃ value, outcome = .ok value) ∨ ∃ error notice, outcome = .error error ∧
    error.notice = .ok notice ∧ (notice.kind = .invalid ∨ notice.kind = .conflict ∧ conflicts)

theorem notice_eq_ok {error : Error} {notice : Notice} :
    error.notice = .ok notice ↔
      error.message = .ok notice.message ∧ error.kind = notice.kind := by
  rw [Error.notice, map_eq_ok]
  constructor
  · rintro ⟨message, worded, rfl⟩
    exact ⟨worded, rfl⟩
  · rintro ⟨worded, same⟩
    exact ⟨notice.message, worded, by rw [same]⟩

/-- What fails with refusals only is answered unless it fails unreported. -/
theorem FailsOnly.isAnswered_iff {outcome : Except Error α}
    (refuses : FailsOnly (IsRefusal conflicts) outcome) :
    IsAnswered conflicts outcome ↔ ¬ IsUnreported outcome := by
  cases outcome with
  | ok value => exact iff_of_true (Or.inl ⟨value, rfl⟩) (not_isUnreported_ok value)
  | error error =>
    rw [isUnreported_error]
    cases worded : error.message with
    | error fault =>
      refine iff_of_false ?_ fun held => held ⟨fault, rfl⟩
      rintro (⟨value, given⟩ | ⟨other, notice, failed, noticed, -⟩)
      · cases given
      · obtain rfl := Except.error.inj failed
        rw [(notice_eq_ok.mp noticed).1] at worded
        cases worded
    | ok message =>
      refine iff_of_true (Or.inr ⟨error, ⟨error.kind, message⟩, rfl, ?_, refuses error rfl⟩) ?_
      · exact notice_eq_ok.mpr ⟨worded, rfl⟩
      · rintro ⟨fault, unworded⟩
        cases unworded

end

/-! ### Values that can be named -/

namespace Value

/-- A value that can be named in a message. -/
def HasLiteral (value : Value) : Prop :=
  ∃ text, value.literal = .ok text

theorem hasLiteral_str (text : String) : (str text).HasLiteral := by
  refine ⟨Taskbook.quoted text, ?_⟩
  simp only [literal, scalarLiteral]

/-- An error goes unreported if the value that it names has no literal. -/
theorem isUnreported_of_naming {α : Type} {error : Error} {value : Value}
    {words : String → String} (worded : error.message = value.literal.map words) :
    IsUnreported (.error error : Except Error α) ↔ ¬ value.HasLiteral := by
  rw [isUnreported_error, worded, HasLiteral]
  cases value.literal <;> simp [Except.map]

/-- What can be put into a command can be named. -/
theorem IsWritable.hasLiteral {value : Value} (writable : value.IsWritable) :
    value.HasLiteral := by
  obtain ⟨text, written⟩ := writable
  cases value with
  | str own => exact hasLiteral_str own
  | date anchor day => exact ⟨day.literal, by simp only [literal, scalarLiteral]⟩
  | moment anchor point => exact ⟨point.literal, by simp only [literal, scalarLiteral]⟩
  | _ => exact ⟨text, written⟩

theorem literals_isOk {items : List Value} :
    (∃ texts, literals items = .ok texts) ↔ ∀ item ∈ items, item.HasLiteral := by
  induction items with
  | nil => simp [literals]
  | cons first rest inductionHypothesis =>
    rw [List.forall_mem_cons, ← inductionHypothesis]
    constructor
    · rintro ⟨texts, written⟩
      rw [literals] at written
      obtain ⟨text, firstWritten, written⟩ := bind_eq_ok.mp written
      obtain ⟨others, restWritten, -⟩ := bind_eq_ok.mp written
      exact ⟨⟨text, firstWritten⟩, others, restWritten⟩
    · rintro ⟨⟨text, firstWritten⟩, others, restWritten⟩
      refine ⟨text :: others, ?_⟩
      rw [literals, firstWritten, ok_bind, restWritten, ok_bind]
      rfl

/-- A list can be named if all its items can. -/
theorem hasLiteral_ofItems {items : List Value} :
    (ofItems items).HasLiteral ↔ ∀ item ∈ items, item.HasLiteral := by
  rw [← literals_isOk, HasLiteral, ofItems, literal]
  simp only [map_eq_ok]
  constructor
  · rintro ⟨text, texts, written, -⟩
    exact ⟨texts, written⟩
  · rintro ⟨texts, written⟩
    exact ⟨_, texts, written, rfl⟩

/-- Sorting keeps the values that there are. -/
theorem mem_insertSorted {item value : Value} {items inserted : List Value}
    (put : insertSorted item items = some inserted) :
    value ∈ inserted ↔ value = item ∨ value ∈ items := by
  induction items generalizing inserted with
  | nil =>
    obtain rfl := Option.some.inj put
    rw [List.mem_singleton, or_iff_left List.not_mem_nil]
  | cons other rest inductionHypothesis =>
    rw [insertSorted] at put
    obtain ⟨comes, -, put⟩ := Option.bind_eq_some_iff.mp put
    split at put
    · obtain rfl := Option.some.inj put
      exact List.mem_cons
    · obtain ⟨others, further, same⟩ := Option.bind_eq_some_iff.mp put
      obtain rfl := Option.some.inj same
      rw [List.mem_cons, inductionHypothesis further, List.mem_cons, or_left_comm]

theorem mem_of_sorted? {value : Value} {items ordered : List Value}
    (sorted : sorted? items = some ordered) : value ∈ ordered ↔ value ∈ items := by
  induction items generalizing ordered with
  | nil =>
    obtain rfl := Option.some.inj sorted
    rfl
  | cons item rest inductionHypothesis =>
    rw [sorted?] at sorted
    obtain ⟨others, further, put⟩ := Option.bind_eq_some_iff.mp sorted
    split at put
    · rw [mem_insertSorted put, inductionHypothesis further, List.mem_cons]
    · cases put

/-- Values that can all be compared can be sorted. -/
theorem sorted?_isSome {items : List Value}
    (comparable : ∀ item ∈ items, ∀ other ∈ items, (before? item other).isSome = true) :
    ∃ ordered, sorted? items = some ordered := by
  have inserts (item : Value) (others : List Value)
      (fits : ∀ other ∈ others, (before? item other).isSome = true) :
      ∃ inserted, insertSorted item others = some inserted := by
    induction others with
    | nil => exact ⟨[item], rfl⟩
    | cons other rest inductionHypothesis =>
      obtain ⟨otherFits, restFit⟩ := List.forall_mem_cons.mp fits
      obtain ⟨comes, compared⟩ := Option.isSome_iff_exists.mp otherFits
      obtain ⟨inserted, further⟩ := inductionHypothesis restFit
      rw [insertSorted, compared, further]
      cases comes with
      | true => exact ⟨_, rfl⟩
      | false => exact ⟨_, rfl⟩
  induction items with
  | nil => exact ⟨[], rfl⟩
  | cons item rest inductionHypothesis =>
    obtain ⟨ordered, sorted⟩ := inductionHypothesis fun one oneMember other otherMember =>
      comparable one (List.mem_cons_of_mem _ oneMember) other (List.mem_cons_of_mem _ otherMember)
    have fits : ∀ other ∈ ordered, (before? item other).isSome = true := fun other member =>
      comparable item List.mem_cons_self other
        (List.mem_cons_of_mem _ ((mem_of_sorted? sorted).mp member))
    obtain ⟨inserted, put⟩ := inserts item ordered fits
    refine ⟨inserted, ?_⟩
    rw [sorted?, sorted]
    show (if ordered.all fun other => (before? item other).isSome then insertSorted item ordered
      else none) = _
    rw [if_pos (List.all_eq_true.mpr fits), put]

/-- Pairs are sorted by what they differ in first. -/
example : sorted? [pair none (int 1) (str "b"), pair none (int 1) (str "a"),
    pair none (int 0) null] =
      some [pair none (int 0) null, pair none (int 1) (str "a"), pair none (int 1) (str "b")] := by
  cbv

end Value

end Taskbook
