/-
Computations that can fail, taken apart.

A chain of such computations succeeds exactly where each of its links does, and its result
is that of the last one. What a computation writes to the log on the way changes nothing
about its result, so the result of a logged chain is the chain of the results.
-/

import Taskbook.Log

namespace Taskbook

/-! ### Chains -/

section

variable {ε α β : Type}

@[simp]
theorem ok_bind (value : α) (next : α → Except ε β) : (Except.ok value >>= next) = next value :=
  rfl

@[simp]
theorem error_bind (error : ε) (next : α → Except ε β) :
    (Except.error error >>= next) = .error error :=
  rfl

/-- A chain succeeds where its first link does and the rest does from there. -/
theorem bind_eq_ok {first : Except ε α} {next : α → Except ε β} {result : β} :
    (first >>= next) = .ok result ↔ ∃ value, first = .ok value ∧ next value = .ok result := by
  cases first with
  | error error => simp
  | ok value => simp

/-- A chain fails where its first link does, or where the rest does from there. -/
theorem bind_eq_error {first : Except ε α} {next : α → Except ε β} {error : ε} :
    (first >>= next) = .error error ↔
      first = .error error ∨ ∃ value, first = .ok value ∧ next value = .error error := by
  cases first with
  | error other => simp
  | ok value => simp

theorem map_eq_ok {outcome : Except ε α} {change : α → β} {result : β} :
    outcome.map change = .ok result ↔ ∃ value, outcome = .ok value ∧ change value = result := by
  cases outcome with
  | error error => simp [Except.map]
  | ok value => simp [Except.map]

/-- What comes after a choice comes after what is chosen. -/
theorem bind_ite {condition : Prop} [Decidable condition] {first second : Except ε α} {value : α}
    (chosen : (if condition then first else second) = .ok value) (next : α → Except ε β) :
    (if condition then first >>= next else second >>= next) = next value := by
  split at chosen
  next holds => rw [if_pos holds, chosen, ok_bind]
  next fails => rw [if_neg fails, chosen, ok_bind]

/-- What succeeds for every item of a list succeeds for the list. -/
theorem mapM_isOk {change : α → Except ε β} {items : List α}
    (each : ∀ item ∈ items, ∃ result, change item = .ok result) :
    ∃ results, items.mapM change = .ok results := by
  induction items with
  | nil => exact ⟨[], rfl⟩
  | cons first rest inductionHypothesis =>
    obtain ⟨result, changed⟩ := each first List.mem_cons_self
    obtain ⟨others, further⟩ :=
      inductionHypothesis fun item member => each item (List.mem_cons_of_mem _ member)
    refine ⟨result :: others, ?_⟩
    rw [List.mapM_cons, changed, ok_bind, further, ok_bind]
    rfl

/-- What each item that is made of another becomes, the items of a list become. -/
theorem mapM_map_eq_ok {γ : Type} {change : α → Except ε β} {source : γ → α} {result : γ → β}
    {items : List γ} (each : ∀ item ∈ items, change (source item) = .ok (result item)) :
    (items.map source).mapM change = .ok (items.map result) := by
  induction items with
  | nil => rfl
  | cons first rest inductionHypothesis =>
    rw [List.map_cons, List.mapM_cons, each first List.mem_cons_self, ok_bind,
      inductionHypothesis fun item member => each item (List.mem_cons_of_mem _ member)]
    rfl

/-- Each item of a list that succeeds has its result at the same place. -/
theorem getElem?_of_mapM {change : α → Except ε β} {items : List α} {results : List β}
    (made : items.mapM change = .ok results) {index : Nat} {item : α}
    (there : items[index]? = some item) :
    ∃ result, results[index]? = some result ∧ change item = .ok result := by
  induction items generalizing results index with
  | nil => cases there
  | cons first rest inductionHypothesis =>
    rw [List.mapM_cons] at made
    obtain ⟨result, changed, made⟩ := bind_eq_ok.mp made
    obtain ⟨others, further, same⟩ := bind_eq_ok.mp made
    obtain rfl := Except.ok.inj same
    cases index with
    | zero =>
      obtain rfl := Option.some.inj there
      exact ⟨result, rfl, changed⟩
    | succ index => exact inductionHypothesis further there

/-- The first item that fails makes a list fail. -/
theorem mapM_eq_error {change : α → Except ε β} {before after : List α} {item : α} {error : ε}
    (each : ∀ other ∈ before, ∃ result, change other = .ok result)
    (failed : change item = .error error) :
    (before ++ item :: after).mapM change = .error error := by
  obtain ⟨results, changed⟩ := mapM_isOk each
  rw [List.mapM_append, changed, ok_bind, List.mapM_cons, failed]
  rfl

/-- Some item of a list is the first that is not of a kind, unless all are. -/
theorem forall_or_first (isOf : α → Prop) (items : List α) :
    (∀ item ∈ items, isOf item) ∨ ∃ before item after, items = before ++ item :: after ∧
      (∀ other ∈ before, isOf other) ∧ ¬ isOf item := by
  induction items with
  | nil => exact Or.inl fun item member => (List.not_mem_nil member).elim
  | cons first rest inductionHypothesis =>
    by_cases firstIs : isOf first
    · rcases inductionHypothesis with restAre | ⟨before, item, after, rfl, beforeAre, isNot⟩
      · exact Or.inl (List.forall_mem_cons.mpr ⟨firstIs, restAre⟩)
      · exact Or.inr ⟨first :: before, item, after, rfl,
          List.forall_mem_cons.mpr ⟨firstIs, beforeAre⟩, isNot⟩
    · exact Or.inr ⟨[], first, rest, rfl,
        fun other member => (List.not_mem_nil member).elim, firstIs⟩

/-- A chain over a state goes on with what its first link gives and leaves. -/
theorem bind_of_run {State : Type} {first : StateT State (Except ε) α} {state left : State}
    {value : α} (ran : first state = .ok (value, left)) (next : α → StateT State (Except ε) β) :
    (first >>= next) state = next value left := by
  show (first state >>= fun result => next result.1 result.2) = _
  rw [ran]
  rfl

/-- A chain over a state succeeds where its first link does and the rest does from what that
leaves. -/
theorem run_bind_eq_ok {State : Type} {first : StateT State (Except ε) α}
    {next : α → StateT State (Except ε) β} {state left : State} {result : β} :
    (first >>= next) state = .ok (result, left) ↔
      ∃ value middle, first state = .ok (value, middle) ∧
        next value middle = .ok (result, left) := by
  show (first state >>= fun ran => next ran.1 ran.2) = _ ↔ _
  rw [bind_eq_ok, Prod.exists]

end

/-! ### Faults among the errors -/

section

variable {α : Type}

@[simp]
theorem orFault_ok (value : α) : orFault (.ok value) = .ok value :=
  rfl

@[simp]
theorem orFault_error (fault : Fault) :
    orFault (.error fault : Except Fault α) = .error (.fault fault) :=
  rfl

theorem orFault_eq_ok {outcome : Except Fault α} {value : α} :
    orFault outcome = .ok value ↔ outcome = .ok value := by
  cases outcome with
  | error fault => simp
  | ok other => simp

@[simp]
theorem liftFault_ok_bind {β : Type} (value : α) (next : α → Except Error β) :
    ((liftM (Except.ok value : Except Fault α) : Except Error α) >>= next) = next value :=
  rfl

end

/-! ### The results of logged computations -/

namespace Logged

variable {α β : Type}

theorem map_id_eq (first : Logged α) : id <$> first = first := by
  obtain ⟨records, result⟩ := first
  cases result with
  | error error => rfl
  | ok value => exact congrArg (Logged.mk · (.ok value)) (List.append_nil records)

/-- The records of a chain come in order, however its links are grouped. -/
theorem andThen_assoc {γ : Type} (first : Logged α) (next : α → Logged β) (last : β → Logged γ) :
    (first.andThen next).andThen last = first.andThen fun value => (next value).andThen last := by
  obtain ⟨records, result⟩ := first
  cases result with
  | error error => rfl
  | ok value =>
    show andThen ⟨records ++ (next value).records, (next value).result⟩ last = _
    unfold andThen
    dsimp only
    cases (next value).result with
    | error error => rfl
    | ok other => exact congrArg (Logged.mk · _) (List.append_assoc _ _ _)

instance : LawfulMonad Logged :=
  .mk' Logged map_id_eq (fun _ _ => rfl) andThen_assoc

@[simp]
theorem fail_bind (error : Error) (next : α → Logged β) : (fail error >>= next) = fail error :=
  rfl

@[simp]
theorem result_bind (first : Logged α) (next : α → Logged β) :
    (first >>= next).result = first.result >>= fun value => (next value).result := by
  show (first.andThen next).result = _
  unfold andThen
  cases first.result with
  | error error => rfl
  | ok value => rfl

/-- A chain goes on from a success, with what was written to the log before. -/
theorem bind_of_ok {first : Logged α} {value : α} (given : first.result = .ok value)
    (next : α → Logged β) :
    (first >>= next) = ⟨first.records ++ (next value).records, (next value).result⟩ := by
  show first.andThen next = _
  rw [andThen, given]

/-- A chain ends with a failure, and so does its log. -/
theorem bind_of_error {first : Logged α} {error : Error} (failed : first.result = .error error)
    (next : α → Logged β) : (first >>= next) = ⟨first.records, .error error⟩ := by
  show first.andThen next = _
  rw [andThen, failed]

@[simp]
theorem liftFault_ok_bind (value : α) (next : α → Logged β) :
    ((liftM (Except.ok value : Except Fault α) : Logged α) >>= next) = next value :=
  rfl

@[simp]
theorem result_pure (value : α) : (pure value : Logged α).result = .ok value :=
  rfl

@[simp]
theorem result_succeed (value : α) : (succeed value).result = .ok value :=
  rfl

@[simp]
theorem result_fail (error : Error) : (fail error : Logged α).result = .error error :=
  rfl

@[simp]
theorem result_write (record : Record) : (write record).result = .ok () :=
  rfl

/-- A computation without a log keeps its result. -/
@[simp]
theorem result_lift (outcome : Except Error α) : (liftM outcome : Logged α).result = outcome :=
  rfl

/-- A logged run through some items has the result of the run. -/
theorem result_foldlM {step : β → α → Logged β} (state : β) (items : List α) :
    (items.foldlM step state).result =
      items.foldlM (fun state item => (step state item).result) state := by
  induction items generalizing state with
  | nil => rfl
  | cons first rest inductionHypothesis =>
    rw [List.foldlM_cons, List.foldlM_cons, result_bind]
    exact congrArg _ (funext inductionHypothesis)

/-- A fault keeps its place among the errors. -/
@[simp]
theorem result_liftFault (outcome : Except Fault α) :
    (liftM outcome : Logged α).result = orFault outcome :=
  rfl

end Logged

end Taskbook
