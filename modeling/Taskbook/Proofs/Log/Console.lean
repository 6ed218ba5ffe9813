/-
The handlers of the log after any calls.

Setting up the log goes through the handlers as they were and detaches its own from those that are
left. Nothing is missed on the way: what has been gone through is foreign, and what has not been
is still there in its order. So a setup leaves the foreign handlers as they are, and behind them
one console.

Attaching a handler and setting up the log are all that happens to the handlers here. Each of them
keeps the foreign ones in the order in which they first came, once each, and so does every run.
-/

import Mathlib.Data.List.Induction
import Mathlib.Data.List.Nodup
import Taskbook.Log.Console
import Taskbook.Proofs.Ordered

namespace Taskbook.Log

/-- What happens to the log. -/
inductive Event where
  /-- The program sets it up at a level. -/
  | setUp (level : Level)
  /-- Something else attaches a handler. -/
  | attach (label : Nat)

/-- The label of a handler that something else attaches. -/
def Event.label? : Event → Option Nat
  | setUp _ => none
  | attach label => some label

/-- The labels of the handlers that something else attaches, each once, in the order in which they
first come. -/
def attached (events : List Event) : List Nat :=
  (events.filterMap Event.label?).eraseDups

/-- The label of a handler that is not the program's own. -/
def Handler.label? : Handler → Option Nat
  | console _ => none
  | foreign label => some label

namespace Setup

/-- A setup after something has happened to it. -/
def after (setup : Setup) : Event → Setup
  | .setUp level => setup.setUp level
  | .attach label => setup.attach label

/-- A setup after all that has happened to it. -/
def run (setup : Setup) (events : List Event) : Setup :=
  events.foldl after setup

/-- The labels of the handlers that are not the program's own. -/
def labels (setup : Setup) : List Nat :=
  setup.handlers.filterMap Handler.label?

variable {setup : Setup} {level : Level} {label : Nat}

theorem run_concat (events : List Event) (event : Event) :
    setup.run (events ++ [event]) = (setup.run events).after event := by
  rw [run, List.foldl_append]
  rfl

/-! ### Setting up -/

/-- Where all handlers are foreign that have been gone through, what is left in the end are they
and the foreign ones of the rest. -/
theorem clear_of_scanned (level : Level) {scanned : List Handler}
    (foreign : ∀ handler ∈ scanned, handler.isForeign = true) (rest : List Handler) :
    (⟨level, scanned ++ rest⟩ : Setup).clear rest =
      ⟨level, scanned ++ rest.filter Handler.isForeign⟩ := by
  unfold clear
  induction rest generalizing scanned with
  | nil => rfl
  | cons first rest inductionHypothesis =>
    rw [List.foldl_cons]
    by_cases isForeign : first.isForeign = true
    · have further : ∀ handler ∈ scanned ++ [first], handler.isForeign = true := by
        simpa [or_imp, forall_and] using ⟨foreign, isForeign⟩
      rw [if_pos isForeign, List.filter_cons_of_pos isForeign, List.append_cons,
        inductionHypothesis further, List.append_assoc, List.singleton_append]
    · -- An own handler is none of those before it, so it is detached where it stands.
      have elsewhere : first ∉ scanned := fun member => isForeign (foreign first member)
      have detached : detach ⟨level, scanned ++ first :: rest⟩ first =
          ⟨level, scanned ++ rest⟩ := by
        rw [detach, List.erase_append_right _ elsewhere, List.erase_cons_head]
      rw [if_neg isForeign, List.filter_cons_of_neg isForeign, detached,
        inductionHypothesis foreign]

theorem filter_isForeign (handlers : List Handler) :
    handlers.filter Handler.isForeign = (handlers.filterMap Handler.label?).map .foreign := by
  induction handlers with
  | nil => rfl
  | cons first rest inductionHypothesis =>
    cases first with
    | console level => exact inductionHypothesis
    | foreign label => exact congrArg (Handler.foreign label :: ·) inductionHypothesis

/-- Setting up leaves the foreign handlers, and one console behind them. -/
theorem setUp_eq (setup : Setup) (level : Level) :
    setup.setUp level = ⟨level, setup.labels.map .foreign ++ [.console level]⟩ := by
  have cleared := clear_of_scanned level (List.forall_mem_nil _) setup.handlers
  rw [List.nil_append, List.nil_append, filter_isForeign] at cleared
  rw [setUp]
  exact congrArg (fun cleared : Setup =>
    { cleared with handlers := cleared.handlers ++ [Handler.console level] }) cleared

/-! ### Foreign handlers -/

theorem labels_setUp (setup : Setup) (level : Level) :
    (setup.setUp level).labels = setup.labels := by
  rw [setUp_eq, labels, List.filterMap_append, List.filterMap_map]
  exact (List.append_nil _).trans List.filterMap_some

theorem mem_labels : label ∈ setup.labels ↔ .foreign label ∈ setup.handlers := by
  rw [labels, List.mem_filterMap]
  constructor
  · rintro ⟨handler, member, given⟩
    cases handler with
    | console level => contradiction
    | foreign other =>
      cases given
      exact member
  · exact fun member => ⟨_, member, rfl⟩

theorem labels_attach (setup : Setup) (label : Nat) :
    (setup.attach label).labels =
      if label ∈ setup.labels then setup.labels else setup.labels ++ [label] := by
  by_cases member : label ∈ setup.labels
  · have same : setup.attach label = setup := if_pos (by simpa using mem_labels.1 member)
    rw [if_pos member, same]
  · have added : setup.attach label =
        { setup with handlers := setup.handlers ++ [.foreign label] } :=
      if_neg (by simpa using fun found => member (mem_labels.2 found))
    rw [if_neg member, added, labels, List.filterMap_append]
    rfl

/-! ### Runs -/

theorem attached_concat_setUp (events : List Event) (level : Level) :
    attached (events ++ [.setUp level]) = attached events := by
  rw [attached, List.filterMap_append]
  exact congrArg List.eraseDups (List.append_nil _)

theorem attached_concat_attach (events : List Event) (label : Nat) :
    attached (events ++ [.attach label]) =
      if label ∈ attached events then attached events else attached events ++ [label] := by
  rw [attached, List.filterMap_append]
  exact Ordered.eraseDups_concat _ label

/-- Along every run the foreign handlers are those that have been attached, in the order in which
they first came. -/
theorem labels_run (events : List Event) : (untouched.run events).labels = attached events := by
  induction events using List.reverseRecOn with
  | nil => rfl
  | append_singleton events event inductionHypothesis =>
    rw [run_concat]
    cases event with
    | setUp level =>
      rw [attached_concat_setUp, ← inductionHypothesis]
      exact labels_setUp _ level
    | attach label =>
      rw [attached_concat_attach, ← inductionHypothesis]
      exact labels_attach _ label

theorem mem_attached (events : List Event) (label : Nat) :
    label ∈ attached events ↔ .attach label ∈ events := by
  rw [attached, List.mem_eraseDups, List.mem_filterMap]
  constructor
  · rintro ⟨event, member, given⟩
    cases event with
    | setUp level => contradiction
    | attach other =>
      cases given
      exact member
  · exact fun member => ⟨_, member, rfl⟩

/-- After every setup, whatever happened before it, the program has one handler, the last one, and
this and the log have the level of that setup. Before it stand the handlers that something else
has attached, each once, in the order in which they first came. -/
theorem run_setUp (events : List Event) (level : Level) :
    let setup := untouched.run (events ++ [.setUp level])
    setup.level = level ∧
      setup.handlers = (attached events).map .foreign ++ [.console level] ∧
      setup.consoleLevels = [level] ∧
      setup.handlers.Nodup ∧
      ∀ label, .foreign label ∈ setup.handlers ↔ .attach label ∈ events := by
  have setUp : untouched.run (events ++ [.setUp level]) =
      ⟨level, (attached events).map .foreign ++ [.console level]⟩ := by
    rw [run_concat, ← labels_run]
    exact setUp_eq _ level
  have once : ((attached events).map Handler.foreign).Nodup :=
    List.Nodup.map (fun _ _ => Handler.foreign.inj) (Ordered.nodup_eraseDups _)
  rw [setUp]
  refine ⟨rfl, rfl, ?_, ?_, fun label => ?_⟩
  · rw [consoleLevels, List.filterMap_append, List.filterMap_map]
    exact congrArg (· ++ [level]) (List.filterMap_eq_nil_iff.2 fun _ _ => rfl)
  · simpa [List.nodup_append] using once
  · simpa using mem_attached events label

end Setup

end Taskbook.Log
