/-
Scripts whose groups are closed where they end.

A text settles if it is read to its end and leaves the shell outside quotes and comments, with every
parenthesis closed that it has opened. What the author of a task wrote settles, if it is complete by
itself and does not end in a comment. The rest is put around such texts, and keeps this: variables
with quotable values leave the shell where it was, so does what joins two commands, and a group of a
text that settles is closed by its own parenthesis.

A text that ends in a comment has no part in this. Behind it, the parenthesis that should close its
group is a character of the comment.
-/

import Taskbook.Proofs.Shell.Lexing
import Taskbook.Proofs.Shell.Parts

namespace Taskbook.Shell

/-! ### Texts that leave the shell where it was -/

/-- A text that is read to its end from the start of a word and leaves neither quotes nor a comment
nor a parenthesis open. -/
def Settles (text : String) : Prop :=
  ∃ region : Region, region.IsBare ∧
    Lexer.initial.scan? text.toList = some ⟨⟨region, false⟩, 0⟩

/-- A text that is read from the start of a word to the start of a word. -/
def Passes (text : String) : Prop :=
  Lexer.initial.scan? text.toList = some Lexer.initial

theorem Settles.scan? {text : String} (settles : Settles text) (depth : Nat) :
    ∃ region : Region, region.IsBare ∧
      Lexer.scan? ⟨⟨.between, false⟩, depth⟩ text.toList = some ⟨⟨region, false⟩, depth⟩ := by
  obtain ⟨region, bare, scanned⟩ := settles
  refine ⟨region, bare, ?_⟩
  have deeper := Lexer.scan?_deeper scanned depth
  rwa [Nat.zero_add] at deeper

theorem Passes.settles {text : String} (passes : Passes text) : Settles text :=
  ⟨.between, Or.inl rfl, passes⟩

theorem Passes.append {first second : String} (passes : Passes first) (further : Passes second) :
    Passes (first ++ second) := by
  rw [Passes, String.toList_append, Lexer.scan?_append, passes, Option.bind_some, further]

theorem Passes.settles_append {first second : String} (passes : Passes first)
    (settles : Settles second) : Settles (first ++ second) := by
  obtain ⟨region, bare, scanned⟩ := settles
  refine ⟨region, bare, ?_⟩
  rw [String.toList_append, Lexer.scan?_append, passes, Option.bind_some, scanned]

/-- What joins two texts ends the last word of the first one. -/
theorem Settles.passes_append {text joint : String} (settles : Settles text)
    (joins : ∀ region : Region, region.IsBare →
      Lexer.scan? ⟨⟨region, false⟩, 0⟩ joint.toList = some Lexer.initial) :
    Passes (text ++ joint) := by
  obtain ⟨region, bare, scanned⟩ := settles
  rw [Passes, String.toList_append, Lexer.scan?_append, scanned, Option.bind_some,
    joins region bare]

theorem Settles.join {text joint last : String} (settles : Settles text)
    (joins : ∀ region : Region, region.IsBare →
      Lexer.scan? ⟨⟨region, false⟩, 0⟩ joint.toList = some Lexer.initial)
    (lastSettles : Settles last) : Settles (text ++ joint ++ last) :=
  (settles.passes_append joins).settles_append lastSettles

theorem joins_and (region : Region) (bare : region.IsBare) :
    Lexer.scan? ⟨⟨region, false⟩, 0⟩ " && ".toList = some Lexer.initial := by
  rcases bare with rfl | rfl <;> rfl

theorem joins_or (region : Region) (bare : region.IsBare) :
    Lexer.scan? ⟨⟨region, false⟩, 0⟩ " || ".toList = some Lexer.initial := by
  rcases bare with rfl | rfl <;> rfl

/-- A group of a text that settles. -/
theorem Settles.grouped {text : String} (settles : Settles text) : Passes (grouped text) := by
  obtain ⟨region, bare, scanned⟩ := settles.scan? 1
  have closes : Lexer.scan? ⟨⟨region, false⟩, 1⟩ " )".toList = some Lexer.initial := by
    rcases bare with rfl | rfl <;> rfl
  have opened : Lexer.initial.scan? "( ".toList = some ⟨⟨.between, false⟩, 1⟩ := rfl
  rw [Passes, Shell.grouped, String.toList_append, String.toList_append, Lexer.scan?_append,
    Lexer.scan?_append, opened, Option.bind_some, scanned, Option.bind_some, closes]

/-- A text in which nothing could end double quotes or hide their end. -/
def isQuotable (text : String) : Bool :=
  text.toList.all fun character => character ≠ doubleQuote && character ≠ '\\'

theorem passes_assignment {name value : String} (named : isVariableName name = true)
    (quotable : isQuotable value = true) :
    Passes (assignment name value ++ " ") := by
  have inside : ∀ character ∈ value.toList, character ≠ doubleQuote ∧ character ≠ '\\' := by
    simpa [isQuotable] using quotable
  have opened : Lexer.initial.scan? "export ".toList = some Lexer.initial := rfl
  have quoted : Lexer.scan? ⟨⟨.word, false⟩, 0⟩ "=\"".toList =
      some ⟨⟨.double, false⟩, 0⟩ := rfl
  have closed : Lexer.scan? ⟨⟨.double, false⟩, 0⟩ "\";".toList = some ⟨⟨.between, false⟩, 0⟩ := rfl
  have ended : Lexer.scan? ⟨⟨.between, false⟩, 0⟩ " ".toList = some Lexer.initial := rfl
  have spelled : Lexer.initial.scan? name.toList = some ⟨⟨.word, false⟩, 0⟩ :=
    Lexer.scan?_ordinary (Or.inl rfl) (isOrdinary_of_isVariableName named)
      (toList_ne_nil_of_isVariableName named) 0
  simp only [Passes, assignment, String.toList_append, Lexer.scan?_append, opened, spelled, quoted,
    Lexer.scan?_double inside, closed, ended, Option.bind_some]

theorem passes_printExports {bindings : List (String × String)}
    (each : ∀ entry ∈ bindings, isVariableName entry.1 = true ∧ isQuotable entry.2 = true) :
    Passes (printExports bindings) := by
  induction bindings with
  | nil => rfl
  | cons entry rest inductionHypothesis =>
    obtain ⟨named, quotable⟩ := each entry List.mem_cons_self
    have further := inductionHypothesis fun other member =>
      each other (List.mem_cons_of_mem _ member)
    rw [printExports, List.map_cons, String.join_cons]
    exact (passes_assignment named quotable).append further

/-! ### Complete texts -/

/-- A text that is read to its end and leaves neither quotes nor a parenthesis open, nor a backslash
that hides what comes next. It may end in a comment. -/
def isComplete (text : String) : Bool :=
  match Lexer.initial.scan? text.toList with
  | some ⟨⟨region, hides⟩, depth⟩ =>
    region ≠ .single && region ≠ .double && !hides && depth = 0
  | none => false

/-- A text that has a comment in its last line. -/
def endsInComment (text : String) : Bool :=
  match Lexer.initial.scan? text.toList with
  | some ⟨⟨region, _⟩, _⟩ => region = .comment
  | none => false

theorem Settles.isComplete {text : String} (settles : Settles text) : isComplete text = true := by
  obtain ⟨region, bare, scanned⟩ := settles
  rw [Shell.isComplete, scanned]
  rcases bare with rfl | rfl <;> rfl

/-- A text that is complete settles, or it ends in a comment and in nothing else. -/
theorem scan?_of_isComplete {text : String} (complete : isComplete text = true) :
    Settles text ∧ endsInComment text = false ∨
      Lexer.initial.scan? text.toList = some ⟨⟨.comment, false⟩, 0⟩ ∧
        endsInComment text = true := by
  unfold isComplete at complete
  unfold endsInComment Settles
  split at complete
  · rename_i region hides depth scanned
    simp only [Bool.and_eq_true, decide_eq_true_eq, Bool.not_eq_true'] at complete
    obtain ⟨⟨⟨notSingle, notDouble⟩, rfl⟩, rfl⟩ := complete
    rw [scanned]
    cases region with
    | between => exact Or.inl ⟨⟨.between, Or.inl rfl, rfl⟩, rfl⟩
    | word => exact Or.inl ⟨⟨.word, Or.inr rfl, rfl⟩, rfl⟩
    | single => exact absurd rfl notSingle
    | double => exact absurd rfl notDouble
    | comment => exact Or.inr ⟨rfl, rfl⟩
  · cases complete

/-- Without a number sign there is no comment. -/
theorem endsInComment_of_forall_ne {text : String}
    (without : ∀ character ∈ text.toList, character ≠ '#') : endsInComment text = false := by
  unfold endsInComment
  split
  · rename_i scanned
    have outside : Lexer.initial.mode.region ≠ .comment := by decide
    simpa using Lexer.region_of_scan?_ne_comment outside without scanned
  · rfl

/-! ### Commands that settle -/

theorem Pipeline.settles_print {pipeline : Pipeline} (settles : Settles pipeline.command.print) :
    Settles pipeline.print := by
  cases pipeline with
  | plain command => exact settles
  | negated command =>
    have negates : Passes "! " := rfl
    exact negates.settles_append settles

theorem Row.settles_print :
    ∀ row : Row, (∀ command ∈ row.commands, Settles command.print) → Settles row.print
  | .single _, each => Pipeline.settles_print (each _ (List.mem_singleton_self _))
  | .both before _, each =>
    (before.settles_print fun command member => each command (List.mem_append_left _ member)).join
      joins_and (Pipeline.settles_print (each _ (List.mem_append_right _ List.mem_cons_self)))
  | .either before _, each =>
    (before.settles_print fun command member => each command (List.mem_append_left _ member)).join
      joins_or (Pipeline.settles_print (each _ (List.mem_append_right _ List.mem_cons_self)))

theorem Script.settles_print {bindings : List (String × String)} {body : Row}
    (exported : Passes (printExports bindings))
    (each : ∀ command ∈ body.commands, Settles command.print) :
    Settles (Script.exports bindings body).print :=
  exported.settles_append (body.settles_print each)

/-- A command whose leaves settle and whose subshells set variables that can be quoted. -/
structure Command.IsSettled (command : Command) : Prop where
  leaves : ∀ leaf, .leaf leaf ∈ command.contents → Settles leaf.print
  exports : ∀ bindings body, .subshell (.exports bindings body) ∈ command.contents →
    Passes (printExports bindings)

theorem Command.IsSettled.of_mem_contents {command inner : Command} (settled : command.IsSettled)
    (inside : inner ∈ command.contents) : inner.IsSettled where
  leaves := fun leaf further => settled.leaves leaf (mem_contents_trans inside further)
  exports := fun bindings body further =>
    settled.exports bindings body (mem_contents_trans inside further)

theorem Command.IsSettled.of_mem_commands {bindings : List (String × String)} {body : Row}
    (settled : (Command.subshell (.exports bindings body)).IsSettled) {command : Command}
    (member : command ∈ body.commands) : command.IsSettled :=
  settled.of_mem_contents (mem_contents_of_mem_commands member (mem_contents_self command))

theorem Command.IsSettled.settles_print {command : Command} (settled : command.IsSettled) :
    Settles command.print := by
  induction command using Command.induction with
  | leaf leaf => exact settled.leaves leaf (mem_contents_self _)
  | idle => exact ⟨.word, Or.inr rfl, rfl⟩
  | subshell bindings body inductionHypothesis =>
    have exported := settled.exports bindings body (mem_contents_self _)
    have script := Script.settles_print exported fun command member =>
      inductionHypothesis command member (settled.of_mem_commands member)
    exact script.grouped.settles

/-- So does the script of every subshell in it. -/
theorem Command.IsSettled.settles_body {command : Command} (settled : command.IsSettled)
    {bindings : List (String × String)} {body : Row}
    (inside : .subshell (.exports bindings body) ∈ command.contents) :
    Settles (Script.exports bindings body).print :=
  Script.settles_print (settled.exports bindings body inside) fun _ member =>
    ((settled.of_mem_contents inside).of_mem_commands member).settles_print

/-! ### Before a part -/

/-- A text that is read from the start of a word to the start of a word, and may open
parentheses. -/
def Opens (text : String) : Prop :=
  ∃ depth, Lexer.initial.scan? text.toList = some ⟨⟨.between, false⟩, depth⟩

theorem Passes.opens {text : String} (passes : Passes text) : Opens text :=
  ⟨0, passes⟩

theorem Opens.append {first second : String} (opens : Opens first) (further : Opens second) :
    Opens (first ++ second) := by
  obtain ⟨outer, scanned⟩ := opens
  obtain ⟨inner, further⟩ := further
  refine ⟨inner + outer, ?_⟩
  have deeper := Lexer.scan?_deeper further outer
  rw [Nat.zero_add] at deeper
  rw [String.toList_append, Lexer.scan?_append, scanned, Option.bind_some, deeper]

theorem opens_before_of_mem_within {parts : List Part} {before behind : String}
    (opens : Opens before) (each : ∀ part ∈ parts, Opens part.before) {part : Part}
    (member : part ∈ parts.map (Part.within before behind)) : Opens part.before := by
  obtain ⟨inner, innerMember, rfl⟩ := List.mem_map.mp member
  exact opens.append (each inner innerMember)

theorem Pipeline.opens_before {pipeline : Pipeline}
    (each : ∀ part ∈ pipeline.command.parts, Opens part.before) :
    ∀ part ∈ pipeline.parts, Opens part.before := by
  intro part member
  cases pipeline with
  | plain command => exact each part member
  | negated command =>
    have negates : Passes "! " := rfl
    exact opens_before_of_mem_within negates.opens each member

/-- In a row, what a part stands behind is read if the commands before it settle. -/
theorem opens_before_of_mem_joinParts {joint : String} {before : Row} {last : Pipeline}
    (joins : ∀ region : Region, region.IsBare →
      Lexer.scan? ⟨⟨region, false⟩, 0⟩ joint.toList = some Lexer.initial)
    (settled : ∀ command ∈ before.commands ++ [last.command], Settles command.print)
    (each : ∀ command ∈ before.commands ++ [last.command], ∀ part ∈ command.parts,
      Opens part.before)
    (inBefore : ∀ part ∈ before.parts, Opens part.before) {part : Part}
    (member : part ∈ joinParts joint before.parts last.parts before.print last.print) :
    Opens part.before := by
  rcases List.mem_append.mp member with ofBefore | ofLast
  · have start : Passes "" := rfl
    exact opens_before_of_mem_within start.opens inBefore ofBefore
  · have settles := before.settles_print fun command inside =>
      settled command (List.mem_append_left _ inside)
    have inLast := Pipeline.opens_before (each _ (List.mem_append_right _ List.mem_cons_self))
    exact opens_before_of_mem_within (settles.passes_append joins).opens inLast ofLast

theorem Row.opens_before : ∀ row : Row, (∀ command ∈ row.commands, Settles command.print) →
    (∀ command ∈ row.commands, ∀ part ∈ command.parts, Opens part.before) →
    ∀ part ∈ row.parts, Opens part.before
  | .single _, _, each, part, member =>
    Pipeline.opens_before (each _ (List.mem_singleton_self _)) part member
  | .both before _, settled, each, _, member =>
    opens_before_of_mem_joinParts joins_and settled each
      (before.opens_before (fun command inside => settled command (List.mem_append_left _ inside))
        fun command inside => each command (List.mem_append_left _ inside)) member
  | .either before _, settled, each, _, member =>
    opens_before_of_mem_joinParts joins_or settled each
      (before.opens_before (fun command inside => settled command (List.mem_append_left _ inside))
        fun command inside => each command (List.mem_append_left _ inside)) member

/-- Where a part of a settled command stands, the shell is at the start of a word. -/
theorem Command.IsSettled.opens_before {command : Command} (settled : command.IsSettled) :
    ∀ part ∈ command.parts, Opens part.before := by
  have start : Passes "" := rfl
  induction command using Command.induction with
  | leaf leaf =>
    intro part member
    obtain rfl := List.mem_singleton.mp member
    exact start.opens
  | idle =>
    intro part member
    obtain rfl := List.mem_singleton.mp member
    exact start.opens
  | subshell bindings body inductionHypothesis =>
    intro part member
    rcases List.mem_cons.mp member with rfl | inside
    · exact start.opens
    · have opening : Opens "( " := ⟨1, rfl⟩
      have exported := settled.exports bindings body (mem_contents_self _)
      refine opens_before_of_mem_within opening (fun inner innerMember => ?_) inside
      refine opens_before_of_mem_within exported.opens (body.opens_before ?_ ?_) innerMember
      · exact fun command member => (settled.of_mem_commands member).settles_print
      · exact fun command member => inductionHypothesis command member
          (settled.of_mem_commands member)

/-! ### Closed groups -/

/-- A script that stands in parentheses in a text: nothing takes the meaning from the parenthesis
before it, and that one is closed by the parenthesis behind it. -/
structure Part.IsClosed (part : Part) (body : Script) : Prop where
  live : ∃ opened, Lexer.initial.scan? part.before.toList = some opened ∧
    opened.mode.isLive = true
  closed : Lexer.initial.behind? (" " ++ body.print ++ " )" ++ part.behind).toList =
    some part.behind.toList

/-- A command whose text is complete, and all of whose groups are closed where they end. -/
structure Command.IsClosed (command : Command) : Prop where
  complete : isComplete command.print = true
  whole : ∃ inside, command.print.toList = '(' :: inside ∧ Lexer.initial.behind? inside = some []
  groups : ∀ part ∈ command.parts, ∀ body, part.command = .subshell body →
    part.IsIn command.print ∧ part.IsClosed body

/-- Reading goes on as at the start of a text behind a blank. -/
theorem behind?_blank_append (text : String) :
    Lexer.initial.behind? (" " ++ text).toList = Lexer.initial.behind? text.toList := by
  have blank : Lexer.initial.scan? " ".toList = some Lexer.initial := rfl
  rw [String.toList_append, Lexer.behind?_append blank]

theorem Settles.behind? {text : String} (settles : Settles text) (behind : String) :
    Lexer.initial.behind? (" " ++ text ++ " )" ++ behind).toList = some behind.toList := by
  obtain ⟨region, bare, scanned⟩ := settles
  have closes : Lexer.behind? ⟨⟨region, false⟩, 0⟩ (" )".toList ++ behind.toList) =
      some behind.toList := by
    rcases bare with rfl | rfl <;> rfl
  rw [String.append_assoc, String.append_assoc, behind?_blank_append, String.toList_append,
    Lexer.behind?_append scanned, String.toList_append, closes]

theorem Command.IsSettled.isClosed {body : Script}
    (settled : (Command.subshell body).IsSettled) : (Command.subshell body).IsClosed := by
  have closes : ∀ part ∈ (Command.subshell body).parts, ∀ inner,
      part.command = .subshell inner → part.IsClosed inner := by
    intro part member inner same
    have inside : .subshell inner ∈ (Command.subshell body).contents :=
      same ▸ List.mem_map_of_mem member
    obtain ⟨bindings, row⟩ := inner
    obtain ⟨depth, scanned⟩ := settled.opens_before part member
    exact ⟨⟨_, scanned, rfl⟩, (settled.settles_body inside).behind? part.behind⟩
  refine ⟨settled.settles_print.isComplete, ?_, fun part member inner same =>
    ⟨isIn_print _ part member, closes part member inner same⟩⟩
  have outermost := (closes ⟨"", .subshell body, ""⟩ List.mem_cons_self body rfl).closed
  rw [String.append_empty] at outermost
  refine ⟨_, ?_, outermost⟩
  rw [print, grouped, String.toList_append, String.toList_append, String.toList_append,
    String.toList_append]
  rfl

/-- A group is not closed where it ends if its last text ends in a comment. -/
theorem not_isClosed_of_comment {part : Part} {bindings : List (String × String)} {leaf : Leaf}
    (exported : Passes (printExports bindings))
    (commented : Lexer.initial.scan? leaf.print.toList = some ⟨⟨.comment, false⟩, 0⟩) :
    ¬ part.IsClosed (.exports bindings (.single (.plain (.leaf leaf)))) := by
  intro isClosed
  have closed := isClosed.closed
  have closing : Lexer.scan? ⟨⟨.comment, false⟩, 0⟩ " )".toList =
      some ⟨⟨.comment, false⟩, 0⟩ := rfl
  rw [String.append_assoc, String.append_assoc, behind?_blank_append, Script.print,
    String.append_assoc, String.toList_append, Lexer.behind?_append exported, Row.print,
    Pipeline.print, Command.print, String.toList_append, Lexer.behind?_append commented,
    String.toList_append, Lexer.behind?_append closing] at closed
  exact absurd (length_lt_of_restBehind? closed) (Nat.lt_irrefl _)

end Taskbook.Shell
