/-
Which values a rendering puts between double quotes as they are.

Values of variables stay shell text, so that a command in them is substituted when the rendering
runs. They are written between double quotes without any change. Such a quotation is closed by the
quote written behind the value exactly if the value stays between double quotes, for the shell that
runs the rendering. That is the one thing that is asked of a value, wherever in a rendering it is
set.

The texts of a commit are put between double quotes without any change, too, and the same is asked
of them. Nothing says of them that they are shell text.
-/

import Taskbook.Proofs.Environment
import Taskbook.Proofs.Rendering.Unfolding
import Taskbook.Proofs.Shell.Parts
import Taskbook.Proofs.Shell.Quotation

namespace Taskbook

namespace Shell

/-! ### Values of variables -/

/-- The quotation of the value of a variable that a subshell sets, between other variables. -/
def Part.quotation (part : Part) (front : List (String × String)) (name value : String)
    (back : List (String × String)) (body : Row) : Quotation :=
  ⟨part.before ++ "( " ++ printExports front ++ "export " ++ name ++ "=", value,
    "; " ++ printExports back ++ body.print ++ " )" ++ part.behind⟩

theorem printExports_append (front back : List (String × String)) :
    printExports (front ++ back) = printExports front ++ printExports back := by
  simp [printExports]

theorem Part.IsIn.text_quotation {part : Part} {text : String} (isIn : part.IsIn text)
    {front back : List (String × String)} {name value : String} {body : Row}
    (sets : part.command = .subshell (.exports (front ++ (name, value) :: back) body)) :
    (part.quotation front name value back body).text = text := by
  rw [← isIn, sets, Command.print, grouped, Script.print, printExports_append,
    ← List.singleton_append, printExports_append]
  simp only [Quotation.text, quotation, printExports, assignment, List.map_singleton,
    String.join_cons, String.join_nil, String.append_assoc, String.append_empty]
  rfl

/-- What is joined stands in the whole. -/
theorem exists_of_mem_intercalate {pieces : List String} {piece : String}
    (member : piece ∈ pieces) (joint : String) :
    ∃ before behind, joint.intercalate pieces = before ++ piece ++ behind := by
  induction pieces with
  | nil => cases member
  | cons first rest inductionHypothesis =>
    cases rest with
    | nil =>
      obtain rfl := List.mem_singleton.mp member
      exact ⟨"", "", by simp⟩
    | cons second others =>
      rw [String.intercalate_cons_cons]
      rcases List.mem_cons.mp member with rfl | inRest
      · exact ⟨"", joint ++ joint.intercalate (second :: others), by simp [String.append_assoc]⟩
      · obtain ⟨before, behind, same⟩ := inductionHypothesis inRest
        exact ⟨first ++ joint ++ before, behind, by rw [same]; simp [String.append_assoc]⟩

end Shell

/-! ### Texts of a commit -/

namespace Task

open Shell

/-- A part of the author that a commit puts between double quotes if it is given, with what stands
in front. -/
def authorTexts (lead : String) (part : Argument) : List (String × Value) :=
  ((part.value?.filter Value.isTruthy).map fun given => (lead, given)).toList

/-- The texts that a commit puts between double quotes, with what stands in front of each. -/
def commitTexts (message : Value) (username email : Argument) : List (String × Value) :=
  authorTexts "git config user.name " username ++ authorTexts "git config user.email " email ++
    [("-m ", message)]

theorem mem_of_authorCommand {lead : String} {part : Argument} {pieces : List String}
    (made : authorCommand lead part = .ok pieces) : ∀ entry ∈ authorTexts lead part,
      ∃ text, entry.2.text = .ok text ∧ entry.1 ++ "\"" ++ text ++ "\"" ∈ pieces := by
  intro entry member
  obtain ⟨given, asked, made⟩ := bind_eq_ok.mp made
  cases part with
  | refusing fault => cases asked
  | value other =>
    obtain rfl := Except.ok.inj asked
    obtain ⟨_, kept, rfl⟩ := Option.map_eq_some_iff.mp (Option.mem_toList.mp member)
    obtain ⟨same, truthy⟩ := Option.filter_eq_some_iff.mp kept
    obtain rfl := Option.some.inj same
    rw [if_pos truthy] at made
    obtain ⟨text, worded, same⟩ := bind_eq_ok.mp made
    obtain rfl := Except.ok.inj same
    exact ⟨text, worded, List.mem_singleton_self _⟩

/-- A command is a chain of commands, one for each text. -/
theorem commitCommand_eq_ok {message : Value} {username email add : Argument} {command : String}
    (made : commitCommand message username email add = .ok command) :
    ∃ pieces, command = " && ".intercalate pieces ∧
      ∀ entry ∈ commitTexts message username email, ∃ lead text, entry.2.text = .ok text ∧
        lead ++ entry.1 ++ "\"" ++ text ++ "\"" ∈ pieces := by
  obtain ⟨user, named, made⟩ := bind_eq_ok.mp made
  obtain ⟨mail, mailed, made⟩ := bind_eq_ok.mp made
  obtain ⟨add, -, made⟩ := bind_eq_ok.mp made
  obtain ⟨written, worded, same⟩ := bind_eq_ok.mp made
  obtain rfl := Except.ok.inj same
  refine ⟨_, rfl, fun entry member => ?_⟩
  rcases List.mem_append.mp member with inPieces | isMessage
  · rcases List.mem_append.mp inPieces with isUser | isMail
    · obtain ⟨text, textWorded, inUser⟩ := mem_of_authorCommand named entry isUser
      refine ⟨"", text, textWorded, List.mem_append_left _ (List.mem_append_left _ ?_)⟩
      rwa [String.empty_append]
    · obtain ⟨text, textWorded, inMail⟩ := mem_of_authorCommand mailed entry isMail
      refine ⟨"", text, textWorded, List.mem_append_left _ (List.mem_append_right _ ?_)⟩
      rwa [String.empty_append]
  · obtain rfl := List.mem_singleton.mp isMessage
    refine ⟨"git commit " ++ (if add.isTruthy then "-a " else ""), written, worded,
      List.mem_append_right _ (List.mem_singleton.mpr ?_)⟩
    simp only [String.append_assoc]
    rfl

/-- Each of the texts stands between double quotes in the command. -/
theorem exists_quotation_of_commitCommand {message : Value} {username email add : Argument}
    {command : String}
    (made : commitCommand message username email add = .ok command) :
    ∀ entry ∈ commitTexts message username email, ∃ quotation : Quotation,
      quotation.text = command ∧ entry.2.text = .ok quotation.inside ∧
        ∃ lead, quotation.before = lead ++ entry.1 := by
  obtain ⟨pieces, rfl, each⟩ := commitCommand_eq_ok made
  intro entry member
  obtain ⟨lead, text, worded, among⟩ := each entry member
  obtain ⟨before, behind, joined⟩ := exists_of_mem_intercalate among " && "
  refine ⟨⟨before ++ lead ++ entry.1, text, behind⟩, ?_, worded, before ++ lead, rfl⟩
  rw [joined]
  simp only [Quotation.text, String.append_assoc]

/-- A commit is one more step, which runs the command. -/
theorem commit_eq_ok {task changed : Task} {message label : Value}
    {username email add env : Argument}
    (committed : task.commit message username email add label env = .ok changed) :
    ∃ command step, commitCommand message username email add = .ok command ∧
      step.action = .run (.str command) ∧ changed = task.addStep step := by
  obtain ⟨command, made, ran⟩ := bind_eq_ok.mp committed
  obtain ⟨given, -, ran⟩ := bind_eq_ok.mp ran
  obtain ⟨step, taken, same⟩ := bind_eq_ok.mp ran
  have isStep : (Env.ofValue given).map (Step.mk (.run (.str command)) label) = .ok step := taken
  obtain ⟨settings, -, rfl⟩ := map_eq_ok.mp isStep
  exact ⟨command, _, orFault_eq_ok.mp made, rfl, (Except.ok.inj same).symm⟩

/-- The double quote before each text of a commit is closed by the one behind it exactly if the
text stays between double quotes. -/
theorem commit_quotations (shell : Substituting) {task changed : Task} {message label : Value}
    {username email add env : Argument}
    (committed : task.commit message username email add label env = .ok changed) :
    ∃ command step, step.action = .run (.str command) ∧ changed = task.addStep step ∧
      ∀ entry ∈ commitTexts message username email, ∃ quotation : Quotation,
        quotation.text = command ∧ entry.2.text = .ok quotation.inside ∧
          (∃ lead, quotation.before = lead ++ entry.1) ∧
          (quotation.IsExact shell ↔ staysQuoted shell quotation.inside = true) := by
  obtain ⟨command, step, made, runs, rfl⟩ := commit_eq_ok committed
  refine ⟨command, step, runs, rfl, fun entry member => ?_⟩
  obtain ⟨quotation, same, worded, lead⟩ := exists_quotation_of_commitCommand made entry member
  exact ⟨quotation, same, worded, lead, quotation.isExact_iff⟩

end Task

namespace Registry

open Shell

/-! ### Quotations of renderings -/

/-- Wherever a rendering sets a variable, the double quote before its value is closed by the one
behind it exactly if the value stays between double quotes. A value without substitutions does
exactly if a backslash hides each of its double quotes and none hides its end. -/
theorem quotations_isExact (shell : Substituting) :
    (∀ (registry : Registry) (base name : Value) (text : String),
      (registry.render name base).result = .ok text →
      ∃ key task command, registry.resolve name = .ok (some (key, task)) ∧
        (registry.taskCommand base task).result = .ok command ∧ command.print = text ∧
        ∀ part ∈ command.parts, ∀ front variableName value back body,
          part.command = .subshell (.exports (front ++ (variableName, value) :: back) body) →
          (part.quotation front variableName value back body).text = text ∧
            ((part.quotation front variableName value back body).IsExact shell ↔
              staysQuoted shell value = true)) ∧
    ∀ value : String, (∀ character ∈ value.toList, character ≠ '`' ∧ character ≠ '$') →
      staysQuoted shell value = hidesQuotes value.toList := by
  refine ⟨?_, fun value plain => staysQuoted_eq_hidesQuotes plain⟩
  intro registry base name text rendered
  obtain ⟨key, task, command, found, commanded, rfl⟩ := render_eq_ok rendered
  refine ⟨key, task, command, found, commanded, rfl, ?_⟩
  intro part member front variableName value back body sets
  exact ⟨(command.isIn_print part member).text_quotation sets, Quotation.isExact_iff _⟩

/-- A task of a sample. The values of its variables have quotes that are hidden or in a
substitution. -/
def quotingTask : Task :=
  ⟨.str "a", .null, none, .null, [("B", "say \\\"hi\\\""), ("D", "$\x7bA:-\"b;c)d\"\x7d")],
    [⟨.run (.str "make"), .null, [("C", "x\\\\")]⟩]⟩

/-- The registry of the sample. -/
def quoting : Registry :=
  ⟨[("A", "$(date +\"%F)\")")], [("a", quotingTask)]⟩

/-- The text that the sample is rendered to. -/
def quotingText : String :=
  "( export A=\"$(date +\"%F)\")\"; export B=\"say \\\"hi\\\"\"; " ++
    "export D=\"$\x7bA:-\"b;c)d\"\x7d\"; ( export C=\"x\\\\\"; make ) )"

/-- The values of the sample stay between their quotes, as `quotations_isExact` has it. Two values
do not that leave a substitution open. -/
theorem quoting_isExact :
    (quoting.render (.str "a") .null).result = .ok quotingText ∧
    (∀ value ∈ ["$(date +\"%F)\")", "say \\\"hi\\\"", "$\x7bA:-\"b;c)d\"\x7d", "x\\\\"],
      staysQuoted .byNesting value = true) ∧
    (∀ value ∈ ["$\x7bA:-b", "`date"], staysQuoted .byNesting value = false) ∧
    (∃ key task command, quoting.resolve (.str "a") = .ok (some (key, task)) ∧
      (quoting.taskCommand .null task).result = .ok command ∧ command.print = quotingText ∧
      ∀ part ∈ command.parts, ∀ front variableName value back body,
        part.command = .subshell (.exports (front ++ (variableName, value) :: back) body) →
        (part.quotation front variableName value back body).text = quotingText ∧
          ((part.quotation front variableName value back body).IsExact .byNesting ↔
            staysQuoted .byNesting value = true)) ∧
    (∀ character ∈ "say \\\"hi\\\"".toList, character ≠ '`' ∧ character ≠ '$') ∧
    staysQuoted .byNesting "say \\\"hi\\\"" = hidesQuotes "say \\\"hi\\\"".toList := by
  have unfolds : Unfolds quoting .null [] [.str "a"] quotingTask.steps _ :=
    .run rfl rfl rfl .done
  have rendered : (quoting.render (.str "a") .null).result = .ok quotingText := by
    rw [render_of_unfolds rfl unfolds (frame_of_layer Env.layer_null rfl)]
    rfl
  have plain : ∀ character ∈ "say \\\"hi\\\"".toList, character ≠ '`' ∧ character ≠ '$' := by
    simp
  exact ⟨rendered, by decide, by decide,
    (quotations_isExact .byNesting).1 quoting .null (.str "a") quotingText rendered, plain,
    (quotations_isExact .byNesting).2 _ plain⟩

/-- A registry with a value that has double quotes which nothing hides. -/
def saying : Registry :=
  ⟨[], [("a", ⟨.str "a", .null, none, .null, [("X", "say \"hi\"")], []⟩)]⟩

/-- The quotation of the value is closed by a quote of the value, whatever the shell. -/
theorem not_isExact_of_doubleQuote :
    (saying.render (.str "a") .null).result = .ok "( export X=\"say \"hi\"\"; true )" ∧
      let quotation : Quotation := ⟨"( export X=", "say \"hi\"", "; true )"⟩
      quotation.text = "( export X=\"say \"hi\"\"; true )" ∧
        ∀ shell : Substituting, ¬ quotation.IsExact shell ∧
          (QuoteReader.opened : QuoteReader shell).behind? "say \"hi\"\"; true )".toList =
            some "hi\"\"; true )".toList := by
  have unfolds : Unfolds saying .null [] [.str "a"] [] [] := .done
  have rendered : (saying.render (.str "a") .null).result =
      .ok "( export X=\"say \"hi\"\"; true )" := by
    rw [render_of_unfolds rfl unfolds (frame_of_layer Env.layer_null rfl)]
    rfl
  refine ⟨rendered, rfl, fun shell => ⟨?_, rfl⟩⟩
  rw [Quotation.isExact_iff]
  exact Bool.eq_false_iff.mp rfl

end Registry

end Taskbook
