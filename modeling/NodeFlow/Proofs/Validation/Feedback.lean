import NodeFlow.Validation.Report

namespace NodeFlow

namespace Report

inductive Numbered (number : Nat) : Issue → String → Prop
  | plain (check : Check) (id message : String) (severity : Severity) :
    Numbered number ⟨check, id, message, severity, none⟩ (toString number ++ ". [" ++ check.name ++ "] " ++ message)
  | advised (check : Check) (id message : String) (severity : Severity) (name : String) :
    Numbered number ⟨check, id, message, severity, some name⟩
      (toString number ++ ". [" ++ check.name ++ "] " ++ message ++ " - Did you mean '" ++ name ++ "'?")

-- Each issue has one line: an error among the errors under the next number, and a warning among the warnings.
inductive Filed : Nat → List Issue → List String → List String → Prop
  | nil (number : Nat) : Filed number [] [] []
  | error {number : Nat} {issue : Issue} {line : String} {rest : List Issue} {errors warnings : List String}
      (severity : issue.severity = .error) (written : Numbered number issue line)
      (behind : Filed (number + 1) rest errors warnings) : Filed number (issue :: rest) (line :: errors) warnings
  | warning {number : Nat} {issue : Issue} {rest : List Issue} {errors warnings : List String}
      (severity : issue.severity = .warning) (behind : Filed number rest errors warnings) :
      Filed number (issue :: rest) errors (("  - [" ++ issue.check.name ++ "] " ++ issue.message) :: warnings)

def headed (heading : String) (lines : List String) : List String :=
  if lines.isEmpty then [] else heading :: lines

theorem headed_nil (heading : String) : headed heading [] = [] := rfl

theorem headed_of_ne_nil (heading : String) {lines : List String} (inhabited : lines ≠ []) :
    headed heading lines = heading :: lines :=
  if_neg (by simpa using inhabited)

theorem numbered_errorLine (number : Nat) (issue : Issue) : Numbered number issue (errorLine number issue) := by
  obtain ⟨check, id, message, severity, suggestion⟩ := issue
  cases suggestion with
  | none =>
    have plain : Numbered number _ _ := .plain check id message severity
    simpa [errorLine] using plain
  | some name =>
    have advised : Numbered number _ _ := .advised check id message severity name
    simpa [errorLine, String.append_assoc] using advised

theorem filed_issues (number : Nat) (issues : List Issue) :
    Filed number issues (numbered number (issues.filter fun issue => issue.severity == .error))
      ((issues.filter fun issue => issue.severity == .warning).map warningLine) := by
  induction issues generalizing number with
  | nil => exact .nil number
  | cons issue rest ih =>
    cases severity : issue.severity with
    | error => simpa [severity, numbered] using Filed.error severity (numbered_errorLine number issue) (ih (number + 1))
    | warning => simpa [severity, warningLine] using Filed.warning severity (ih number)

theorem length_numbered (number : Nat) (issues : List Issue) : (numbered number issues).length = issues.length := by
  induction issues generalizing number with
  | nil => rfl
  | cons issue rest ih => rw [numbered, List.length_cons, ih, List.length_cons]

variable (report : Report)

theorem issues_eq_nil_iff : report.issues = [] ↔ report.errors = [] ∧ report.warnings = [] := by
  unfold errors warnings
  cases report.issues with
  | nil => simp
  | cons issue rest => cases severity : issue.severity <;> simp [severity]

theorem isValid_eq_false_iff : report.isValid = false ↔ report.errors ≠ [] := by
  simp [isValid, errors, Issue.isError]

theorem lines_of_issues (found : report.issues ≠ []) : report.lines =
    headed ("VALIDATION ERRORS (" ++ toString report.errors.length ++ " error" ++
        (if report.errors.length = 1 then "" else "s") ++ "):") (numbered 1 report.errors) ++
      headed ("\nWARNINGS (" ++ toString report.warnings.length ++ "):") (report.warnings.map warningLine) ++
      (if report.checkedAgainstCatalog then [] else ["\n" ++ structuralOnly]) ++ ["\n" ++ request] := by
  have inhabited : report.issues.isEmpty = false := by simpa using found
  have errors : (numbered 1 report.errors).isEmpty = report.errors.isEmpty := by
    cases report.errors <;> rfl
  rw [lines, inhabited, headed, headed, errors, List.isEmpty_map]
  rfl

theorem lines_of_clean (clean : report.issues = []) : report.lines =
    passed :: (if report.checkedAgainstCatalog then [] else [structuralOnly]) := by
  rw [lines, clean]
  rfl

section FirstWords

variable {report}

theorem render_of_lines {words rest : String} {later : List String} (first : report.lines = (words ++ rest) :: later) :
    ∃ after, report.render = words ++ after :=
  ⟨_, by rw [render, first, String.intercalate_cons_append]⟩

theorem words_of_clean (clean : report.issues = []) : ∃ rest, report.render = "VALIDATION PASSED" ++ rest := by
  have words : passed = "VALIDATION PASSED" ++ ": Workflow is valid." := rfl
  have lines := report.lines_of_clean clean
  rw [words] at lines
  exact render_of_lines lines

theorem words_of_failed (failed : report.errors ≠ []) : ∃ rest, report.render = "VALIDATION ERRORS (" ++ rest := by
  have found : report.issues ≠ [] := fun clean => failed (report.issues_eq_nil_iff.1 clean).1
  have listed : numbered 1 report.errors ≠ [] := fun none =>
    failed (List.eq_nil_of_length_eq_zero (by rw [← length_numbered 1, none, List.length_nil]))
  have lines := report.lines_of_issues found
  simp only [headed_of_ne_nil _ listed, List.cons_append, String.append_assoc] at lines
  exact render_of_lines lines

theorem words_of_warned (found : report.issues ≠ []) (valid : report.errors = []) :
    ∃ rest, report.render = "\nWARNINGS (" ++ rest := by
  have listed : report.warnings.map warningLine ≠ [] := fun none =>
    found (report.issues_eq_nil_iff.2 ⟨valid, List.map_eq_nil_iff.1 none⟩)
  have lines := report.lines_of_issues found
  simp only [valid, numbered, headed_nil, headed_of_ne_nil _ listed, List.nil_append, List.cons_append,
    String.append_assoc] at lines
  exact render_of_lines lines

-- A text that opens with some words does not open with others, unless one of the two opens the other.
theorem apart_of_words {text first second : String} (words : ∃ rest, text = first ++ rest)
    (others : ∃ rest, text = second ++ rest) : first.toList <+: second.toList ∨ second.toList <+: first.toList := by
  obtain ⟨rest, rfl⟩ := words
  obtain ⟨other, same⟩ := others
  have texts := congrArg String.toList same
  rw [String.toList_append, String.toList_append] at texts
  exact List.prefix_or_prefix_of_prefix ⟨_, texts⟩ ⟨_, rfl⟩

theorem errors_iff_words :
    (∃ rest, report.render = "VALIDATION ERRORS (" ++ rest) ↔ report.errors ≠ [] := by
  refine ⟨fun words valid => ?_, words_of_failed⟩
  by_cases clean : report.issues = []
  · exact absurd (apart_of_words words (words_of_clean clean)) (by decide)
  · exact absurd (apart_of_words words (words_of_warned clean valid)) (by decide)

theorem clean_iff_words : (∃ rest, report.render = "VALIDATION PASSED" ++ rest) ↔ report.issues = [] := by
  refine ⟨fun words => Classical.byContradiction fun found => ?_, words_of_clean⟩
  by_cases valid : report.errors = []
  · exact absurd (apart_of_words words (words_of_warned found valid)) (by decide)
  · exact absurd (apart_of_words words (words_of_failed valid)) (by decide)

end FirstWords

theorem render_congr {report other : Report} (errors : other.errors = report.errors)
    (warnings : other.warnings = report.warnings)
    (checked : other.checkedAgainstCatalog = report.checkedAgainstCatalog) : other.render = report.render := by
  by_cases clean : report.issues = []
  · have alike : other.issues = [] := by
      rw [issues_eq_nil_iff, errors, warnings, ← issues_eq_nil_iff]
      exact clean
    rw [render, render, lines_of_clean _ clean, lines_of_clean _ alike, checked]
  · have alike : other.issues ≠ [] := by
      rw [Ne, issues_eq_nil_iff, errors, warnings, ← issues_eq_nil_iff]
      exact clean
    rw [render, render, lines_of_issues _ clean, lines_of_issues _ alike, errors, warnings, checked]

-- The text lists every issue once and in order, the errors before the warnings, and its first words tell the verdict.
theorem render_exact :
    (∀ other : Report, other.errors = report.errors → other.warnings = report.warnings →
      other.checkedAgainstCatalog = report.checkedAgainstCatalog → other.render = report.render) ∧
    (report.issues = [] → report.render = "\n".intercalate (
      passed :: (if report.checkedAgainstCatalog then [] else [structuralOnly]))) ∧
    (report.issues ≠ [] → ∃ errors warnings, Filed 1 report.issues errors warnings ∧
      report.render = "\n".intercalate (
        headed ("VALIDATION ERRORS (" ++ toString errors.length ++ " error" ++
          (if errors.length = 1 then "" else "s") ++ "):") errors ++
        headed ("\nWARNINGS (" ++ toString warnings.length ++ "):") warnings ++
        (if report.checkedAgainstCatalog then [] else ["\n" ++ structuralOnly]) ++ ["\n" ++ request])) ∧
    ((∃ rest, report.render = "VALIDATION ERRORS (" ++ rest) ↔ report.isValid = false) ∧
    ((∃ rest, report.render = "VALIDATION PASSED" ++ rest) ↔ report.issues = []) := by
  refine ⟨fun other => render_congr, fun clean => ?_, fun found => ?_, ?_, clean_iff_words⟩
  · rw [render, lines_of_clean _ clean]
  · refine ⟨_, _, filed_issues 1 report.issues, ?_⟩
    rw [render, lines_of_issues _ found, length_numbered, List.length_map]
    rfl
  · rw [isValid_eq_false_iff, errors_iff_words]

example : (Report.mk [.warning .valueRange "1" "high", ⟨.typeExists, "2", "no type", .error, some "Blur"⟩,
      .error .linkValidity "2" "no node"] 2 true).render =
    "VALIDATION ERRORS (2 errors):\n1. [type-exists] no type - Did you mean 'Blur'?\n2. [link-validity] no node\n" ++
    "\nWARNINGS (1):\n  - [value-range] high\n\nFix ALL errors and provide corrected workflow JSON." := by
  decide +kernel

end Report

end NodeFlow
