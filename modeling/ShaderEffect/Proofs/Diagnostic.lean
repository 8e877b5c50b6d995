import ShaderEffect.Check

/-!
# Reports through a counter

A build and a validation hand everything that they find to a counter, which passes it on to a sink.
What was in the sink before stays in front and does not change the outcome. The number of errors that
was counted is the number of faults or violations, so a model is given out, or found valid, exactly
if there are none.
-/

namespace ShaderEffect

/-! ## Sinks and counters -/

namespace Diagnostics

theorem errorCount_append (first second : Diagnostics) :
    errorCount (first ++ second) = first.errorCount + second.errorCount := by
  simp [errorCount, count]

theorem errorCount_cons (first : Diagnostic) (rest : Diagnostics) :
    errorCount (first :: rest) =
      (if first.severity = .error then 1 else 0) + rest.errorCount := by
  by_cases h : first.severity = .error
  · simp [errorCount, count, h, Nat.add_comm]
  · simp [errorCount, count, h]

/-- Of reports that are all of one severity, all are errors or none is. -/
theorem errorCount_map {α : Type} {f : α → Diagnostic} {severity : Severity}
    (h : ∀ x, (f x).severity = severity) (xs : List α) :
    errorCount (xs.map f) = if severity = .error then xs.length else 0 := by
  induction xs with
  | nil => simp [errorCount, count]
  | cons x rest ih =>
      rw [List.map_cons, errorCount_cons, ih, h, List.length_cons]
      split <;> omega

theorem forward_eq (source target : Diagnostics) : source.forward target = target ++ source := by
  induction source generalizing target with
  | nil => simp [forward]
  | cons first rest ih =>
      rw [forward, List.foldl_cons, ← forward, ih, report, List.append_assoc]
      rfl

end Diagnostics

/-- A counter hands all reports on and counts the errors among them. -/
theorem ErrorCounter.reportAll_eq (counter : ErrorCounter) (diagnostics : Diagnostics) :
    counter.reportAll diagnostics =
      { sink := counter.sink ++ diagnostics
        errors := counter.errors + diagnostics.errorCount } := by
  induction diagnostics generalizing counter with
  | nil => simp [reportAll, Diagnostics.errorCount, Diagnostics.count]
  | cons first rest ih =>
      obtain ⟨severity, location, message⟩ := first
      rw [reportAll, List.foldl_cons, ← reportAll, ih, Diagnostics.errorCount_cons]
      by_cases h : severity = .error
      · simp [report, Diagnostics.report, h, Nat.add_assoc]
      · simp [report, Diagnostics.report, h]

/-! ## Builds -/

theorem Diagnostics.errorCount_faults (faults : List Fault) :
    errorCount (faults.map Fault.toDiagnostic) = faults.length := by
  have herror (fault : Fault) : fault.toDiagnostic.severity = .error := rfl
  rw [errorCount_map herror, if_pos rfl]

namespace TypeDecl

/-- The faults are reported and counted, and without faults there is a model. -/
theorem buildInto_of_isEffectCandidate {decl : TypeDecl} (h : decl.isEffectCandidate = true)
    (sink : Diagnostics) :
    decl.buildInto sink =
      { result :=
          if decl.scan.2.isEmpty then .ok decl.scan.1
          else .error (.structural decl.name decl.scan.2.length)
        diagnostics := sink ++ decl.scan.2.map Fault.toDiagnostic } := by
  rw [buildInto, if_pos h]
  obtain ⟨effect, faults⟩ := decl.scan
  simp only [ErrorCounter.reportAll_eq, Diagnostics.errorCount_faults]
  cases faults with
  | nil => rfl
  | cons fault rest => simp

theorem buildInto_of_not_isEffectCandidate {decl : TypeDecl} (h : decl.isEffectCandidate = false)
    (sink : Diagnostics) :
    decl.buildInto sink = { result := .error (.notAnEffect decl.name), diagnostics := sink } := by
  rw [buildInto, h]
  rfl

/-- There is a model exactly of a declaration of an effect without faults. -/
theorem build_eq_ok_iff {decl : TypeDecl} {effect : Effect} :
    decl.build.result = .ok effect ↔
      decl.isEffectCandidate = true ∧ decl.scan = (effect, []) := by
  rw [build]
  cases h : decl.isEffectCandidate with
  | false => simp [buildInto_of_not_isEffectCandidate h]
  | true =>
      rw [buildInto_of_isEffectCandidate h]
      obtain ⟨found, - | ⟨fault, rest⟩⟩ := decl.scan
      · simp
      · simp

/-- What is in the sink before a build stays in front, and the outcome does not depend on it. -/
theorem buildInto_eq (decl : TypeDecl) (sink : Diagnostics) :
    decl.buildInto sink =
      { result := decl.build.result, diagnostics := sink ++ decl.build.diagnostics } := by
  rw [build]
  cases h : decl.isEffectCandidate with
  | true => simp [buildInto_of_isEffectCandidate h]
  | false => simp [buildInto_of_not_isEffectCandidate h]

end TypeDecl

/-! ## Validation -/

theorem Diagnostics.errorCount_findings (findings : List Finding) :
    errorCount (findings.map Finding.toDiagnostic) = findings.length := by
  have herror (finding : Finding) : finding.toDiagnostic.severity = .error := rfl
  rw [errorCount_map herror, if_pos rfl]

theorem Diagnostics.errorCount_remarks (remarks : List (Located Remark)) :
    errorCount (remarks.map Remark.toDiagnostic) = 0 := by
  have hwarning (remark : Located Remark) : (Remark.toDiagnostic remark).severity = .warning := rfl
  rw [errorCount_map hwarning, if_neg (by decide)]

theorem ErrorCounter.foldl_reportAll {α : Type} (f : α → Diagnostics) (xs : List α)
    (counter : ErrorCounter) :
    xs.foldl (fun counter x => counter.reportAll (f x)) counter =
      counter.reportAll (xs.flatMap f) := by
  induction xs generalizing counter with
  | nil => rfl
  | cons x rest ih => rw [List.foldl_cons, ih, List.flatMap_cons, reportAll, reportAll, reportAll,
      List.foldl_append]

/-- The rules report what they find in their order, and an effect is valid if there is no
violation. -/
theorem validateInto_eq (decl : TypeDecl) (effect : Effect) (sink : Diagnostics) :
    validateInto decl effect sink =
      { valid := (declarationFindings decl effect).isEmpty && (bodyFindings decl effect).isEmpty
        diagnostics := sink ++ (declarationFindings decl effect).map Finding.toDiagnostic ++
          (checkUsage decl effect).map Remark.toDiagnostic ++
          (bodyFindings decl effect).map Finding.toDiagnostic } := by
  have hbodies : (effect.methods.flatMap fun method =>
      (checkBody (memberNames decl effect) effect method).map Finding.toDiagnostic) =
        (bodyFindings decl effect).map Finding.toDiagnostic := by
    rw [bodyFindings, List.map_flatMap]
  simp only [validateInto]
  rw [ErrorCounter.foldl_reportAll, hbodies]
  simp only [ErrorCounter.reportAll_eq, Diagnostics.errorCount_findings,
    Diagnostics.errorCount_remarks]
  cases declarationFindings decl effect <;> cases bodyFindings decl effect <;> simp

theorem isValid_eq (decl : TypeDecl) (effect : Effect) :
    isValid decl effect =
      ((declarationFindings decl effect).isEmpty && (bodyFindings decl effect).isEmpty) := by
  rw [isValid, validateInto_eq]

theorem validationDiagnostics_eq (decl : TypeDecl) (effect : Effect) :
    validationDiagnostics decl effect =
      (declarationFindings decl effect).map Finding.toDiagnostic ++
        (checkUsage decl effect).map Remark.toDiagnostic ++
        (bodyFindings decl effect).map Finding.toDiagnostic := by
  simp [validationDiagnostics, validateInto_eq]

/-- What is in the sink before a validation stays in front, and the outcome does not depend on
it. -/
theorem validateInto_eq_append (decl : TypeDecl) (effect : Effect) (sink : Diagnostics) :
    validateInto decl effect sink =
      { valid := isValid decl effect
        diagnostics := sink ++ validationDiagnostics decl effect } := by
  simp [validateInto_eq, isValid_eq, validationDiagnostics_eq]

end ShaderEffect
