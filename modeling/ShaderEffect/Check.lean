import ShaderEffect.Check.Body
import ShaderEffect.Check.Declaration

/-!
# Validation

All rules that an effect has to keep to be compiled. Every rule is checked, so that all problems of
an effect are reported at once.
-/

namespace ShaderEffect

/-- The violations in the declaration of an effect, apart from its shader bodies. -/
def declarationFindings (decl : TypeDecl) (effect : Effect) : List Finding :=
  checkEffect decl ++ checkNames decl effect ++ checkLiterals decl effect ++
    checkMethods decl effect

/-- The violations in the shader bodies of an effect. -/
def bodyFindings (decl : TypeDecl) (effect : Effect) : List Finding :=
  effect.methods.flatMap (checkBody (memberNames decl effect) effect)

/-- The outcome of validation, and what was reported up to then. -/
structure ValidationReport where
  valid : Bool
  diagnostics : Diagnostics

/-- Checks an effect against all rules, in their order, and reports to a sink: violations as errors
and remarks as warnings. The effect is valid if no errors were counted. -/
def validateInto (decl : TypeDecl) (effect : Effect) (sink : Diagnostics) : ValidationReport :=
  let counter := ErrorCounter.reportAll { sink }
    ((declarationFindings decl effect).map Finding.toDiagnostic)
  let counter := counter.reportAll ((checkUsage decl effect).map Remark.toDiagnostic)
  let counter := effect.methods.foldl (fun counter method =>
    counter.reportAll
      ((checkBody (memberNames decl effect) effect method).map Finding.toDiagnostic)) counter
  { valid := counter.errors == 0, diagnostics := counter.sink }

/-- What is wrong with an effect, in the order of the rules. -/
def validationDiagnostics (decl : TypeDecl) (effect : Effect) : Diagnostics :=
  (validateInto decl effect []).diagnostics

/-- Whether an effect keeps all rules. Remarks do not count. -/
def isValid (decl : TypeDecl) (effect : Effect) : Bool :=
  (validateInto decl effect []).valid

end ShaderEffect
