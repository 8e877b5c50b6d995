import ShaderEffect.Check
import ShaderEffect.Proofs.Model

/-!
# The shape of methods

What validation asks of the declared methods: of the signature of each method that shares its name
with a shader method, and of the outputs and semantics of the shader method itself.
-/

namespace ShaderEffect

/-- The violations in the outputs and the semantics of a shader method, whatever its signature. -/
def shapeFindings (method : ShaderMethod) : List Finding :=
  (match method.stage with
    | .vertex => checkVertexOutputs method
    | .fragment => checkFragmentOutputs method) ++
    checkRepeatedSemantics method .input ++ checkRepeatedSemantics method .output

/-- A method that has the signature of a shader method; the names of members are given. -/
structure MethodDecl.FitsShader (members : List String) (method : MethodDecl) : Prop where
  void : method.returnType.isVoid = true
  plain : method.typeParameters = []
  modes : ∀ parameter ∈ method.parameters, parameter.mode = .byValue ∨ parameter.mode = .out
  names : ∀ parameter ∈ method.parameters,
    isReserved parameter.name = false ∧ parameter.name ∉ members

theorem checkMethod_eq_nil {decl : MethodDecl} {method : ShaderMethod} :
    checkMethod decl method = [] ↔ decl.returnType.isVoid = true ∧ decl.typeParameters = [] ∧
      (∀ parameter ∈ decl.parameters, parameter.mode = .byValue ∨ parameter.mode = .out) ∧
      shapeFindings method = [] := by
  simp only [checkMethod, shapeFindings, List.append_eq_nil_iff, List.flatMap_eq_nil_iff, and_assoc]
  refine and_congr ?_ (and_congr ?_ (and_congr_left' (forall₂_congr fun parameter _ => ?_)))
  · by_cases hvoid : decl.returnType.isVoid = true
    · simp [hvoid]
    · simp [hvoid]
  · by_cases hplain : decl.typeParameters = []
    · simp [hplain]
    · simp [hplain]
  · cases parameter.mode <;> simp [PassMode.forbidden?]

theorem checkMethodNames_eq_nil {members : List String} {effect : Effect} {method : MethodDecl}
    (h : isReserved method.name = false) :
    checkMethodNames members effect method = [] ↔
      ∀ shader, effect.method? method.name = some shader → ∀ parameter ∈ method.parameters,
        isReserved parameter.name = false ∧ parameter.name ∉ members := by
  simp only [checkMethodNames, checkReserved, h, Bool.false_eq_true, if_false, List.nil_append]
  cases effect.method? method.name with
  | none => simp
  | some shader => simp

section

variable {decl : TypeDecl} {effect : Effect}

theorem checkMethods_eq_nil :
    checkMethods decl effect = [] ↔ ∀ method ∈ decl.methods, ∀ shader,
      effect.method? method.name = some shader → checkMethod method shader = [] := by
  simp only [checkMethods, List.flatMap_eq_nil_iff]
  refine forall₂_congr fun method _ => ?_
  cases effect.method? method.name <;> simp

/-- The shader methods of a valid effect have the outputs and semantics that they should have. -/
theorem shapeFindings_of_isValid (hb : decl.build.result = .ok effect)
    (hv : isValid decl effect = true) {shader : ShaderMethod} (hm : shader ∈ effect.methods) :
    shapeFindings shader = [] := by
  obtain ⟨declared, hd, hscanned⟩ := Effect.mem_methods hb hm
  simp only [isValid_eq, declarationFindings, Bool.and_eq_true, List.isEmpty_iff,
    List.append_eq_nil_iff] at hv
  have hfound : effect.method? declared.name = some shader := by
    rw [← hscanned.name_eq]
    exact Effect.method?_of_mem hb hm
  exact (checkMethod_eq_nil.mp (checkMethods_eq_nil.mp hv.1.2 declared hd shader hfound)).2.2.2

end

end ShaderEffect
