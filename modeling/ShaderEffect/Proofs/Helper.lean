import ShaderEffect.Proofs.Build
import ShaderEffect.Proofs.Shape

/-!
# Helper methods

A method without a stage is a helper of the host code and no part of the effect. The build takes
methods by their attributes, so that a helper leaves the model as it is, wherever it is declared.
Validation looks methods up by their names instead: a helper that shares its name with a shader
method is held to the rules for shader methods, and the outputs of the shader are checked once more.
This is all that a helper can change, and it is described exactly here.
-/

namespace ShaderEffect

/-- A declaration with one more method, before the member at an index or after all of them. -/
def TypeDecl.insertMethod (decl : TypeDecl) (index : Nat) (method : MethodDecl) : TypeDecl :=
  { decl with members := decl.members.take index ++ .method method :: decl.members.drop index }

/-- A method without the attribute of a stage and without a reserved name. -/
structure MethodDecl.IsHelper (method : MethodDecl) : Prop where
  stageless : ∀ stage, method.hasStage stage = false
  unreserved : isReserved method.name = false

/-! ## Members -/

namespace TypeDecl

variable (decl : TypeDecl) (index : Nat) (method : MethodDecl)

@[simp]
theorem fields_insertMethod : (decl.insertMethod index method).fields = decl.fields := by
  simp only [fields, insertMethod, List.filterMap_append, List.filterMap_cons]
  rw [← List.filterMap_append, List.take_append_drop]

@[simp]
theorem otherMembers_insertMethod :
    (decl.insertMethod index method).otherMembers = decl.otherMembers := by
  simp only [otherMembers, insertMethod, List.filterMap_append, List.filterMap_cons]
  rw [← List.filterMap_append, List.take_append_drop]

theorem methods_insertMethod : ∃ front rear, decl.methods = front ++ rear ∧
    (decl.insertMethod index method).methods = front ++ method :: rear := by
  refine ⟨({ decl with members := decl.members.take index }).methods,
    ({ decl with members := decl.members.drop index }).methods, ?_, ?_⟩
  · simp only [methods]
    rw [← List.filterMap_append, List.take_append_drop]
  · simp only [methods, insertMethod, List.filterMap_append, List.filterMap_cons]

end TypeDecl

/-! ## Building -/

theorem MethodDecl.IsHelper.stageTag_eq {method : MethodDecl} (h : method.IsHelper) :
    method.stageTag = .untagged := by
  rw [MethodDecl.stageTag_eq, h.stageless, h.stageless]

/-- A scan passes over a method without a stage. -/
theorem scanMethods_insert {method : MethodDecl} (h : method.stageTag = .untagged)
    (seen : List String) (front rear : List MethodDecl) :
    scanMethods seen (front ++ method :: rear) = scanMethods seen (front ++ rear) := by
  induction front generalizing seen with
  | nil => simp only [List.nil_append, scanMethods, h]
  | cons first front ih => simp only [List.cons_append, scanMethods, ih]

namespace TypeDecl

variable {decl : TypeDecl} {helper : MethodDecl}

theorem scan_insertMethod (h : helper.IsHelper) (index : Nat) :
    (decl.insertMethod index helper).scan = decl.scan := by
  obtain ⟨front, rear, hmethods, hinserted⟩ := decl.methods_insertMethod index helper
  simp only [scan, completenessFaults, fields_insertMethod, hmethods, hinserted,
    scanMethods_insert h.stageTag_eq]
  rfl

/-- A helper changes neither the model nor the faults that are reported. -/
theorem build_insertMethod (h : helper.IsHelper) (index : Nat) :
    (decl.insertMethod index helper).build = decl.build := by
  have hcandidate : (decl.insertMethod index helper).isEffectCandidate = decl.isEffectCandidate :=
    rfl
  simp only [build, buildInto, scan_insertMethod h, hcandidate]
  rfl

end TypeDecl

/-! ## Rules -/

/-- The violations of a method that shares its name with a shader method. -/
def methodFindings (effect : Effect) (method : MethodDecl) : List Finding :=
  match effect.method? method.name with
  | some shader => checkMethod method shader
  | none => []

/-- A helper breaks no rule exactly if it is no overload of a shader method, or one that fits it
while the shader method itself is well formed. -/
theorem findings_helper_eq_nil {members : List String} {effect : Effect} {helper : MethodDecl}
    (h : helper.IsHelper) :
    checkMethodNames members effect helper = [] ∧ methodFindings effect helper = [] ↔
      ∀ shader, effect.method? helper.name = some shader →
        helper.FitsShader members ∧ shapeFindings shader = [] := by
  rw [checkMethodNames_eq_nil h.unreserved, methodFindings]
  cases effect.method? helper.name with
  | none => simp
  | some shader =>
      simp only [Option.some.injEq, forall_eq', checkMethod_eq_nil]
      constructor
      · rintro ⟨hnames, hvoid, hplain, hmodes, hshape⟩
        exact ⟨⟨hvoid, hplain, hmodes, hnames⟩, hshape⟩
      · rintro ⟨⟨hvoid, hplain, hmodes, hnames⟩, hshape⟩
        exact ⟨hnames, hvoid, hplain, hmodes, hshape⟩

/-! ## Validation -/

section

variable {decl : TypeDecl} {effect : Effect} {helper : MethodDecl}

@[simp]
theorem memberNames_insertMethod (index : Nat) :
    memberNames (decl.insertMethod index helper) effect = memberNames decl effect := by
  rw [memberNames, memberNames, TypeDecl.fields_insertMethod]

/-- The findings about declared names and those about methods are the same as before, apart from
those of the inserted method. -/
theorem findings_insertMethod (decl : TypeDecl) (effect : Effect) (helper : MethodDecl)
    (index : Nat) :
    ∃ before after front rear,
      checkNames decl effect = before ++ after ∧
      checkNames (decl.insertMethod index helper) effect =
        before ++ checkMethodNames (memberNames decl effect) effect helper ++ after ∧
      checkMethods decl effect = front ++ rear ∧
      checkMethods (decl.insertMethod index helper) effect =
        front ++ methodFindings effect helper ++ rear := by
  obtain ⟨front, rear, hmethods, hinserted⟩ := decl.methods_insertMethod index helper
  refine ⟨checkReserved decl.name decl.location ++
      decl.fields.flatMap (fun field => checkReserved field.name field.location) ++
      front.flatMap (checkMethodNames (memberNames decl effect) effect),
    rear.flatMap (checkMethodNames (memberNames decl effect) effect) ++
      effect.userBuffers.flatMap (checkBufferNames decl (memberNames decl effect) effect),
    front.flatMap (methodFindings effect), rear.flatMap (methodFindings effect), ?_, ?_, ?_, ?_⟩
  · simp only [checkNames, hmethods, List.flatMap_append, List.append_assoc]
  · simp only [checkNames, memberNames_insertMethod, TypeDecl.fields_insertMethod, hinserted,
      List.flatMap_append, List.flatMap_cons, List.append_assoc]
    rfl
  · rw [checkMethods, hmethods, List.flatMap_append]
    rfl
  · rw [checkMethods, hinserted, List.flatMap_append, List.flatMap_cons, List.append_assoc]
    rfl

theorem unchanged_insertMethod (decl : TypeDecl) (effect : Effect) (helper : MethodDecl)
    (index : Nat) :
    checkEffect (decl.insertMethod index helper) = checkEffect decl ∧
      checkLiterals (decl.insertMethod index helper) effect = checkLiterals decl effect ∧
      checkUsage (decl.insertMethod index helper) effect = checkUsage decl effect ∧
      bodyFindings (decl.insertMethod index helper) effect = bodyFindings decl effect := by
  refine ⟨?_, ?_, ?_, ?_⟩
  · simp only [checkEffect, TypeDecl.otherMembers_insertMethod]
    rfl
  · have hliteral : checkLiteral (decl.insertMethod index helper) = checkLiteral decl := by
      funext literal
      simp only [checkLiteral, TypeDecl.fields_insertMethod]
    rw [checkLiterals, checkLiterals, hliteral]
  · simp only [checkUsage, isInitialized, TypeDecl.fields_insertMethod]
  · rw [bodyFindings, bodyFindings, memberNames_insertMethod]

/-- An effect stays valid if the inserted method breaks no rule itself. -/
theorem isValid_insertMethod (index : Nat) :
    isValid (decl.insertMethod index helper) effect = true ↔ isValid decl effect = true ∧
      checkMethodNames (memberNames decl effect) effect helper = [] ∧
      methodFindings effect helper = [] := by
  obtain ⟨before, after, front, rear, hnames, hnames', hmethods, hmethods'⟩ :=
    findings_insertMethod decl effect helper index
  obtain ⟨heffect, hliterals, -, hbodies⟩ :=
    unchanged_insertMethod decl effect helper index
  simp only [isValid_eq, declarationFindings, heffect, hliterals, hbodies, hnames, hnames', hmethods,
    hmethods', Bool.and_eq_true, List.isEmpty_iff, List.append_eq_nil_iff]
  tauto

/-- What is reported stays the same if the inserted method breaks no rule itself. -/
theorem validationDiagnostics_insertMethod (index : Nat) :
    validationDiagnostics (decl.insertMethod index helper) effect =
        validationDiagnostics decl effect ↔
      checkMethodNames (memberNames decl effect) effect helper = [] ∧
      methodFindings effect helper = [] := by
  obtain ⟨before, after, front, rear, hnames, hnames', hmethods, hmethods'⟩ :=
    findings_insertMethod decl effect helper index
  obtain ⟨heffect, hliterals, husage, hbodies⟩ :=
    unchanged_insertMethod decl effect helper index
  simp only [validationDiagnostics_eq, declarationFindings, heffect, hliterals, husage, hbodies,
    hnames, hnames', hmethods, hmethods']
  constructor
  · -- both lists have the same length only if nothing was added
    intro h
    have hlength := congrArg List.length h
    simp only [List.length_append, List.length_map] at hlength
    exact ⟨List.length_eq_zero_iff.mp (by omega), List.length_eq_zero_iff.mp (by omega)⟩
  · rintro ⟨hnone, hnone'⟩
    rw [hnone, hnone', List.append_nil, List.append_nil]

/-- A helper method, wherever it is declared, leaves the model of an effect as it is. It counts in
validation only if it shares its name with a shader method: then it has to fit a shader method for
the effect to stay valid, and what is reported is the same only if moreover the shader method itself
has nothing to report. -/
theorem helpers_count_only_as_overloads (decl : TypeDecl) (h : helper.IsHelper) (index : Nat) :
    (decl.insertMethod index helper).build = decl.build ∧
      ∀ effect, decl.build.result = .ok effect →
        (isValid (decl.insertMethod index helper) effect = true ↔ isValid decl effect = true ∧
          (effect.method? helper.name ≠ none → helper.FitsShader (memberNames decl effect))) ∧
        (validationDiagnostics (decl.insertMethod index helper) effect =
            validationDiagnostics decl effect ↔
          ∀ shader, effect.method? helper.name = some shader →
            helper.FitsShader (memberNames decl effect) ∧ shapeFindings shader = []) := by
  refine ⟨TypeDecl.build_insertMethod h index, fun effect hb => ⟨?_, ?_⟩⟩
  · rw [isValid_insertMethod, findings_helper_eq_nil h]
    refine and_congr_right fun hv => ?_
    constructor
    · intro hfits hoverload
      obtain ⟨shader, hs⟩ := Option.ne_none_iff_exists'.mp hoverload
      exact (hfits shader hs).1
    · intro hfits shader hs
      refine ⟨hfits (by simp [hs]), ?_⟩
      exact shapeFindings_of_isValid hb hv (List.mem_of_find?_eq_some hs)
  · rw [validationDiagnostics_insertMethod, findings_helper_eq_nil h]

end

/-! ## An overload -/

/-- A helper with the name of the fragment shader of the effect that tints a texture. -/
def shadeOverload (returned : String) : MethodDecl :=
  { name := "Shade"
    parameters := [{ name := "amount", type := .named "float" }]
    returnType := .named returned
    body := some [] }

theorem shadeOverload_isHelper (returned : String) : (shadeOverload returned).IsHelper where
  stageless stage := by cases stage <;> rfl
  unreserved := show isReserved "Shade" = false by decide +kernel

theorem isValid_tinting : isValid (tinting []) (tintingEffect []) = true := rfl

/-- An overload without a result fits the shader, and nothing is reported about it. -/
theorem tinting_keeps_overload : (shadeOverload "void").IsHelper ∧
    ((tinting []).insertMethod 0 (shadeOverload "void")).build = (tinting []).build ∧
    isValid ((tinting []).insertMethod 0 (shadeOverload "void")) (tintingEffect []) = true ∧
    validationDiagnostics ((tinting []).insertMethod 0 (shadeOverload "void"))
      (tintingEffect []) = validationDiagnostics (tinting []) (tintingEffect []) := by
  have hhelper := shadeOverload_isHelper "void"
  have hfits : (shadeOverload "void").FitsShader (memberNames (tinting []) (tintingEffect [])) := {
    void := rfl
    plain := rfl
    modes := by simp [shadeOverload]
    names := by decide +kernel }
  obtain ⟨hbuild, hchecks⟩ := helpers_count_only_as_overloads (tinting []) hhelper 0
  obtain ⟨hvalid, hreports⟩ := hchecks _ (build_tinting [])
  refine ⟨hhelper, hbuild, hvalid.mpr ⟨isValid_tinting, fun _ => hfits⟩, hreports.mpr ?_⟩
  intro shader hs
  exact ⟨hfits, shapeFindings_of_isValid (build_tinting []) isValid_tinting
    (List.mem_of_find?_eq_some hs)⟩

/-- An overload with a result, which is no shader, makes the effect invalid. -/
theorem overload_not_valid : (shadeOverload "float").IsHelper ∧
    isValid (tinting []) (tintingEffect []) = true ∧
    isValid ((tinting []).insertMethod 6 (shadeOverload "float")) (tintingEffect []) = false ∧
    (validationDiagnostics ((tinting []).insertMethod 6 (shadeOverload "float"))
      (tintingEffect [])).map Diagnostic.describe =
      ["0:0: error: shader method 'Shade' must return void"] :=
  ⟨shadeOverload_isHelper "float", rfl, by decide +kernel, by decide +kernel⟩

end ShaderEffect
