import ShaderEffect.Proofs.Asset
import ShaderEffect.Proofs.Coverage
import ShaderEffect.Proofs.Interface
import ShaderEffect.Proofs.Report

/-!
# Why packing fails

Packing checks again what earlier steps have made sure of: that a declaration is an effect, that
every vertex input has a format, and that the inputs can be counted in a byte. Main statement: none
of these checks ever fails. There are ten semantics, and no two inputs of a valid effect share one.
-/

namespace ShaderEffect

/-! ## Vertex inputs -/

theorem Semantics.length_le_of_nodup {semantics : List Semantics} (h : semantics.Nodup) :
    semantics.length ≤ 10 :=
  calc semantics.length
      ≤ Semantics.all.length := h.length_le_of_subset fun found _ => found.mem_all
    _ = 10 := rfl

section

variable {decl : TypeDecl} {effect : Effect} {method : ShaderMethod}

theorem isParameterType_of_mem_inputs (hb : decl.build.result = .ok effect)
    (hm : method ∈ effect.methods) : ∀ input ∈ method.inputs, input.type.isParameterType := by
  obtain ⟨declared, -, hscanned⟩ := Effect.mem_methods hb hm
  intro input hi
  exact isParameterType_of_forall₂ hscanned.parameters input (List.mem_filter.mp hi).1

theorem length_inputs_le (hb : decl.build.result = .ok effect) (hv : isValid decl effect = true)
    (hm : method ∈ effect.methods) : method.inputs.length ≤ 10 := by
  have hlength := Semantics.length_le_of_nodup (nodup_semantics_of_isValid hb hv hm .input)
  rwa [List.length_map] at hlength

end

/-! ## Assets -/

theorem Asset.sourceBytes_eq_error {source : String} {cause : AssetError}
    (h : sourceBytes source = .error cause) : cause = .sourceTooLong := by
  simp only [sourceBytes] at h
  split at h
  · cases h
  · cases h
    rfl

/-- An asset whose layout can be written is only too large because of a source. -/
theorem Asset.toBytes_eq_error {asset : Asset} {cause : AssetError}
    (hl : asset.stage = .vertex → asset.inputs.length < UInt8.size)
    (h : asset.toBytes = .error cause) : cause = .sourceTooLong := by
  rcases bind_eq_error.mp h with hlayout | ⟨layout, -, h⟩
  · cases hs : asset.stage with
    | vertex =>
        rw [hs, layoutBytes_vertex_eq_ok.mpr ⟨hl hs, rfl⟩] at hlayout
        cases hlayout
    | fragment =>
        rw [hs] at hlayout
        cases hlayout
  · rcases bind_eq_error.mp h with hhlsl | ⟨hlsl, -, h⟩
    · exact sourceBytes_eq_error hhlsl
    · rcases bind_eq_error.mp h with hglsl | ⟨glsl, -, h⟩
      · exact sourceBytes_eq_error hglsl
      · cases h

/-! ## Errors -/

/-- The errors that earlier steps do not rule out: a file cannot be written, a language has no form
for a construct, the wrapper generator gives up, or a source is too long for its asset. -/
inductive PackError.Expected : PackError → Prop where
  | writing (path : String) (cause : FileError) : Expected (.writing path cause)
  | compilation (cause : CompileError) : Expected (.compilation cause)
  | wrapping (effect cause : String) : Expected (.wrapping effect cause)
  | sourceTooLong : Expected (.asset .sourceTooLong)

theorem expected_of_planWrite {decl : TypeDecl} {effect : Effect} {method : ShaderMethod}
    {options : PackOptions} {error : PackError} (hb : decl.build.result = .ok effect)
    (hv : isValid decl effect = true) (hm : method ∈ effect.methods)
    (h : effect.planWrite options method = .error error) : error.Expected := by
  obtain ⟨layout, hlayout, hdescribes⟩ :=
    ShaderMethod.vertexLayout_describes (isParameterType_of_mem_inputs hb hm)
  rcases planWrite_eq_error h with hasset | ⟨asset, cause, hasset, hbytes, rfl⟩
  · rcases asset_eq_error hasset with ⟨input, hinput, rfl⟩ | ⟨cause, rfl⟩
    · rw [hlayout] at hinput
      cases hinput
    · exact .compilation cause
  · have hcount (hs : asset.stage = .vertex) : asset.inputs.length < UInt8.size := by
      obtain ⟨hstage, hinputs⟩ := asset_eq_ok hasset
      have heq : layout = asset.inputs :=
        Except.ok.inj (hlayout.symm.trans (hinputs (hstage ▸ hs)))
      calc asset.inputs.length
          = method.inputs.length := by rw [← heq, hdescribes.length_eq]
        _ ≤ 10 := length_inputs_le hb hv hm
        _ < UInt8.size := by decide
    obtain rfl := Asset.toBytes_eq_error hcount hbytes
    exact .sourceTooLong

theorem TypeDecl.FailsWith.expected {decl : TypeDecl} {options : PackOptions} {error : PackError}
    (h : decl.FailsWith options error) : error.Expected := by
  cases h with
  | writing path cause => exact .writing path cause
  | wrapping name cause => exact .wrapping name cause
  | planning hb hv hw =>
      obtain ⟨method, hm, hplan⟩ := planWrites_eq_some hw
      exact expected_of_planWrite hb hv hm hplan

/-- Packing some declarations fails for a reason that one of them gives. -/
theorem PackReport.failsWith_of_addAll {options : PackOptions} {decls : List TypeDecl}
    {results : List PackResult} {sink : Diagnostics} {start : PackReport} {error : PackError}
    (h : List.Forall₂ (·.Explained options ·) decls results)
    (hr : (PackReport.addAll sink start results).2 = .error error) :
    ∃ decl ∈ decls, decl.FailsWith options error := by
  induction h generalizing sink start with
  | nil => cases hr
  | @cons decl result decls results hresult _ ih =>
      obtain ⟨-, houtcome⟩ := hresult
      simp only [addAll] at hr
      cases ho : result.outcome with
      | error cause =>
          simp only [ho] at hr houtcome
          cases hr
          exact ⟨decl, List.mem_cons_self, houtcome⟩
      | ok outcome =>
          simp only [ho] at hr
          obtain ⟨other, ho, hfails⟩ := ih hr
          exact ⟨other, List.mem_cons_of_mem _ ho, hfails⟩

section Runs

variable {σ : Type} {files : FileAccess (StateM σ)}
  {generate : Wrapper → StateM σ (Except String Unit)} {options : PackOptions} {file : SourceFile}

theorem expected_of_packFile {state : σ} {error : PackError}
    (h : ((packFile files generate options file).run state).1.2 = .error error) :
    error.Expected := by
  rcases packFile_cases files generate options file state with
    ⟨cause, hr⟩ | ⟨results, hexplained, hr⟩
  · rw [hr] at h
    cases h
    exact .writing _ cause
  · rw [hr] at h
    obtain ⟨decl, -, hfails⟩ := PackReport.failsWith_of_addAll hexplained h
    exact hfails.expected

/-- Packing never fails because an effect cannot be built, because a vertex input has no format or
because there are too many of them: every vertex shader of a valid effect has at most ten inputs, and
each of them has a format. -/
theorem packing_fails_only_as_expected (files : FileAccess (StateM σ))
    (generate : Wrapper → StateM σ (Except String Unit)) (options : PackOptions)
    (file : SourceFile) (state : σ) :
    (∀ error, ((packFile files generate options file).run state).1.2 = .error error →
      (∀ cause, error ≠ .building cause) ∧ (∀ input, error ≠ .vertexInput input) ∧
        error ≠ .asset .tooManyInputs) ∧
      ∀ (decl : TypeDecl) (effect : Effect), decl.build.result = .ok effect →
        isValid decl effect = true → ∀ method ∈ effect.methods, method.stage = .vertex →
          method.inputs.length ≤ 10 ∧
            ∀ input ∈ method.inputs,
              ∃ format, ElementFormat.ofDataType? input.type = some format := by
  constructor
  · intro error h
    have hexpected := expected_of_packFile h
    refine ⟨?_, ?_, ?_⟩
    · rintro cause rfl
      cases hexpected
    · rintro input rfl
      cases hexpected
    · rintro rfl
      cases hexpected
  · intro decl effect hb hv method hm _
    refine ⟨length_inputs_le hb hv hm, fun input hi => ?_⟩
    exact ElementFormat.exists_ofDataType? (isParameterType_of_mem_inputs hb hm input hi)

end Runs

/-- A file with a valid effect whose first method cannot be written. -/
def hiddenFile : SourceFile where
  types := [{ hiddenType with members := hiddenType.members.reverse }]

theorem packFile_hiddenFile :
    ((packFile FileTree.access withoutWrappers {} hiddenFile).run FileTree.fresh).1.2.map
      (·.skipped) = .error (.compilation (.unwritable .memberAccess)) := by
  decide +kernel

theorem eq_error_of_map {ε α β : Type} {result : Except ε α} {f : α → β} {error : ε}
    (h : result.map f = .error error) : result = .error error := by
  cases result with
  | error cause =>
      cases h
      rfl
  | ok value => cases h

/-- Packing the file fails, and a vertex shader with two inputs has formats for both. -/
theorem hiddenFile_fails : ∃ error,
    ((packFile FileTree.access withoutWrappers {} hiddenFile).run FileTree.fresh).1.2 =
        .error error ∧
      (∀ cause, error ≠ .building cause) ∧ (∀ input, error ≠ .vertexInput input) ∧
      error ≠ .asset .tooManyInputs ∧ unfoldingVertex.inputs.length = 2 ∧
      ∀ input ∈ unfoldingVertex.inputs,
        ∃ format, ElementFormat.ofDataType? input.type = some format := by
  obtain ⟨hfails, hinputs⟩ :=
    packing_fails_only_as_expected FileTree.access withoutWrappers {} hiddenFile FileTree.fresh
  have herror := eq_error_of_map packFile_hiddenFile
  obtain ⟨hbuilding, hinput, hcount⟩ := hfails _ herror
  have hm : unfoldingVertex ∈ unfolding.scan.1.methods := List.getLast_mem _
  refine ⟨_, herror, hbuilding, hinput, hcount, rfl, ?_⟩
  exact (hinputs unfolding _ rfl rfl unfoldingVertex hm rfl).2

end ShaderEffect
