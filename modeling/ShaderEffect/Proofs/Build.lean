import ShaderEffect.Proofs.Model

/-!
# What a build guarantees

Every fault that a scan finds is reported and makes the build fail. So nothing is missing in an
effect that was built: its methods are all tagged methods with all their parameters, it has both
stages and a technique, and each technique finds its two methods.
-/

namespace ShaderEffect

/-! ## Scans without faults -/

/-- What a build can do: find no effect, find one without faults, or report all faults. -/
theorem TypeDecl.buildInto_cases (decl : TypeDecl) (sink : Diagnostics) :
    decl.buildInto sink = { result := .error (.notAnEffect decl.name), diagnostics := sink } ∨
    (∃ effect, decl.buildInto sink = { result := .ok effect, diagnostics := sink }) ∨
    ∃ faults : List Fault, faults ≠ [] ∧ decl.buildInto sink = {
      result := .error (.structural decl.name faults.length)
      diagnostics := sink ++ faults.map Fault.toDiagnostic } := by
  cases hcandidate : decl.isEffectCandidate with
  | false => exact .inl (buildInto_of_not_isEffectCandidate hcandidate sink)
  | true =>
      rw [buildInto_of_isEffectCandidate hcandidate]
      obtain ⟨effect, - | ⟨fault, rest⟩⟩ := decl.scan
      · exact .inr (.inl ⟨effect, by simp⟩)
      · exact .inr (.inr ⟨fault :: rest, by simp, by simp⟩)

/-- An effect that was built: no scan of its declaration found a fault, and its parts are what the
scans found. -/
structure Built (decl : TypeDecl) (effect : Effect) : Prop where
  methods_eq : scanMethods [] decl.methods = (effect.methods, [])
  constants_eq : (scanConstants decl.fields).2 = []
  techniques_eq : scanTechniques effect.methods decl.fields = (effect.techniques, [])
  complete : completenessFaults decl effect.methods effect.techniques = []
  buffers_eq : effect.buffers =
    (mergeBuffers systemBuffers (groupConstants (scanConstants decl.fields).1)).map fun buffer =>
      { buffer with stages := referringStages effect.methods (buffer.constants.map (·.name)) }
  literals_eq : effect.literals = scanLiterals decl.fields
  textures_eq : effect.textures = (scanTextures decl.fields).map fun texture =>
    { texture with stages := referringStages effect.methods [texture.name] }

theorem built_of_build {decl : TypeDecl} {effect : Effect}
    (h : decl.build.result = .ok effect) : Built decl effect := by
  have hscan := TypeDecl.scan_of_build h
  simp only [TypeDecl.scan, Effect.withStages, Prod.mk.injEq, List.append_eq_nil_iff] at hscan
  obtain ⟨heffect, ⟨⟨hmethods, hconstants⟩, htechniques⟩, hcomplete⟩ := hscan
  subst heffect
  exact {
    methods_eq := Prod.ext rfl hmethods
    constants_eq := hconstants
    techniques_eq := Prod.ext rfl htechniques
    complete := hcomplete
    buffers_eq := rfl
    literals_eq := rfl
    textures_eq := rfl }

/-! ## Methods -/

namespace MethodDecl

/-- Whether a method carries the attribute of a stage. -/
def hasStage (method : MethodDecl) (stage : Stage) : Bool :=
  hasAttribute method.attributes stage.attributeName

/-- Whether a method is tagged with one stage, not with none and not with both. -/
def hasOneStage (method : MethodDecl) : Bool :=
  method.hasStage .vertex != method.hasStage .fragment

theorem stageTag_eq (method : MethodDecl) :
    method.stageTag =
      match method.hasStage .vertex, method.hasStage .fragment with
      | false, false => .untagged
      | true, false => .tagged .vertex
      | false, true => .tagged .fragment
      | true, true => .conflicting :=
  rfl

theorem hasOneStage_of_untagged {method : MethodDecl} (h : method.stageTag = .untagged) :
    method.hasOneStage = false := by
  rw [stageTag_eq] at h
  unfold hasOneStage
  generalize method.hasStage .vertex = vertex at h ⊢
  generalize method.hasStage .fragment = fragment at h ⊢
  revert vertex fragment
  decide

theorem hasOneStage_of_tagged {method : MethodDecl} {stage : Stage}
    (h : method.stageTag = .tagged stage) : method.hasOneStage ∧ method.hasStage stage := by
  rw [stageTag_eq] at h
  unfold hasOneStage
  cases hv : method.hasStage .vertex <;> cases hf : method.hasStage .fragment <;>
    simp only [hv, hf, StageTag.tagged.injEq, reduceCtorEq] at h <;> subst h <;> simp [hv, hf]

end MethodDecl

/-- A stage parameter that keeps the declared parameter it stands for. -/
structure ParamDecl.Becomes (declared : ParamDecl) (parameter : ShaderParameter) : Prop where
  name_eq : parameter.name = declared.name
  type_eq : parameter.type = declared.type.dataType
  type_mem : parameter.type ∈ [DataType.float, .vector2, .vector3, .vector4]
  direction_eq : parameter.direction = if declared.mode = .out then .output else .input
  location_eq : parameter.location = declared.location

/-- A shader method that keeps the declared method it stands for, with its body and all its
parameters in order. -/
structure MethodDecl.Becomes (declared : MethodDecl) (method : ShaderMethod) : Prop where
  name_eq : method.name = declared.name
  hasStage : declared.hasStage method.stage
  body_eq : declared.body = some method.body
  parameters : List.Forall₂ ParamDecl.Becomes declared.parameters method.parameters

theorem DataType.isParameterType_iff {type : DataType} :
    type.isParameterType ↔ type ∈ [DataType.float, .vector2, .vector3, .vector4] := by
  cases type <;> decide

theorem ParamDecl.becomes_of_scanParameter {method : MethodDecl} {declared : ParamDecl}
    {parameter : ShaderParameter} (h : scanParameter method declared = .ok parameter) :
    declared.Becomes parameter := by
  obtain ⟨htype, semantics, rfl⟩ := scanParameter_cases h
  exact ⟨rfl, rfl, DataType.isParameterType_iff.mp htype, rfl, rfl⟩

theorem Scanned.becomes {declared : MethodDecl} {method : ShaderMethod}
    (h : Scanned declared method) : declared.Becomes method where
  name_eq := h.name_eq
  hasStage := (MethodDecl.hasOneStage_of_tagged h.tag).2
  body_eq := h.body_eq
  parameters := h.parameters.imp fun _ _ hp => ParamDecl.becomes_of_scanParameter hp

/-- Without faults, the scan leaves out untagged methods only. -/
theorem scanMethods_forall₂ (seen : List String) (declared : List MethodDecl)
    (h : (scanMethods seen declared).2 = []) :
    List.Forall₂ Scanned (declared.filter MethodDecl.hasOneStage)
      (scanMethods seen declared).1 := by
  induction declared generalizing seen with
  | nil => exact .nil
  | cons method rest ih =>
      simp only [scanMethods] at h ⊢
      cases htag : method.stageTag with
      | untagged =>
          simp only [htag] at h ⊢
          rw [List.filter_cons_of_neg (by simp [MethodDecl.hasOneStage_of_untagged htag])]
          exact ih seen h
      | conflicting => simp [htag] at h
      | tagged stage =>
          simp only [htag] at h ⊢
          by_cases hseen : seen.contains method.name = true
          · simp only [hseen, if_true] at h
            cases h
          · simp only [hseen, Bool.false_eq_true, if_false, List.append_eq_nil_iff] at h ⊢
            rw [List.filter_cons_of_pos (MethodDecl.hasOneStage_of_tagged htag).1]
            exact .cons (scanned_of_scanMethod htag h.1) (ih _ h.2)

/-! ## Techniques -/

theorem techniqueFaults_eq_nil {methods : List ShaderMethod} {field : FieldDecl} {stage : Stage}
    {name : String} : techniqueFaults methods field stage name = [] ↔
      ∃ method, methods.find? (·.name == name) = some method ∧ method.stage = stage := by
  unfold techniqueFaults
  cases methods.find? (·.name == name) with
  | none => simp
  | some method =>
      by_cases hs : method.stage = stage
      · simp [hs]
      · simp [hs]

/-- A technique that keeps the field it stands for and finds its methods. -/
structure FieldDecl.BecomesTechnique (methods : List ShaderMethod) (field : FieldDecl)
    (technique : Technique) : Prop where
  name_eq : technique.name = field.name
  arguments_eq : techniqueArguments? field = some (technique.vertex, technique.fragment)
  vertex : ∃ method, methods.find? (·.name == technique.vertex) = some method ∧
    method.stage = .vertex
  fragment : ∃ method, methods.find? (·.name == technique.fragment) = some method ∧
    method.stage = .fragment
  location_eq : technique.location = field.location

theorem becomes_of_scanTechnique {methods : List ShaderMethod} {field : FieldDecl}
    {technique : Technique} (h : scanTechnique methods field = .ok technique) :
    field.BecomesTechnique methods technique := by
  unfold scanTechnique at h
  cases harguments : techniqueArguments? field with
  | none => simp [harguments] at h
  | some names =>
      simp only [harguments] at h
      split at h
      · rename_i hfaults
        have hfaults := List.append_eq_nil_iff.mp hfaults
        cases h
        exact ⟨rfl, harguments, techniqueFaults_eq_nil.mp hfaults.1,
          techniqueFaults_eq_nil.mp hfaults.2, rfl⟩
      · cases h

/-- Without faults, every technique field becomes a technique. -/
theorem scanTechniques_forall₂ (methods : List ShaderMethod) (fields : List FieldDecl)
    (h : (scanTechniques methods fields).2 = []) :
    List.Forall₂ (FieldDecl.BecomesTechnique methods) (fields.filter FieldDecl.isTechnique)
      (scanTechniques methods fields).1 := by
  induction fields with
  | nil => exact .nil
  | cons field rest ih =>
      simp only [scanTechniques] at h ⊢
      by_cases ht : field.isTechnique = true
      · simp only [ht, if_true] at h ⊢
        rw [List.filter_cons_of_pos ht]
        cases hs : scanTechnique methods field with
        | ok technique =>
            simp only [hs] at h ⊢
            exact .cons (becomes_of_scanTechnique hs) (ih h)
        | error faults =>
            -- A technique that cannot be built always has a fault of its own.
            simp only [hs, List.append_eq_nil_iff] at h
            unfold scanTechnique at hs
            split at hs
            · cases hs
              simp at h
            · split at hs
              · cases hs
              · rename_i hne
                cases hs
                exact absurd h.1 hne
      · simp only [ht, Bool.false_eq_true, if_false] at h ⊢
        rw [List.filter_cons_of_neg ht]
        exact ih h

theorem completenessFaults_eq_nil {decl : TypeDecl} {methods : List ShaderMethod}
    {techniques : List Technique} (h : completenessFaults decl methods techniques = []) :
    (∀ stage, ∃ method ∈ methods, method.stage = stage) ∧
      (techniques = [] → ∃ field ∈ decl.fields, field.isTechnique) := by
  simp only [completenessFaults, List.append_eq_nil_iff, List.map_eq_nil_iff,
    List.filter_eq_nil_iff] at h
  constructor
  · intro stage
    have hall : stage ∈ Stage.all := by cases stage <;> decide
    simpa using h.1 stage hall
  · intro hempty
    simpa [hempty] using h.2

theorem forall₂_mem_left {α β : Type} {R : α → β → Prop} {xs : List α} {ys : List β}
    (h : List.Forall₂ R xs ys) {x : α} (hx : x ∈ xs) : ∃ y ∈ ys, R x y := by
  induction h with
  | nil => simp at hx
  | cons hxy _ ih =>
      rcases List.mem_cons.mp hx with rfl | hx
      · exact ⟨_, by simp, hxy⟩
      · obtain ⟨y, hy, hr⟩ := ih hx
        exact ⟨y, by simp [hy], hr⟩

theorem forall₂_mem_right {α β : Type} {R : α → β → Prop} {xs : List α} {ys : List β}
    (h : List.Forall₂ R xs ys) {y : β} (hy : y ∈ ys) : ∃ x ∈ xs, R x y := by
  exact forall₂_mem_left h.flip hy

/-! ## Effects -/

/-- An effect that has all that its declaration asks for: the tagged methods in declaration order,
each under a name of its own, both stages, and techniques that find their methods. -/
structure Effect.Complete (decl : TypeDecl) (effect : Effect) : Prop where
  methods : List.Forall₂ MethodDecl.Becomes (decl.methods.filter MethodDecl.hasOneStage)
    effect.methods
  nodup_names : (effect.methods.map (·.name)).Nodup
  vertex : ∃ method ∈ effect.methods, method.stage = .vertex
  fragment : ∃ method ∈ effect.methods, method.stage = .fragment
  techniques_ne_nil : effect.techniques ≠ []
  techniqueMethods : ∀ technique ∈ effect.techniques, ∃ vertex ∈ effect.methods,
    ∃ fragment ∈ effect.methods, effect.techniqueMethods? technique = some (vertex, fragment) ∧
      vertex.stage = .vertex ∧ fragment.stage = .fragment

section

variable {decl : TypeDecl} {effect : Effect}

theorem Built.techniques (h : Built decl effect) :
    List.Forall₂ (FieldDecl.BecomesTechnique effect.methods)
      (decl.fields.filter FieldDecl.isTechnique) effect.techniques := by
  have hforall := scanTechniques_forall₂ effect.methods decl.fields (by rw [h.techniques_eq])
  rwa [h.techniques_eq] at hforall

theorem Built.methods (h : Built decl effect) :
    List.Forall₂ Scanned (decl.methods.filter MethodDecl.hasOneStage) effect.methods := by
  have hforall := scanMethods_forall₂ [] decl.methods (by rw [h.methods_eq])
  rwa [h.methods_eq] at hforall

theorem Built.techniques_ne_nil (h : Built decl effect) : effect.techniques ≠ [] := by
  intro hempty
  have hdeclared := (completenessFaults_eq_nil h.complete).2 hempty
  have hforall := h.techniques
  rw [hempty, List.forall₂_nil_right_iff, List.filter_eq_nil_iff] at hforall
  obtain ⟨field, hf, ht⟩ := hdeclared
  exact hforall field hf ht

theorem Built.techniqueMethods (h : Built decl effect) {technique : Technique}
    (ht : technique ∈ effect.techniques) : ∃ vertex ∈ effect.methods,
      ∃ fragment ∈ effect.methods, effect.techniqueMethods? technique = some (vertex, fragment) ∧
        vertex.stage = .vertex ∧ fragment.stage = .fragment := by
  obtain ⟨field, -, hfield⟩ := forall₂_mem_right h.techniques ht
  obtain ⟨vertex, hvertex, hvstage⟩ := hfield.vertex
  obtain ⟨fragment, hfragment, hfstage⟩ := hfield.fragment
  refine ⟨vertex, List.mem_of_find?_eq_some hvertex, fragment,
    List.mem_of_find?_eq_some hfragment, ?_, hvstage, hfstage⟩
  have hv : effect.method? technique.vertex = some vertex := hvertex
  have hf : effect.method? technique.fragment = some fragment := hfragment
  simp [Effect.techniqueMethods?, hv, hf]

theorem Effect.complete_of_build (hb : decl.build.result = .ok effect) :
    effect.Complete decl := by
  have h := built_of_build hb
  have hstages := (completenessFaults_eq_nil h.complete).1
  exact {
    methods := h.methods.imp fun _ _ hs => hs.becomes
    nodup_names := Effect.nodup_methods hb
    vertex := hstages .vertex
    fragment := hstages .fragment
    techniques_ne_nil := h.techniques_ne_nil
    techniqueMethods := fun _ ht => h.techniqueMethods ht }

end

/-- A build either finds no effect and reports nothing, or it counts the errors that it adds to the
diagnostics, at least one, or it adds no error and gives an effect that is complete. What was
reported before stays as it is. -/
theorem build_complete_or_reported (decl : TypeDecl) (sink : Diagnostics) :
    sink <+: (decl.buildInto sink).diagnostics ∧
      match (decl.buildInto sink).result with
      | .error (.notAnEffect _) => (decl.buildInto sink).diagnostics = sink
      | .error (.structural _ count) => 1 ≤ count ∧
          (decl.buildInto sink).diagnostics.errorCount = sink.errorCount + count
      | .ok effect => effect.Complete decl ∧
          (decl.buildInto sink).diagnostics.errorCount = sink.errorCount := by
  rcases decl.buildInto_cases sink with h | ⟨effect, h⟩ | ⟨faults, hne, h⟩
  · rw [h]
    exact ⟨List.prefix_rfl, rfl⟩
  · have hbuild : decl.build.result = .ok effect := by
      rw [decl.buildInto_eq] at h
      exact congrArg BuildReport.result h
    rw [h]
    exact ⟨List.prefix_rfl, Effect.complete_of_build hbuild, rfl⟩
  · rw [h]
    refine ⟨List.prefix_append _ _, List.length_pos_iff.mpr hne, ?_⟩
    rw [Diagnostics.errorCount_append, Diagnostics.errorCount_faults]

end ShaderEffect
