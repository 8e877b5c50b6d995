import Mathlib.Data.List.Forall2
import Mathlib.Data.List.Nodup
import ShaderEffect.Proofs.Diagnostic
import ShaderEffect.Proofs.Node
import ShaderEffect.Proofs.Slot

/-!
# Models and their declarations

Where the parts of a built effect come from: each shader method is a tagged method with its body and
all its parameters, and constants, literals and textures are fields.
-/

namespace ShaderEffect

/-- Where no two elements have the same name, each is the one found under its name. -/
theorem find?_of_nodup_map {α : Type} {name : α → String} {x : α} {xs : List α}
    (h : (xs.map name).Nodup) (hx : x ∈ xs) : xs.find? (name · == name x) = some x := by
  obtain ⟨found, hf⟩ : ∃ found, xs.find? (name · == name x) = some found := by
    rw [← Option.isSome_iff_exists, List.find?_isSome]
    exact ⟨x, hx, by simp⟩
  have hn : name found = name x := by simpa using List.find?_some hf
  rw [hf, List.inj_on_of_nodup_map h (List.mem_of_find?_eq_some hf) hx hn]

/-! ## Parameters -/

/-- A stage parameter has all of the declared parameter that it stands for, and a semantics. -/
theorem scanParameter_cases {method : MethodDecl} {declared : ParamDecl}
    {parameter : ShaderParameter} (h : scanParameter method declared = .ok parameter) :
    declared.type.dataType.isParameterType ∧ ∃ semantics,
      parameter = {
        name := declared.name
        type := declared.type.dataType
        semantics
        direction := if declared.mode = .out then .output else .input
        location := declared.location } := by
  simp only [scanParameter] at h
  split at h
  · cases h
  · split at h
    · cases h
    · rename_i htype
      split at h
      · split at h
        · cases h
        · split at h
          · cases h
          · cases h
            exact ⟨by simpa using htype, _, rfl⟩
      · cases h

/-- The stage parameter that a declared parameter becomes keeps its name and has a type and a
direction of its own. -/
theorem scanParameter_eq_ok {method : MethodDecl} {declared : ParamDecl}
    {parameter : ShaderParameter} (h : scanParameter method declared = .ok parameter) :
    parameter.name = declared.name ∧ parameter.type = declared.type.dataType ∧
      parameter.type.isParameterType := by
  obtain ⟨htype, semantics, rfl⟩ := scanParameter_cases h
  exact ⟨rfl, rfl, htype⟩

theorem scanParameters_forall₂ (method : MethodDecl) (declared : List ParamDecl)
    (h : (scanParameters method declared).2 = []) :
    List.Forall₂ (fun d p => scanParameter method d = .ok p) declared
      (scanParameters method declared).1 := by
  induction declared with
  | nil => exact .nil
  | cons d rest ih =>
      simp only [scanParameters] at h ⊢
      cases hd : scanParameter method d with
      | error fault => simp [hd] at h
      | ok parameter =>
          simp only [hd] at h ⊢
          exact .cons hd (ih h)

theorem map_name_of_forall₂ {method : MethodDecl} {declared : List ParamDecl}
    {parameters : List ShaderParameter}
    (h : List.Forall₂ (fun d p => scanParameter method d = .ok p) declared parameters) :
    parameters.map (·.name) = declared.map (·.name) := by
  induction h with
  | nil => rfl
  | cons hd _ ih => simp [ih, (scanParameter_eq_ok hd).1]

theorem isParameterType_of_forall₂ {method : MethodDecl} {declared : List ParamDecl}
    {parameters : List ShaderParameter}
    (h : List.Forall₂ (fun d p => scanParameter method d = .ok p) declared parameters) :
    ∀ parameter ∈ parameters, parameter.type.isParameterType := by
  induction h with
  | nil => simp
  | cons hd _ ih =>
      intro parameter hp
      rcases List.mem_cons.mp hp with rfl | hp
      · exact (scanParameter_eq_ok hd).2.2
      · exact ih parameter hp

/-! ## Methods -/

/-- A shader method and the declared method that it stands for. -/
structure Scanned (declared : MethodDecl) (method : ShaderMethod) : Prop where
  tag : declared.stageTag = .tagged method.stage
  name_eq : method.name = declared.name
  body_eq : declared.body = some method.body
  parameters : List.Forall₂ (fun d p => scanParameter declared d = .ok p) declared.parameters
    method.parameters

theorem scanned_of_scanMethod {stage : Stage} {declared : MethodDecl}
    (ht : declared.stageTag = .tagged stage) (h : (scanMethod stage declared).2 = []) :
    Scanned declared (scanMethod stage declared).1 := by
  simp only [scanMethod, List.append_eq_nil_iff] at h
  obtain ⟨hbody, hparameters⟩ := h
  refine ⟨ht, rfl, ?_, scanParameters_forall₂ declared _ hparameters⟩
  cases hb : declared.body with
  | none => simp [hb] at hbody
  | some body => simp [scanMethod, hb]

theorem mem_scanMethods {seen : List String} {declared : List MethodDecl} {method : ShaderMethod}
    (h : (scanMethods seen declared).2 = []) (hm : method ∈ (scanMethods seen declared).1) :
    (∃ d ∈ declared, Scanned d method) ∧ method.name ∉ seen := by
  induction declared generalizing seen with
  | nil => simp [scanMethods] at hm
  | cons d rest ih =>
      simp only [scanMethods] at h hm
      split at h
      · rename_i ht
        simp only [ht] at hm
        obtain ⟨⟨d', hd, hs⟩, hn⟩ := ih h hm
        exact ⟨⟨d', by simp [hd], hs⟩, hn⟩
      · simp at h
      · rename_i stage ht
        split at h
        · simp at h
        · rename_i hseen
          simp only [ht, hseen, List.append_eq_nil_iff] at h hm
          rcases List.mem_cons.mp hm with rfl | hm
          · exact ⟨⟨d, by simp, scanned_of_scanMethod ht h.1⟩, by simpa [scanMethod] using hseen⟩
          · obtain ⟨⟨d', hd, hs⟩, hn⟩ := ih h.2 hm
            exact ⟨⟨d', by simp [hd], hs⟩, fun hmem => hn (by simp [hmem])⟩

theorem nodup_scanMethods (seen : List String) (declared : List MethodDecl)
    (h : (scanMethods seen declared).2 = []) :
    ((scanMethods seen declared).1.map (·.name)).Nodup := by
  induction declared generalizing seen with
  | nil => simp [scanMethods]
  | cons d rest ih =>
      simp only [scanMethods] at h ⊢
      split at h
      · rename_i ht
        simpa only [ht] using ih seen h
      · simp at h
      · rename_i stage ht
        split at h
        · simp at h
        · rename_i hseen
          simp only [List.append_eq_nil_iff] at h
          simp only [hseen, Bool.false_eq_true, if_false, List.map_cons, List.nodup_cons]
          refine ⟨?_, ih _ h.2⟩
          intro hmem
          obtain ⟨method, hm, hn⟩ := List.mem_map.mp hmem
          apply (mem_scanMethods h.2 hm).2
          simp [hn, scanMethod]

/-- The body of a method contains a node at some depth. -/
def ShaderMethod.Contains (method : ShaderMethod) (node : Node) : Prop :=
  ∃ stmt ∈ method.body, (Node.stmt stmt).Contains node

/-! ## Fields -/

theorem mem_scanConstants {fields : List FieldDecl} {constant : String × ShaderConstant}
    (h : constant ∈ (scanConstants fields).1) :
    constant.2.type.isValueType ∧ constant.2.name ∈ fields.map (·.name) := by
  induction fields with
  | nil => simp [scanConstants] at h
  | cons field rest ih =>
      have hrest : constant ∈ (scanConstants rest).1 →
          constant.2.type.isValueType ∧ constant.2.name ∈ (field :: rest).map (·.name) := by
        intro h
        exact ⟨(ih h).1, by simp [(ih h).2]⟩
      simp only [scanConstants] at h
      split at h
      · exact hrest h
      · rename_i attr _
        cases hs : scanConstant field attr with
        | error fault =>
            simp only [hs] at h
            exact hrest h
        | ok scanned =>
            simp only [hs] at h
            rcases List.mem_cons.mp h with rfl | h
            · simp only [scanConstant] at hs
              split at hs
              · cases hs
              · split at hs
                · cases hs
                  simp_all
                · cases hs
            · exact hrest h

theorem mem_groupConstants {constants : List (String × ShaderConstant)} {buffer : ConstantBuffer}
    (h : buffer ∈ groupConstants constants) :
    ∀ constant ∈ buffer.constants, (buffer.name, constant) ∈ constants := by
  obtain ⟨slot, heq⟩ := eq_constantGroup_of_mem h
  rw [heq]
  intro constant hc
  obtain ⟨⟨name, _⟩, hp, rfl⟩ := List.mem_map.mp hc
  obtain ⟨hp, hn⟩ := List.mem_filter.mp hp
  obtain rfl : name = _ := by simpa using hn
  exact hp

theorem mem_scanLiterals {fields : List FieldDecl} {literal : ShaderLiteral}
    (h : literal ∈ scanLiterals fields) : literal.name ∈ fields.map (·.name) := by
  obtain ⟨field, hf, hl⟩ := List.mem_filterMap.mp h
  unfold FieldDecl.literal? at hl
  split at hl
  · cases hl
  · obtain ⟨value, -, rfl⟩ := Option.map_eq_some_iff.mp hl
    exact List.mem_map_of_mem hf

theorem mem_scanTextures {fields : List FieldDecl} {texture : ShaderTexture}
    (h : texture ∈ scanTextures fields) :
    texture.type.isTexture ∧ texture.name ∈ fields.map (·.name) := by
  rw [scanTextures_eq] at h
  obtain ⟨i, hi, rfl⟩ := List.mem_mapIdx.mp h
  obtain ⟨hf, ht⟩ := List.mem_filter.mp (List.getElem_mem hi)
  simp only [FieldDecl.isTexture, Bool.and_eq_true] at ht
  exact ⟨ht.1.2, List.mem_map_of_mem hf⟩

theorem mem_systemBuffers {buffer : ConstantBuffer} (h : buffer ∈ systemBuffers) :
    buffer.shared ∧ ∀ constant ∈ buffer.constants, constant.type.isValueType := by
  simp only [systemBuffers, List.mem_cons, List.not_mem_nil, or_false] at h
  rcases h with rfl | rfl <;> simp [DataType.isValueType]

theorem ShaderLiteral.contains_element {literal : ShaderLiteral} {values : List Expr} {e : Expr}
    (h : literal.elements? = some values) (he : e ∈ values) :
    (Node.expr literal.value).Contains (.expr e) := by
  refine (literal.value.contains_unparenthesized).tail ?_
  unfold elements? at h
  split at h
  · rename_i hk
    cases h
    simp [Node.parts, hk, ExprKind.parts, he]
  · rename_i hk
    cases h
    simp [Node.parts, hk, ExprKind.parts, he]
  · cases h

/-! ## Effects -/

section

variable {decl : TypeDecl} {effect : Effect}

theorem TypeDecl.scan_of_build (h : decl.build.result = .ok effect) :
    decl.scan = (effect, []) :=
  (build_eq_ok_iff.mp h).2

theorem Effect.mem_methods (h : decl.build.result = .ok effect) {method : ShaderMethod}
    (hm : method ∈ effect.methods) : ∃ declared ∈ decl.methods, Scanned declared method := by
  have hs := TypeDecl.scan_of_build h
  simp only [TypeDecl.scan, Effect.withStages, Prod.mk.injEq, List.append_eq_nil_iff] at hs
  obtain ⟨rfl, ⟨⟨hmethods, -⟩, -⟩, -⟩ := hs
  exact (mem_scanMethods hmethods hm).1

theorem Effect.nodup_methods (h : decl.build.result = .ok effect) :
    (effect.methods.map (·.name)).Nodup := by
  have hs := TypeDecl.scan_of_build h
  simp only [TypeDecl.scan, Effect.withStages, Prod.mk.injEq, List.append_eq_nil_iff] at hs
  obtain ⟨rfl, ⟨⟨hmethods, -⟩, -⟩, -⟩ := hs
  exact nodup_scanMethods [] _ hmethods

/-- A method of an effect is the one that is found under its name. -/
theorem Effect.method?_of_mem (h : decl.build.result = .ok effect) {method : ShaderMethod}
    (hm : method ∈ effect.methods) : effect.method? method.name = some method :=
  find?_of_nodup_map (Effect.nodup_methods h) hm

/-- The constants of an effect have value types, and the names of fields unless the engine provides
them. -/
theorem Effect.mem_constants (h : decl.build.result = .ok effect) {buffer : ConstantBuffer}
    (hb : buffer ∈ effect.buffers) {constant : ShaderConstant} (hc : constant ∈ buffer.constants) :
    constant.type.isValueType ∧
      (constant.name ∈ decl.fields.map (·.name) ∨ constant.name ∈ effect.systemConstantNames) := by
  have hs := congrArg Prod.fst (TypeDecl.scan_of_build h)
  simp only [TypeDecl.scan, Effect.withStages] at hs
  subst hs
  obtain ⟨plain, hp, rfl⟩ := List.mem_map.mp hb
  rcases mem_mergeBuffers.mp hp with hsystem | huser
  · obtain ⟨hshared, htypes⟩ := mem_systemBuffers hsystem
    refine ⟨htypes constant hc, .inr ?_⟩
    refine List.mem_flatMap.mpr ⟨_, List.mem_filter.mpr ⟨hb, hshared⟩, ?_⟩
    exact List.mem_map_of_mem hc
  · have hm := mem_scanConstants (mem_groupConstants huser constant hc)
    exact ⟨hm.1, .inl hm.2⟩

theorem Effect.mem_literals (h : decl.build.result = .ok effect) {literal : ShaderLiteral}
    (hl : literal ∈ effect.literals) : literal.name ∈ decl.fields.map (·.name) := by
  have hs := congrArg Prod.fst (TypeDecl.scan_of_build h)
  simp only [TypeDecl.scan, Effect.withStages] at hs
  subst hs
  exact mem_scanLiterals hl

theorem Effect.mem_textures (h : decl.build.result = .ok effect) {texture : ShaderTexture}
    (ht : texture ∈ effect.textures) :
    texture.type.isTexture ∧ texture.name ∈ decl.fields.map (·.name) := by
  have hs := congrArg Prod.fst (TypeDecl.scan_of_build h)
  simp only [TypeDecl.scan, Effect.withStages] at hs
  subst hs
  obtain ⟨plain, hp, rfl⟩ := List.mem_map.mp ht
  have hplain := mem_scanTextures hp
  exact hplain

end

/-! ## An example -/

/-- A reference to a name, without annotations. -/
def Expr.named (name : String) : Expr :=
  ⟨.identifier name, {}, {}⟩

/-- An effect with one technique that tints a texture; the body of its fragment shader is given. -/
def tinting (body : List Stmt) : TypeDecl :=
  { name := "Tinting"
    modifiers := [.publicAccess]
    attributes := [{ name := "Effect" }]
    members := [
      .field { name := "Tint", type := .named "Vector4", attributes := [{ name := "Constant" }] },
      .field { name := "Image", type := .named "Texture2D" },
      .field {
        name := "Rounds"
        type := .named "int"
        initializer := some ⟨.literal (.int 3), {}, {}⟩ },
      .field {
        name := "Main"
        type := .named "Technique"
        initializer := some ⟨.objectCreation (.named "Technique")
          [{ value := ⟨.literal (.string "Project"), {}, {}⟩ },
            { value := ⟨.literal (.string "Shade"), {}, {}⟩ }] none, {}, {}⟩ },
      .method {
        name := "Project"
        attributes := [{ name := "VertexShader" }]
        parameters := [
          { name := "corner", type := .named "Vector4", attributes := [{ name := "Position" }] },
          { name := "placed", type := .named "Vector4", mode := .out
            attributes := [{ name := "Position" }] }]
        body := some [] },
      .method {
        name := "Shade"
        attributes := [{ name := "FragmentShader" }]
        parameters := [
          { name := "uv", type := .named "Vector2", attributes := [{ name := "TexCoord" }] },
          { name := "shade", type := .named "Vector4", mode := .out
            attributes := [{ name := "Color" }] }]
        body := some body }] }

/-- The effect that is built from the declaration. -/
def tintingEffect (body : List Stmt) : Effect :=
  (tinting body).scan.1

/-- The fragment shader of the effect. -/
def tintingShade (body : List Stmt) : ShaderMethod :=
  (tintingEffect body).methods.getLast (List.cons_ne_nil _ _)

theorem build_tinting (body : List Stmt) :
    (tinting body).build.result = .ok (tintingEffect body) := by
  rfl

theorem tintingShade_mem (body : List Stmt) :
    tintingShade body ∈ (tintingEffect body).methods :=
  List.getLast_mem _

/-- The texture sampled at coordinates. -/
def imageSampleAt (coordinates : Expr) : Expr :=
  let image : Expr := ⟨.identifier "Image", {}, { symbol := some (.field "Image") }⟩
  ⟨.invocation ⟨.memberAccess image "Sample", {}, {}⟩ [{ value := coordinates }], {}, {}⟩

/-- The texture sampled at the coordinates of the fragment. -/
def imageSample : Expr :=
  imageSampleAt (.named "uv")

/-- The texture multiplied by the tint in every round. -/
def repeatedTint : List Stmt :=
  let round : VariableDeclarator :=
    { name := "round", initializer := some ⟨.literal (.int 0), {}, {}⟩ }
  let output : Expr := ⟨.memberAccess (.named "shade") "XYZW", {}, {}⟩
  [⟨.declaration ⟨.inferred, [{ name := "sampled", initializer := some imageSample }]⟩, {}⟩,
    ⟨.forLoop [⟨.declaration ⟨.named "int", [round]⟩, {}⟩]
      (some ⟨.binary .less (.named "round") (.named "Rounds"), {}, {}⟩)
      [⟨.unary .postIncrement (.named "round"), {}, {}⟩]
      ⟨.expression ⟨.assignment .mul (.named "sampled") (.named "Tint"), {}, {}⟩, {}⟩, {}⟩,
    ⟨.expression ⟨.assignment .assign output (.named "sampled"), {}, {}⟩, {}⟩]

end ShaderEffect
