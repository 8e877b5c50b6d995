import ShaderEffect.Package.Pack
import ShaderEffect.Proofs.Section
import ShaderEffect.Proofs.Shape

/-!
# Stage interfaces

The application lays out vertices by the packaged layout, GLSL finds them by location and HLSL by
semantic; the colors that come out are found by location and by render target. Main statement: all
of them count the parameters of a method in the same order, and validation makes sure that no two
variables of an interface have one name.
-/

namespace ShaderEffect

/-! ## Interfaces -/

/-- The stage interface of a method: the packaged layout, the fields of its HLSL structures and its
GLSL variables. -/
structure StageInterface where
  layout : List VertexElement
  inputs : List StructField
  outputs : List StructField
  globals : List StageVariable

/-- An element of a vertex input layout describes an input. -/
structure VertexElement.Describes (input : ShaderParameter) (element : VertexElement) : Prop where
  format : ElementFormat.ofDataType? input.type = some element.format
  semantics : element.semantics = input.semantics

/-- A variable of a direction is declared for a parameter at its location, under its semantics. -/
def StageVariable.Locates (version : GlslVersion) (direction : Direction) (start : String)
    (placed : ShaderParameter × Nat) (v : StageVariable) : Prop :=
  ∃ type, (Dialect.glsl version).typeName placed.1.type = .ok type ∧
    v = ⟨some placed.2, direction, type, start ++ placed.1.semantics.glslName⟩

namespace StageInterface

/-- The structures of an interface, and no others, are declared in an HLSL unit. -/
structure InHlsl (method : ShaderMethod) (interface : StageInterface) (lines : List Line) :
    Prop where
  inputs : structLines (hlslStructName method .input) interface.inputs <:+: lines
  outputs : structLines (hlslStructName method .output) interface.outputs <:+: lines
  only : lines.filter (Line.opens ["struct "]) =
    [{ text := s!"struct {hlslStructName method .input}" },
      { text := s!"struct {hlslStructName method .output}" }]

/-- The variables of an interface, and no others, are declared in a GLSL unit. -/
def InGlsl (interface : StageInterface) (lines : List Line) : Prop :=
  lines.filter (Line.opens ["in ", "out ", "layout(location"]) =
    interface.globals.map StageVariable.line

/-- An interface has the inputs of a vertex shader in order: the element of the layout, the variable
at the location with its number and the field with its plain semantic. -/
structure FeedsVertices (version : GlslVersion) (method : ShaderMethod)
    (interface : StageInterface) : Prop where
  elements : List.Forall₂ VertexElement.Describes method.inputs interface.layout
  locations : List.Forall₂ (StageVariable.Locates version .input "a_") method.inputs.zipIdx
    (interface.globals.filter (·.direction == .input))
  fields : List.Forall₂ (fun input field => Dialect.hlsl.typeName input.type = .ok field.type ∧
      field.name = input.name ∧ field.semantic = input.semantics.hlslName)
    method.inputs interface.inputs

/-- An interface has the outputs of a fragment shader in order: the variable at the location and the
field at the render target with its number. -/
structure EmitsColors (version : GlslVersion) (method : ShaderMethod)
    (interface : StageInterface) : Prop where
  locations : List.Forall₂ (StageVariable.Locates version .output "o_") method.outputs.zipIdx
    (interface.globals.filter (·.direction == .output))
  fields : List.Forall₂ (fun output field => Dialect.hlsl.typeName output.1.type = .ok field.type ∧
      field.name = output.1.name ∧ field.semantic = s!"SV_Target{output.2}")
    method.outputs.zipIdx interface.outputs

/-- An interface has a variable for each parameter that is not built in, and agrees with what
connects a method to the application. -/
structure Agrees (version : GlslVersion) (method : ShaderMethod) (interface : StageInterface) :
    Prop where
  names : interface.globals.map (·.name) =
    method.parameters.filterMap (glslVariable? method.stage)
  vertex : method.stage = .vertex → interface.FeedsVertices version method
  fragment : method.stage = .fragment → interface.EmitsColors version method

end StageInterface

/-! ## Vertex input layouts -/

theorem ElementFormat.exists_ofDataType? {type : DataType} (h : type.isParameterType) :
    ∃ format, ofDataType? type = some format := by
  cases type
  case float | vector2 | vector3 | vector4 => exact ⟨_, rfl⟩
  all_goals cases h

/-- Inputs with parameter types all have an element. -/
theorem ShaderMethod.vertexLayout_describes {method : ShaderMethod}
    (h : ∀ input ∈ method.inputs, input.type.isParameterType) :
    ∃ layout, method.vertexLayout = .ok layout ∧
      List.Forall₂ VertexElement.Describes method.inputs layout := by
  unfold vertexLayout
  generalize method.inputs = inputs at h ⊢
  induction inputs with
  | nil => exact ⟨[], rfl, .nil⟩
  | cons input rest ih =>
      obtain ⟨format, hformat⟩ := ElementFormat.exists_ofDataType? (h input (by simp))
      obtain ⟨layout, hlayout, hdescribes⟩ := ih fun other ho => h other (by simp [ho])
      refine ⟨⟨format, input.semantics⟩ :: layout, ?_, .cons ⟨hformat, rfl⟩ hdescribes⟩
      simp only [List.mapM_cons, hformat, hlayout]
      rfl

/-- A method that compiles in both languages is packaged, a vertex shader with its layout. -/
theorem Effect.exists_asset {effect : Effect} {method : ShaderMethod} {version : GlslVersion}
    {hlsl glsl : CompiledShader} (h : ∀ input ∈ method.inputs, input.type.isParameterType)
    (hhlsl : effect.compile .hlsl method.name = .ok hlsl)
    (hglsl : effect.compile (.glsl version) method.name = .ok glsl) :
    ∃ layout, effect.asset method version = .ok ⟨method.stage, layout, hlsl.source, glsl.source⟩ ∧
      (method.stage = .vertex → List.Forall₂ VertexElement.Describes method.inputs layout) := by
  unfold Effect.asset
  rw [hhlsl, hglsl]
  cases hs : method.stage with
  | vertex =>
      obtain ⟨layout, hlayout, hdescribes⟩ := ShaderMethod.vertexLayout_describes h
      rw [hlayout]
      exact ⟨layout, rfl, fun _ => hdescribes⟩
  | fragment => exact ⟨[], rfl, by simp⟩

/-! ## Locations and render targets -/

/-- How the names of the variables at the boundary begin. -/
def Stage.boundaryStart : Stage → String
  | vertex => "a_"
  | fragment => "o_"

theorem glslVariable?_boundary {stage : Stage} {parameter : ShaderParameter}
    (h : parameter.direction = stage.boundary) :
    glslVariable? stage parameter = some (stage.boundaryStart ++ parameter.semantics.glslName) := by
  cases stage <;> simp [glslVariable?, h, Stage.boundary, Stage.boundaryStart, toString]

/-- The parameters at the boundary have consecutive locations in their order. -/
theorem StageVariable.StandForAll.locations {version : GlslVersion} {stage : Stage}
    {parameters : List ShaderParameter} {globals : List StageVariable}
    (h : StandForAll version stage 0 parameters globals) :
    List.Forall₂ (Locates version stage.boundary stage.boundaryStart)
      (parameters.filter (·.direction == stage.boundary)).zipIdx
      (globals.filter (·.direction == stage.boundary)) := by
  refine h.boundary.imp fun placed v hv => ⟨v.type, hv.type, ?_⟩
  have hname := (glslVariable?_boundary hv.boundary).symm.trans hv.name
  obtain ⟨location, direction, type, name⟩ := v
  obtain rfl : direction = stage.boundary := hv.direction.trans hv.boundary
  obtain rfl : location = some placed.2 := hv.location
  rw [Option.some.inj hname]

theorem forall₂_zipIdx {α β : Type} {R : α → β → Prop} {S : α × Nat → β → Prop} {xs : List α}
    {ys : List β} {start : Nat} (h : List.Forall₂ R xs ys)
    (hS : ∀ i x y, xs[i]? = some x → R x y → S (x, start + i) y) :
    List.Forall₂ S (xs.zipIdx start) ys := by
  induction h generalizing start with
  | nil => exact .nil
  | cons hx _ ih =>
      rw [List.zipIdx_cons]
      refine .cons (hS 0 _ _ rfl hx) (ih fun i x y hi hxy => ?_)
      have hnext := hS (i + 1) x y hi hxy
      rwa [show start + 1 + i = start + (i + 1) by omega]

/-- Where no two elements have the same name, each is found at its own place. -/
theorem findIdx?_of_nodup_map {α : Type} {name : α → String} {x : α} {xs : List α} {i : Nat}
    (h : (xs.map name).Nodup) (hx : xs[i]? = some x) :
    xs.findIdx? (name · == name x) = some i := by
  induction xs generalizing i with
  | nil => simp at hx
  | cons first rest ih =>
      rw [List.map_cons, List.nodup_cons] at h
      cases i with
      | zero =>
          obtain rfl : first = x := by simpa using hx
          simp [List.findIdx?_cons]
      | succ i =>
          rw [List.getElem?_cons_succ] at hx
          have hne : name first ≠ name x := by
            intro heq
            exact h.1 (heq ▸ List.mem_map_of_mem (List.mem_of_getElem? hx))
          simp [List.findIdx?_cons, hne, ih h.2 hx]

/-- The outputs of a fragment shader are the render targets with their numbers. -/
theorem hlslSemantic_output {method : ShaderMethod} {output : ShaderParameter} {i : Nat}
    (hs : method.stage = .fragment) (hd : (method.parameters.map (·.name)).Nodup)
    (ho : method.outputs[i]? = some output) : hlslSemantic method output = s!"SV_Target{i}" := by
  have hnodup : (method.outputs.map (·.name)).Nodup := hd.sublist (List.filter_sublist.map _)
  have hdirection : output.direction = .output := by
    simpa using (List.mem_filter.mp (List.mem_of_getElem? ho)).2
  simp [hlslSemantic, hs, hdirection, findIdx?_of_nodup_map hnodup ho]

theorem hlslSemantic_input {method : ShaderMethod} {input : ShaderParameter}
    (hs : method.stage = .vertex) (hi : input ∈ method.inputs) :
    hlslSemantic method input = input.semantics.hlslName := by
  have hdirection : input.direction = .input := by simpa using (List.mem_filter.mp hi).2
  simp [hlslSemantic, hs, hdirection]

/-! ## Distinct variables -/

theorem Semantics.mem_all (semantics : Semantics) : semantics ∈ all := by
  cases semantics with
  | position | normal => decide
  | color index | texCoord index =>
      revert index
      decide

theorem Semantics.glslName_injective {first second : Semantics}
    (h : first.glslName = second.glslName) : first = second := by
  have hall : ∀ a ∈ all, ∀ b ∈ all, a.glslName = b.glslName → a = b := by decide
  exact hall first (mem_all first) second (mem_all second) h

theorem glslVariable?_between {stage : Stage} {parameter : ShaderParameter} {name : String}
    (hd : parameter.direction ≠ stage.boundary) (h : glslVariable? stage parameter = some name) :
    name = "v_" ++ parameter.semantics.glslName := by
  obtain ⟨declared, type, semantics, direction, location⟩ := parameter
  cases stage <;> cases direction <;> simp_all [glslVariable?, Stage.boundary, toString]

theorem boundaryStart_ne (stage : Stage) (first second : String) :
    stage.boundaryStart ++ first ≠ "v_" ++ second := by
  intro h
  have hlist := congrArg String.toList h
  cases stage <;> simp [Stage.boundaryStart] at hlist

/-- Variables of one name stand for parameters with one direction and semantics. -/
theorem glslVariable?_injective {stage : Stage} {first second : ShaderParameter} {name : String}
    (hf : glslVariable? stage first = some name) (hs : glslVariable? stage second = some name) :
    first.direction = second.direction ∧ first.semantics = second.semantics := by
  by_cases hfirst : first.direction = stage.boundary
  · rw [glslVariable?_boundary hfirst] at hf
    by_cases hsecond : second.direction = stage.boundary
    · rw [glslVariable?_boundary hsecond, ← hf] at hs
      have hname : second.semantics.glslName = first.semantics.glslName := by simpa using hs
      exact ⟨hfirst.trans hsecond.symm, (Semantics.glslName_injective hname).symm⟩
    · have hname := glslVariable?_between hsecond hs
      exact absurd ((Option.some.inj hf).trans hname) (boundaryStart_ne stage _ _)
  · have hf := glslVariable?_between hfirst hf
    by_cases hsecond : second.direction = stage.boundary
    · rw [glslVariable?_boundary hsecond] at hs
      exact absurd ((Option.some.inj hs).trans hf) (boundaryStart_ne stage _ _)
    · have hs := glslVariable?_between hsecond hs
      have hname : first.semantics.glslName = second.semantics.glslName := by simpa [hf] using hs
      refine ⟨?_, Semantics.glslName_injective hname⟩
      -- there are two directions, and neither is the one of the boundary
      cases stage <;> cases hd : first.direction <;> cases hd' : second.direction <;>
        simp_all [Stage.boundary]

theorem nodup_of_repeatedSemantics {seen : List Semantics} {parameters : List ShaderParameter}
    (h : repeatedSemantics seen parameters = []) :
    (parameters.map (·.semantics)).Nodup ∧
      ∀ parameter ∈ parameters, parameter.semantics ∉ seen := by
  induction parameters generalizing seen with
  | nil => simp
  | cons parameter rest ih =>
      rw [repeatedSemantics] at h
      by_cases hseen : parameter.semantics ∈ seen
      · simp [hseen] at h
      · simp only [List.contains_eq_mem, hseen, decide_false] at h
        obtain ⟨hnodup, hfresh⟩ := ih h
        simp only [List.mem_cons, not_or] at hfresh
        constructor
        · rw [List.map_cons, List.nodup_cons]
          refine ⟨fun hmem => ?_, hnodup⟩
          obtain ⟨other, ho, heq⟩ := List.mem_map.mp hmem
          exact (hfresh other ho).1 heq
        · intro other ho
          rcases List.mem_cons.mp ho with rfl | ho
          · exact hseen
          · exact (hfresh other ho).2

section

variable {decl : TypeDecl} {effect : Effect} {method : ShaderMethod}

/-- No two parameters of a direction of a valid effect have the same semantics. -/
theorem nodup_semantics_of_isValid (hb : decl.build.result = .ok effect)
    (hv : isValid decl effect = true) (hm : method ∈ effect.methods) (direction : Direction) :
    ((method.parametersOf direction).map (·.semantics)).Nodup := by
  have hshape := shapeFindings_of_isValid hb hv hm
  simp only [shapeFindings, checkRepeatedSemantics, List.append_eq_nil_iff, List.map_eq_nil_iff]
    at hshape
  cases direction with
  | input => exact (nodup_of_repeatedSemantics hshape.1.2).1
  | output => exact (nodup_of_repeatedSemantics hshape.2).1

/-- The variables of the stage interface of a valid effect have different names. -/
theorem nodup_glslVariables (hb : decl.build.result = .ok effect)
    (hv : isValid decl effect = true) (hm : method ∈ effect.methods) :
    (method.parameters.filterMap (glslVariable? method.stage)).Nodup := by
  -- the rule is checked for each direction apart, but the names are those of all parameters
  have hdirection (direction : Direction) : method.parameters.Pairwise fun first second =>
      first.direction = direction → second.direction = direction →
        first.semantics ≠ second.semantics := by
    have h := nodup_semantics_of_isValid hb hv hm direction
    simpa [List.Nodup, List.pairwise_map, ShaderMethod.parametersOf, List.pairwise_filter] using h
  rw [List.Nodup, List.pairwise_filterMap]
  refine ((hdirection .input).and (hdirection .output)).imp ?_
  intro first second h name hf other hs heq
  subst heq
  obtain ⟨hd, hsemantics⟩ := glslVariable?_injective hf hs
  cases hsecond : second.direction with
  | input => exact h.1 (hd.trans hsecond) hsecond hsemantics
  | output => exact h.2 (hd.trans hsecond) hsecond hsemantics

/-! ## Sources -/

theorem filter_structLines (name : String) (fields : List StructField) :
    (structLines name fields).filter (Line.opens ["struct "]) =
      [{ text := s!"struct {name}" }] := by
  simp [structLines, Line.opens, StructField.line, toString]

/-- The structures that a unit declares are those of the interface. -/
theorem UnitSections.Describe.exists_structs {sections : UnitSections}
    (hb : decl.build.result = .ok effect) (h : sections.Describe .hlsl effect method) :
    ∃ inputs outputs,
      structLines (hlslStructName method .input) inputs <:+: sections.lines ∧
      structLines (hlslStructName method .output) outputs <:+: sections.lines ∧
      sections.lines.filter (Line.opens ["struct "]) =
        [{ text := s!"struct {hlslStructName method .input}" },
          { text := s!"struct {hlslStructName method .output}" }] ∧
      List.Forall₂ (StructField.StandsFor method) method.inputs inputs ∧
      List.Forall₂ (StructField.StandsFor method) method.outputs outputs := by
  obtain ⟨inputs, outputs, hinterface, hinputs, houtputs⟩ :=
    Dialect.writeInterface_hlsl _ h.interface
  have hinfix : sections.interface <:+: sections.lines :=
    ⟨sections.before ++ sections.bufferLines ++ sections.textureLines ++ sections.between,
      sections.after, by simp [lines]⟩
  have hfirst : structLines (hlslStructName method .input) inputs <:+: sections.interface :=
    ⟨[], .blank :: (structLines (hlslStructName method .output) outputs ++ [.blank]),
      by simp [hinterface]⟩
  have hsecond : structLines (hlslStructName method .output) outputs <:+: sections.interface :=
    ⟨structLines (hlslStructName method .input) inputs ++ [.blank], [.blank], by simp [hinterface]⟩
  have hblank : [Line.blank].filter (Line.opens ["struct "]) = [] := rfl
  refine ⟨inputs, outputs, hfirst.trans hinfix, hsecond.trans hinfix, ?_, hinputs, houtputs⟩
  rw [h.filter_eq_interface hb rfl, hinterface]
  simp only [List.filter_append, filter_structLines, hblank]
  rfl

/-- The variables that a unit declares are those of the interface. -/
theorem UnitSections.Describe.exists_globals {sections : UnitSections} {version : GlslVersion}
    (hb : decl.build.result = .ok effect) (h : sections.Describe (.glsl version) effect method) :
    ∃ globals, sections.lines.filter (Line.opens ["in ", "out ", "layout(location"]) =
        globals.map StageVariable.line ∧
      StageVariable.StandForAll version method.stage 0 method.parameters globals := by
  obtain ⟨globals, hinterface, hglobals⟩ := Dialect.writeInterface_glsl _ h.interface
  refine ⟨globals, ?_, hglobals⟩
  have hdeclared : (globals.map StageVariable.line).filter
      (Line.opens (Dialect.glsl version).interfaceStarts) = globals.map StageVariable.line := by
    rw [List.filter_eq_self]
    intro line hl
    obtain ⟨v, -, rfl⟩ := List.mem_map.mp hl
    exact Dialect.opens_stageVariable version v
  have hblank : [Line.blank].filter (Line.opens (Dialect.glsl version).interfaceStarts) = [] := rfl
  calc sections.lines.filter (Line.opens (Dialect.glsl version).interfaceStarts)
      = sections.interface.filter (Line.opens (Dialect.glsl version).interfaceStarts) :=
        h.filter_eq_interface hb rfl
    _ = globals.map StageVariable.line := by
        rw [hinterface, List.filter_append, hdeclared, hblank, List.append_nil]

/-- The fields of a vertex shader's input structure have the plain semantics of the inputs. -/
theorem vertex_fields {fields : List StructField} (hs : method.stage = .vertex)
    (h : List.Forall₂ (StructField.StandsFor method) method.inputs fields) :
    List.Forall₂ (fun input field => Dialect.hlsl.typeName input.type = .ok field.type ∧
      field.name = input.name ∧ field.semantic = input.semantics.hlslName)
      method.inputs fields := by
  have hsemantic : ∀ input ∈ method.inputs, hlslSemantic method input = input.semantics.hlslName :=
    fun input hi => hlslSemantic_input hs hi
  refine ((List.forall₂_and_left _ _).mpr ⟨hsemantic, h⟩).imp ?_
  rintro input field ⟨hplain, hfield⟩
  exact ⟨hfield.type, hfield.name, hfield.semantic.trans hplain⟩

/-- The fields of a fragment shader's output structure are the render targets in order. -/
theorem fragment_fields {fields : List StructField} (hs : method.stage = .fragment)
    (hd : (method.parameters.map (·.name)).Nodup)
    (h : List.Forall₂ (StructField.StandsFor method) method.outputs fields) :
    List.Forall₂ (fun output field => Dialect.hlsl.typeName output.1.type = .ok field.type ∧
      field.name = output.1.name ∧ field.semantic = s!"SV_Target{output.2}")
      method.outputs.zipIdx fields := by
  refine forall₂_zipIdx h fun i output field ho hfield => ⟨hfield.type, hfield.name, ?_⟩
  rw [Nat.zero_add, hfield.semantic, hlslSemantic_output hs hd ho]

/-- The packaged layout and both sources of a method describe one stage interface, which has all
parameters at the boundary in their order. If the effect is valid, then the variables of the
interface have different names. -/
theorem stage_interfaces_agree (version : GlslVersion) (hb : decl.build.result = .ok effect)
    (hm : method ∈ effect.methods) (hd : (method.parameters.map (·.name)).Nodup)
    {hlsl glsl : CompiledShader} (hhlsl : effect.compile .hlsl method.name = .ok hlsl)
    (hglsl : effect.compile (.glsl version) method.name = .ok glsl) :
    ∃ (interface : StageInterface) (hlslUnit glslUnit : ShaderUnit),
      effect.asset method version =
          .ok ⟨method.stage, interface.layout, hlsl.source, glsl.source⟩ ∧
        hlsl.Consists .hlsl effect method hlslUnit ∧ interface.InHlsl method hlslUnit.lines ∧
        glsl.Consists (.glsl version) effect method glslUnit ∧ interface.InGlsl glslUnit.lines ∧
        interface.Agrees version method ∧
        (isValid decl effect = true → (interface.globals.map (·.name)).Nodup) := by
  have hmethod := Effect.method?_of_mem hb hm
  have htypes : ∀ input ∈ method.inputs, input.type.isParameterType := by
    obtain ⟨declared, -, hscanned⟩ := Effect.mem_methods hb hm
    intro input hi
    exact isParameterType_of_forall₂ hscanned.parameters input (List.mem_filter.mp hi).1
  obtain ⟨layout, hasset, hlayout⟩ := Effect.exists_asset htypes hhlsl hglsl
  obtain ⟨hlslMethod, hlslUnit, hfound, hhlsl⟩ := Effect.compile_consists hhlsl
  obtain rfl : method = hlslMethod := Option.some.inj (hmethod.symm.trans hfound)
  obtain ⟨glslMethod, glslUnit, hfound, hglsl⟩ := Effect.compile_consists hglsl
  obtain rfl : method = glslMethod := Option.some.inj (hmethod.symm.trans hfound)
  obtain ⟨hlslSections, hdescribe, rfl⟩ := Dialect.writeUnit_sections _ hhlsl.written
  obtain ⟨inputs, outputs, hin, hout, honly, hinputs, houtputs⟩ := hdescribe.exists_structs hb
  obtain ⟨glslSections, hdescribe', rfl⟩ := Dialect.writeUnit_sections _ hglsl.written
  obtain ⟨globals, hdeclared, hglobals⟩ := hdescribe'.exists_globals hb
  have hlocations := hglobals.locations
  refine ⟨⟨layout, inputs, outputs, globals⟩, hlslSections.unit, glslSections.unit, hasset, hhlsl,
    ⟨hin, hout, honly⟩, hglsl, hdeclared, ⟨hglobals.names, fun hs => ?_, fun hs => ?_⟩, ?_⟩
  · rw [hs] at hlocations
    exact ⟨hlayout hs, hlocations, vertex_fields hs hinputs⟩
  · rw [hs] at hlocations
    exact ⟨hlocations, fragment_fields hs hd houtputs⟩
  · intro hv
    rw [hglobals.names]
    exact nodup_glslVariables hb hv hm

/-- The effect with a second vertex shader, which has an output between its inputs. -/
def unfolding : TypeDecl :=
  { tinting [] with
    members := (tinting []).members ++ [
      .method {
        name := "Unfold"
        attributes := [{ name := "VertexShader" }]
        parameters := [
          { name := "corner", type := .named "Vector3", attributes := [{ name := "Position" }] },
          { name := "placed", type := .named "Vector4", mode := .out
            attributes := [{ name := "Position" }] },
          { name := "uv", type := .named "Vector2", attributes := [{ name := "TexCoord" }] }]
        body := some [] }] }

theorem methods_unfolding_ne_nil : unfolding.scan.1.methods ≠ [] :=
  List.cons_ne_nil _ _

/-- The second vertex shader of the effect. -/
def unfoldingVertex : ShaderMethod :=
  unfolding.scan.1.methods.getLast methods_unfolding_ne_nil

theorem unfolding_interface_agrees :
    unfoldingVertex.inputs.map (·.name) = ["corner", "uv"] ∧
      isValid unfolding unfolding.scan.1 = true ∧
      ∃ interface : StageInterface, interface.FeedsVertices .v410 unfoldingVertex ∧
        (interface.globals.map (·.name)).Nodup := by
  have hb : unfolding.build.result = .ok unfolding.scan.1 := rfl
  have hm : unfoldingVertex ∈ unfolding.scan.1.methods := List.getLast_mem _
  have hv : isValid unfolding unfolding.scan.1 = true := rfl
  obtain ⟨interface, -, -, -, -, -, -, -, hagrees, hnodup⟩ :=
    stage_interfaces_agree .v410 hb hm (by decide) rfl rfl
  exact ⟨rfl, hv, interface, hagrees.vertex rfl, hnodup hv⟩

end

end ShaderEffect
