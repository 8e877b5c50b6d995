import ShaderEffect.Proofs.Build
import ShaderEffect.Proofs.Lines

/-!
# Sections of a unit

A unit is a sequence of sections: literals, constant buffers, textures, the stage interface and the
entry point. The lines of each section begin in their own ways, so that the declarations of one kind
are found by how they begin, wherever in the unit they stand.
-/

namespace ShaderEffect

namespace Dialect

open Line (Within)

variable {dialect : Dialect}

/-! ## How sections begin -/

/-- How the lines of constant buffers begin. -/
def bufferStarts : Dialect → List String
  | hlsl => ["#define ", "cbuffer ", "\x7b", "\x7d"]
  | glsl _ => ["const int ", "layout(std140", "\x7b", "\x7d"]

/-- How the lines of textures and samplers begin. -/
def textureStarts : Dialect → List String
  | hlsl => ["Texture2D ", "TextureCube ", "SamplerState "]
  | glsl _ => ["uniform ", "layout(binding"]

/-- How the lines of the stage interface begin. -/
def interfaceStarts : Dialect → List String
  | hlsl => ["struct ", "\x7b", "\x7d"]
  | glsl _ => ["in ", "out ", "layout(location"]

/-- How all other lines begin. -/
def otherStarts : Dialect → List String
  | hlsl => ["static const ", "fx_", "\x7b", "\x7d"]
  | glsl _ => ["#version ", "const ", "void main()", "\x7b", "\x7d"]

theorem within_header : Within dialect.otherStarts dialect.header := by
  cases dialect with
  | hlsl => simp [header]
  | glsl version => simp [header, Line.within_cons, Line.opens, otherStarts, toString]

theorem opens_writeLiteral {scope : Scope} {literal : ShaderLiteral} :
    Yields (dialect.writeLiteral scope literal) fun line => line.opens dialect.otherStarts := by
  unfold writeLiteral
  cases literal.elements? with
  | some elements =>
      refine (Yields.refl _).bind fun values _ => ?_
      refine (Yields.refl _).bind fun type _ => ?_
      cases dialect with
      | hlsl => exact .pure (by simp [Line.opens, otherStarts, toString])
      | glsl version => exact .pure (by simp [Line.opens, otherStarts, toString])
  | none =>
      refine (Yields.refl _).bind fun value _ => ?_
      refine (Yields.refl _).bind fun type _ => ?_
      cases dialect with
      | hlsl => exact .pure (by simp [Line.opens, otherStarts, toString])
      | glsl version => exact .pure (by simp [Line.opens, otherStarts, toString])

theorem within_literals {scope : Scope} {literals : List ShaderLiteral} :
    Yields (literals.mapM (dialect.writeLiteral scope)) (Within dialect.otherStarts) := by
  have hopens : Yields (literals.mapM (dialect.writeLiteral scope))
      (List.Forall₂ (fun _ line => line.opens dialect.otherStarts) literals) :=
    .mapM fun literal _ => opens_writeLiteral
  refine hopens.mono fun lines hlines line hl => ?_
  obtain ⟨literal, -, ho⟩ := forall₂_mem_right hlines hl
  exact .inr (.inr ho)

theorem within_gapAfter {α : Type} {starts : List String} {declarations : List α} :
    Within starts (gapAfter declarations) := by
  cases declarations with
  | nil => simp [gapAfter]
  | cons declaration rest => simp [gapAfter]

theorem within_entryPointBegin (method : ShaderMethod) :
    Within dialect.otherStarts (dialect.entryPointBegin method) := by
  cases dialect with
  | hlsl =>
      simp [entryPointBegin, Line.within_cons, Line.opens, otherStarts, hlslStructName, toString]
  | glsl version => simp [entryPointBegin, Line.within_cons, Line.opens, otherStarts]

theorem within_entryPointEnd (method : ShaderMethod) :
    Within dialect.otherStarts (dialect.entryPointEnd method) := by
  unfold entryPointEnd
  split <;> cases dialect <;> simp [Line.within_cons, Line.opens, otherStarts]

theorem within_writeBuffer {buffer : ConstantBuffer} :
    Yields (dialect.writeBuffer buffer) fun declaration =>
      Within dialect.bufferStarts declaration.lines := by
  have hmember (member : MemberLayout) :
      Yields (dialect.bufferMember member) fun line => 0 < line.depth :=
    (Yields.refl _).bind fun type _ => .pure (by simp)
  have hmembers : Yields ((buffer.layout dialect.packing).members.mapM dialect.bufferMember)
      (List.Forall₂ (fun _ line => 0 < line.depth) (buffer.layout dialect.packing).members) :=
    .mapM fun member _ => hmember member
  refine hmembers.bind fun members hm => .pure ?_
  have hnested : Within dialect.bufferStarts members := by
    intro line hl
    obtain ⟨member, -, hdepth⟩ := forall₂_mem_right hm hl
    exact .inr (.inl hdepth)
  cases dialect with
  | hlsl => simpa [Line.within_cons, Line.opens, bufferHead, bufferStarts, toString] using hnested
  | glsl version =>
      simpa [Line.within_cons, Line.opens, bufferHead, bufferStarts, toString] using hnested

theorem hlsl_typeName_texture {type : DataType} {name : String} (h : type.isTexture)
    (hn : hlsl.typeName type = .ok name) : name = "Texture2D" ∨ name = "TextureCube" := by
  cases type
  case texture2D =>
    cases hn
    exact .inl rfl
  case textureCube =>
    cases hn
    exact .inr rfl
  all_goals cases h

theorem within_writeTexture {texture : ShaderTexture} (h : texture.type.isTexture) :
    Yields (dialect.writeTexture texture) fun declaration =>
      Within dialect.textureStarts declaration.lines := by
  refine (Yields.refl _).bind fun type htype => ?_
  cases dialect with
  | hlsl =>
      refine .pure ?_
      rcases hlsl_typeName_texture h htype with rfl | rfl
      · simp [Line.within_cons, Line.opens, textureStarts, toString]
      · simp [Line.within_cons, Line.opens, textureStarts, toString]
  | glsl version =>
      refine .pure ?_
      by_cases hbinding : version.supportsBinding
      · simp [Line.within_cons, Line.opens, textureStarts, toString, hbinding]
      · simp [Line.within_cons, Line.opens, textureStarts, toString, hbinding]

end Dialect

/-! ## The stage interface -/

/-- The direction of the parameters that connect a stage to the application: vertices come in and
colors go out. -/
def Stage.boundary : Stage → Direction
  | vertex => .input
  | fragment => .output

/-- A GLSL variable of the stage interface. -/
structure StageVariable where
  location : Option Nat
  direction : Direction
  type : String
  name : String

/-- The declaration of a variable of the stage interface. -/
def StageVariable.line (v : StageVariable) : Line :=
  let qualifier := match v.direction with
    | .input => "in"
    | .output => "out"
  let declaration := s!"{qualifier} {v.type} {v.name};"
  match v.location with
  | some location => { text := s!"layout(location = {location}) {declaration}" }
  | none => { text := declaration }

/-- A field of an HLSL structure, with the semantic that it is bound to. -/
structure StructField where
  type : String
  name : String
  semantic : String

/-- The declaration of a field. -/
def StructField.line (field : StructField) : Line :=
  { depth := 1, text := s!"{field.type} {field.name} : {field.semantic};" }

/-- The declaration of a structure. -/
def structLines (name : String) (fields : List StructField) : List Line :=
  { text := s!"struct {name}" } :: { text := "\x7b" } :: fields.map StructField.line ++
    [{ text := "\x7d;" }]

/-- A field of an HLSL structure stands for a stage parameter. -/
structure StructField.StandsFor (method : ShaderMethod) (parameter : ShaderParameter)
    (field : StructField) : Prop where
  type : Dialect.hlsl.typeName parameter.type = .ok field.type
  name : field.name = parameter.name
  semantic : field.semantic = hlslSemantic method parameter

/-- A GLSL variable stands for a stage parameter at the boundary. -/
structure StageVariable.StandsFor (version : GlslVersion) (stage : Stage)
    (parameter : ShaderParameter) (location : Nat) (v : StageVariable) : Prop where
  boundary : parameter.direction = stage.boundary
  direction : v.direction = parameter.direction
  type : (Dialect.glsl version).typeName parameter.type = .ok v.type
  name : glslVariable? stage parameter = some v.name
  location : v.location = some location

/-- GLSL variables stand for stage parameters: all those that are not built in have one, and those
at the boundary have consecutive locations. -/
structure StageVariable.StandForAll (version : GlslVersion) (stage : Stage) (location : Nat)
    (parameters : List ShaderParameter) (globals : List StageVariable) : Prop where
  names : globals.map (·.name) = parameters.filterMap (glslVariable? stage)
  boundary :
    List.Forall₂ (fun placed v => v.StandsFor version stage placed.1 placed.2)
      ((parameters.filter (·.direction == stage.boundary)).zipIdx location)
      (globals.filter (·.direction == stage.boundary))

namespace Dialect

open Line (Within)

theorem isLocated_iff {stage : Stage} {direction : Direction} :
    isLocated stage direction = true ↔ direction = stage.boundary := by
  cases stage <;> cases direction <;> simp [isLocated, Stage.boundary]

/-- Only parameters between the stages are built in. -/
theorem direction_ne_of_glslVariable?_eq_none {stage : Stage} {parameter : ShaderParameter}
    (h : glslVariable? stage parameter = none) : parameter.direction ≠ stage.boundary := by
  intro hd
  cases stage <;> simp [glslVariable?, hd, Stage.boundary] at h

theorem hlslStruct_fields {method : ShaderMethod} {direction : Direction} :
    Yields (hlslStruct method direction) fun lines => ∃ fields,
      lines = structLines (hlslStructName method direction) fields ++ [.blank] ∧
        List.Forall₂ (StructField.StandsFor method) (method.parametersOf direction) fields := by
  unfold hlslStruct
  refine Yields.bind (P := List.Forall₂ (fun parameter line => ∃ field : StructField,
    line = field.line ∧ field.StandsFor method parameter) (method.parametersOf direction))
    (.mapM fun parameter _ => ?_) fun lines hlines => ?_
  · refine (Yields.refl _).bind fun type htype => .pure ?_
    exact ⟨⟨type, parameter.name, hlslSemantic method parameter⟩, rfl, ⟨htype, rfl, rfl⟩⟩
  · obtain ⟨fields, rfl, hfields⟩ := exists_map_of_forall₂ hlines
    exact .pure ⟨fields, by simp [structLines], hfields⟩

/-- The variables are declared in parameter order, with locations from the next free one on. -/
theorem glslVariables_standForAll {version : GlslVersion} {stage : Stage} {location : Nat}
    {parameters : List ShaderParameter} :
    Yields (glslVariables version stage location parameters) fun lines => ∃ globals,
      lines = globals.map StageVariable.line ∧
        StageVariable.StandForAll version stage location parameters globals := by
  induction parameters generalizing location with
  | nil => exact .pure ⟨[], rfl, rfl, .nil⟩
  | cons parameter rest ih =>
      rw [glslVariables]
      split
      · -- a built-in variable is not declared, and takes no location either
        rename_i hname
        have hd := direction_ne_of_glslVariable?_eq_none hname
        refine ih.mono fun lines h => ?_
        obtain ⟨globals, hlines, hnames, hboundary⟩ := h
        exact ⟨globals, hlines, by simp [hname, hnames], by simpa [hd] using hboundary⟩
      · rename_i name hname
        refine (Yields.refl _).bind fun type htype => ?_
        by_cases hl : isLocated stage parameter.direction
        · have hd := isLocated_iff.mp hl
          simp only [hl, if_true]
          refine ih.bind fun lines h => .pure ?_
          obtain ⟨globals, rfl, hnames, hboundary⟩ := h
          let first : StageVariable := ⟨some location, parameter.direction, type, name⟩
          refine ⟨first :: globals, ?_, ?_, ?_⟩
          · cases hq : parameter.direction <;> simp [first, hq, StageVariable.line]
          · simp [first, hname, hnames]
          · have hfirst : first.StandsFor version stage parameter location :=
              ⟨hd, rfl, htype, hname, rfl⟩
            simp only [List.filter_cons, first, hd, beq_self_eq_true, if_true, List.zipIdx_cons]
            exact .cons (by simpa [first, hd] using hfirst) hboundary
        · have hd : parameter.direction ≠ stage.boundary := fun hd => hl (isLocated_iff.mpr hd)
          simp only [hl]
          refine ih.bind fun lines h => .pure ?_
          obtain ⟨globals, rfl, hnames, hboundary⟩ := h
          let first : StageVariable := ⟨none, parameter.direction, type, name⟩
          refine ⟨first :: globals, ?_, ?_, ?_⟩
          · cases hq : parameter.direction <;> simp [first, hq, StageVariable.line]
          · simp [first, hname, hnames]
          · simpa [first, hd] using hboundary

/-- The HLSL interface is a structure for each direction. -/
theorem writeInterface_hlsl {method : ShaderMethod} :
    Yields (hlsl.writeInterface method) fun lines => ∃ inputs outputs,
      lines = (structLines (hlslStructName method .input) inputs ++ [.blank]) ++
          (structLines (hlslStructName method .output) outputs ++ [.blank]) ∧
        List.Forall₂ (StructField.StandsFor method) method.inputs inputs ∧
        List.Forall₂ (StructField.StandsFor method) method.outputs outputs := by
  refine hlslStruct_fields.bind fun first hfirst => ?_
  refine hlslStruct_fields.bind fun second hsecond => .pure ?_
  obtain ⟨inputs, rfl, hinputs⟩ := hfirst
  obtain ⟨outputs, rfl, houtputs⟩ := hsecond
  exact ⟨inputs, outputs, rfl, hinputs, houtputs⟩

/-- The GLSL interface is a sequence of variables. -/
theorem writeInterface_glsl {version : GlslVersion} {method : ShaderMethod} :
    Yields ((glsl version).writeInterface method) fun lines => ∃ globals,
      lines = globals.map StageVariable.line ++ [.blank] ∧
        StageVariable.StandForAll version method.stage 0 method.parameters globals := by
  refine glslVariables_standForAll.bind fun lines h => .pure ?_
  obtain ⟨globals, rfl, hglobals⟩ := h
  exact ⟨globals, rfl, hglobals⟩

theorem within_structLines (name : String) (fields : List StructField) :
    Within hlsl.interfaceStarts (structLines name fields) := by
  have hfields : Within hlsl.interfaceStarts (fields.map StructField.line) := by
    intro line hl
    obtain ⟨field, -, rfl⟩ := List.mem_map.mp hl
    exact .inr (.inl Nat.one_pos)
  simpa [structLines, Line.within_cons, Line.opens, interfaceStarts, toString] using hfields

theorem opens_stageVariable (version : GlslVersion) (v : StageVariable) :
    v.line.opens (glsl version).interfaceStarts := by
  obtain ⟨location, direction, type, name⟩ := v
  cases location <;> cases direction <;>
    simp [StageVariable.line, Line.opens, interfaceStarts, toString]

theorem within_writeInterface {dialect : Dialect} {method : ShaderMethod} :
    Yields (dialect.writeInterface method) (Within dialect.interfaceStarts) := by
  cases dialect with
  | hlsl =>
      refine writeInterface_hlsl.mono fun lines h => ?_
      obtain ⟨inputs, outputs, rfl, -, -⟩ := h
      simp only [Line.within_append, within_structLines, Line.within_blank, and_self]
  | glsl version =>
      refine writeInterface_glsl.mono fun lines h => ?_
      obtain ⟨globals, rfl, -⟩ := h
      have hglobals : Within (glsl version).interfaceStarts (globals.map StageVariable.line) := by
        intro line hl
        obtain ⟨v, -, rfl⟩ := List.mem_map.mp hl
        exact .inr (.inr (opens_stageVariable version v))
      simpa using hglobals

end Dialect

/-! ## Units -/

/-- The lines of a unit by section. -/
structure UnitSections where
  before : List Line
  buffers : List ResourceDeclaration
  textures : List ResourceDeclaration
  between : List Line
  interface : List Line
  after : List Line

namespace UnitSections

/-- The lines that declare the buffers. -/
def bufferLines (sections : UnitSections) : List Line :=
  sections.buffers.flatMap (·.lines)

/-- The lines that declare the textures. -/
def textureLines (sections : UnitSections) : List Line :=
  sections.textures.flatMap (·.lines)

/-- All lines of the unit. -/
def lines (sections : UnitSections) : List Line :=
  sections.before ++ sections.bufferLines ++ sections.textureLines ++ sections.between ++
    sections.interface ++ sections.after

/-- The unit of the sections. -/
def unit (sections : UnitSections) : ShaderUnit :=
  { lines := sections.lines
    samplerBindings := sections.textures.flatMap (·.bindings)
    blockBindings := sections.buffers.flatMap (·.bindings) }

/-- The sections are those of the unit of a method. -/
structure Describe (dialect : Dialect) (effect : Effect) (method : ShaderMethod)
    (sections : UnitSections) : Prop where
  before : Line.Within dialect.otherStarts sections.before
  buffers : effect.buffers.mapM dialect.writeBuffer = .ok sections.buffers
  textures : effect.textures.mapM dialect.writeTexture = .ok sections.textures
  between : Line.Within dialect.otherStarts sections.between
  interface : dialect.writeInterface method = .ok sections.interface
  after : Line.Within dialect.otherStarts sections.after

end UnitSections

theorem Dialect.writeUnit_sections {dialect : Dialect} {effect : Effect} {method : ShaderMethod} :
    Yields (dialect.writeUnit effect method) fun unit => ∃ sections : UnitSections,
      sections.Describe dialect effect method ∧ unit = sections.unit := by
  refine within_literals.bind fun literals hliterals => ?_
  refine (Yields.refl _).bind fun buffers hbuffers => ?_
  refine (Yields.refl _).bind fun textures htextures => ?_
  refine (Yields.refl _).bind fun interface hinterface => ?_
  have hbody : Yields (dialect.writeStmts 1 { effect, method } method.body)
      fun written => Line.Nested 1 written.2 :=
    nested_writeStmts fun stmt _ => nested_writeStmt stmt
  refine hbody.bind fun written hwritten => .pure ?_
  let sections : UnitSections :=
    { before := dialect.header ++ literals ++ gapAfter effect.literals
      buffers, textures, interface
      between := gapAfter effect.textures
      after := dialect.entryPointBegin method ++ written.2 ++ dialect.entryPointEnd method }
  refine ⟨sections, ?_, by simp [sections, UnitSections.unit, UnitSections.lines,
    UnitSections.bufferLines, UnitSections.textureLines]⟩
  have hafter : Line.Within dialect.otherStarts sections.after := by
    simp only [sections, Line.within_append]
    exact ⟨⟨within_entryPointBegin method, hwritten.within Nat.one_pos⟩,
      within_entryPointEnd method⟩
  have hbefore : Line.Within dialect.otherStarts sections.before := by
    simp only [sections, Line.within_append]
    exact ⟨⟨within_header, hliterals⟩, within_gapAfter⟩
  exact ⟨hbefore, hbuffers, htextures, within_gapAfter, hinterface, hafter⟩

namespace UnitSections

variable {dialect : Dialect} {effect : Effect} {method : ShaderMethod} {sections : UnitSections}

/-- Declarations of resources and stage parameters stand in their sections only. -/
theorem Describe.filter_lines (h : sections.Describe dialect effect method)
    {keywords : List String} (ha : Line.apart keywords dialect.otherStarts) :
    sections.lines.filter (Line.opens keywords) =
      sections.bufferLines.filter (Line.opens keywords) ++
        sections.textureLines.filter (Line.opens keywords) ++
          sections.interface.filter (Line.opens keywords) := by
  simp [lines, h.before.filter_eq_nil ha, h.between.filter_eq_nil ha, h.after.filter_eq_nil ha]

theorem Describe.within_buffers (h : sections.Describe dialect effect method) :
    Line.Within dialect.bufferStarts sections.bufferLines :=
  Line.within_flatMap (fun _ _ => Dialect.within_writeBuffer) _ h.buffers

theorem Describe.within_textures {decl : TypeDecl} (hb : decl.build.result = .ok effect)
    (h : sections.Describe dialect effect method) :
    Line.Within dialect.textureStarts sections.textureLines := by
  refine Line.within_flatMap (fun texture ht => ?_) _ h.textures
  exact Dialect.within_writeTexture (Effect.mem_textures hb ht).1

theorem Describe.within_interface (h : sections.Describe dialect effect method) :
    Line.Within dialect.interfaceStarts sections.interface :=
  Dialect.within_writeInterface _ h.interface

variable {decl : TypeDecl} {keywords : List String}

/-- Lines that begin as in no other section stand in the section of the buffers. -/
theorem Describe.filter_eq_buffers (hb : decl.build.result = .ok effect)
    (h : sections.Describe dialect effect method)
    (ha : Line.apart keywords
      (dialect.textureStarts ++ dialect.interfaceStarts ++ dialect.otherStarts)) :
    sections.lines.filter (Line.opens keywords) =
      sections.bufferLines.filter (Line.opens keywords) := by
  simp only [Line.apart_append, Bool.and_eq_true] at ha
  rw [h.filter_lines ha.2, (h.within_textures hb).filter_eq_nil ha.1.1,
    h.within_interface.filter_eq_nil ha.1.2, List.append_nil, List.append_nil]

theorem Describe.filter_eq_textures (h : sections.Describe dialect effect method)
    (ha : Line.apart keywords
      (dialect.bufferStarts ++ dialect.interfaceStarts ++ dialect.otherStarts)) :
    sections.lines.filter (Line.opens keywords) =
      sections.textureLines.filter (Line.opens keywords) := by
  simp only [Line.apart_append, Bool.and_eq_true] at ha
  rw [h.filter_lines ha.2, h.within_buffers.filter_eq_nil ha.1.1,
    h.within_interface.filter_eq_nil ha.1.2, List.nil_append, List.append_nil]

theorem Describe.filter_eq_interface (hb : decl.build.result = .ok effect)
    (h : sections.Describe dialect effect method)
    (ha : Line.apart keywords
      (dialect.bufferStarts ++ dialect.textureStarts ++ dialect.otherStarts)) :
    sections.lines.filter (Line.opens keywords) =
      sections.interface.filter (Line.opens keywords) := by
  simp only [Line.apart_append, Bool.and_eq_true] at ha
  rw [h.filter_lines ha.2, h.within_buffers.filter_eq_nil ha.1.1,
    (h.within_textures hb).filter_eq_nil ha.1.2, List.nil_append, List.nil_append]

end UnitSections

/-! ## Sources -/

/-- A compiled shader consists of the unit of a method: its lines, and the bindings that these leave
to the application. -/
structure CompiledShader.Consists (dialect : Dialect) (effect : Effect) (method : ShaderMethod)
    (shader : CompiledShader) (unit : ShaderUnit) : Prop where
  written : dialect.writeUnit effect method = .ok unit
  source_eq : shader.source = Line.renderAll unit.lines
  samplerBindings_eq : shader.samplerBindings = unit.samplerBindings
  blockBindings_eq : shader.blockBindings = unit.blockBindings

theorem Effect.compile_consists {dialect : Dialect} {effect : Effect} {name : String}
    {shader : CompiledShader} (h : effect.compile dialect name = .ok shader) :
    ∃ method unit, effect.method? name = some method ∧
      shader.Consists dialect effect method unit := by
  unfold Effect.compile at h
  cases hm : effect.method? name with
  | none =>
      rw [hm] at h
      cases h
  | some method =>
      rw [hm] at h
      obtain ⟨unit, hunit, hshader⟩ := bind_eq_ok.mp h
      cases hshader
      exact ⟨method, unit, rfl, hunit, rfl, rfl, rfl⟩

end ShaderEffect
