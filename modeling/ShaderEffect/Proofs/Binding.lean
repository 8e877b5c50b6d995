import ShaderEffect.Package.Wrapper
import ShaderEffect.Proofs.Section

/-!
# Bindings

A wrapper uploads constants and binds textures by what its model says, and the shaders read them by
what their sources declare. Main statement: the model and the sources in both languages agree on
every slot, size and offset, and each resource is declared once. Slots that a source cannot say are
handed to the application.
-/

namespace ShaderEffect

/-! ## The model and the effect -/

/-- A member of a wrapper model stands for a constant. -/
structure WrapperConstant.Mirrors (constant : ShaderConstant) (member : WrapperConstant) :
    Prop where
  name_eq : member.name = constant.name
  type_eq : member.type = constant.type
  documentation_eq : member.documentation = constant.documentation

/-- A buffer of a wrapper model stands for a constant buffer and has all its constants in order. -/
structure WrapperBuffer.Mirrors (buffer : ConstantBuffer) (model : WrapperBuffer) : Prop where
  name_eq : model.name = buffer.name
  slot_eq : model.slot = buffer.slot
  shared_eq : model.shared = buffer.shared
  members : List.Forall₂ WrapperConstant.Mirrors buffer.constants model.members

/-- A texture of a wrapper model stands for a texture. -/
structure WrapperTexture.Mirrors (texture : ShaderTexture) (model : WrapperTexture) : Prop where
  name_eq : model.name = texture.name
  slot_eq : model.slot = texture.slot
  type_eq : model.type = texture.type

/-- A wrapper model has all buffers and textures of an effect, in order. -/
structure Wrapper.Mirrors (effect : Effect) (model : Wrapper) : Prop where
  buffers : List.Forall₂ WrapperBuffer.Mirrors effect.buffers model.buffers
  textures : List.Forall₂ WrapperTexture.Mirrors effect.textures model.textures

/-- The offset of a member in a language. -/
def WrapperConstant.offset (member : WrapperConstant) : Dialect → UInt32
  | .hlsl => member.hlslOffset
  | .glsl _ => member.glslOffset

/-- The size of a buffer in a language. -/
def WrapperBuffer.size (model : WrapperBuffer) : Dialect → UInt32
  | .hlsl => model.hlslSize
  | .glsl _ => model.glslSize

/-- A member of a wrapper model has the place of a placed member in a language. -/
structure WrapperConstant.PlacedAs (dialect : Dialect) (placed : MemberLayout)
    (member : WrapperConstant) : Prop where
  name_eq : member.name = placed.name
  type_eq : member.type = placed.type
  offset_eq : member.offset dialect = placed.offset

/-! ## Members -/

/-- A placed member keeps the name and the type of its constant. -/
structure MemberLayout.Keeps (constant : ShaderConstant) (placed : MemberLayout) : Prop where
  name_eq : placed.name = constant.name
  type_eq : placed.type = constant.type

theorem Packing.placeAll_keeps (packing : Packing) (offset : UInt32)
    (constants : List ShaderConstant) :
    List.Forall₂ MemberLayout.Keeps constants
      (packing.placeAll offset (constants.map fun c => (c.name, c.type))).1 := by
  induction constants generalizing offset with
  | nil => exact .nil
  | cons constant rest ih => exact .cons ⟨rfl, rfl⟩ (ih _)

theorem ConstantBuffer.layout_keeps (buffer : ConstantBuffer) (packing : Packing) :
    List.Forall₂ MemberLayout.Keeps buffer.constants (buffer.layout packing).members :=
  packing.placeAll_keeps 0 buffer.constants

/-- The member of a wrapper model for a constant that is placed in both layouts. -/
def WrapperConstant.ofPlaced (constant : ShaderConstant) (hlsl glsl : MemberLayout) :
    WrapperConstant :=
  { name := hlsl.name
    type := hlsl.type
    hlslOffset := hlsl.offset
    glslOffset := glsl.offset
    documentation := constant.documentation }

section

open WrapperConstant

/-- Nothing is dropped where two layouts of the same constants are put together. -/
theorem zipped_members {constants : List ShaderConstant} {hlsl glsl : List MemberLayout}
    (hh : List.Forall₂ MemberLayout.Keeps constants hlsl)
    (hg : List.Forall₂ MemberLayout.Keeps constants glsl) (version : GlslVersion) :
    let members := ((hlsl.zip glsl).zip constants).map fun t => ofPlaced t.2 t.1.1 t.1.2
    List.Forall₂ Mirrors constants members ∧ List.Forall₂ (PlacedAs .hlsl) hlsl members ∧
      List.Forall₂ (PlacedAs (.glsl version)) glsl members := by
  -- both layouts are taken apart together, so that neither can end before the other
  induction hh generalizing glsl with
  | nil =>
      cases hg
      exact ⟨.nil, .nil, .nil⟩
  | cons hfirst _ ih =>
      cases hg with
      | cons hsecond hrest =>
          obtain ⟨hmirrors, hhlsl, hglsl⟩ := ih hrest
          have hname := hfirst.name_eq.trans hsecond.name_eq.symm
          have htype := hfirst.type_eq.trans hsecond.type_eq.symm
          exact ⟨.cons ⟨hfirst.name_eq, hfirst.type_eq, rfl⟩ hmirrors, .cons ⟨rfl, rfl, rfl⟩ hhlsl,
            .cons ⟨hname, htype, rfl⟩ hglsl⟩

theorem ConstantBuffer.mirrors_wrapperMembers (buffer : ConstantBuffer) :
    List.Forall₂ Mirrors buffer.constants buffer.wrapperMembers :=
  (zipped_members (buffer.layout_keeps .hlsl) (buffer.layout_keeps .std140) .v330).1

theorem ConstantBuffer.placed_wrapperMembers (buffer : ConstantBuffer) (dialect : Dialect) :
    List.Forall₂ (PlacedAs dialect) (buffer.layout dialect.packing).members
      buffer.wrapperMembers := by
  have h := zipped_members (buffer.layout_keeps .hlsl) (buffer.layout_keeps .std140)
  cases dialect with
  | hlsl => exact (h .v330).2.1
  | glsl version => exact (h version).2.2

end

/-- The texture of a wrapper model for a texture. -/
def ShaderTexture.wrapper (texture : ShaderTexture) : WrapperTexture :=
  { name := texture.name, slot := texture.slot, type := texture.type, stages := texture.stages }

theorem Effect.mirrors_wrapper (effect : Effect) : effect.wrapper.Mirrors effect := by
  constructor
  · refine List.forall₂_map_right_iff.mpr (List.forall₂_same.mpr fun buffer _ => ?_)
    exact ⟨rfl, rfl, rfl, buffer.mirrors_wrapperMembers⟩
  · refine List.forall₂_map_right_iff.mpr (List.forall₂_same.mpr fun texture _ => ?_)
    exact ⟨rfl, rfl, rfl⟩

/-! ## Declarations of resources -/

/-- A line declares a member of a buffer at its offset. -/
def WrapperConstant.DeclaredBy (dialect : Dialect) (member : WrapperConstant) (line : Line) :
    Prop :=
  let order := if dialect = .hlsl ∧ member.type.isMatrix then "row_major " else ""
  let offset := member.offset dialect
  ∃ type, dialect.typeName member.type = .ok type ∧
    line = { depth := 1, text := s!"{order}{type} {member.name}; // offset {offset}" }

/-- The line that names the size of a buffer. -/
def WrapperBuffer.sizeLine (model : WrapperBuffer) (dialect : Dialect) : Line :=
  let name := s!"{Text.uppercase model.name}_SIZE"
  let size := model.size dialect
  match dialect with
  | .hlsl => { text := s!"#define {name} {size}" }
  | .glsl _ => { text := s!"const int {name} = {size};" }

/-- The line that opens the declaration of a buffer. It says the slot wherever the language can. -/
def WrapperBuffer.heading (model : WrapperBuffer) (dialect : Dialect) : Line :=
  let size := model.size dialect
  match dialect with
  | .hlsl => { text := s!"cbuffer {model.name} : register(b{model.slot}) // {size} bytes" }
  | .glsl version =>
    let binding := if 420 ≤ version.number then s!", binding = {model.slot}" else ""
    { text := s!"layout(std140, column_major{binding}) uniform {model.name} // {size} bytes" }

/-- Lines declare a buffer with its size and exactly its members, in order. -/
def WrapperBuffer.DeclaredBy (dialect : Dialect) (model : WrapperBuffer) (block : List Line) :
    Prop :=
  ∃ members, List.Forall₂ (WrapperConstant.DeclaredBy dialect) model.members members ∧
    block = model.sizeLine dialect :: model.heading dialect :: { text := "\x7b" } :: members ++
      [{ text := "\x7d;" }, .blank]

/-- A line declares a texture. It says the slot wherever the language can. -/
def WrapperTexture.DeclaredBy (dialect : Dialect) (model : WrapperTexture) (line : Line) : Prop :=
  ∃ type, dialect.typeName model.type = .ok type ∧
    match dialect with
    | .hlsl => line = { text := s!"{type} {model.name} : register(t{model.slot});" }
    | .glsl version =>
      let binding := if 420 ≤ version.number then s!"layout(binding = {model.slot}) " else ""
      line = { text := s!"{binding}uniform {type} {model.name};" }

/-- The sampler of a texture, where that is a variable of its own. -/
def WrapperTexture.samplerLines (model : WrapperTexture) : Dialect → List Line
  | .hlsl =>
    [{ text := s!"SamplerState {hlslSamplerName model.name} : register(s{model.slot});" }]
  | .glsl _ => []

/-- How the declaration of a buffer begins. -/
def Dialect.bufferKeywords : Dialect → List String
  | hlsl => ["cbuffer "]
  | glsl _ => ["layout(std140"]

/-- How the declaration of a texture begins. -/
def Dialect.textureKeywords : Dialect → List String
  | hlsl => ["Texture2D ", "TextureCube "]
  | glsl _ => ["uniform ", "layout(binding"]

/-- How the declaration of a sampler begins. -/
def samplerKeywords : List String := ["SamplerState "]

theorem Dialect.bufferKeywords_apart (dialect : Dialect) :
    Line.apart dialect.bufferKeywords
      (dialect.textureStarts ++ dialect.interfaceStarts ++ dialect.otherStarts) := by
  cases dialect <;> rfl

theorem Dialect.textureKeywords_apart (dialect : Dialect) :
    Line.apart dialect.textureKeywords
      (dialect.bufferStarts ++ dialect.interfaceStarts ++ dialect.otherStarts) := by
  cases dialect <;> rfl

theorem Dialect.samplerKeywords_apart (dialect : Dialect) :
    Line.apart samplerKeywords
      (dialect.bufferStarts ++ dialect.interfaceStarts ++ dialect.otherStarts) := by
  cases dialect <;> rfl

/-- A unit declares what a wrapper model describes: every buffer, every texture and every sampler
once and in order, and no others. -/
structure Wrapper.DeclaredIn (dialect : Dialect) (model : Wrapper) (lines : List Line) : Prop where
  blocks : ∃ blocks, List.Forall₂ (WrapperBuffer.DeclaredBy dialect) model.buffers blocks ∧
    blocks.flatten <:+: lines
  headings : lines.filter (Line.opens dialect.bufferKeywords) =
    model.buffers.map (·.heading dialect)
  textures : List.Forall₂ (WrapperTexture.DeclaredBy dialect) model.textures
    (lines.filter (Line.opens dialect.textureKeywords))
  samplers : lines.filter (Line.opens samplerKeywords) =
    model.textures.flatMap (·.samplerLines dialect)

/-- The slots by name, where a language leaves them to the application. -/
def Dialect.leftOpen (dialect : Dialect) (slots : List (String × UInt32)) :
    List (String × UInt32) :=
  match dialect with
  | .hlsl => []
  | .glsl version => if 420 ≤ version.number then [] else slots

theorem Dialect.openBindings_eq (dialect : Dialect) (name : String) (slot : UInt32) :
    dialect.openBindings name slot = dialect.leftOpen [(name, slot)] := by
  cases dialect with
  | hlsl => rfl
  | glsl version => cases version <;> rfl

theorem Dialect.flatMap_leftOpen {α : Type} (dialect : Dialect) (f : α → String × UInt32)
    (xs : List α) : xs.flatMap (fun x => dialect.leftOpen [f x]) = dialect.leftOpen (xs.map f) := by
  cases dialect with
  | hlsl => simp [leftOpen]
  | glsl version =>
      simp only [leftOpen]
      split
      · simp
      · exact List.map_eq_flatMap.symm

/-! ## Buffers -/

theorem Dialect.bufferMember_declared {dialect : Dialect} {placed : MemberLayout}
    {member : WrapperConstant} (h : member.PlacedAs dialect placed) :
    Yields (dialect.bufferMember placed) (member.DeclaredBy dialect) := by
  refine (Yields.refl _).bind fun type htype => .pure ⟨type, ?_, ?_⟩
  · rw [h.type_eq]
    exact htype
  · simp [h.name_eq, h.type_eq, h.offset_eq]

theorem Dialect.bufferMembers_declared {dialect : Dialect} {placed : List MemberLayout}
    {members : List WrapperConstant}
    (h : List.Forall₂ (WrapperConstant.PlacedAs dialect) placed members) :
    Yields (placed.mapM dialect.bufferMember)
      (List.Forall₂ (WrapperConstant.DeclaredBy dialect) members) := by
  induction h with
  | nil => exact .pure .nil
  | cons hfirst _ ih =>
      rw [List.mapM_cons]
      refine (bufferMember_declared hfirst).bind fun line hline => ?_
      exact ih.bind fun lines hlines => .pure (.cons hline hlines)

theorem Dialect.bufferHead_eq (dialect : Dialect) (buffer : ConstantBuffer) :
    dialect.bufferHead buffer (buffer.layout dialect.packing).size =
      [buffer.wrapper.sizeLine dialect, buffer.wrapper.heading dialect] := by
  cases dialect with
  | hlsl => rfl
  | glsl version => cases version <;> rfl

theorem Dialect.writeBuffer_declared {dialect : Dialect} {buffer : ConstantBuffer} :
    Yields (dialect.writeBuffer buffer) fun declaration =>
      buffer.wrapper.DeclaredBy dialect declaration.lines ∧
        declaration.bindings = dialect.leftOpen [(buffer.name, buffer.slot)] := by
  have hmembers := bufferMembers_declared (buffer.placed_wrapperMembers dialect)
  refine hmembers.bind fun members hm => .pure ⟨⟨members, hm, ?_⟩, dialect.openBindings_eq _ _⟩
  simp [bufferHead_eq]

theorem WrapperBuffer.DeclaredBy.filter_headings {dialect : Dialect} {model : WrapperBuffer}
    {block : List Line} (h : model.DeclaredBy dialect block) :
    block.filter (Line.opens dialect.bufferKeywords) = [model.heading dialect] := by
  obtain ⟨members, hmembers, rfl⟩ := h
  have hnested : ∀ line ∈ members, line.depth ≠ 0 := by
    intro line hl
    obtain ⟨member, -, type, -, rfl⟩ := forall₂_mem_right hmembers hl
    exact Nat.one_ne_zero
  cases dialect with
  | hlsl =>
      simp +contextual [hnested, sizeLine, heading, Line.opens, Dialect.bufferKeywords, toString]
  | glsl version =>
      simp +contextual [hnested, sizeLine, heading, Line.opens, Dialect.bufferKeywords, toString]

/-! ## Textures -/

theorem Dialect.writeTexture_declared {dialect : Dialect} {texture : ShaderTexture} :
    Yields (dialect.writeTexture texture) fun declaration =>
      (∃ line, texture.wrapper.DeclaredBy dialect line ∧
        declaration.lines = line :: texture.wrapper.samplerLines dialect) ∧
      declaration.bindings = dialect.leftOpen [(texture.name, texture.slot)] := by
  refine (Yields.refl _).bind fun type htype => ?_
  cases dialect with
  | hlsl => exact .pure ⟨⟨_, ⟨type, htype, rfl⟩, rfl⟩, openBindings_eq hlsl _ _⟩
  | glsl version =>
      exact .pure ⟨⟨_, ⟨type, htype, by cases version <;> rfl⟩, rfl⟩,
        openBindings_eq (glsl version) _ _⟩

theorem WrapperTexture.DeclaredBy.filter_texture {dialect : Dialect} {model : WrapperTexture}
    {line : Line} (h : model.DeclaredBy dialect line) (ht : model.type.isTexture) :
    (line :: model.samplerLines dialect).filter (Line.opens dialect.textureKeywords) = [line] := by
  obtain ⟨type, htype, hline⟩ := h
  cases dialect with
  | hlsl =>
      rcases Dialect.hlsl_typeName_texture ht htype with rfl | rfl <;>
        simp [hline, samplerLines, Line.opens, Dialect.textureKeywords, toString]
  | glsl version =>
      cases version <;>
        simp [hline, samplerLines, Line.opens, Dialect.textureKeywords, toString,
          GlslVersion.number]

theorem WrapperTexture.DeclaredBy.filter_sampler {dialect : Dialect} {model : WrapperTexture}
    {line : Line} (h : model.DeclaredBy dialect line) (ht : model.type.isTexture) :
    (line :: model.samplerLines dialect).filter (Line.opens samplerKeywords) =
      model.samplerLines dialect := by
  obtain ⟨type, htype, hline⟩ := h
  cases dialect with
  | hlsl =>
      rcases Dialect.hlsl_typeName_texture ht htype with rfl | rfl <;>
        simp [hline, samplerLines, Line.opens, samplerKeywords, toString]
  | glsl version =>
      cases version <;>
        simp [hline, samplerLines, Line.opens, samplerKeywords, toString, GlslVersion.number]

/-! ## Units -/

theorem flatMap_eq_of_forall₂ {α β γ : Type} {f : β → List γ} {g : α → List γ} {xs : List α}
    {parts : List β} (h : List.Forall₂ (fun x part => f part = g x) xs parts) :
    parts.flatMap f = xs.flatMap g := by
  induction h with
  | nil => rfl
  | cons hx _ ih => rw [List.flatMap_cons, hx, ih, List.flatMap_cons]

theorem forall₂_flatMap {α β γ : Type} {f : β → List γ} {R : α → γ → Prop} {xs : List α}
    {parts : List β} (h : List.Forall₂ (fun x part => ∃ y, R x y ∧ f part = [y]) xs parts) :
    List.Forall₂ R xs (parts.flatMap f) := by
  induction h with
  | nil => exact .nil
  | cons hx _ ih =>
      obtain ⟨y, hy, hpart⟩ := hx
      rw [List.flatMap_cons, hpart]
      exact .cons hy ih

section

variable {decl : TypeDecl} {effect : Effect} {dialect : Dialect} {method : ShaderMethod}
  {sections : UnitSections}

theorem UnitSections.Describe.buffers_declared (h : sections.Describe dialect effect method) :
    List.Forall₂ (fun (model : WrapperBuffer) declaration =>
      model.DeclaredBy dialect declaration.lines ∧
        declaration.bindings = dialect.leftOpen [(model.name, model.slot)])
      effect.wrapper.buffers sections.buffers := by
  have hbuffers : Yields (effect.buffers.mapM dialect.writeBuffer)
      (List.Forall₂ (fun buffer declaration =>
        buffer.wrapper.DeclaredBy dialect declaration.lines ∧
          declaration.bindings = dialect.leftOpen [(buffer.name, buffer.slot)]) effect.buffers) :=
    .mapM fun buffer _ => Dialect.writeBuffer_declared
  exact List.forall₂_map_left_iff.mpr (hbuffers _ h.buffers)

/-- The lines of each texture are its declaration and its sampler. -/
theorem UnitSections.Describe.textures_declared (hb : decl.build.result = .ok effect)
    (h : sections.Describe dialect effect method) :
    List.Forall₂ (fun (model : WrapperTexture) declaration => model.type.isTexture ∧
      (∃ line, model.DeclaredBy dialect line ∧
        declaration.lines = line :: model.samplerLines dialect) ∧
      declaration.bindings = dialect.leftOpen [(model.name, model.slot)])
      effect.wrapper.textures sections.textures := by
  have htextures : Yields (effect.textures.mapM dialect.writeTexture)
      (List.Forall₂ (fun texture declaration => texture.wrapper.type.isTexture ∧
        (∃ line, texture.wrapper.DeclaredBy dialect line ∧
          declaration.lines = line :: texture.wrapper.samplerLines dialect) ∧
        declaration.bindings = dialect.leftOpen [(texture.name, texture.slot)])
        effect.textures) := by
    refine .mapM fun texture ht => ?_
    exact Dialect.writeTexture_declared.mono fun _ hd => ⟨(Effect.mem_textures hb ht).1, hd⟩
  exact List.forall₂_map_left_iff.mpr (htextures _ h.textures)

theorem UnitSections.Describe.filter_buffers (hb : decl.build.result = .ok effect)
    (h : sections.Describe dialect effect method) :
    sections.lines.filter (Line.opens dialect.bufferKeywords) =
      effect.wrapper.buffers.map (·.heading dialect) := by
  rw [h.filter_eq_buffers hb dialect.bufferKeywords_apart, bufferLines, List.filter_flatMap,
    List.map_eq_flatMap]
  exact flatMap_eq_of_forall₂ (h.buffers_declared.imp fun _ _ hd => hd.1.filter_headings)

theorem UnitSections.Describe.filter_textures (hb : decl.build.result = .ok effect)
    (h : sections.Describe dialect effect method) :
    List.Forall₂ (WrapperTexture.DeclaredBy dialect) effect.wrapper.textures
      (sections.lines.filter (Line.opens dialect.textureKeywords)) := by
  rw [h.filter_eq_textures dialect.textureKeywords_apart, textureLines, List.filter_flatMap]
  refine forall₂_flatMap ((h.textures_declared hb).imp fun model declaration hd => ?_)
  obtain ⟨ht, ⟨line, hline, hlines⟩, -⟩ := hd
  exact ⟨line, hline, by rw [hlines, hline.filter_texture ht]⟩

theorem UnitSections.Describe.filter_samplers (hb : decl.build.result = .ok effect)
    (h : sections.Describe dialect effect method) :
    sections.lines.filter (Line.opens samplerKeywords) =
      effect.wrapper.textures.flatMap (·.samplerLines dialect) := by
  rw [h.filter_eq_textures dialect.samplerKeywords_apart, textureLines, List.filter_flatMap]
  refine flatMap_eq_of_forall₂ ((h.textures_declared hb).imp fun model declaration hd => ?_)
  obtain ⟨ht, ⟨line, hline, hlines⟩, -⟩ := hd
  rw [hlines, hline.filter_sampler ht]

theorem UnitSections.Describe.declaredIn (hb : decl.build.result = .ok effect)
    (h : sections.Describe dialect effect method) :
    effect.wrapper.DeclaredIn dialect sections.lines := by
  have hinfix : (sections.buffers.map (·.lines)).flatten <:+: sections.lines :=
    ⟨sections.before, sections.textureLines ++ sections.between ++ sections.interface ++
      sections.after, by simp [lines, bufferLines, List.flatMap_def]⟩
  have hblocks : List.Forall₂ (WrapperBuffer.DeclaredBy dialect) effect.wrapper.buffers
      (sections.buffers.map (·.lines)) :=
    List.forall₂_map_right_iff.mpr (h.buffers_declared.imp fun _ _ hd => hd.1)
  exact ⟨⟨sections.buffers.map (·.lines), hblocks, hinfix⟩, h.filter_buffers hb,
    h.filter_textures hb, h.filter_samplers hb⟩

theorem UnitSections.Describe.blockBindings_eq (h : sections.Describe dialect effect method) :
    sections.unit.blockBindings =
      dialect.leftOpen (effect.wrapper.buffers.map fun model => (model.name, model.slot)) := by
  rw [← dialect.flatMap_leftOpen]
  exact flatMap_eq_of_forall₂ (h.buffers_declared.imp fun _ _ hd => hd.2)

theorem UnitSections.Describe.samplerBindings_eq (hb : decl.build.result = .ok effect)
    (h : sections.Describe dialect effect method) :
    sections.unit.samplerBindings =
      dialect.leftOpen (effect.wrapper.textures.map fun model => (model.name, model.slot)) := by
  rw [← dialect.flatMap_leftOpen]
  exact flatMap_eq_of_forall₂ ((h.textures_declared hb).imp fun _ _ hd => hd.2.2)

/-- The wrapper model of a built effect has everything of the effect in order, and agrees with every
source of a method that compiles. HLSL and GLSL from version 420 on say the slots in the source, and
nothing is left to the application; below that the source has none, and the shader comes with their
lists. -/
theorem wrapper_agrees_with_sources (hb : decl.build.result = .ok effect) :
    effect.wrapper.Mirrors effect ∧
      ∀ (dialect : Dialect) (name : String) (shader : CompiledShader),
        effect.compile dialect name = .ok shader →
          (∃ method unit, effect.method? name = some method ∧
            shader.Consists dialect effect method unit ∧
              effect.wrapper.DeclaredIn dialect unit.lines) ∧
          shader.blockBindings =
            dialect.leftOpen (effect.wrapper.buffers.map fun model => (model.name, model.slot)) ∧
          shader.samplerBindings =
            dialect.leftOpen (effect.wrapper.textures.map fun model => (model.name, model.slot)) := by
  refine ⟨effect.mirrors_wrapper, ?_⟩
  intro dialect name shader hc
  obtain ⟨method, unit, hm, hconsists⟩ := Effect.compile_consists hc
  obtain ⟨sections, hsections, rfl⟩ := Dialect.writeUnit_sections unit hconsists.written
  refine ⟨⟨method, sections.unit, hm, hconsists, hsections.declaredIn hb⟩, ?_, ?_⟩
  · rw [hconsists.blockBindings_eq, hsections.blockBindings_eq]
  · rw [hconsists.samplerBindings_eq, hsections.samplerBindings_eq hb]

theorem tinting_sources_agree :
    (tinting repeatedTint).build.result = .ok (tintingEffect repeatedTint) ∧
      (∃ shader, (tintingEffect repeatedTint).compile .hlsl "Shade" = .ok shader ∧ ∃ method unit,
        (tintingEffect repeatedTint).method? "Shade" = some method ∧
          shader.Consists .hlsl (tintingEffect repeatedTint) method unit ∧
            (tintingEffect repeatedTint).wrapper.DeclaredIn .hlsl unit.lines) ∧
      ∃ shader, (tintingEffect repeatedTint).compile (.glsl .v330) "Shade" = .ok shader ∧
        shader.samplerBindings = [("Image", 0)] ∧
        shader.blockBindings = [("Camera", 0), ("Viewport", 1), ("Constants", 2)] :=
  have h := (wrapper_agrees_with_sources (build_tinting repeatedTint)).2
  ⟨build_tinting repeatedTint, ⟨_, rfl, (h .hlsl "Shade" _ rfl).1⟩,
    ⟨_, rfl, (h (.glsl .v330) "Shade" _ rfl).2.2, (h (.glsl .v330) "Shade" _ rfl).2.1⟩⟩

end

end ShaderEffect
