import Mathlib.Data.List.Nodup
import Mathlib.Tactic.Tauto
import ShaderEffect.Proofs.BlockScope
import ShaderEffect.Proofs.Fields
import ShaderEffect.Proofs.Interface

/-!
# Names that units introduce

A unit has names of its own besides those of the effect: structures and their variables, samplers,
variables of the stage interface, sizes of buffers. Those with the reserved start clash with no name
of a valid effect. The others can, because no rule keeps an effect from declaring them. What is left
to the author is stated as a condition, and hygiene is exactly that condition.
-/

namespace ShaderEffect

open Dialect (hlsl glsl)

/-! ## Introduced and used names -/

/-- The name under which a unit declares the size of a buffer. -/
def ConstantBuffer.sizeName (buffer : ConstantBuffer) : String :=
  s!"{Text.uppercase buffer.name}_SIZE"

/-- The sizes that a unit declares. -/
def Effect.sizeNames (effect : Effect) : List String :=
  effect.buffers.map (·.sizeName)

/-- The HLSL samplers that a unit declares. -/
def Effect.samplerNames (effect : Effect) : List String :=
  effect.textures.map fun texture => hlslSamplerName texture.name

/-- The HLSL structures of a method. -/
def ShaderMethod.structNames (method : ShaderMethod) : List String :=
  [hlslStructName method .input, hlslStructName method .output]

/-- The names that a unit introduces apart from sizes. -/
def Dialect.ownNames (dialect : Dialect) (effect : Effect) (method : ShaderMethod) :
    List String :=
  match dialect with
  | hlsl => method.structNames ++ [hlslInputVariable, hlslOutputVariable] ++ effect.samplerNames
  | glsl _ => "main" :: method.parameters.filterMap (glslVariable? method.stage)

/-- The names that a unit introduces. -/
def Dialect.introducedNames (dialect : Dialect) (effect : Effect) (method : ShaderMethod) :
    List String :=
  dialect.ownNames effect method ++ effect.sizeNames

/-- The names of the effect that a unit uses: those of constants, literals, textures and buffers,
and those of the local variables of the method. -/
def Effect.usedNames (effect : Effect) (method : ShaderMethod) : List String :=
  effect.resourceNames ++ effect.buffers.map (·.name) ++ stmtsDeclaredNames method.body

/-- The names that a unit introduces differ from each other and from those that it uses. -/
structure Dialect.Hygienic (dialect : Dialect) (effect : Effect) (method : ShaderMethod) :
    Prop where
  distinct : (dialect.introducedNames effect method).Nodup
  unused : ∀ name ∈ dialect.introducedNames effect method, name ∉ effect.usedNames method

/-- Names without those that GLSL gives to a method: the entry point, the vertex attributes, the
variables between the stages and the render targets. Nothing reserves them. -/
structure ShaderMethod.Spares (method : ShaderMethod) (names : List String) : Prop where
  entry : "main" ∉ names
  attributes : method.stage = .vertex → ∀ input ∈ method.inputs,
    s!"a_{input.semantics.glslName}" ∉ names
  outward : method.stage = .vertex → ∀ output ∈ method.outputs, output.semantics ≠ .position →
    s!"v_{output.semantics.glslName}" ∉ names
  inward : method.stage = .fragment → ∀ input ∈ method.inputs, input.semantics ≠ .position →
    s!"v_{input.semantics.glslName}" ∉ names
  targets : method.stage = .fragment → ∀ output ∈ method.outputs,
    s!"o_{output.semantics.glslName}" ∉ names

instance (method : ShaderMethod) (names : List String) : Decidable (method.Spares names) :=
  decidable_of_iff
    ("main" ∉ names ∧
      (method.stage = .vertex → ∀ input ∈ method.inputs,
        s!"a_{input.semantics.glslName}" ∉ names) ∧
      (method.stage = .vertex → ∀ output ∈ method.outputs, output.semantics ≠ .position →
        s!"v_{output.semantics.glslName}" ∉ names) ∧
      (method.stage = .fragment → ∀ input ∈ method.inputs, input.semantics ≠ .position →
        s!"v_{input.semantics.glslName}" ∉ names) ∧
      (method.stage = .fragment → ∀ output ∈ method.outputs,
        s!"o_{output.semantics.glslName}" ∉ names))
    ⟨fun ⟨entry, attributes, outward, inward, targets⟩ =>
        ⟨entry, attributes, outward, inward, targets⟩,
      fun h => ⟨h.entry, h.attributes, h.outward, h.inward, h.targets⟩⟩

/-- What the rules leave to the author: the sizes of buffers differ and are not used, in HLSL no
sampler has the name of a structure, and in GLSL the names of the entry point and of the stage
interface are not used. -/
structure Dialect.LeftFree (dialect : Dialect) (effect : Effect) (method : ShaderMethod) :
    Prop where
  sizes : effect.sizeNames.Nodup
  unused : ∀ buffer ∈ effect.buffers, buffer.sizeName ∉ effect.usedNames method
  samplers : dialect = hlsl → ∀ name ∈ effect.samplerNames, name ∉ method.structNames
  spared : dialect ≠ hlsl → method.Spares (effect.usedNames method)

instance (dialect : Dialect) (effect : Effect) (method : ShaderMethod) :
    Decidable (dialect.LeftFree effect method) :=
  decidable_of_iff
    (effect.sizeNames.Nodup ∧
      (∀ buffer ∈ effect.buffers, buffer.sizeName ∉ effect.usedNames method) ∧
      (dialect = hlsl → ∀ name ∈ effect.samplerNames, name ∉ method.structNames) ∧
      (dialect ≠ hlsl → method.Spares (effect.usedNames method)))
    ⟨fun ⟨sizes, unused, samplers, spared⟩ => ⟨sizes, unused, samplers, spared⟩,
      fun h => ⟨h.sizes, h.unused, h.samplers, h.spared⟩⟩

/-! ## Introduced names are written -/

/-- A line of a unit that introduces a name. -/
inductive Line.Introduces (name : String) : Dialect → Line → Prop where
  | struct : Introduces name hlsl { text := s!"struct {name}" }
  | inputs (result entry type : String) :
    Introduces name hlsl { text := s!"{result} {entry}({type} {name})" }
  | outputs (type : String) :
    Introduces name hlsl { depth := 1, text := s!"{type} {name} = ({type})0;" }
  | sampler (slot : UInt32) :
    Introduces name hlsl { text := s!"SamplerState {name} : register(s{slot});" }
  | definedSize (size : UInt32) : Introduces name hlsl { text := s!"#define {name} {size}" }
  | entry (version : GlslVersion) : Introduces name (glsl version) { text := s!"void {name}()" }
  | global (version : GlslVersion) (v : StageVariable) (h : v.name = name) :
    Introduces name (glsl version) v.line
  | constantSize (version : GlslVersion) (size : UInt32) :
    Introduces name (glsl version) { text := s!"const int {name} = {size};" }

/-- The declarations of a unit are among its lines. -/
theorem Dialect.writeUnit_declarations {dialect : Dialect} {effect : Effect}
    {method : ShaderMethod} :
    Yields (dialect.writeUnit effect method) fun unit => ∃ buffers textures interface,
      effect.buffers.mapM dialect.writeBuffer = .ok buffers ∧
      effect.textures.mapM dialect.writeTexture = .ok textures ∧
      dialect.writeInterface method = .ok interface ∧
      buffers.flatMap (·.lines) ++ textures.flatMap (·.lines) ++ interface ++
        dialect.entryPointBegin method ⊆ unit.lines := by
  refine (Yields.refl _).bind fun literals _ => ?_
  refine (Yields.refl _).bind fun buffers hbuffers => ?_
  refine (Yields.refl _).bind fun textures htextures => ?_
  refine (Yields.refl _).bind fun interface hinterface => ?_
  refine (Yields.refl _).bind fun body _ => .pure ?_
  refine ⟨buffers, textures, interface, hbuffers, htextures, hinterface, fun line hl => ?_⟩
  simp only [List.mem_append] at hl ⊢
  tauto

namespace Dialect

variable {dialect : Dialect} {effect : Effect} {method : ShaderMethod} {name : String}

theorem introduces_size {buffer : ConstantBuffer} :
    Yields (dialect.writeBuffer buffer) fun declaration =>
      ∃ line ∈ declaration.lines, line.Introduces buffer.sizeName dialect := by
  refine (Yields.refl _).bind fun members _ => .pure ?_
  cases dialect with
  | hlsl => exact ⟨_, List.mem_cons_self, .definedSize _⟩
  | glsl version => exact ⟨_, List.mem_cons_self, .constantSize _ _⟩

theorem introduces_sampler {texture : ShaderTexture} :
    Yields (hlsl.writeTexture texture) fun declaration =>
      ∃ line ∈ declaration.lines, line.Introduces (hlslSamplerName texture.name) hlsl := by
  refine (Yields.refl _).bind fun type _ => .pure ?_
  exact ⟨_, List.mem_cons_of_mem _ List.mem_cons_self, .sampler texture.slot⟩

theorem introduces_structs :
    Yields (hlsl.writeInterface method) fun lines =>
      ∀ name ∈ method.structNames, ∃ line ∈ lines, line.Introduces name hlsl := by
  refine writeInterface_hlsl.mono ?_
  rintro lines ⟨inputs, outputs, rfl, -, -⟩ name hn
  rcases List.mem_cons.mp hn with rfl | hn
  · exact ⟨_, List.mem_cons_self, .struct⟩
  · rw [List.mem_singleton.mp hn]
    exact ⟨_, List.mem_append_right _ List.mem_cons_self, .struct⟩

theorem introduces_globals {version : GlslVersion} :
    Yields ((glsl version).writeInterface method) fun lines =>
      ∀ name ∈ method.parameters.filterMap (glslVariable? method.stage),
        ∃ line ∈ lines, line.Introduces name (glsl version) := by
  refine writeInterface_glsl.mono ?_
  rintro lines ⟨globals, rfl, hglobals⟩ name hn
  rw [← hglobals.names] at hn
  obtain ⟨v, hv, rfl⟩ := List.mem_map.mp hn
  exact ⟨v.line, List.mem_append_left _ (List.mem_map_of_mem hv), .global version v rfl⟩

theorem exists_introduces_of_mapM {α : Type} {xs : List α} {x : α}
    {declarations : List ResourceDeclaration} {write : α → Except CompileError ResourceDeclaration}
    (h : xs.mapM write = .ok declarations) (hx : x ∈ xs)
    (hw : Yields (write x) fun declaration =>
      ∃ line ∈ declaration.lines, line.Introduces name dialect) :
    ∃ line ∈ declarations.flatMap (·.lines), line.Introduces name dialect := by
  have hdeclarations := Yields.mapM (fun x _ => Yields.refl (write x)) declarations h
  obtain ⟨declaration, hd, hwrite⟩ := forall₂_mem_left hdeclarations hx
  obtain ⟨line, hl, hi⟩ := hw declaration hwrite
  exact ⟨line, List.mem_flatMap.mpr ⟨declaration, hd, hl⟩, hi⟩

/-- All names that are listed as introduced stand in declarations of the unit. -/
theorem introduces_introducedNames :
    Yields (dialect.writeUnit effect method) fun unit =>
      ∀ name ∈ dialect.introducedNames effect method,
        ∃ line ∈ unit.lines, line.Introduces name dialect := by
  refine writeUnit_declarations.mono ?_
  rintro unit ⟨buffers, textures, interface, hbuffers, htextures, hinterface, hlines⟩ name hn
  simp only [List.append_subset] at hlines
  obtain ⟨⟨⟨hb, ht⟩, hi⟩, he⟩ := hlines
  rcases List.mem_append.mp hn with hown | hsize
  · cases dialect with
    | hlsl =>
        rcases List.mem_append.mp hown with hown | hsampler
        · rcases List.mem_append.mp hown with hstruct | hvariable
          · obtain ⟨line, hl, h⟩ := introduces_structs interface hinterface name hstruct
            exact ⟨line, hi hl, h⟩
          · rcases List.mem_cons.mp hvariable with rfl | hvariable
            · exact ⟨_, he List.mem_cons_self, .inputs _ _ _⟩
            · rw [List.mem_singleton.mp hvariable]
              exact ⟨_, he (List.mem_cons_of_mem _ (List.mem_cons_of_mem _ List.mem_cons_self)),
                .outputs _⟩
        · obtain ⟨texture, htexture, rfl⟩ := List.mem_map.mp hsampler
          obtain ⟨line, hl, h⟩ := exists_introduces_of_mapM htextures htexture introduces_sampler
          exact ⟨line, ht hl, h⟩
    | glsl version =>
        rcases List.mem_cons.mp hown with rfl | hvariable
        · exact ⟨_, he List.mem_cons_self, .entry version⟩
        · obtain ⟨line, hl, h⟩ := introduces_globals interface hinterface name hvariable
          exact ⟨line, hi hl, h⟩
  · obtain ⟨buffer, hbuffer, rfl⟩ := List.mem_map.mp hsize
    obtain ⟨line, hl, h⟩ := exists_introduces_of_mapM hbuffers hbuffer introduces_size
    exact ⟨line, hb hl, h⟩

end Dialect

/-! ## Names of valid effects are not reserved -/

section

variable {decl : TypeDecl} {effect : Effect} {method : ShaderMethod} {name : String}

theorem isReserved_of_checkReserved {location : Location} (h : checkReserved name location = []) :
    isReserved name = false := by
  cases hr : isReserved name with
  | false => rfl
  | true => simp [checkReserved, hr] at h

theorem checkNames_of_isValid (hv : isValid decl effect = true) : checkNames decl effect = [] := by
  simp only [isValid_eq, declarationFindings, Bool.and_eq_true, List.isEmpty_iff,
    List.append_eq_nil_iff] at hv
  exact hv.1.1.1.2

theorem isReserved_field (hv : isValid decl effect = true)
    (hn : name ∈ decl.fields.map (·.name)) : isReserved name = false := by
  have hnames := checkNames_of_isValid hv
  simp only [checkNames, List.append_eq_nil_iff] at hnames
  obtain ⟨field, hf, rfl⟩ := List.mem_map.mp hn
  exact isReserved_of_checkReserved (List.flatMap_eq_nil_iff.mp hnames.1.1.2 field hf)

theorem isReserved_systemConstant (hb : decl.build.result = .ok effect)
    (hn : name ∈ effect.systemConstantNames) : isReserved name = false := by
  have hsystem : ∀ buffer ∈ systemBuffers, ∀ constant ∈ buffer.constants,
      isReserved constant.name = false := by
    decide
  obtain ⟨buffer, hbuffer, hn⟩ := List.mem_flatMap.mp hn
  obtain ⟨hbuffer, hshared⟩ := List.mem_filter.mp hbuffer
  obtain ⟨constant, hc, rfl⟩ := List.mem_map.mp hn
  rw [(built_of_build hb).buffers_eq] at hbuffer
  obtain ⟨plain, hp, rfl⟩ := List.mem_map.mp hbuffer
  rcases mem_mergeBuffers.mp hp with hp | hp
  · exact hsystem plain hp constant hc
  · obtain ⟨slot, hplain⟩ := eq_constantGroup_of_mem hp
    rw [hplain] at hshared
    cases hshared

theorem name_of_checkBufferName {members : List String} {location : Location}
    (h : checkBufferName members name location = []) :
    isIdentifier name = true ∧ isReserved name = false := by
  unfold checkBufferName at h
  split at h
  · cases h
  · split at h
    · cases h
    · rename_i hidentifier
      split at h
      · exact ⟨by simpa using hidentifier, isReserved_of_checkReserved h⟩
      · rename_i hreserved
        exact ⟨by simpa using hidentifier, by simpa using hreserved⟩

/-- The name of a buffer of a valid effect is an identifier that is not reserved. -/
theorem buffer_name_of_isValid (hb : decl.build.result = .ok effect)
    (hv : isValid decl effect = true) {buffer : ConstantBuffer}
    (hbuffer : buffer ∈ effect.buffers) :
    isIdentifier buffer.name = true ∧ isReserved buffer.name = false := by
  have hsystem : ∀ buffer ∈ systemBuffers,
      isIdentifier buffer.name = true ∧ isReserved buffer.name = false := by
    decide
  rcases (built_of_build hb).mem_buffers hbuffer with ⟨plain, hp, hname, -⟩ | huser
  · rw [hname]
    exact hsystem plain hp
  · have hnames := checkNames_of_isValid hv
    simp only [checkNames, List.append_eq_nil_iff] at hnames
    have hcheck := List.flatMap_eq_nil_iff.mp hnames.2 buffer
      ((built_of_build hb).mem_userBuffers.mpr huser)
    simp only [checkBufferNames, List.append_eq_nil_iff] at hcheck
    exact name_of_checkBufferName hcheck.1

theorem isReserved_declarators {members : List String} {type : TypeRef} {location : Location}
    {scope : Scope} {declarators : List VariableDeclarator}
    (h : (checkDeclarators members type location scope declarators).2 = []) :
    ∀ name ∈ declarators.map (·.name), isReserved name = false := by
  induction declarators generalizing scope with
  | nil => simp
  | cons declarator rest ih =>
      simp only [checkDeclarators, checkDeclarator, checkLocalName, List.append_eq_nil_iff] at h
      intro name hn
      rcases List.mem_cons.mp hn with rfl | hn
      · cases hr : isReserved declarator.name with
        | false => rfl
        | true => simp [hr] at h
      · exact ih h.2 name hn

theorem isReserved_stmts {members : List String} {stmts : List Stmt}
    (ih : ∀ stmt ∈ stmts, ∀ scope, (checkStmt members scope stmt).2 = [] →
      ∀ name ∈ stmt.declaredNames, isReserved name = false) {scope : Scope}
    (h : (checkStmts members scope stmts).2 = []) :
    ∀ name ∈ stmtsDeclaredNames stmts, isReserved name = false := by
  induction stmts generalizing scope with
  | nil => simp [stmtsDeclaredNames]
  | cons stmt rest ihs =>
      simp only [checkStmts, List.append_eq_nil_iff] at h
      intro name hn
      simp only [stmtsDeclaredNames, List.mem_append] at hn
      rcases hn with hn | hn
      · exact ih stmt List.mem_cons_self scope h.1 name hn
      · exact ihs (fun other ho => ih other (List.mem_cons_of_mem _ ho)) h.2 name hn

theorem isReserved_stmt {members : List String} (stmt : Stmt) (scope : Scope)
    (h : (checkStmt members scope stmt).2 = []) :
    ∀ name ∈ stmt.declaredNames, isReserved name = false := by
  induction stmt using Stmt.induction generalizing scope with
  | step stmt ih =>
      obtain ⟨kind, location⟩ := stmt
      cases kind
      case block body =>
        simp only [checkStmt, Construct.ofStmt?] at h
        simp only [Stmt.declaredNames]
        exact isReserved_stmts (fun part hp => ih part (by simp [StmtKind.parts, hp])) h
      case declaration locals =>
        simp only [checkStmt, Construct.ofStmt?] at h
        simp only [Stmt.declaredNames]
        exact isReserved_declarators h
      case ifElse condition thenBranch elseBranch =>
        simp only [checkStmt, Construct.ofStmt?, List.append_eq_nil_iff] at h
        have hthen := ih thenBranch (by simp [StmtKind.parts]) scope h.1.2
        intro name hn
        simp only [Stmt.declaredNames, List.mem_append] at hn
        rcases hn with hn | hn
        · exact hthen name hn
        · cases elseBranch with
          | none => simp [optionalStmtDeclaredNames] at hn
          | some elseBranch =>
              simp only [checkOptionalStmt, optionalStmtDeclaredNames] at h hn
              exact ih elseBranch (by simp [StmtKind.parts]) _ h.2 name hn
      case whileLoop condition body | doWhileLoop body condition =>
        simp only [checkStmt, Construct.ofStmt?, List.append_eq_nil_iff] at h
        simp only [Stmt.declaredNames]
        exact ih body (by simp [StmtKind.parts]) scope h.2
      case forLoop initializers condition increments body =>
        simp only [checkStmt, Construct.ofStmt?, List.append_eq_nil_iff] at h
        have hinitializers := isReserved_stmts
          (fun part hp => ih part (by simp [StmtKind.parts, hp])) h.1.1.1
        intro name hn
        simp only [Stmt.declaredNames, List.mem_append] at hn
        rcases hn with hn | hn
        · exact hinitializers name hn
        · exact ih body (by simp [StmtKind.parts]) _ h.2 name hn
      all_goals simp [Stmt.declaredNames]

/-- No name of a valid effect that a unit uses is reserved. -/
theorem isReserved_usedNames (hb : decl.build.result = .ok effect)
    (hv : isValid decl effect = true) (hm : method ∈ effect.methods)
    (hn : name ∈ effect.usedNames method) : isReserved name = false := by
  rcases List.mem_append.mp hn with hn | hlocal
  · rcases List.mem_append.mp hn with hresource | hbuffer
    · rcases List.mem_append.mp (mem_memberNames hb hresource) with hfield | hsystem
      · exact isReserved_field hv hfield
      · exact isReserved_systemConstant hb hsystem
    · obtain ⟨buffer, hbuffers, rfl⟩ := List.mem_map.mp hbuffer
      exact (buffer_name_of_isValid hb hv hbuffers).2
  · exact isReserved_stmts (fun stmt _ => isReserved_stmt stmt) (checkStmts_of_isValid hv hm) name
      hlocal

end

/-! ## First letters

Sizes are in upper case. All other introduced names start with a lower-case letter. -/

/-- Whether a name starts with a lower-case letter. -/
def startsLower (name : String) : Bool :=
  name.toList.head?.any Char.isLower

theorem toNat_lt_of_isAlpha {c : Char} (h : (c.isAlpha || c == '_') = true) : c.toNat < 0x80 := by
  unfold Char.isAlpha Char.isUpper Char.isLower at h
  simp only [Bool.or_eq_true, Bool.and_eq_true, decide_eq_true_eq, beq_iff_eq, ge_iff_le,
    UInt32.le_iff_toNat_le] at h
  change ((65 ≤ c.toNat ∧ c.toNat ≤ 90) ∨ (97 ≤ c.toNat ∧ c.toNat ≤ 122)) ∨ c = '_' at h
  rcases h with h | rfl
  · omega
  · decide

theorem isLower_toUpper (c : Char) : c.toUpper.isLower = false := by
  rw [Bool.eq_false_iff]
  intro hlower
  have hbounds : 97 ≤ c.toUpper.val.toNat ∧ c.toUpper.val.toNat ≤ 122 := by
    unfold Char.isLower at hlower
    simpa [UInt32.le_iff_toNat_le] using hlower
  unfold Char.toUpper at hbounds
  split at hbounds
  · rename_i hc
    have hcode : 97 ≤ c.val.toNat ∧ c.val.toNat ≤ 122 := hc
    have hdistance : ('A'.val - 'a'.val).toNat = UInt32.size - 32 := rfl
    have hupper : (c.val + ('A'.val - 'a'.val)).toNat = c.val.toNat - 32 := by
      rw [UInt32.toNat_add, hdistance, UInt32.size]
      omega
    rw [hupper] at hbounds
    omega
  · rename_i hc
    exact hc hbounds

theorem startsLower_sizeName {buffer : ConstantBuffer} (h : isIdentifier buffer.name = true) :
    startsLower buffer.sizeName = false := by
  unfold isIdentifier at h
  split at h
  · cases h
  · rename_i c rest hname
    have hc : c.toNat < 0x80 := toNat_lt_of_isAlpha (Bool.and_eq_true_iff.mp h).1
    simp [startsLower, ConstantBuffer.sizeName, Text.uppercase, Text.uppercaseChar, hname, hc,
      isLower_toUpper, toString]

section

variable {dialect : Dialect} {effect : Effect} {method : ShaderMethod} {name : String}

theorem isReserved_structName (direction : Direction) :
    isReserved (hlslStructName method direction) = true := by
  cases direction <;> simp [hlslStructName, isReserved, reservedStart, toString]

theorem isReserved_samplerName (texture : String) :
    isReserved (hlslSamplerName texture) = true := by
  simp [hlslSamplerName, isReserved, reservedStart, toString]

theorem isReserved_ownNames (h : name ∈ hlsl.ownNames effect method) : isReserved name = true := by
  rcases List.mem_append.mp h with h | hsampler
  · rcases List.mem_append.mp h with hstruct | hvariable
    · rcases List.mem_cons.mp hstruct with rfl | hstruct
      · exact isReserved_structName .input
      · rw [List.mem_singleton.mp hstruct]
        exact isReserved_structName .output
    · have hvariables : ∀ name ∈ [hlslInputVariable, hlslOutputVariable],
          isReserved name = true := by
        decide
      exact hvariables name hvariable
  · obtain ⟨texture, -, rfl⟩ := List.mem_map.mp hsampler
    exact isReserved_samplerName texture.name

theorem startsLower_of_isReserved (h : isReserved name = true) : startsLower name = true := by
  obtain ⟨rest, hrest⟩ := List.isPrefixOf_iff_prefix.mp h
  simp [startsLower, ← hrest, reservedStart]

/-- The variables of a GLSL interface start with a letter and an underscore. -/
theorem exists_toList_glslVariable {stage : Stage} {parameter : ShaderParameter}
    (h : glslVariable? stage parameter = some name) :
    ∃ letter rest, letter.isLower = true ∧ name.toList = letter :: '_' :: rest := by
  unfold glslVariable? at h
  split at h
  · cases h
    exact ⟨'a', parameter.semantics.glslName.toList, rfl, by simp [toString]⟩
  · cases h
    exact ⟨'o', parameter.semantics.glslName.toList, rfl, by simp [toString]⟩
  · split at h
    · cases h
    · cases h
      exact ⟨'v', parameter.semantics.glslName.toList, rfl, by simp [toString]⟩

theorem startsLower_ownNames (h : name ∈ dialect.ownNames effect method) :
    startsLower name = true := by
  cases dialect with
  | hlsl => exact startsLower_of_isReserved (isReserved_ownNames h)
  | glsl version =>
      rcases List.mem_cons.mp h with rfl | h
      · decide
      · obtain ⟨parameter, -, hp⟩ := List.mem_filterMap.mp h
        obtain ⟨letter, rest, hletter, hname⟩ := exists_toList_glslVariable hp
        simp [startsLower, hname, hletter]

end

/-! ## Distinct names -/

section

variable {decl : TypeDecl} {effect : Effect} {method : ShaderMethod} {name : String}

theorem nodup_structNames (method : ShaderMethod) : method.structNames.Nodup := by
  refine List.nodup_cons.mpr ⟨fun h => ?_, List.nodup_singleton _⟩
  have heq : hlslStructName method .input = hlslStructName method .output :=
    List.mem_singleton.mp h
  have hlists := congrArg String.toList heq
  simp [hlslStructName, toString] at hlists

theorem samplerName_injective {texture other : String}
    (h : hlslSamplerName texture = hlslSamplerName other) : texture = other := by
  have hlists := congrArg String.toList h
  exact String.toList_inj.mp (by simpa [hlslSamplerName, toString] using hlists)

theorem nodup_samplerNames (hb : decl.build.result = .ok effect)
    (hn : (decl.fields.map (·.name)).Nodup) : effect.samplerNames.Nodup := by
  have hnames : effect.textures.map (·.name) =
      (decl.fields.filter (·.hasKind .texture)).map (·.name) := by
    rw [← List.forall₂_eq_eq_eq, List.forall₂_map_left_iff, List.forall₂_map_right_iff]
    exact (built_of_build hb).textures.flip.imp fun _ _ h => h.name_eq
  have htextures : (effect.textures.map (·.name)).Nodup := by
    rw [hnames]
    exact hn.sublist (List.filter_sublist.map _)
  rw [List.Nodup, List.pairwise_map] at htextures
  rw [Effect.samplerNames, List.Nodup, List.pairwise_map]
  exact htextures.imp fun hne heq => hne (samplerName_injective heq)

/-- The variables have no underscore but the one of the reserved start, and all structures and
samplers have another. -/
theorem not_mem_variables (h : name ∈ method.structNames ++ effect.samplerNames) :
    name ∉ [hlslInputVariable, hlslOutputVariable] := by
  have hvariables : ∀ name ∈ [hlslInputVariable, hlslOutputVariable],
      name.toList.count '_' = 1 := by
    decide
  have hcount : 2 ≤ name.toList.count '_' := by
    rcases List.mem_append.mp h with hstruct | hsampler
    · simp only [ShaderMethod.structNames, List.mem_cons, List.not_mem_nil, or_false] at hstruct
      rcases hstruct with rfl | rfl <;> simp [hlslStructName, toString]
    · obtain ⟨texture, -, rfl⟩ := List.mem_map.mp hsampler
      simp [hlslSamplerName, toString]
  intro hmem
  rw [hvariables name hmem] at hcount
  omega

theorem nodup_ownNames_hlsl (hb : decl.build.result = .ok effect)
    (hn : (decl.fields.map (·.name)).Nodup) :
    (hlsl.ownNames effect method).Nodup ↔
      ∀ name ∈ effect.samplerNames, name ∉ method.structNames := by
  have hvariables : [hlslInputVariable, hlslOutputVariable].Nodup := by decide
  simp only [Dialect.ownNames, List.nodup_append, nodup_structNames, hvariables,
    nodup_samplerNames hb hn, true_and]
  constructor
  · rintro ⟨-, hall⟩ name hsampler hstruct
    exact hall name (List.mem_append_left _ hstruct) name hsampler rfl
  · refine fun h => ⟨fun first hf second hs heq => ?_, fun first hf second hs heq => ?_⟩
    · subst heq
      exact not_mem_variables (List.mem_append_left effect.samplerNames hf) hs
    · subst heq
      rcases List.mem_append.mp hf with hstruct | hvariable
      · exact h first hs hstruct
      · exact not_mem_variables (List.mem_append_right method.structNames hs) hvariable

theorem nodup_ownNames_glsl (hb : decl.build.result = .ok effect)
    (hv : isValid decl effect = true) (hm : method ∈ effect.methods) (version : GlslVersion) :
    ((glsl version).ownNames effect method).Nodup := by
  refine List.nodup_cons.mpr ⟨fun h => ?_, nodup_glslVariables hb hv hm⟩
  obtain ⟨parameter, -, hp⟩ := List.mem_filterMap.mp h
  obtain ⟨letter, rest, -, hname⟩ := exists_toList_glslVariable hp
  -- the second letter of an interface variable is an underscore
  have hsecond : "main".toList[1]? = some '_' := by simp [hname]
  exact absurd hsecond (by decide)

/-! ## Hygiene -/

theorem startsLower_sizeNames (hb : decl.build.result = .ok effect)
    (hv : isValid decl effect = true) (h : name ∈ effect.sizeNames) : startsLower name = false := by
  obtain ⟨buffer, hbuffer, rfl⟩ := List.mem_map.mp h
  exact startsLower_sizeName (buffer_name_of_isValid hb hv hbuffer).1

theorem nodup_introducedNames (hb : decl.build.result = .ok effect)
    (hv : isValid decl effect = true) (dialect : Dialect) (method : ShaderMethod) :
    (dialect.introducedNames effect method).Nodup ↔
      (dialect.ownNames effect method).Nodup ∧ effect.sizeNames.Nodup := by
  have hapart : ∀ name ∈ dialect.ownNames effect method, ∀ size ∈ effect.sizeNames,
      name ≠ size := by
    -- no common name, because the first letters are of different cases
    intro name hn size hs heq
    have hlower := startsLower_ownNames hn
    rw [heq, startsLower_sizeNames hb hv hs] at hlower
    cases hlower
  rw [Dialect.introducedNames, List.nodup_append]
  exact ⟨fun ⟨hown, hsizes, _⟩ => ⟨hown, hsizes⟩, fun ⟨hown, hsizes⟩ => ⟨hown, hsizes, hapart⟩⟩

theorem nodup_ownNames (hb : decl.build.result = .ok effect) (hv : isValid decl effect = true)
    (hn : (decl.fields.map (·.name)).Nodup) (hm : method ∈ effect.methods) (dialect : Dialect) :
    (dialect.ownNames effect method).Nodup ↔
      (dialect = hlsl → ∀ name ∈ effect.samplerNames, name ∉ method.structNames) := by
  cases dialect with
  | hlsl => simpa using nodup_ownNames_hlsl hb hn
  | glsl version => simpa using nodup_ownNames_glsl hb hv hm version

/-- The GLSL names of a method by their kinds. -/
theorem mem_ownNames_glsl {version : GlslVersion} :
    name ∈ (glsl version).ownNames effect method ↔ name = "main" ∨
      ∃ parameter ∈ method.parameters, glslVariable? method.stage parameter = some name := by
  simp [Dialect.ownNames]

theorem unused_ownNames_glsl (version : GlslVersion) (names : List String) :
    (∀ name ∈ (glsl version).ownNames effect method, name ∉ names) ↔ method.Spares names := by
  constructor
  · intro h
    have hvariable {direction : Direction} {parameter : ShaderParameter} {name : String}
        (hp : parameter ∈ method.parametersOf direction)
        (hv : parameter.direction = direction →
          glslVariable? method.stage parameter = some name) : name ∉ names := by
      obtain ⟨hp, hd⟩ := List.mem_filter.mp hp
      exact h name (mem_ownNames_glsl.mpr (.inr ⟨parameter, hp, hv (by simpa using hd)⟩))
    refine ⟨h "main" (mem_ownNames_glsl.mpr (.inl rfl)), ?_, ?_, ?_, ?_⟩
    · intro hs input hi
      exact hvariable hi fun hd => by simp [glslVariable?, hs, hd]
    · intro hs output ho hposition
      exact hvariable ho fun hd => by simp [glslVariable?, hs, hd, hposition]
    · intro hs input hi hposition
      exact hvariable hi fun hd => by simp [glslVariable?, hs, hd, hposition]
    · intro hs output ho
      exact hvariable ho fun hd => by simp [glslVariable?, hs, hd]
  · rintro ⟨hentry, hattributes, houtward, hinward, htargets⟩ name hn
    rcases mem_ownNames_glsl.mp hn with rfl | ⟨parameter, hp, hv⟩
    · exact hentry
    · have hmem {direction : Direction} (hd : parameter.direction = direction) :
          parameter ∈ method.parametersOf direction :=
        List.mem_filter.mpr ⟨hp, by simp [hd]⟩
      -- the stage and the direction tell the kind of the name
      cases hs : method.stage <;> cases hd : parameter.direction <;>
        simp only [glslVariable?, hs, hd] at hv
      · cases hv
        exact hattributes hs parameter (hmem hd)
      · split at hv
        · cases hv
        · cases hv
          exact houtward hs parameter (hmem hd) (by assumption)
      · split at hv
        · cases hv
        · cases hv
          exact hinward hs parameter (hmem hd) (by assumption)
      · cases hv
        exact htargets hs parameter (hmem hd)

/-- The reserved start keeps the own names of HLSL from all that is used. -/
theorem unused_ownNames_hlsl (hb : decl.build.result = .ok effect)
    (hv : isValid decl effect = true) (hm : method ∈ effect.methods) :
    ∀ name ∈ hlsl.ownNames effect method, name ∉ effect.usedNames method := by
  intro name hown hused
  have hreserved := isReserved_ownNames hown
  rw [isReserved_usedNames hb hv hm hused] at hreserved
  cases hreserved

theorem unused_introducedNames (hb : decl.build.result = .ok effect)
    (hv : isValid decl effect = true) (hm : method ∈ effect.methods) (dialect : Dialect) :
    (∀ name ∈ dialect.introducedNames effect method, name ∉ effect.usedNames method) ↔
      (∀ buffer ∈ effect.buffers, buffer.sizeName ∉ effect.usedNames method) ∧
        (dialect ≠ hlsl → method.Spares (effect.usedNames method)) := by
  rw [Dialect.introducedNames, List.forall_mem_append, Effect.sizeNames, List.forall_mem_map,
    and_comm]
  refine and_congr_right fun _ => ?_
  cases dialect with
  | hlsl => simpa using unused_ownNames_hlsl hb hv hm
  | glsl version => simpa using unused_ownNames_glsl version (effect.usedNames method)

/-- The units of a valid effect are hygienic exactly if the author keeps clear of what the rules
leave free. The names in question all stand in declarations of the unit. -/
theorem hygienic_iff_leftFree (hb : decl.build.result = .ok effect)
    (hv : isValid decl effect = true) (hn : (decl.fields.map (·.name)).Nodup)
    (hm : method ∈ effect.methods) (dialect : Dialect) :
    (dialect.Hygienic effect method ↔ dialect.LeftFree effect method) ∧
      ∀ unit, dialect.writeUnit effect method = .ok unit →
        ∀ name ∈ dialect.introducedNames effect method,
          ∃ line ∈ unit.lines, line.Introduces name dialect := by
  refine ⟨?_, Dialect.introduces_introducedNames⟩
  have hdistinct := nodup_introducedNames hb hv dialect method
  have hunused := unused_introducedNames hb hv hm dialect
  rw [nodup_ownNames hb hv hn hm dialect] at hdistinct
  constructor
  · rintro ⟨hnodup, hclear⟩
    obtain ⟨hsamplers, hsizes⟩ := hdistinct.mp hnodup
    obtain ⟨hclear, hspared⟩ := hunused.mp hclear
    exact ⟨hsizes, hclear, hsamplers, hspared⟩
  · rintro ⟨hsizes, hclear, hsamplers, hspared⟩
    exact ⟨hdistinct.mpr ⟨hsamplers, hsizes⟩, hunused.mpr ⟨hclear, hspared⟩⟩

end

theorem repeatedTint_hygienic :
    isValid (tinting repeatedTint) (tintingEffect repeatedTint) = true ∧
      ((tinting repeatedTint).fields.map (·.name)).Nodup ∧
      hlsl.Hygienic (tintingEffect repeatedTint) (tintingShade repeatedTint) ∧
      (glsl .v410).Hygienic (tintingEffect repeatedTint) (tintingShade repeatedTint) := by
  have hn : ((tinting repeatedTint).fields.map (·.name)).Nodup := by decide
  have hygienic (dialect : Dialect)
      (h : dialect.LeftFree (tintingEffect repeatedTint) (tintingShade repeatedTint)) :
      dialect.Hygienic (tintingEffect repeatedTint) (tintingShade repeatedTint) :=
    (hygienic_iff_leftFree (build_tinting repeatedTint) isValid_repeatedTint hn
      (tintingShade_mem repeatedTint) dialect).1.mpr h
  exact ⟨isValid_repeatedTint, hn, hygienic hlsl (by decide +kernel),
    hygienic (glsl .v410) (by decide +kernel)⟩

/-- The effect with a literal that has the name of the size of the camera. -/
def cameraSize : TypeDecl :=
  { tinting [] with
    members := (tinting []).members ++ [
      .field {
        name := "CAMERA_SIZE"
        type := .named "int"
        initializer := some ⟨.literal (.int 3), {}, {}⟩ }] }

/-- A valid effect with distinct names, none of whose units is hygienic. -/
theorem valid_not_hygienic : ∃ effect, cameraSize.build.result = .ok effect ∧
    isValid cameraSize effect = true ∧ (cameraSize.fields.map (·.name)).Nodup ∧
    effect.methods ≠ [] ∧ ∀ method ∈ effect.methods, ∀ dialect : Dialect,
      ¬ dialect.Hygienic effect method := by
  have hsize : "CAMERA_SIZE" ∈ cameraSize.scan.1.sizeNames := by decide +kernel
  have hliteral : "CAMERA_SIZE" ∈ cameraSize.scan.1.resourceNames := by decide +kernel
  refine ⟨cameraSize.scan.1, rfl, rfl, by decide, List.cons_ne_nil _ _, ?_⟩
  intro method _ dialect h
  exact h.unused "CAMERA_SIZE" (List.mem_append_right _ hsize)
    (List.mem_append_left _ (List.mem_append_left _ hliteral))

end ShaderEffect
