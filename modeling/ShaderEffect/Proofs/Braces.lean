import ShaderEffect.Proofs.Nesting
import ShaderEffect.Proofs.Section

/-!
# Braces of shader units

Every unit of a shader closes the braces that it opens, and its lines stand at the levels of their
braces. The outputs of an HLSL entry point are returned in its last statement, whatever the body ends
with.
-/

namespace ShaderEffect

open Brackets (aroundBlocks)

/-! ## Upper case -/

namespace Text

/-- The code points of the characters that are not plain. -/
def braceCodes : List Nat :=
  [0x7b, 0x7d, 0x0a]

theorem isPlainChar_iff {c : Char} : IsPlainChar c ↔ c.toNat ∉ braceCodes := by
  simp [IsPlainChar, braceCodes, ← Char.toNat_inj]

theorem isPlainChar_ofNat {code : Nat} (h : code ∉ braceCodes) : IsPlainChar (Char.ofNat code) := by
  by_cases hv : code.isValidChar
  · have hcode : (Char.ofNat code).toNat = code := by
      rw [Char.ofNat, dif_pos hv]
      rfl
    rwa [isPlainChar_iff, hcode]
  · rw [Char.ofNat, dif_neg hv]
    decide

theorem isPlainChar_toUpper {c : Char} (h : IsPlainChar c) : IsPlainChar c.toUpper := by
  unfold Char.toUpper
  split
  · rename_i hc
    have hlower : 97 ≤ c.val.toNat ∧ c.val.toNat ≤ 122 := hc
    have hdistance : ('A'.val - 'a'.val).toNat = UInt32.size - 32 := rfl
    have hupper : (c.val + ('A'.val - 'a'.val)).toNat = c.val.toNat - 32 := by
      rw [UInt32.toNat_add, hdistance, UInt32.size]
      omega
    rw [isPlainChar_iff, Char.toNat, hupper]
    simp only [braceCodes, List.mem_cons, List.not_mem_nil, or_false]
    omega
  · exact h

theorem expansions_plain : ∀ expansion ∈ uppercaseExpansions, ∀ code ∈ expansion.2,
    code ∉ braceCodes := by
  decide +kernel

theorem runs_plain : ∀ run ∈ uppercaseRuns ++ uppercaseAlternations, ∀ code ∈ braceCodes,
    code < run.2.2 ∨ run.2.2 + (run.2.1 - run.1) < code := by
  decide +kernel

theorem run_plain {code : Nat} {run : Nat × Nat × Nat}
    (hr : run ∈ uppercaseRuns ++ uppercaseAlternations) (hl : code ≤ run.2.1) :
    run.2.2 + (code - run.1) ∉ braceCodes := by
  intro hmem
  rcases runs_plain run hr _ hmem with h | h <;> omega

/-- The upper case of a letter beyond ASCII is no brace and no end of a line. -/
theorem uppercaseCode_plain {code upper : Nat} (h : 0x80 ≤ code)
    (hu : upper ∈ uppercaseCode code) : upper ∉ braceCodes := by
  unfold uppercaseCode at hu
  split at hu
  · rename_i codes hfind
    exact expansions_plain _ (List.mem_of_find?_eq_some hfind) upper hu
  · split at hu
    · rename_i first last start hfind
      have hrun := List.find?_some hfind
      have hmem := List.mem_of_find?_eq_some hfind
      simp only [Bool.and_eq_true, decide_eq_true_eq] at hrun
      rw [List.mem_singleton.mp hu]
      exact run_plain (List.mem_append_left _ hmem) hrun.2
    · split at hu
      · rename_i first last start hfind
        have hrun := List.find?_some hfind
        have hmem := List.mem_of_find?_eq_some hfind
        simp only [Bool.and_eq_true, decide_eq_true_eq] at hrun
        rw [List.mem_singleton.mp hu]
        exact run_plain (List.mem_append_right _ hmem) hrun.1.2
      · rw [List.mem_singleton.mp hu]
        simp only [braceCodes, List.mem_cons, List.not_mem_nil, or_false]
        omega

theorem isPlain_uppercase {text : String} (h : IsPlain text) : IsPlain (uppercase text) := by
  intro upper hu
  rw [uppercase, String.toList_ofList, List.mem_flatMap] at hu
  obtain ⟨c, hc, hu⟩ := hu
  unfold uppercaseChar at hu
  split at hu
  · rw [List.mem_singleton.mp hu]
    exact isPlainChar_toUpper (h c hc)
  · obtain ⟨code, hmem, rfl⟩ := List.mem_map.mp hu
    exact isPlainChar_ofNat (uppercaseCode_plain (by omega) hmem)

end Text

/-! ## Declarations -/

/-- The names of a method are words of an alphabet. -/
structure ShaderMethod.SpelledIn (alphabet : Char → Prop) (method : ShaderMethod) : Prop where
  name : MadeOf alphabet method.name
  parameters : ∀ parameter ∈ method.parameters, MadeOf alphabet parameter.name
  body : ∀ stmt ∈ method.body, (Node.stmt stmt).SpelledIn alphabet

/-- The names of an effect are words of an alphabet. -/
structure Effect.SpelledIn (alphabet : Char → Prop) (effect : Effect) : Prop where
  literals : ∀ literal ∈ effect.literals,
    MadeOf alphabet literal.name ∧ (Node.expr literal.value).NamedIn alphabet
  buffers : ∀ buffer ∈ effect.buffers,
    MadeOf alphabet buffer.name ∧ ∀ constant ∈ buffer.constants, MadeOf alphabet constant.name
  textures : ∀ texture ∈ effect.textures, MadeOf alphabet texture.name
  methods : ∀ method ∈ effect.methods, method.SpelledIn alphabet

theorem toString_text (text : String) : toString text = text := rfl

theorem isPlain_repr (n : Nat) : IsPlain n.repr :=
  (isNumeral_repr n).madeOf spellsWords_isPlainChar

theorem isPlain_uint32 (n : UInt32) : IsPlain (toString n) :=
  isPlain_repr n.toNat

namespace Dialect

open Line (Leads)

variable {dialect : Dialect} {scope : Scope}

section

attribute [local simp] madeOf_append isPlain_repr isPlain_uint32 toString_text

theorem leads_header : Leads 0 dialect.header 0 := by
  cases dialect with
  | hlsl => exact .nil 0
  | glsl version =>
      have hversion : IsPlain s!"#version {version.number} core" := by simp +decide
      exact (Leads.plain hversion 0).append (Leads.plain (by decide) 0)

theorem leads_gapAfter {α : Type} (declarations : List α) : Leads 0 (gapAfter declarations) 0 := by
  unfold gapAfter
  split
  · exact .nil 0
  · exact .plain (by decide) 0

/-- The list of an array stands in braces on the line of its declaration. -/
theorem leads_writeLiteral {literal : ShaderLiteral} (hname : IsPlain literal.name)
    (hn : (Node.expr literal.value).NamedIn IsPlainChar) :
    Yields (dialect.writeLiteral scope literal) fun line => Leads 0 [line] 0 := by
  unfold writeLiteral
  cases he : literal.elements? with
  | none =>
      refine (isPlain_renderText hn).bind fun value hvalue => ?_
      refine isPlain_typeName.bind fun type htype => ?_
      cases dialect <;> refine .pure (.plain ?_ 0) <;> simp +decide [hname, hvalue, htype]
  | some elements =>
      have helements : ∀ e ∈ elements, (Node.expr e).NamedIn IsPlainChar :=
        fun e hmem => hn.contains (literal.contains_element he hmem)
      refine (isPlain_renderTexts helements).bind fun values hvalues => ?_
      refine isPlain_typeName.bind fun type htype => ?_
      have hlist := isPlain_commaSeparated hvalues
      cases dialect with
      | hlsl =>
          have hfront : IsPlain
              ("static const " ++ type ++ " " ++ literal.name ++ "[" ++ values.length.repr ++
                "] = ") := by
            simp +decide [hname, htype]
          have hinner : IsPlain (" " ++ commaSeparated values ++ " ") := by simp +decide [hlist]
          have hline := Leads.withinLine hfront hinner (by decide : IsPlain ";") 0
          refine .pure ?_
          convert hline using 3
          simp [← String.toList_inj, Brackets.enclosed]
      | glsl version =>
          refine .pure (.plain ?_ 0)
          simp +decide [hname, htype, hlist]

theorem leads_bufferMember {member : MemberLayout} (hname : IsPlain member.name) :
    Yields (dialect.bufferMember member) fun line => Leads 1 [line] 1 := by
  refine isPlain_typeName.bind fun type htype => .pure (.plain ?_ 1)
  have horder : IsPlain (if dialect = hlsl && member.type.isMatrix then "row_major " else "") := by
    split <;> decide
  simp +decide only [madeOf_append, toString_text, hname, htype, horder, isPlain_uint32]

theorem leads_bufferHead {buffer : ConstantBuffer} (hname : IsPlain buffer.name) (size : UInt32) :
    Leads 0 (dialect.bufferHead buffer size) 0 := by
  have hupper := Text.isPlain_uppercase hname
  cases dialect with
  | hlsl =>
      refine (Leads.plain ?_ 0).append (Leads.plain ?_ 0)
      · simp +decide [hupper]
      · simp +decide [hname]
  | glsl version =>
      have hbinding : IsPlain
          (if version.supportsBinding then s!", binding = {buffer.slot}" else "") := by
        split <;> simp +decide
      refine (Leads.plain ?_ 0).append (Leads.plain ?_ 0)
      · simp +decide [hupper]
      · simpa +decide [hname] using hbinding

/-- Members in the braces of a declaration. -/
theorem leads_declaration {members : List Line} (h : ∀ line ∈ members, Leads 1 [line] 1) :
    Leads 0 (⟨0, "\x7b"⟩ :: members ++ [⟨0, "\x7d;"⟩, .blank]) 0 := by
  have hend : Leads 1 [⟨0, "\x7d;"⟩, .blank] 0 :=
    (Leads.closing (.inr rfl) 0).append (Leads.plain (by decide) 0)
  exact ((Leads.opening 0).append (Leads.of_forall h)).append hend

theorem leads_writeBuffer {buffer : ConstantBuffer} (hname : IsPlain buffer.name)
    (hc : ∀ constant ∈ buffer.constants, IsPlain constant.name) :
    Yields (dialect.writeBuffer buffer) fun declaration => Leads 0 declaration.lines 0 := by
  have hmembers : ∀ member ∈ (buffer.layout dialect.packing).members, IsPlain member.name := by
    intro member hm
    have hpair : (member.name, member.type) ∈ buffer.constants.map fun constant =>
        (constant.name, constant.type) := by
      rw [← buffer.map_layout dialect.packing]
      exact List.mem_map_of_mem hm
    obtain ⟨constant, hmem, heq⟩ := List.mem_map.mp hpair
    have hname : constant.name = member.name := congrArg Prod.fst heq
    exact hname ▸ hc constant hmem
  refine (Yields.forall_mapM fun member hm => leads_bufferMember (hmembers member hm)).bind
    fun members h => .pure ?_
  simpa using (leads_bufferHead hname _).append (leads_declaration h)

theorem leads_writeTexture {texture : ShaderTexture} (hname : IsPlain texture.name) :
    Yields (dialect.writeTexture texture) fun declaration => Leads 0 declaration.lines 0 := by
  refine isPlain_typeName.bind fun type htype => ?_
  cases dialect with
  | hlsl =>
      refine .pure ((Leads.plain ?_ 0).append (Leads.plain ?_ 0))
      · simp +decide [hname, htype]
      · simp +decide [hname, hlslSamplerName]
  | glsl version =>
      have hbinding : IsPlain
          (if version.supportsBinding then s!"layout(binding = {texture.slot}) " else "") := by
        split <;> simp +decide
      refine .pure (Leads.plain ?_ 0)
      simpa +decide [hname, htype] using hbinding

theorem isPlain_hlslSemantic (method : ShaderMethod) (parameter : ShaderParameter) :
    IsPlain (hlslSemantic method parameter) := by
  have hname : IsPlain parameter.semantics.hlslName := by
    cases parameter.semantics with
    | position | normal => decide
    | color index | texCoord index =>
        revert index
        decide
  unfold hlslSemantic
  split
  · simp +decide
  · split
    · decide
    · exact hname
  · split
    · decide
    · exact hname
  · exact hname

theorem isPlain_glslVariable {stage : Stage} {parameter : ShaderParameter} {name : String}
    (h : glslVariable? stage parameter = some name) : IsPlain name := by
  have hname := (isWord_glslName parameter.semantics).isPlain
  unfold glslVariable? at h
  dsimp only at h
  split at h
  · cases h
    simp +decide [hname]
  · cases h
    simp +decide [hname]
  · split at h
    · cases h
    · cases h
      simp +decide [hname]

theorem isPlain_hlslStructName {method : ShaderMethod} (hname : IsPlain method.name)
    (direction : Direction) : IsPlain (hlslStructName method direction) := by
  cases direction <;> simp +decide [hlslStructName, hname]

theorem leads_hlslStruct {method : ShaderMethod} (hs : method.SpelledIn IsPlainChar)
    (direction : Direction) :
    Yields (hlslStruct method direction) fun lines => Leads 0 lines 0 := by
  have hhead : IsPlain s!"struct {hlslStructName method direction}" := by
    simp +decide [isPlain_hlslStructName hs.name]
  have hfield : ∀ parameter ∈ method.parametersOf direction,
      Yields (do
        let type ← hlsl.typeName parameter.type
        return ({ depth := 1,
                  text := s!"{type} {parameter.name} : {hlslSemantic method parameter};" } : Line))
        fun line => Leads 1 [line] 1 := by
    intro parameter hp
    have hname := hs.parameters parameter (List.mem_of_mem_filter hp)
    refine isPlain_typeName.bind fun type htype => .pure (.plain ?_ 1)
    simp +decide [htype, hname, isPlain_hlslSemantic]
  refine (Yields.forall_mapM hfield).bind fun fields h => .pure ?_
  exact (Leads.plain hhead 0).append (leads_declaration h)

theorem leads_glslVariables {version : GlslVersion} {stage : Stage} {location : Nat}
    {parameters : List ShaderParameter} :
    Yields (glslVariables version stage location parameters) fun lines => Leads 0 lines 0 := by
  induction parameters generalizing location with
  | nil => exact .pure (.nil 0)
  | cons parameter rest ih =>
      rw [glslVariables]
      split
      · exact ih
      · rename_i name hname
        have hplain := isPlain_glslVariable hname
        refine isPlain_typeName.bind fun type htype => ?_
        dsimp only
        split
        · refine ih.bind fun lines h => .pure ((Leads.plain ?_ 0).append h)
          cases parameter.direction <;> simp +decide [htype, hplain]
        · refine ih.bind fun lines h => .pure ((Leads.plain ?_ 0).append h)
          cases parameter.direction <;> simp +decide [htype, hplain]

theorem leads_writeInterface {method : ShaderMethod} (hs : method.SpelledIn IsPlainChar) :
    Yields (dialect.writeInterface method) fun lines => Leads 0 lines 0 := by
  cases dialect with
  | hlsl =>
      refine (leads_hlslStruct hs .input).bind fun inputs hi => ?_
      exact (leads_hlslStruct hs .output).bind fun outputs ho => .pure (hi.append ho)
  | glsl version =>
      refine leads_glslVariables.bind fun globals hg => .pure ?_
      exact hg.append (.plain (by decide) 0)

theorem leads_entryPointBegin {method : ShaderMethod} (hname : IsPlain method.name) :
    Leads 0 (dialect.entryPointBegin method) 1 := by
  have hstruct := isPlain_hlslStructName hname
  cases dialect with
  | hlsl =>
      refine (Leads.plain ?_ 0).append ((Leads.opening 0).append (Leads.plain ?_ 1))
      · simp +decide [hname, hstruct, hlslInputVariable]
      · simp +decide [hstruct, hlslOutputVariable]
  | glsl version => exact (Leads.plain (by decide) 0).append (Leads.opening 0)

theorem leads_entryPointEnd (method : ShaderMethod) : Leads 1 (dialect.entryPointEnd method) 0 := by
  have hend : Leads 1 [⟨0, "\x7d"⟩] 0 := .closing (.inl rfl) 0
  unfold entryPointEnd
  split
  · exact (Leads.plain dialect.isPlain_returnStatement 1).append hend
  · exact hend

theorem leads_flatMap {α : Type} {xs : List α} {f : α → Except CompileError ResourceDeclaration}
    (h : ∀ x ∈ xs, Yields (f x) fun declaration => Leads 0 declaration.lines 0) :
    Yields (xs.mapM f) fun parts => Leads 0 (parts.flatMap (·.lines)) 0 := by
  refine (Yields.forall_mapM h).mono fun parts hparts => ?_
  induction parts with
  | nil => exact .nil 0
  | cons part parts ih =>
      exact (hparts part (by simp)).append (ih fun part hp => hparts part (by simp [hp]))

/-- The lines of a unit, and the lines of the body among them. -/
theorem writeUnit_body {effect : Effect} {method : ShaderMethod}
    (he : effect.SpelledIn IsPlainChar) (hm : method.SpelledIn IsPlainChar) :
    Yields (dialect.writeUnit effect method) fun unit => ∃ front body,
      unit.lines = front ++ body ++ dialect.entryPointEnd method ∧
        Leads 0 front 1 ∧ Laid dialect 1 method.body body := by
  refine (Yields.forall_mapM fun literal hl => leads_writeLiteral (he.literals literal hl).1
    (he.literals literal hl).2).bind fun literals hlit => ?_
  refine (leads_flatMap fun buffer hb => leads_writeBuffer (he.buffers buffer hb).1
    (he.buffers buffer hb).2).bind fun buffers hbuf => ?_
  refine (leads_flatMap fun texture ht => leads_writeTexture (he.textures texture ht)).bind
    fun textures htex => ?_
  refine (leads_writeInterface hm).bind fun interface hint => ?_
  refine (laid_writeStmts fun stmt hmem => laid_writeStmt stmt (hm.body stmt hmem)).bind
    fun written hbody => .pure ?_
  refine ⟨_, written.2, rfl, ?_, hbody⟩
  exact ((((((leads_header.append (.of_forall hlit)).append (leads_gapAfter _)).append hbuf).append
    htex).append (leads_gapAfter _)).append hint).append (leads_entryPointBegin hm.name)

end

theorem writeUnit_ends_with_return {effect : Effect} {method : ShaderMethod}
    (he : effect.SpelledIn IsPlainChar) (hm : method.SpelledIn IsPlainChar) :
    Yields (hlsl.writeUnit effect method) fun unit => ∃ front,
      unit.lines = front ++ [⟨1, "return fx_output;"⟩, ⟨0, "\x7d"⟩] := by
  have hreturn : hlsl.returnStatement = "return fx_output;" := rfl
  refine (writeUnit_body he hm).mono fun unit h => ?_
  obtain ⟨front, body, hlines, -, hbody⟩ := h
  -- the return is the last line of the body, or it is added behind the body
  by_cases hr : endsWithReturn method.body
  · obtain ⟨before, rfl⟩ := hbody.exists_return hr
    exact ⟨front ++ before, by simp [hlines, entryPointEnd, hr, hreturn]⟩
  · exact ⟨front ++ body, by simp [hlines, entryPointEnd, hr, hreturn]⟩

end Dialect

theorem Effect.consists_of_compile {effect : Effect} {dialect : Dialect} {name : String}
    {method : ShaderMethod} {shader : CompiledShader} (hm : effect.method? name = some method)
    (h : effect.compile dialect name = .ok shader) :
    ∃ unit, shader.Consists dialect effect method unit := by
  obtain ⟨found, unit, hfound, hconsists⟩ := compile_consists h
  obtain rfl : method = found := Option.some.inj (hm.symm.trans hfound)
  exact ⟨unit, hconsists⟩

/-- Braces and levels of all that is written. The lines of a statement stand at the levels of their
braces, with branches and loop bodies in braces of their own, and lead back to the level of the
statement; their text closes what it opens and nothing else. Hence every unit closes its braces. In
HLSL every return gives back the outputs, and the entry point ends with a return whatever the last
statement of the body is. -/
theorem Effect.braces_closed {effect : Effect} {name : String} {method : ShaderMethod}
    (hs : effect.SpelledIn IsPlainChar) (hm : effect.method? name = some method) :
    (∀ stmt, method.Contains (.stmt stmt) → ∀ (dialect : Dialect) depth scope after lines,
      dialect.writeStmt depth scope stmt = .ok (after, lines) →
        Laid dialect depth [stmt] lines ∧
          (∀ line ∈ lines, depth ≤ line.depth ∧ '\n' ∉ line.text.toList) ∧
          Line.levelAfter depth lines = some depth ∧
          aroundBlocks.Balanced (Line.renderAll lines) ∧
          (∀ beginning rest, Line.renderAll lines = beginning ++ rest →
            ∃ opened, aroundBlocks.read (some []) beginning.toList = some opened) ∧
          ∀ value, dialect = .hlsl → stmt.kind = .returning value →
            lines = [⟨depth, "return fx_output;"⟩]) ∧
      (∀ dialect shader, effect.compile dialect name = .ok shader →
        aroundBlocks.Balanced shader.source ∧
          ∃ front body, Laid dialect 1 method.body body ∧
            shader.source = Line.renderAll (front ++ body ++ dialect.entryPointEnd method)) ∧
      ∀ shader, effect.compile .hlsl name = .ok shader →
        ∃ front, shader.source = Line.renderAll front ++ "    return fx_output;\n\x7d\n" := by
  have hmethod := hs.methods method (List.mem_of_find?_eq_some hm)
  refine ⟨?_, ?_, ?_⟩
  · rintro stmt ⟨outer, hmem, hcontains⟩ dialect depth scope after lines h
    have hlaid := dialect.laid_writeStmt stmt ((hmethod.body outer hmem).contains hcontains) depth
      scope _ h
    have hnested := Dialect.nested_writeStmt stmt depth scope _ h
    have hbalanced := hlaid.leads.balanced hnested
    refine ⟨hlaid, fun line hl => ⟨hnested line hl, (hlaid.leads.tidy line hl).whole⟩,
      hlaid.leads.level, hbalanced, fun beginning rest => hbalanced.read_beginning, ?_⟩
    rintro value rfl hk
    obtain ⟨kind, location⟩ := stmt
    cases hk
    exact hlaid.eq_of_returning
  · intro dialect shader h
    obtain ⟨unit, hconsists⟩ := consists_of_compile hm h
    obtain ⟨front, body, hlines, hfront, hbody⟩ :=
      Dialect.writeUnit_body hs hmethod unit hconsists.written
    have hleads := (hfront.append hbody.leads).append (dialect.leads_entryPointEnd method)
    rw [hconsists.source_eq, hlines]
    exact ⟨hleads.balanced fun _ _ => Nat.zero_le _, front, body, hbody, rfl⟩
  · intro shader h
    obtain ⟨unit, hconsists⟩ := consists_of_compile hm h
    obtain ⟨front, hlines⟩ := Dialect.writeUnit_ends_with_return hs hmethod unit hconsists.written
    refine ⟨front, ?_⟩
    rw [hconsists.source_eq, hlines, Line.renderAll_append]
    rfl

/-! ## An example -/

/-- A body that ends with a choice: `if (Rounds < 1) return; else { shade = Tint; }`. -/
def guardedShade : List Stmt :=
  let tint : Expr := ⟨.assignment .assign (.named "shade") (.named "Tint"), {}, {}⟩
  [⟨.ifElse ⟨.binary .less (.named "Rounds") ⟨.literal (.int 1), {}, {}⟩, {}, {}⟩
    ⟨.returning none, {}⟩ (some ⟨.block [⟨.expression tint, {}⟩], {}⟩), {}⟩]

theorem spelledIn_guardedShade : (tintingEffect guardedShade).SpelledIn IsPlainChar := by
  have hnames : IsPlain "shade" ∧ IsPlain "Tint" ∧ IsPlain "Rounds" := by decide
  constructor
  · rintro literal (_ | ⟨_, ⟨⟩⟩)
    refine ⟨by decide, ?_⟩
    simp [Node.everywhere_expr, ExprKind.parts]
  · intro buffer hb
    have hall : ∀ buffer ∈ (tintingEffect guardedShade).buffers, IsPlain buffer.name ∧
        ∀ constant ∈ buffer.constants, IsPlain constant.name := by decide +kernel
    exact hall buffer hb
  · have hall : ∀ texture ∈ (tintingEffect guardedShade).textures, IsPlain texture.name := by
      decide +kernel
    exact hall
  · rintro method (_ | ⟨_, _ | ⟨_, ⟨⟩⟩⟩)
    · refine ⟨by decide, by decide +kernel, ?_⟩
      rintro stmt ⟨⟩
    · refine ⟨by decide, by decide +kernel, ?_⟩
      rintro stmt (_ | ⟨_, ⟨⟩⟩)
      simp [Node.spelledIn_stmt, Node.spelledIn_expr, StmtKind.parts, ExprKind.parts, Expr.named,
        hnames]

/-- The braces of the choice are closed, and a return follows it. -/
theorem guardedShade_braces_closed :
    (tintingEffect guardedShade).SpelledIn IsPlainChar ∧
      ∃ shader, (tintingEffect guardedShade).compile .hlsl "Shade" = .ok shader ∧
        aroundBlocks.Balanced shader.source ∧
        ∃ front, shader.source = Line.renderAll front ++ "    return fx_output;\n\x7d\n" := by
  obtain ⟨shader, hshader⟩ : ∃ shader,
      (tintingEffect guardedShade).compile .hlsl "Shade" = .ok shader := ⟨_, rfl⟩
  have hmethod : (tintingEffect guardedShade).method? "Shade" =
      some (tintingShade guardedShade) := rfl
  obtain ⟨-, hunits, hreturn⟩ := Effect.braces_closed spelledIn_guardedShade hmethod
  exact ⟨spelledIn_guardedShade, shader, hshader, (hunits _ shader hshader).1,
    hreturn shader hshader⟩

end ShaderEffect
