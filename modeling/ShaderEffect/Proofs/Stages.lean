import ShaderEffect.Proofs.Build
import ShaderEffect.Proofs.Site

/-!
# The stages of buffers and textures

A buffer or a texture is bound in the stages that its set of stages names. The set comes from the
walk over the bodies of all methods. It is exact with regard to the walk, and it is enough for what
is written: a body refers only to buffers and textures that are bound in its stage, and without all
the others the same lines are written for it.
-/

namespace ShaderEffect

/-! ## The sets of stages -/

/-- A method refers to a name if the walk over its body comes to an identifier with that name. -/
theorem ShaderMethod.refersTo_iff {method : ShaderMethod} {name : String} :
    method.refersTo name = true ↔ ∃ e ∈ walkStmts method.body, e.kind = .identifier name := by
  have hname (e : Expr) : e.identifier? = some name ↔ e.kind = .identifier name := by
    unfold Expr.identifier?
    split <;> simp_all
  simp [refersTo, identifiers, hname]

theorem contains_referringStages {methods : List ShaderMethod} {names : List String}
    {stage : Stage} :
    (referringStages methods names).contains stage ↔
      ∃ method ∈ methods, method.stage = stage ∧ ∃ name ∈ names, method.refersTo name := by
  simp [referringStages]

namespace Built

variable {decl : TypeDecl} {effect : Effect}

theorem contains_buffer_stages (h : Built decl effect) {buffer : ConstantBuffer}
    (hb : buffer ∈ effect.buffers) {stage : Stage} :
    buffer.stages.contains stage ↔
      ∃ method ∈ effect.methods, method.stage = stage ∧
        ∃ e ∈ walkStmts method.body, ∃ constant ∈ buffer.constants,
          e.kind = .identifier constant.name := by
  rw [h.buffers_eq] at hb
  obtain ⟨plain, -, rfl⟩ := List.mem_map.mp hb
  rw [contains_referringStages]
  refine exists_congr fun method => and_congr_right fun _ => and_congr_right fun _ => ?_
  simp only [ShaderMethod.refersTo_iff]
  constructor
  · rintro ⟨name, hn, e, he, hk⟩
    obtain ⟨constant, hc, rfl⟩ := List.mem_map.mp hn
    exact ⟨e, he, constant, hc, hk⟩
  · rintro ⟨e, he, constant, hc, hk⟩
    exact ⟨constant.name, List.mem_map_of_mem hc, e, he, hk⟩

theorem contains_texture_stages (h : Built decl effect) {texture : ShaderTexture}
    (ht : texture ∈ effect.textures) {stage : Stage} :
    texture.stages.contains stage ↔
      ∃ method ∈ effect.methods, method.stage = stage ∧
        ∃ e ∈ walkStmts method.body, e.kind = .identifier texture.name := by
  rw [h.textures_eq] at ht
  obtain ⟨plain, -, rfl⟩ := List.mem_map.mp ht
  rw [contains_referringStages]
  refine exists_congr fun method => and_congr_right fun _ => and_congr_right fun _ => ?_
  simp [ShaderMethod.refersTo_iff]

end Built

/-! ## Names that are resolved -/

/-- A name is resolved while an expression is written: it is written itself, it is the receiver of a
sample that is written, or one of the two happens in an operand. -/
inductive Scope.Resolves (scope : Scope) : Expr → Binding → Prop where
  | name {e name binding} (hk : e.kind = .identifier name)
      (hl : scope.lookup? name = some binding) : Resolves scope e binding
  | sampled {e call receiver texture} (hc : scope.call? e = some call)
      (hs : call.intrinsic = .sampleTexture) (hr : call.receiver = some receiver)
      (ht : scope.texture? receiver = some texture) : Resolves scope e (.texture texture)
  | operand {e operand binding} (ho : operand ∈ scope.operands e)
      (h : Resolves scope operand binding) : Resolves scope e binding

theorem Scope.texture?_eq_some {scope : Scope} {e : Expr} {texture : ShaderTexture}
    (h : scope.texture? e = some texture) :
    ∃ name, e.unparenthesized.kind = .identifier name ∧
      scope.lookup? name = some (.texture texture) := by
  unfold texture? at h
  split at h
  · rename_i name hk
    split at h
    · rename_i found hl
      cases h
      exact ⟨name, hk, hl⟩
    · cases h
  · cases h

/-- Every name that is resolved is the name of an identifier on the walk. -/
theorem Scope.Resolves.mem_walk {scope : Scope} {e : Expr} {binding : Binding}
    (h : scope.Resolves e binding) :
    ∃ part ∈ e.walk, ∃ name, part.kind = .identifier name ∧
      scope.lookup? name = some binding := by
  induction h with
  | name hk hl => exact ⟨_, Expr.mem_walk_self _, _, hk, hl⟩
  | sampled hc _ hr ht =>
      obtain ⟨name, hk, hl⟩ := texture?_eq_some ht
      have hwalk := walk_receiver_subset hc hr
      exact ⟨_, hwalk (Expr.walk_unparenthesized_subset _ (Expr.mem_walk_self _)), name, hk, hl⟩
  | operand ho _ ih =>
      obtain ⟨part, hp, hname⟩ := ih
      exact ⟨part, walk_operand_subset ho hp, hname⟩

/-! ## Bound resources -/

/-- The effect with the buffers and the textures that are bound in a stage, and no others. -/
def Effect.boundIn (effect : Effect) (stage : Stage) : Effect :=
  { effect with
    buffers := effect.buffers.filter (·.stages.contains stage)
    textures := effect.textures.filter (·.stages.contains stage) }

/-- What a name refers to is bound in a stage. Only buffers and textures have to be bound. -/
def Binding.BoundIn (stage : Stage) : Binding → Prop
  | .constant buffer _ => buffer.stages.contains stage
  | .texture declared => declared.stages.contains stage
  | .localVariable _ | .parameter _ | .literal _ => True

/-- Nothing is found differently if only elements are left out that are not found. -/
theorem findSome?_filter_of_forall {α β : Type} {p : α → Bool} {f : α → Option β} {xs : List α}
    (h : ∀ x ∈ xs, (f x).isSome → p x) : (xs.filter p).findSome? f = xs.findSome? f := by
  rw [← List.head?_filterMap, List.filterMap_filter, ← List.head?_filterMap]
  refine congrArg List.head? (List.filterMap_congr fun x hx => ?_)
  split
  · rfl
  · rename_i hp
    exact (Option.not_isSome_iff_eq_none.mp fun hsome => hp (h x hx hsome)).symm

theorem Effect.constant?_eq_some {effect : Effect} {name : String} {buffer : ConstantBuffer}
    {constant : ShaderConstant} (h : effect.constant? name = some (buffer, constant)) :
    buffer ∈ effect.buffers ∧ constant ∈ buffer.constants ∧ constant.name = name := by
  obtain ⟨found, hb, hf⟩ := List.exists_of_findSome?_eq_some h
  obtain ⟨declared, hd, heq⟩ := Option.map_eq_some_iff.mp hf
  cases heq
  exact ⟨hb, List.mem_of_find?_eq_some hd, by simpa using List.find?_some hd⟩

theorem Effect.texture?_eq_some {effect : Effect} {name : String} {texture : ShaderTexture}
    (h : effect.texture? name = some texture) : texture ∈ effect.textures ∧ texture.name = name :=
  ⟨List.mem_of_find?_eq_some h, by simpa using List.find?_some h⟩

section

variable {decl : TypeDecl} {effect : Effect} {method : ShaderMethod} {name : String}

namespace Built

theorem buffer_bound (h : Built decl effect) (hm : method ∈ effect.methods)
    {e : Expr} (he : e ∈ walkStmts method.body) (hk : e.kind = .identifier name)
    {buffer : ConstantBuffer} (hb : buffer ∈ effect.buffers) {constant : ShaderConstant}
    (hc : constant ∈ buffer.constants) (hn : constant.name = name) :
    buffer.stages.contains method.stage :=
  (h.contains_buffer_stages hb).mpr ⟨method, hm, rfl, e, he, constant, hc, hn ▸ hk⟩

theorem texture_bound (h : Built decl effect) (hm : method ∈ effect.methods)
    {e : Expr} (he : e ∈ walkStmts method.body) (hk : e.kind = .identifier name)
    {texture : ShaderTexture} (ht : texture ∈ effect.textures) (hn : texture.name = name) :
    texture.stages.contains method.stage :=
  (h.contains_texture_stages ht).mpr ⟨method, hm, rfl, e, he, hn ▸ hk⟩

/-- Whatever the local variables, a name on the walk refers to something that is bound. -/
theorem binding_bound (h : Built decl effect) (hm : method ∈ effect.methods)
    {e : Expr} (he : e ∈ walkStmts method.body) (hk : e.kind = .identifier name)
    {locals : Locals} {binding : Binding}
    (hl : ({ effect, method, locals } : Scope).lookup? name = some binding) :
    binding.BoundIn method.stage := by
  unfold Scope.lookup? at hl
  split at hl
  · cases hl
    trivial
  · split at hl
    · cases hl
      trivial
    · split at hl
      · rename_i buffer constant hc
        cases hl
        obtain ⟨hb, hmem, hn⟩ := Effect.constant?_eq_some hc
        exact h.buffer_bound hm he hk hb hmem hn
      · split at hl
        · cases hl
          trivial
        · obtain ⟨texture, ht, rfl⟩ := Option.map_eq_some_iff.mp hl
          obtain ⟨hmem, hn⟩ := Effect.texture?_eq_some ht
          exact h.texture_bound hm he hk hmem hn

/-- Without the buffers and textures of other stages, the names on the walk refer to the same. -/
theorem agreeOn_boundIn (h : Built decl effect) (hm : method ∈ effect.methods) :
    effect.AgreeOn (effect.boundIn method.stage) (walkStmts method.body) := by
  intro e he name hk
  refine ⟨Eq.symm ?_, rfl, Eq.symm ?_⟩
  · refine findSome?_filter_of_forall fun buffer hb hfound => ?_
    rw [Option.isSome_map, List.find?_isSome] at hfound
    obtain ⟨constant, hc, hn⟩ := hfound
    exact h.buffer_bound hm he hk hb hc (by simpa using hn)
  · unfold Effect.texture?
    rw [← List.findSome?_guard, ← List.findSome?_guard]
    refine findSome?_filter_of_forall fun texture ht hfound => ?_
    exact h.texture_bound hm he hk ht (by simpa [Option.isSome_guard] using hfound)

end Built

/-- The stages of a buffer are exactly those of the methods in whose bodies the walk finds one of
its constants, and the stages of a texture those of the methods in whose bodies it finds the
texture. They cover whatever is written: the sites of a method that compiles leave out no
expression, every name that is resolved at one of them is bound in the stage of the method, and the
same lines are written without all buffers and textures that are not bound there. -/
theorem stages_cover_references (hb : decl.build.result = .ok effect) :
    (∀ buffer ∈ effect.buffers, ∀ stage, buffer.stages.contains stage ↔
      ∃ method ∈ effect.methods, method.stage = stage ∧ ∃ e ∈ walkStmts method.body,
        ∃ constant ∈ buffer.constants, e.kind = .identifier constant.name) ∧
    (∀ texture ∈ effect.textures, ∀ stage, texture.stages.contains stage ↔
      ∃ method ∈ effect.methods, method.stage = stage ∧ ∃ e ∈ walkStmts method.body,
        e.kind = .identifier texture.name) ∧
    ∀ method ∈ effect.methods, ∀ dialect shader, effect.compile dialect method.name = .ok shader →
      ∀ members,
      (∀ e, method.Contains (.expr e) → ∃ site ∈ bodySites dialect members effect method,
        (Node.expr site.value).Contains (.expr e)) ∧
      (∀ site ∈ bodySites dialect members effect method, ∀ binding,
        site.point.writtenScope.Resolves site.value binding → binding.BoundIn method.stage) ∧
      ∃ scope scope' lines,
        dialect.writeStmts 1 { effect, method } method.body = .ok (scope, lines) ∧
        dialect.writeStmts 1 { effect := effect.boundIn method.stage, method } method.body =
          .ok (scope', lines) := by
  have hbuilt := built_of_build hb
  refine ⟨fun buffer hbuffer stage => hbuilt.contains_buffer_stages hbuffer,
    fun texture ht stage => hbuilt.contains_texture_stages ht, ?_⟩
  intro method hm dialect shader hc members
  obtain ⟨-, ⟨scope, lines⟩, hw⟩ := (succeeds_compile hb hm).mp ⟨shader, hc⟩
  refine ⟨?_, ?_, ?_⟩
  · rintro e ⟨stmt, hs, he⟩
    exact sitesCover_bodySites ⟨_, hw⟩ stmt hs e he
  · intro site hsite binding hr
    obtain ⟨part, hp, name, hk, hl⟩ := hr.mem_walk
    obtain ⟨stmt, hs, he⟩ := mem_bodySites hsite
    have hwalk : part ∈ walkStmts method.body := by
      rw [walkStmts_eq_flatMap]
      exact List.mem_flatMap.mpr ⟨stmt, hs, he.walk_subset hp⟩
    exact hbuilt.binding_bound hm hwalk hk hl
  · have hsame : SameLines effect (effect.boundIn method.stage) method
        (dialect.writeStmts 1 { effect, method } method.body)
        (dialect.writeStmts 1 { effect := effect.boundIn method.stage, method } method.body) :=
      sameLines_stmts (fun stmt _ _ _ depth => sameLines_stmt stmt depth)
        (hbuilt.agreeOn_boundIn hm) (.intro [])
    rw [hw] at hsame
    obtain ⟨⟨scope', _⟩, hw', -, rfl⟩ := hsame.exists_ok
    exact ⟨scope, scope', lines, hw, hw'⟩

end

theorem imageSample_resolves : ∃ texture,
    ({ effect := tintingEffect repeatedTint, method := tintingShade repeatedTint } : Scope).Resolves
      imageSample (.texture texture) := by
  obtain ⟨call, hc, hs, receiver, hr, texture, ht⟩ : ∃ call,
      Scope.call? { effect := tintingEffect repeatedTint, method := tintingShade repeatedTint }
        imageSample = some call ∧ call.intrinsic = .sampleTexture ∧
      ∃ receiver, call.receiver = some receiver ∧ ∃ texture,
        Scope.texture? { effect := tintingEffect repeatedTint, method := tintingShade repeatedTint }
          receiver = some texture := ⟨_, rfl, rfl, _, rfl, _, rfl⟩
  exact ⟨texture, .sampled hc hs hr ht⟩

theorem repeatedTint_texture_bound :
    (tinting repeatedTint).build.result = .ok (tintingEffect repeatedTint) ∧
      ∃ site ∈ bodySites .hlsl [] (tintingEffect repeatedTint) (tintingShade repeatedTint),
        ∃ texture, site.point.writtenScope.Resolves site.value (.texture texture) ∧
          texture.stages.contains .fragment := by
  obtain ⟨-, -, hcover⟩ := stages_cover_references (build_tinting repeatedTint)
  obtain ⟨-, hbound, -⟩ := hcover _ (tintingShade_mem repeatedTint) .hlsl _ rfl []
  have hsite : ⟨{}, imageSample⟩ ∈
      bodySites .hlsl [] (tintingEffect repeatedTint) (tintingShade repeatedTint) :=
    List.mem_of_head? rfl
  obtain ⟨texture, hresolves⟩ := imageSample_resolves
  exact ⟨build_tinting repeatedTint, _, hsite, texture, hresolves, hbound _ hsite _ hresolves⟩

end ShaderEffect
