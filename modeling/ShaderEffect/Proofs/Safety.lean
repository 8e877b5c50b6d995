import ShaderEffect.Proofs.Body
import ShaderEffect.Proofs.Model

/-!
# Safety of valid effects

What no body of a valid effect contains, at any depth: constructs outside the shader subset, and
writes to what a shader can only read. Both hold of trees whose symbols are annotated on identifiers
alone; a symbol on another expression could make the checker leave it out.
-/

namespace ShaderEffect

/-- In the bodies of all methods, symbols are annotated on identifiers only. -/
def TypeDecl.SymbolsOnIdentifiers (decl : TypeDecl) : Prop :=
  ∀ method ∈ decl.methods, ∀ body, method.body = some body →
    ∀ stmt ∈ body, (Node.stmt stmt).SymbolsOnIdentifiers

/-- No method has two parameters of one name. -/
def TypeDecl.DistinctParameters (decl : TypeDecl) : Prop :=
  ∀ method ∈ decl.methods, (method.parameters.map (·.name)).Nodup

section

variable {decl : TypeDecl} {effect : Effect} {method : ShaderMethod}

theorem checkStmts_of_isValid (hv : isValid decl effect = true) (hm : method ∈ effect.methods) :
    (checkStmts (memberNames decl effect) { effect, method } method.body).2 = [] := by
  simp only [isValid_eq, Bool.and_eq_true, List.isEmpty_iff] at hv
  exact List.flatMap_eq_nil_iff.mp hv.2 method hm

/-- Every node in a body of a valid effect is accepted in some scope. -/
theorem acceptedIn_of_isValid (hb : decl.build.result = .ok effect)
    (hv : isValid decl effect = true) (hs : decl.SymbolsOnIdentifiers)
    (hm : method ∈ effect.methods) {node : Node} (hn : method.Contains node) :
    ∃ scope, AcceptedIn (memberNames decl effect) effect method (scope, node) := by
  obtain ⟨stmt, hstmt, hn⟩ := hn
  obtain ⟨declared, hd, hscanned⟩ := Effect.mem_methods hb hm
  have hmem : Node.stmt stmt ∈ method.body.map Node.stmt := List.mem_map_of_mem hstmt
  rw [← map_stmtsIn (memberNames decl effect) { effect, method }] at hmem
  obtain ⟨⟨scope, _⟩, hplace, rfl⟩ := List.mem_map.mp hmem
  have haccepted := acceptedIn_stmtsIn (Scope.freshLocals_start _ effect method)
    (checkStmts_of_isValid hv hm) _ hplace
  exact haccepted.contains (hs declared hd _ hscanned.body_eq stmt hstmt) hn

theorem isValid_repeatedTint :
    isValid (tinting repeatedTint) (tintingEffect repeatedTint) = true := by
  decide +kernel

theorem symbolsOnIdentifiers_repeatedTint : (tinting repeatedTint).SymbolsOnIdentifiers := by
  simp [TypeDecl.SymbolsOnIdentifiers, tinting, TypeDecl.methods, repeatedTint, imageSample,
    imageSampleAt, Expr.named, Expr.SymbolOnIdentifier, Node.everywhere_stmt, Node.everywhere_expr,
    Node.everywhere_argument, StmtKind.parts, ExprKind.parts, VariableDeclaration.parts]

theorem contains_increment_repeatedTint : (tintingShade repeatedTint).Contains
    (.expr ⟨.unary .postIncrement (.named "round"), {}, {}⟩) := by
  refine ⟨_, .tail _ (.head _), Node.contains_of_mem_parts ?_ (Node.contains_self _)⟩
  simp [Node.parts, StmtKind.parts]

/-! ## The shader subset -/

/-- A node that is no construct outside the shader subset: neither by its form, nor as an argument
that is not passed by position and value, nor as a return of a value. -/
def Node.InSubset : Node → Prop
  | .stmt s => Construct.ofStmt? s.kind = none ∧ ∀ value, s.kind ≠ .returning (some value)
  | .expr e => Construct.ofExpr? e.kind = none
  | .argument a => Construct.ofArgument? a = none

theorem Scope.Accepts.inSubset {members : List String} {scope : Scope} {node : Node}
    (h : scope.Accepts members node) : node.InSubset := by
  cases node with
  | expr e => exact Scope.Passes.ofExpr?_eq_none h
  | argument a => exact h.1
  | stmt stmt =>
      obtain ⟨kind, location⟩ := stmt
      constructor
      · simp only [Accepts] at h
        rw [checkStmt.eq_def] at h
        cases hc : Construct.ofStmt? kind with
        | none => rfl
        | some construct => simp [hc] at h
      · rintro value rfl
        simp [Accepts, checkStmt, Construct.ofStmt?] at h

/-- No body of a valid effect contains anything outside the shader subset. -/
theorem valid_bodies_in_subset (hs : decl.SymbolsOnIdentifiers)
    (hb : decl.build.result = .ok effect) (hv : isValid decl effect = true)
    (hm : method ∈ effect.methods) {node : Node} (hn : method.Contains node) : node.InSubset := by
  obtain ⟨scope, -, haccepts⟩ := acceptedIn_of_isValid hb hv hs hm hn
  exact haccepts.inSubset

theorem repeatedTint_increment_in_subset :
    isValid (tinting repeatedTint) (tintingEffect repeatedTint) = true ∧
      (Node.expr ⟨.unary .postIncrement (.named "round"), {}, {}⟩).InSubset :=
  ⟨isValid_repeatedTint, valid_bodies_in_subset symbolsOnIdentifiers_repeatedTint
    (build_tinting repeatedTint) isValid_repeatedTint (tintingShade_mem repeatedTint)
    contains_increment_repeatedTint⟩

/-! ## What a shader can only read -/

/-- The names of the constants, literals and textures of an effect. -/
def Effect.resourceNames (effect : Effect) : List String :=
  effect.buffers.flatMap (fun buffer => buffer.constants.map (·.name)) ++
    effect.literals.map (·.name) ++ effect.textures.map (·.name)

/-- The names of what a shader method can only read: the resources of the effect and the inputs of
the method. -/
def Effect.readOnlyNames (effect : Effect) (method : ShaderMethod) : List String :=
  effect.resourceNames ++ method.inputs.map (·.name)

/-- The target that an assignment, an increment or a decrement writes to. -/
def Expr.writtenTarget? (e : Expr) : Option Expr :=
  match e.kind with
  | .assignment _ target _ => some target
  | .unary op operand => if op.isMutating then some operand else none
  | _ => none

/-- What a shader can only read. -/
def Binding.ReadOnly : Binding → Prop
  | .localVariable _ => False
  | .parameter declared => declared.direction = .input
  | .constant _ _ | .literal _ | .texture _ => True

namespace Scope

theorem not_readOnly_of_checkAssignable {scope : Scope} {target : Expr} {root : String}
    {binding : Binding} (h : scope.checkAssignable target = [])
    (hr : target.rootIdentifier? = some root) (hb : scope.lookup? root = some binding) :
    ¬ binding.ReadOnly := by
  simp only [checkAssignable, hr, hb] at h
  cases binding <;> simp_all [Binding.ReadOnly]

theorem Passes.checkAssignable {scope : Scope} {e target : Expr} (h : scope.Passes e)
    (ht : e.writtenTarget? = some target) : scope.checkAssignable target = [] := by
  obtain ⟨kind, location, notes⟩ := e
  cases h with
  | name h | member h _ | parenthesized h _ =>
      subst h
      simp [Expr.writtenTarget?] at ht
  | checked h =>
      cases kind
      case assignment op target' value =>
        obtain rfl : target' = target := by simpa [Expr.writtenTarget?] using ht
        exact (checkExpr_assignment.mp h).2.2.2
      case unary op operand =>
        obtain ⟨hop, rfl⟩ : op.isMutating ∧ operand = target := by
          simpa [Expr.writtenTarget?] using ht
        exact (checkExpr_unary.mp h).2 hop
      all_goals simp [Expr.writtenTarget?] at ht

/-- Where neither a local variable nor a parameter has its name, a resource is what its name refers
to. -/
theorem lookup?_resource {scope : Scope} {name : String} (hl : scope.locals.type? name = none)
    (hp : scope.method.parameter? name = none) (hn : name ∈ scope.effect.resourceNames) :
    ∃ binding, scope.lookup? name = some binding ∧ binding.ReadOnly := by
  simp only [lookup?, hl, hp]
  cases hc : scope.effect.constant? name with
  | some found => exact ⟨_, rfl, trivial⟩
  | none =>
      cases hlit : scope.effect.literal? name with
      | some literal => exact ⟨_, rfl, trivial⟩
      | none =>
          cases ht : scope.effect.texture? name with
          | some texture => exact ⟨_, rfl, trivial⟩
          | none =>
              simp only [Effect.constant?, Effect.literal?, Effect.texture?,
                List.findSome?_eq_none_iff, Option.map_eq_none_iff, List.find?_eq_none,
                beq_iff_eq] at hc hlit ht
              simp only [Effect.resourceNames, List.mem_append, List.mem_flatMap,
                List.mem_map] at hn
              grind

theorem lookup?_input {scope : Scope} {parameter : ShaderParameter}
    (hl : scope.locals.type? parameter.name = none) (hp : parameter ∈ scope.method.inputs)
    (hd : (scope.method.parameters.map (·.name)).Nodup) :
    ∃ binding, scope.lookup? parameter.name = some binding ∧ binding.ReadOnly := by
  obtain ⟨hmem, hinput⟩ := List.mem_filter.mp hp
  have hfound : scope.method.parameter? parameter.name = some parameter :=
    find?_of_nodup_map hd hmem
  refine ⟨.parameter parameter, by simp [lookup?, hl, hfound], ?_⟩
  simpa [Binding.ReadOnly] using hinput

end Scope

/-- No parameter of a shader method of a valid effect has the name of a member. -/
theorem parameter_not_member (hb : decl.build.result = .ok effect)
    (hv : isValid decl effect = true) (hm : method ∈ effect.methods) {parameter : ShaderParameter}
    (hp : parameter ∈ method.parameters) : parameter.name ∉ memberNames decl effect := by
  obtain ⟨declared, hd, hscanned⟩ := Effect.mem_methods hb hm
  simp only [isValid_eq, declarationFindings, checkNames, Bool.and_eq_true, List.isEmpty_iff,
    List.append_eq_nil_iff] at hv
  have hnames := List.flatMap_eq_nil_iff.mp hv.1.1.1.2.1.2 declared hd
  simp only [checkMethodNames, ← hscanned.name_eq, Effect.method?_of_mem hb hm, Option.isNone_some,
    Bool.false_eq_true, if_false, List.append_eq_nil_iff] at hnames
  have hmem : parameter.name ∈ declared.parameters.map (·.name) := by
    rw [← map_name_of_forall₂ hscanned.parameters]
    exact List.mem_map_of_mem hp
  obtain ⟨d, hd, hn⟩ := List.mem_map.mp hmem
  have hfindings := List.flatMap_eq_nil_iff.mp hnames.2 d hd
  intro hmember
  simp [hn, hmember] at hfindings

theorem mem_memberNames (hb : decl.build.result = .ok effect) {name : String}
    (h : name ∈ effect.resourceNames) : name ∈ memberNames decl effect := by
  simp only [Effect.resourceNames, List.mem_append, List.mem_flatMap, List.mem_map] at h
  rcases h with (⟨buffer, hbuffer, constant, hc, rfl⟩ | ⟨literal, hl, rfl⟩) | ⟨texture, ht, rfl⟩
  · exact List.mem_append.mpr (Effect.mem_constants hb hbuffer hc).2
  · exact List.mem_append_left _ (Effect.mem_literals hb hl)
  · exact List.mem_append_left _ (Effect.mem_textures hb ht).2

/-- In a scope of a valid effect whose local variables hide nothing, every read-only name refers to
something that can only be read. -/
theorem lookup?_readOnly (hb : decl.build.result = .ok effect) (hv : isValid decl effect = true)
    (hm : method ∈ effect.methods) (hd : (method.parameters.map (·.name)).Nodup) {scope : Scope}
    (hf : scope.FreshLocals (memberNames decl effect) effect method) {name : String}
    (hn : name ∈ effect.readOnlyNames method) :
    ∃ binding, scope.lookup? name = some binding ∧ binding.ReadOnly := by
  -- locals and parameters come first in a lookup, so none of them may have the name
  rcases List.mem_append.mp hn with hresource | hinput
  · have hmember := mem_memberNames hb hresource
    apply Scope.lookup?_resource
    · by_contra hl
      exact (hf.fresh name (Option.isSome_iff_ne_none.mpr hl)).1 hmember
    · rw [hf.method_eq, ShaderMethod.parameter?, List.find?_eq_none]
      intro parameter hp
      have := parameter_not_member hb hv hm hp
      grind
    · rwa [hf.effect_eq]
  · obtain ⟨parameter, hp, rfl⟩ := List.mem_map.mp hinput
    apply Scope.lookup?_input
    · by_contra hl
      have := (hf.fresh parameter.name (Option.isSome_iff_ne_none.mpr hl)).2
      rw [ShaderMethod.parameter?, List.find?_eq_none] at this
      exact this parameter (List.mem_filter.mp hp).1 (by simp)
    · rwa [hf.method_eq]
    · rwa [hf.method_eq]

/-- No body of a valid effect assigns to, increments or decrements what a shader can only read. -/
theorem valid_bodies_keep_read_only (hs : decl.SymbolsOnIdentifiers) (hp : decl.DistinctParameters)
    (hb : decl.build.result = .ok effect) (hv : isValid decl effect = true)
    (hm : method ∈ effect.methods) {e target : Expr} (he : method.Contains (.expr e))
    (ht : e.writtenTarget? = some target) {root : String}
    (hr : target.rootIdentifier? = some root) : root ∉ effect.readOnlyNames method := by
  obtain ⟨scope, hfresh, hpasses⟩ := acceptedIn_of_isValid hb hv hs hm he
  obtain ⟨declared, hd, hscanned⟩ := Effect.mem_methods hb hm
  have hnodup : (method.parameters.map (·.name)).Nodup := by
    rw [map_name_of_forall₂ hscanned.parameters]
    exact hp declared hd
  intro hroot
  obtain ⟨binding, hbinding, hreadOnly⟩ := lookup?_readOnly hb hv hm hnodup hfresh hroot
  exact Scope.not_readOnly_of_checkAssignable (hpasses.checkAssignable ht) hr hbinding hreadOnly

theorem repeatedTint_increment_not_read_only :
    isValid (tinting repeatedTint) (tintingEffect repeatedTint) = true ∧
      "round" ∉ (tintingEffect repeatedTint).readOnlyNames (tintingShade repeatedTint) := by
  have hp : (tinting repeatedTint).DistinctParameters := by
    simp [TypeDecl.DistinctParameters, tinting, TypeDecl.methods]
  exact ⟨isValid_repeatedTint, valid_bodies_keep_read_only symbolsOnIdentifiers_repeatedTint hp
    (build_tinting repeatedTint) isValid_repeatedTint (tintingShade_mem repeatedTint)
    contains_increment_repeatedTint rfl rfl⟩

end

end ShaderEffect
