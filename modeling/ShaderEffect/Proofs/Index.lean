import ShaderEffect.Proofs.Safety

/-!
# Constant indices

The checker compares every constant index with the number of elements of what is indexed. In a valid
effect all of them are in range, wherever they stand: in targets of assignments, in arguments, in loop
headers or in the target of another index.
-/

namespace ShaderEffect

/-! ## Where the checker meets a node -/

/-- The checker meets a node of the body of a method in a scope: a statement of the body in the scope
after the statements before it, and a part of a node in the scope that it has there. -/
inductive MetIn (members : List String) (effect : Effect) (method : ShaderMethod) :
    Scope → Node → Prop
  | body {scope : Scope} {node : Node}
      (h : (scope, node) ∈ stmtsIn members { effect, method } method.body) :
      MetIn members effect method scope node
  | part {outer scope : Scope} {whole node : Node} (hw : MetIn members effect method outer whole)
      (h : (scope, node) ∈ whole.partsIn members outer) : MetIn members effect method scope node

section

variable {members : List String} {effect : Effect} {method : ShaderMethod}

/-- The checker meets every node of a body. -/
theorem exists_metIn {node : Node} (h : method.Contains node) :
    ∃ scope, MetIn members effect method scope node := by
  obtain ⟨stmt, hs, hn⟩ := h
  refine Node.contains_invariant (P := fun node => ∃ scope, MetIn members effect method scope node)
    ?_ ?_ hn
  · rintro outer ⟨scope, ho⟩ part hp
    obtain ⟨inner, hinner⟩ := Node.exists_mem_partsIn members scope hp
    exact ⟨inner, .part ho hinner⟩
  · have hmem : Node.stmt stmt ∈ method.body.map Node.stmt := List.mem_map_of_mem hs
    rw [← map_stmtsIn members { effect, method }] at hmem
    obtain ⟨⟨scope, _⟩, hplace, rfl⟩ := List.mem_map.mp hmem
    exact ⟨scope, .body hplace⟩

/-- In an accepted body every node is accepted in each scope in which it is met. -/
theorem MetIn.acceptedIn {scope : Scope} {node : Node} (h : MetIn members effect method scope node)
    (hb : (checkStmts members { effect, method } method.body).2 = [])
    (hs : ∀ stmt ∈ method.body, (Node.stmt stmt).SymbolsOnIdentifiers) :
    AcceptedIn members effect method (scope, node) ∧ node.SymbolsOnIdentifiers := by
  induction h with
  | @body scope node h =>
      refine ⟨acceptedIn_stmtsIn (Scope.freshLocals_start members effect method) hb _ h, ?_⟩
      have hmem : node ∈ method.body.map Node.stmt := by
        rw [← map_stmtsIn members { effect, method }]
        exact List.mem_map_of_mem (f := (·.2)) h
      obtain ⟨stmt, hstmt, rfl⟩ := List.mem_map.mp hmem
      exact hs stmt hstmt
  | @part outer scope whole node _ h ih =>
      refine ⟨acceptedIn_parts ih.1 ih.2 _ h, ih.2.part ?_⟩
      rw [← Node.map_partsIn members outer]
      exact List.mem_map_of_mem (f := (·.2)) h

end

/-! ## Bounds -/

namespace Scope

/-- The number is an index of what an expression names or evaluates to: below the number of elements of
an array literal, and below the bound of the type of a vector or a matrix. -/
def InRange (scope : Scope) (target : Expr) (n : Int) : Prop :=
  0 ≤ n ∧
    match scope.arrayLiteral? target with
    | some literal => ∃ values, literal.elements? = some values ∧ n < values.length
    | none =>
      (scope.typeOf target).isVector ∨ (scope.typeOf target).isMatrix →
        ∃ bound, (scope.typeOf target).indexBound = some bound ∧ n < bound

theorem inRange_of_checkBounds {scope : Scope} {target position : Expr} {location : Location}
    {v : Int64} (h : scope.checkBounds target position location = [])
    (hv : position.constant? = some (.int v)) : scope.InRange target v.toInt := by
  simp only [checkBounds, hv, Option.bind_some, Value.int?] at h
  split at h
  case isTrue => cases h
  case isFalse hneg =>
    refine ⟨by omega, ?_⟩
    cases ha : scope.arrayLiteral? target with
    | some literal =>
        simp only [ha, ite_eq_right_iff, reduceCtorEq, imp_false, Nat.not_le] at h
        -- an array without a length would have no index at all
        cases hl : literal.elements? with
        | none => simp [ShaderLiteral.length?, hl] at h
        | some values =>
            refine ⟨values, hl, ?_⟩
            simp only [ShaderLiteral.length?, hl, Option.map_some, Option.getD_some] at h
            omega
    | none =>
        simp only [ha] at h
        cases hb : (scope.typeOf target).indexBound with
        | none =>
            intro htype
            cases ht : scope.typeOf target <;>
              simp_all [DataType.indexBound, DataType.isVector, DataType.isMatrix]
        | some bound =>
            simp only [hb, ite_eq_right_iff, reduceCtorEq, imp_false, Nat.not_le] at h
            exact fun _ => ⟨bound, rfl, by omega⟩

/-- An accepted index is no callee and no name, so it has been checked. -/
theorem Passes.checkBounds {scope : Scope} {target position : Expr} {location : Location}
    {notes : Notes} (h : scope.Passes ⟨.index target position, location, notes⟩) :
    scope.checkBounds target position location = [] := by
  cases h with
  | checked h => exact (checkExpr_index.mp h).2.2
  | name h | member h _ | parenthesized h _ => cases h

end Scope

/-- Constant indices are in range after validation: for every index in a body of a valid effect, the
value of a constant position is in range of the target in each scope in which the checker meets the
index, and there is such a scope. -/
theorem valid_constant_indices_in_range {decl : TypeDecl} {effect : Effect} {method : ShaderMethod}
    (hs : decl.SymbolsOnIdentifiers) (hb : decl.build.result = .ok effect)
    (hv : isValid decl effect = true) (hm : method ∈ effect.methods) {target position : Expr}
    {location : Location} {notes : Notes}
    (hn : method.Contains (.expr ⟨.index target position, location, notes⟩)) {v : Int64}
    (hc : position.constant? = some (.int v)) :
    (∃ scope, MetIn (memberNames decl effect) effect method scope
        (.expr ⟨.index target position, location, notes⟩)) ∧
      ∀ scope, MetIn (memberNames decl effect) effect method scope
        (.expr ⟨.index target position, location, notes⟩) → scope.InRange target v.toInt := by
  refine ⟨exists_metIn hn, fun scope hscope => ?_⟩
  obtain ⟨declared, hd, hscanned⟩ := Effect.mem_methods hb hm
  obtain ⟨⟨-, haccepts⟩, -⟩ := hscope.acceptedIn (checkStmts_of_isValid hv hm)
    (hs declared hd _ hscanned.body_eq)
  exact Scope.inRange_of_checkBounds (Scope.Passes.checkBounds haccepts) hc

/-! ## An example -/

/-- The tinting effect with two weights in an array. -/
def weighting (body : List Stmt) : TypeDecl :=
  { tinting body with
    members := (tinting body).members ++ [.field {
      name := "Weights"
      type := .array (.named "int")
      initializer := some ⟨.arrayInitializer
        [⟨.literal (.int 1), {}, {}⟩, ⟨.literal (.int 4), {}, {}⟩], {}, {}⟩ }] }

/-- The second row of the projection. -/
def projectionRow : Expr :=
  ⟨.index (.named "ViewProjection") ⟨.literal (.int 1), {}, {}⟩, {}, {}⟩

/-- Its last component, with the position as a difference. -/
def projectionCorner : Expr :=
  ⟨.index projectionRow
    ⟨.binary .sub ⟨.literal (.int 4), {}, {}⟩ ⟨.literal (.int 1), {}, {}⟩, {}, {}⟩, {}, {}⟩

/-- The last weight. -/
def lastWeight : Expr :=
  ⟨.index (.named "Weights") ⟨.parenthesized ⟨.literal (.int 1), {}, {}⟩, {}, {}⟩, {}, {}⟩

/-- The body `shade[2] = ViewProjection[1][4 - 1] * Weights[(1)]`. -/
def weightedShade : List Stmt :=
  let output : Expr := ⟨.index (.named "shade") ⟨.literal (.int 2), {}, {}⟩, {}, {}⟩
  let product : Expr := ⟨.binary .mul projectionCorner lastWeight, {}, {}⟩
  [⟨.expression ⟨.assignment .assign output product, {}, {}⟩, {}⟩]

/-- The effect with that body. -/
def weightingEffect : Effect :=
  (weighting weightedShade).scan.1

theorem methods_weightingEffect_ne_nil : weightingEffect.methods ≠ [] :=
  List.cons_ne_nil _ _

/-- Its fragment shader. -/
def weightingShade : ShaderMethod :=
  weightingEffect.methods.getLast methods_weightingEffect_ne_nil

theorem isValid_weighting : isValid (weighting weightedShade) weightingEffect = true := by
  decide +kernel

theorem symbolsOnIdentifiers_weighting : (weighting weightedShade).SymbolsOnIdentifiers := by
  simp [TypeDecl.SymbolsOnIdentifiers, weighting, tinting, TypeDecl.methods, weightedShade,
    projectionRow, projectionCorner, lastWeight, Expr.named, Expr.SymbolOnIdentifier,
    Node.everywhere_stmt, Node.everywhere_expr, StmtKind.parts, ExprKind.parts]

theorem contains_factor_weightingShade {factor : Expr}
    (h : Node.expr factor ∈ [.expr projectionCorner, .expr lastWeight]) :
    weightingShade.Contains (.expr factor) := by
  refine ⟨_, .head _, ?_⟩
  refine Node.contains_of_mem_parts (.head _) ?_
  refine Node.contains_of_mem_parts (.tail _ (.head _)) ?_
  exact Node.contains_of_mem_parts h (Node.contains_self _)

/-- The component of the row and the element of the array are in range where they stand. -/
theorem weightingShade_indices_in_range :
    isValid (weighting weightedShade) weightingEffect = true ∧
      (∃ scope, MetIn (memberNames (weighting weightedShade) weightingEffect) weightingEffect
          weightingShade scope (.expr projectionCorner) ∧ scope.InRange projectionRow 3) ∧
      ∃ scope, MetIn (memberNames (weighting weightedShade) weightingEffect) weightingEffect
          weightingShade scope (.expr lastWeight) ∧ scope.InRange (.named "Weights") 1 := by
  have hm : weightingShade ∈ weightingEffect.methods := List.getLast_mem _
  obtain ⟨⟨inner, hinner⟩, hcorner⟩ := valid_constant_indices_in_range
    symbolsOnIdentifiers_weighting rfl isValid_weighting hm
    (contains_factor_weightingShade (.head _)) (v := 3) rfl
  obtain ⟨⟨other, hother⟩, hweight⟩ := valid_constant_indices_in_range
    symbolsOnIdentifiers_weighting rfl isValid_weighting hm
    (contains_factor_weightingShade (.tail _ (.head _))) (v := 1) rfl
  exact ⟨isValid_weighting, ⟨inner, hinner, hcorner inner hinner⟩,
    other, hother, hweight other hother⟩

end ShaderEffect
