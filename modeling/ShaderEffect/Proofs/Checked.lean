import ShaderEffect.Check
import ShaderEffect.Proofs.Call

/-!
# What checking a body establishes

The checker walks a body once and leaves out what it need not look at: the receivers of static
members and the callees of invocations. For an accepted body every node is either checked in some
scope, or it stands in one of these positions and consists of names and member accesses. Safety
properties of accepted bodies are read off from this at the node they speak about.
-/

namespace ShaderEffect

/-! ## Annotated symbols -/

/-- A symbol is annotated only if the expression is an identifier. -/
def Expr.SymbolOnIdentifier (e : Expr) : Prop :=
  e.notes.symbol.isSome → ∃ name, e.kind = .identifier name

/-- Symbols are annotated on identifiers only, at any depth. -/
abbrev Node.SymbolsOnIdentifiers (node : Node) : Prop :=
  node.Everywhere Expr.SymbolOnIdentifier

theorem Expr.symbol_isSome_of_annotatedTypeName? {e : Expr}
    (h : e.annotatedTypeName?.isSome) : e.notes.symbol.isSome := by
  unfold annotatedTypeName? at h
  split at h
  · rename_i hs
    simp [hs]
  · cases h

namespace Scope

theorem staticReceiver?_identifier {scope : Scope} {e : Expr}
    (h : (scope.staticReceiver? e).isSome) (hs : e.SymbolOnIdentifier) :
    ∃ name, e.kind = .identifier name := by
  unfold staticReceiver? at h
  split at h
  · rename_i hn
    exact hs (e.symbol_isSome_of_annotatedTypeName? (by simp [hn]))
  · split at h
    · exact ⟨_, ‹_›⟩
    · cases h

/-- Where only identifiers are annotated, a call without a receiver is of a static method of a type
that is named by an identifier. -/
theorem static_target_identifier {scope : Scope} {e callee target : Expr} {member : String}
    {call : Call} (h : scope.call? e = some call) (hs : (Node.expr e).SymbolsOnIdentifiers)
    (hk : e.kind = .invocation callee call.arguments)
    (hm : callee.unparenthesized.kind = .memberAccess target member)
    (hr : call.receiver = none) : ∃ name, target.kind = .identifier name := by
  obtain ⟨callee', target', member', hk', hm', hmethod, hreceiver⟩ := call?_eq_some h
  obtain ⟨rfl⟩ : callee = callee' := by simpa [hk] using hk'
  obtain ⟨rfl, rfl⟩ : target = target' ∧ member = member' := by simpa [hm] using hm'
  have hstatic : call.method.isStatic := by
    by_contra hn
    simp [hreceiver, hn] at hr
  have htarget : target.SymbolOnIdentifier := by
    have hcallee : Node.expr callee ∈ (Node.expr e).parts := by
      simp [Node.parts, hk, ExprKind.parts]
    apply hs
    apply Node.contains_of_mem_parts hcallee
    apply callee.contains_unparenthesized.tail
    simp [Node.parts, hm, ExprKind.parts]
  rw [hmethod] at hstatic
  cases ha : e.annotatedMethod? with
  | none =>
      simp only [ha, Option.getD_none, inferredMethod] at hstatic
      exact staticReceiver?_identifier hstatic htarget
  | some method =>
      simp only [ha, Option.getD_some] at hstatic
      rcases Expr.annotatedMethod?_eq_some hk ha with hsymbol | ⟨-, hi⟩
      · obtain ⟨name, hname⟩ := hs e (Node.contains_self _) (by simp [hsymbol])
        simp [hk] at hname
      · rw [(Expr.inferredMethod?_eq_some hm hi).2] at hstatic
        exact htarget (target.symbol_isSome_of_annotatedTypeName? hstatic)

/-! ## Findings of an expression -/

section

variable {scope : Scope} {location : Location} {notes : Notes}

attribute [local simp] checkExpr Construct.ofExpr?

theorem checkExpr_memberAccess {target : Expr} {member : String} :
    scope.checkExpr ⟨.memberAccess target member, location, notes⟩ = [] ↔
      match scope.staticReceiver? target with
      | some receiver => (staticProperty? (DataType.ofHostName receiver) member).isSome
      | none => scope.checkExpr target = [] ∧ scope.arrayLiteral? target = none ∧
          (swizzle? member (scope.typeOf target)).isSome := by
  cases hr : scope.staticReceiver? target with
  | some receiver =>
      simp [hr, checkStaticMember, Option.isSome_iff_ne_none]
  | none =>
      cases ha : scope.arrayLiteral? target <;>
        simp [hr, checkMember, ha, Option.isSome_iff_ne_none]

theorem checkExpr_index {target position : Expr} :
    scope.checkExpr ⟨.index target position, location, notes⟩ = [] ↔
      scope.checkExpr target = [] ∧ scope.checkExpr position = [] ∧
        scope.checkBounds target position location = [] := by
  simp

theorem checkExpr_invocation {callee : Expr} {arguments : List Argument} :
    scope.checkExpr ⟨.invocation callee arguments, location, notes⟩ = [] ↔
      scope.checkArguments arguments = [] ∧
        ∃ call, scope.call? ⟨.invocation callee arguments, location, notes⟩ = some call ∧
          (call.receiver.isSome → scope.checkReceiver callee = []) ∧
          scope.checkCall call location = [] := by
  cases hc : scope.call? ⟨.invocation callee arguments, location, notes⟩ <;>
    simp [hc]

theorem checkExpr_objectCreation {type : TypeRef} {arguments : List Argument}
    {initializer : Option (List Expr)} :
    scope.checkExpr ⟨.objectCreation type arguments initializer, location, notes⟩ = [] ↔
      initializer = none ∧ scope.checkArguments arguments = [] ∧
        scope.checkConstruction type arguments location = [] := by
  cases initializer <;> simp

theorem checkExpr_binary {op : BinaryOp} {lhs rhs : Expr} :
    scope.checkExpr ⟨.binary op lhs rhs, location, notes⟩ = [] ↔
      op ≠ .nullCoalesce ∧ scope.checkExpr lhs = [] ∧ scope.checkExpr rhs = [] := by
  cases op <;> simp

theorem checkExpr_unary {op : UnaryOp} {operand : Expr} :
    scope.checkExpr ⟨.unary op operand, location, notes⟩ = [] ↔
      scope.checkExpr operand = [] ∧ (op.isMutating → scope.checkAssignable operand = []) := by
  simp

theorem checkExpr_assignment {op : AssignOp} {target value : Expr} :
    scope.checkExpr ⟨.assignment op target value, location, notes⟩ = [] ↔
      op ≠ .nullCoalesce ∧ scope.checkExpr target = [] ∧ scope.checkExpr value = [] ∧
        scope.checkAssignable target = [] := by
  cases op <;> simp

theorem checkExpr_conditional {condition thenValue elseValue : Expr} :
    scope.checkExpr ⟨.conditional condition thenValue elseValue, location, notes⟩ = [] ↔
      scope.checkExpr condition = [] ∧ scope.checkExpr thenValue = [] ∧
        scope.checkExpr elseValue = [] := by
  simp

theorem checkExpr_cast {type : TypeRef} {operand : Expr} :
    scope.checkExpr ⟨.cast type operand, location, notes⟩ = [] ↔
      type.dataType.isValueType ∧ scope.checkExpr operand = [] := by
  simp

theorem checkExpr_parenthesized {inner : Expr} :
    scope.checkExpr ⟨.parenthesized inner, location, notes⟩ = [] ↔ scope.checkExpr inner = [] := by
  simp

end

/-! ## Accepted expressions -/

/-- An expression in an accepted body: it is checked without findings, or it is made of names,
member accesses and parentheses in front of something that is. -/
inductive Passes (scope : Scope) : Expr → Prop where
  | checked {e} (h : scope.checkExpr e = []) : Passes scope e
  | name {e name} (h : e.kind = .identifier name) : Passes scope e
  | member {e target member} (h : e.kind = .memberAccess target member)
      (ht : Passes scope target) : Passes scope e
  | parenthesized {e inner} (h : e.kind = .parenthesized inner)
      (hi : Passes scope inner) : Passes scope e

theorem ofExpr?_eq_none_of_checkExpr {scope : Scope} {e : Expr} (h : scope.checkExpr e = []) :
    Construct.ofExpr? e.kind = none := by
  rw [checkExpr.eq_def] at h
  cases hc : Construct.ofExpr? e.kind with
  | none => rfl
  | some construct => simp [hc] at h

theorem Passes.ofExpr?_eq_none {scope : Scope} {e : Expr} (h : scope.Passes e) :
    Construct.ofExpr? e.kind = none := by
  cases h with
  | checked h => exact ofExpr?_eq_none_of_checkExpr h
  | name h | member h _ | parenthesized h _ => simp [h, Construct.ofExpr?]

theorem Passes.of_unparenthesized {scope : Scope} (e : Expr) :
    scope.Passes e.unparenthesized → scope.Passes e := by
  fun_induction Expr.unparenthesized e with
  | case1 location notes inner ih =>
      intro h
      exact .parenthesized rfl (ih h)
  | case2 e _ => exact id

theorem checkReceiver_eq {scope : Scope} {target : Expr} {member : String} (callee : Expr)
    (h : callee.unparenthesized.kind = .memberAccess target member) :
    scope.checkReceiver callee = scope.checkExpr target := by
  fun_induction Expr.unparenthesized callee with
  | case1 location notes inner ih =>
      rw [checkReceiver]
      exact ih h
  | case2 e _ =>
      obtain ⟨kind, location, notes⟩ := e
      subst h
      rw [checkReceiver]

theorem checkArguments_eq_nil {scope : Scope} {arguments : List Argument} :
    scope.checkArguments arguments = [] ↔
      ∀ argument ∈ arguments, Construct.ofArgument? argument = none ∧
        scope.checkExpr argument.value = [] := by
  induction arguments with
  | nil => simp [checkArguments]
  | cons argument rest ih =>
      obtain ⟨name, mode, value⟩ := argument
      cases hc : Construct.ofArgument? ⟨name, mode, value⟩ <;>
        simp [checkArguments, hc, ih]

/-- A node that the checker accepts in a scope. -/
def Accepts (members : List String) (scope : Scope) : Node → Prop
  | .stmt stmt => (checkStmt members scope stmt).2 = []
  | .expr e => scope.Passes e
  | .argument argument =>
    Construct.ofArgument? argument = none ∧ scope.Passes argument.value

theorem accepts_argument {members : List String} {scope : Scope} {arguments : List Argument}
    (h : scope.checkArguments arguments = []) {part : Node}
    (hp : part ∈ arguments.map Node.argument) : scope.Accepts members part := by
  obtain ⟨argument, ha, rfl⟩ := List.mem_map.mp hp
  obtain ⟨hc, hv⟩ := checkArguments_eq_nil.mp h argument ha
  exact ⟨hc, .checked hv⟩

/-- The parts of a checked expression are accepted in its scope. -/
theorem accepts_of_checkExpr {members : List String} {scope : Scope} {e : Expr}
    (h : scope.checkExpr e = []) (hs : (Node.expr e).SymbolsOnIdentifiers) :
    ∀ part ∈ e.kind.parts, scope.Accepts members part := by
  have hc := ofExpr?_eq_none_of_checkExpr h
  intro part hp
  obtain ⟨kind, location, notes⟩ := e
  cases kind
  case memberAccess target member =>
    obtain rfl : part = .expr target := by simpa [ExprKind.parts] using hp
    rw [checkExpr_memberAccess] at h
    cases hr : scope.staticReceiver? target with
    | some receiver =>
        have ht : target.SymbolOnIdentifier :=
          hs target (Node.contains_of_mem_parts hp (Node.contains_self _))
        obtain ⟨name, hn⟩ := staticReceiver?_identifier (Option.isSome_of_eq_some hr) ht
        exact .name hn
    | none =>
        simp only [hr] at h
        exact .checked h.1
  case invocation callee arguments =>
    obtain ⟨ha, call, hcall, hreceiver, -⟩ := checkExpr_invocation.mp h
    rcases List.mem_cons.mp hp with rfl | hp
    · -- the callee is not checked, only the value in front of the method if there is one
      obtain ⟨callee', target, member, hk, hm, -, -⟩ := call?_eq_some hcall
      obtain ⟨rfl, rfl⟩ : callee = callee' ∧ arguments = call.arguments := by simpa using hk
      apply Passes.of_unparenthesized callee
      cases hr : call.receiver with
      | some receiver =>
          have ht := hreceiver (by simp [hr])
          rw [checkReceiver_eq callee hm] at ht
          exact .member hm (.checked ht)
      | none =>
          obtain ⟨name, hn⟩ := static_target_identifier hcall hs rfl hm hr
          exact .member hm (.name hn)
    · exact accepts_argument ha hp
  case objectCreation type arguments initializer =>
    obtain ⟨rfl, ha, -⟩ := checkExpr_objectCreation.mp h
    simp only [ExprKind.parts, Option.getD_none, List.map_nil, List.append_nil] at hp
    exact accepts_argument ha hp
  case index target position =>
    obtain ⟨ht, hi, -⟩ := checkExpr_index.mp h
    simp only [ExprKind.parts, List.mem_cons, List.not_mem_nil, or_false] at hp
    rcases hp with rfl | rfl
    · exact .checked ht
    · exact .checked hi
  case binary op lhs rhs =>
    obtain ⟨-, hl, hr⟩ := checkExpr_binary.mp h
    simp only [ExprKind.parts, List.mem_cons, List.not_mem_nil, or_false] at hp
    rcases hp with rfl | rfl
    · exact .checked hl
    · exact .checked hr
  case assignment op target value =>
    obtain ⟨-, ht, hv, -⟩ := checkExpr_assignment.mp h
    simp only [ExprKind.parts, List.mem_cons, List.not_mem_nil, or_false] at hp
    rcases hp with rfl | rfl
    · exact .checked ht
    · exact .checked hv
  case conditional condition thenValue elseValue =>
    obtain ⟨hcondition, ht, he⟩ := checkExpr_conditional.mp h
    simp only [ExprKind.parts, List.mem_cons, List.not_mem_nil, or_false] at hp
    rcases hp with rfl | rfl | rfl
    · exact .checked hcondition
    · exact .checked ht
    · exact .checked he
  case unary op operand =>
    obtain rfl : part = .expr operand := by simpa [ExprKind.parts] using hp
    exact .checked (checkExpr_unary.mp h).1
  case cast type operand =>
    obtain rfl : part = .expr operand := by simpa [ExprKind.parts] using hp
    exact .checked (checkExpr_cast.mp h).2
  case parenthesized inner =>
    obtain rfl : part = .expr inner := by simpa [ExprKind.parts] using hp
    exact .checked (checkExpr_parenthesized.mp h)
  case literal | identifier => simp [ExprKind.parts] at hp
  all_goals simp [Construct.ofExpr?] at hc

theorem Passes.accepts {members : List String} {scope : Scope} {e : Expr} (h : scope.Passes e)
    (hs : (Node.expr e).SymbolsOnIdentifiers) :
    ∀ part ∈ e.kind.parts, scope.Accepts members part := by
  cases h with
  | checked h => exact accepts_of_checkExpr h hs
  | name h => simp [h, ExprKind.parts]
  | member h ht =>
      intro part hp
      obtain rfl : part = .expr _ := by simpa [h, ExprKind.parts] using hp
      exact ht
  | parenthesized h hi =>
      intro part hp
      obtain rfl : part = .expr _ := by simpa [h, ExprKind.parts] using hp
      exact hi

end Scope

end ShaderEffect
