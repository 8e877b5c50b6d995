import ShaderEffect.Proofs.Writable

/-!
# The walk over a body

Which expressions the search for references comes to. It follows its own cases, apart from those of
the writers, and it looks into fewer constructs than there are. It misses nothing that is written:
the operands of an expression and the receiver of a sample are always on the walk, and so are the
expressions in branches and loops.
-/

namespace ShaderEffect

/-! ## Expressions -/

/-- The expressions directly below an expression that the walk goes on with. -/
def ExprKind.walked : ExprKind → List Expr
  | .memberAccess target _ => [target]
  | .index target position => [target, position]
  | .invocation callee arguments => callee :: arguments.map (·.value)
  | .objectCreation _ arguments _ => arguments.map (·.value)
  | .binary _ lhs rhs => [lhs, rhs]
  | .assignment _ target value => [target, value]
  | .conditional condition thenValue elseValue => [condition, thenValue, elseValue]
  | .unary _ operand | .cast _ operand | .parenthesized operand => [operand]
  | _ => []

theorem walkArguments_eq_flatMap (arguments : List Argument) :
    walkArguments arguments = (arguments.map (·.value)).flatMap Expr.walk := by
  induction arguments with
  | nil => simp [walkArguments]
  | cons argument rest ih =>
      obtain ⟨name, mode, value⟩ := argument
      simp [walkArguments, ih]

namespace Expr

theorem walk_eq_cons (e : Expr) : e.walk = e :: e.kind.walked.flatMap walk := by
  obtain ⟨kind, location, notes⟩ := e
  cases kind <;> simp [walk, ExprKind.walked, walkArguments_eq_flatMap]

theorem mem_walk_self (e : Expr) : e ∈ e.walk := by
  rw [walk_eq_cons]
  exact List.mem_cons_self

theorem walk_subset {e part : Expr} (h : part ∈ e.kind.walked) : part.walk ⊆ e.walk := by
  intro inner hi
  rw [e.walk_eq_cons]
  exact List.mem_cons_of_mem _ (List.mem_flatMap.mpr ⟨part, h, hi⟩)

theorem walk_unparenthesized_subset (e : Expr) : e.unparenthesized.walk ⊆ e.walk := by
  fun_induction Expr.unparenthesized e with
  | case1 location notes inner ih =>
      exact List.Subset.trans ih (walk_subset (by simp [ExprKind.walked]))
  | case2 e _ => exact List.Subset.refl _

/-- What the walk goes on with stands below the expression. -/
theorem contains_of_mem_walked {e part : Expr} (h : part ∈ e.kind.walked) :
    ∃ node ∈ e.kind.parts, node.Contains (.expr part) := by
  have hpart (hp : Node.expr part ∈ e.kind.parts) :
      ∃ node ∈ e.kind.parts, node.Contains (.expr part) := ⟨_, hp, Node.contains_self _⟩
  have hargument (argument : Argument) (ha : Node.argument argument ∈ e.kind.parts)
      (hv : argument.value = part) : ∃ node ∈ e.kind.parts, node.Contains (.expr part) := by
    subst hv
    exact Scope.contains_argument_value ha
  obtain ⟨kind, location, notes⟩ := e
  cases kind
  case invocation callee arguments =>
    rcases List.mem_cons.mp h with rfl | h
    · exact hpart (by simp [ExprKind.parts])
    · obtain ⟨argument, ha, hv⟩ := List.mem_map.mp h
      exact hargument argument (by simp [ExprKind.parts, ha]) hv
  case objectCreation type arguments initializer =>
    obtain ⟨argument, ha, hv⟩ := List.mem_map.mp h
    exact hargument argument (by simp [ExprKind.parts, ha]) hv
  case memberAccess | index | binary | assignment | conditional | unary | cast | parenthesized =>
    exact hpart (by simpa [ExprKind.walked, ExprKind.parts] using h)
  all_goals cases h

theorem contains_of_mem_walk {e part : Expr} (h : part ∈ e.walk) :
    (Node.expr e).Contains (.expr part) := by
  induction e using Expr.induction with
  | step e ih =>
      rw [walk_eq_cons] at h
      rcases List.mem_cons.mp h with rfl | h
      · exact Node.contains_self _
      · obtain ⟨next, hn, hp⟩ := List.mem_flatMap.mp h
        obtain ⟨node, hnode, hnext⟩ := contains_of_mem_walked hn
        exact Node.contains_of_mem_parts hnode (hnext.trans (ih node hnode next hnext hp))

end Expr

/-! ## What is written is on the walk -/

namespace Scope

variable {scope : Scope} {e : Expr}

/-- The walk goes through callees, with or without parentheses, to the target of the access. -/
theorem walk_target_subset {callee target : Expr} {arguments : List Argument} {member : String}
    (hk : e.kind = .invocation callee arguments)
    (hm : callee.unparenthesized.kind = .memberAccess target member) : target.walk ⊆ e.walk := by
  have htarget : target.walk ⊆ callee.unparenthesized.walk :=
    Expr.walk_subset (by simp [hm, ExprKind.walked])
  have hcallee : callee.walk ⊆ e.walk := Expr.walk_subset (by simp [hk, ExprKind.walked])
  exact List.Subset.trans htarget (List.Subset.trans callee.walk_unparenthesized_subset hcallee)

theorem walk_receiver_subset {call : Call} {receiver : Expr} (hc : scope.call? e = some call)
    (hr : call.receiver = some receiver) : receiver.walk ⊆ e.walk := by
  obtain ⟨callee, member, hk, hm⟩ := call?_receiver hc hr
  exact walk_target_subset hk hm

theorem walk_operand_subset {operand : Expr} (h : operand ∈ scope.operands e) :
    operand.walk ⊆ e.walk := by
  obtain ⟨kind, location, notes⟩ := e
  cases kind
  case memberAccess target member =>
    simp only [operands] at h
    split at h
    · cases h
    · exact Expr.walk_subset h
  case invocation callee arguments =>
    cases hc : scope.call? ⟨.invocation callee arguments, location, notes⟩ with
    | none => simp [operands, hc] at h
    | some call =>
        rcases mem_operands_invocation hc h with hr | ha
        · exact walk_receiver_subset hc hr
        · exact Expr.walk_subset (List.mem_cons_of_mem _ (List.mem_map.mpr ha))
  case index | objectCreation | binary | assignment | conditional | unary | cast | parenthesized =>
    exact Expr.walk_subset h
  all_goals cases h

end Scope

/-! ## Statements -/

/-- The expressions that stand directly in a statement. -/
def StmtKind.expressions : StmtKind → List Expr
  | .expression value => [value]
  | .declaration locals => locals.declarators.filterMap (·.initializer)
  | .ifElse condition _ _ | .whileLoop condition _ | .doWhileLoop _ condition => [condition]
  | .forLoop _ condition increments _ => condition.toList ++ increments
  | .returning value => value.toList
  | _ => []

/-- The statements directly below a statement that the walk goes on with. -/
def StmtKind.branches : StmtKind → List Stmt
  | .block body => body
  | .ifElse _ thenBranch elseBranch => thenBranch :: elseBranch.toList
  | .whileLoop _ body | .doWhileLoop body _ => [body]
  | .forLoop initializers _ _ body => initializers ++ [body]
  | _ => []

/-- An expression stands in a statement, directly or in one of its branches. -/
inductive Stmt.Evaluates : Stmt → Expr → Prop where
  | direct {stmt e} (h : e ∈ stmt.kind.expressions) : Evaluates stmt e
  | branch {stmt part e} (hp : part ∈ stmt.kind.branches) (h : Evaluates part e) :
    Evaluates stmt e

theorem StmtKind.expr_mem_parts {kind : StmtKind} {e : Expr} (h : e ∈ kind.expressions) :
    Node.expr e ∈ kind.parts := by
  cases kind
  case declaration locals => exact List.mem_map_of_mem h
  all_goals simp_all [expressions, parts, eq_comm]

theorem StmtKind.stmt_mem_parts {kind : StmtKind} {stmt : Stmt} (h : stmt ∈ kind.branches) :
    Node.stmt stmt ∈ kind.parts := by
  cases kind <;> simp_all [branches, parts, eq_comm]

theorem walkOption_eq_flatMap (e : Option Expr) : walkOption e = e.toList.flatMap Expr.walk := by
  cases e <;> simp [walkOption]

theorem walkStmts_eq_flatMap (stmts : List Stmt) : walkStmts stmts = stmts.flatMap Stmt.walk := by
  induction stmts with
  | nil => simp [walkStmts]
  | cons stmt rest ih => simp [walkStmts, ih]

theorem Stmt.mem_walk {stmt : Stmt} {e : Expr} :
    e ∈ stmt.walk ↔ e ∈ stmt.kind.expressions.flatMap Expr.walk ∨
      e ∈ walkStmts stmt.kind.branches := by
  rw [walkStmts_eq_flatMap]
  obtain ⟨kind, location⟩ := stmt
  cases kind
  case ifElse condition thenBranch elseBranch =>
    cases elseBranch <;> simp [walk, walkOptionalStmt, StmtKind.expressions, StmtKind.branches]
  case declaration locals =>
    simp only [walk, walkOption_eq_flatMap, StmtKind.expressions, StmtKind.branches,
      List.filterMap_eq_flatMap_toList, List.flatMap_assoc]
    simp
  case forLoop initializers condition increments body =>
    simp only [walk, walkOption_eq_flatMap, walkStmts_eq_flatMap, StmtKind.expressions,
      StmtKind.branches, List.flatMap_append, List.flatMap_singleton, List.mem_append]
    tauto
  all_goals
    simp [walk, walkOption_eq_flatMap, walkStmts_eq_flatMap, StmtKind.expressions,
      StmtKind.branches]

theorem Stmt.Evaluates.walk_subset {stmt : Stmt} {e : Expr} (h : stmt.Evaluates e) :
    e.walk ⊆ stmt.walk := by
  induction h with
  | direct h => exact fun part hp => Stmt.mem_walk.mpr (.inl (List.mem_flatMap.mpr ⟨_, h, hp⟩))
  | branch hb _ ih =>
      refine fun part hp => Stmt.mem_walk.mpr (.inr ?_)
      rw [walkStmts_eq_flatMap]
      exact List.mem_flatMap.mpr ⟨_, hb, ih hp⟩

end ShaderEffect
