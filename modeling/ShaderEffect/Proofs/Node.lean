import Mathlib.Logic.Relation
import Mathlib.Tactic.Common
import ShaderEffect.Tree.Declaration

/-!
# Nodes of syntax trees

The statements, expressions and arguments that a tree is made of, whatever the construct they stand
in. Properties of all nodes of a tree are stated with `Node.Contains`, and proved from what each node
passes on to its parts.
-/

namespace ShaderEffect

/-- A place of a tree. -/
inductive Node where
  | stmt (stmt : Stmt)
  | expr (expr : Expr)
  | argument (argument : Argument)

/-! ## Parts -/

/-- The nodes directly below an expression. -/
def ExprKind.parts : ExprKind → List Node
  | .memberAccess target _ | .pointerMemberAccess target _ => [.expr target]
  | .index target position => [.expr target, .expr position]
  | .invocation callee arguments => .expr callee :: arguments.map .argument
  | .objectCreation _ arguments initializer =>
    arguments.map .argument ++ (initializer.getD []).map .expr
  | .arrayCreation _ size initializer =>
    size.toList.map .expr ++ (initializer.getD []).map .expr
  | .arrayInitializer values | .interpolatedString values => values.map .expr
  | .binary _ lhs rhs => [.expr lhs, .expr rhs]
  | .assignment _ target value => [.expr target, .expr value]
  | .conditional condition thenValue elseValue =>
    [.expr condition, .expr thenValue, .expr elseValue]
  | .unary _ operand | .cast _ operand | .parenthesized operand | .addressOf operand
  | .dereference operand | .asType operand _ | .isType operand _ | .await operand
  | .checked operand | .unchecked operand | .stackAllocation _ operand | .throwing operand =>
    [.expr operand]
  | .anonymousObject fields => fields.map fun field => .expr field.2
  | .lambda _ body | .anonymousMethod _ body => body.map .stmt
  | .query clauses => clauses.map fun clause => .expr clause.value
  | .literal _ | .identifier _ | .thisReference | .baseReference | .nullReference
  | .sizeOfType _ | .typeOfType _ | .defaultValue _ => []

/-- The initializers of the declared locals. -/
def VariableDeclaration.parts (declaration : VariableDeclaration) : List Node :=
  (declaration.declarators.filterMap (·.initializer)).map .expr

/-- The nodes directly below a statement. -/
def StmtKind.parts : StmtKind → List Node
  | .block body | .checkedBlock body | .uncheckedBlock body | .unsafeBlock body
  | .localFunction _ body => body.map .stmt
  | .expression value => [.expr value]
  | .declaration locals => locals.parts
  | .ifElse condition thenBranch elseBranch =>
    .expr condition :: .stmt thenBranch :: elseBranch.toList.map .stmt
  | .whileLoop condition body | .doWhileLoop body condition => [.expr condition, .stmt body]
  | .forLoop initializers condition increments body =>
    initializers.map .stmt ++ condition.toList.map .expr ++ increments.map .expr ++ [.stmt body]
  | .returning value | .throwing value | .yielding value => value.toList.map .expr
  | .forEachLoop _ _ value body | .lockBlock value body => [.expr value, .stmt body]
  | .switchOn value sections =>
    .expr value :: sections.flatMap fun part =>
      (part.labels.filterMap id).map .expr ++ part.body.map .stmt
  | .fixedBlock locals body => locals.parts ++ [.stmt body]
  | .tryBlock body catches finalizer =>
    body.map .stmt ++ catches.flatMap (fun handler => handler.body.map .stmt) ++
      (finalizer.getD []).map .stmt
  | .usingBlock resource body => [.stmt resource, .stmt body]
  | .labeled _ body => [.stmt body]
  | .empty | .breakLoop | .continueLoop | .goto _ | .preprocessor _ => []

namespace Node

/-- The nodes directly below a node. -/
def parts : Node → List Node
  | .stmt s => s.kind.parts
  | .expr e => e.kind.parts
  | .argument a => [.expr a.value]

/-! ## Nodes at any depth -/

/-- A node is found in another one at some depth; every node contains itself. -/
def Contains : Node → Node → Prop :=
  Relation.ReflTransGen fun whole part => part ∈ whole.parts

theorem contains_self (node : Node) : node.Contains node :=
  Relation.ReflTransGen.refl

theorem contains_of_mem_parts {whole part node : Node} (hp : part ∈ whole.parts)
    (hn : part.Contains node) : whole.Contains node :=
  Relation.ReflTransGen.head hp hn

/-- What every node hands on to its parts holds of all nodes below it. -/
theorem contains_invariant {P : Node → Prop} {whole node : Node}
    (step : ∀ outer, P outer → ∀ part ∈ outer.parts, P part) (hw : P whole)
    (hn : whole.Contains node) : P node := by
  induction hn with
  | refl => exact hw
  | tail _ hp ih => exact step _ ih _ hp

end Node

/-- A property of all expressions in a node. -/
def Node.Everywhere (P : Expr → Prop) (node : Node) : Prop :=
  ∀ e, node.Contains (.expr e) → P e

section

variable {P : Expr → Prop}

theorem Node.Everywhere.contains {whole node : Node} (h : whole.Everywhere P)
    (hn : whole.Contains node) : node.Everywhere P :=
  fun e he => h e (hn.trans he)

theorem Node.Everywhere.part {whole part : Node} (h : whole.Everywhere P)
    (hp : part ∈ whole.parts) : part.Everywhere P :=
  h.contains (.single hp)

/-- A property holds everywhere in a node if it holds of the node itself and everywhere in its
parts. -/
theorem Node.everywhere_iff (node : Node) :
    node.Everywhere P ↔ (∀ e, node = .expr e → P e) ∧ ∀ part ∈ node.parts, part.Everywhere P := by
  constructor
  · intro h
    refine ⟨?_, fun part hp => h.part hp⟩
    rintro e rfl
    exact h e (contains_self _)
  · rintro ⟨hself, hparts⟩ e he
    rcases Relation.ReflTransGen.cases_head he with heq | ⟨part, hp, he⟩
    · exact hself e heq
    · exact hparts part hp e he

theorem Node.everywhere_stmt {kind : StmtKind} {location : Location} :
    (Node.stmt ⟨kind, location⟩).Everywhere P ↔ ∀ part ∈ kind.parts, part.Everywhere P := by
  simp [everywhere_iff (.stmt _), parts]

theorem Node.everywhere_expr {kind : ExprKind} {location : Location} {notes : Notes} :
    (Node.expr ⟨kind, location, notes⟩).Everywhere P ↔
      P ⟨kind, location, notes⟩ ∧ ∀ part ∈ kind.parts, part.Everywhere P := by
  simp [everywhere_iff (.expr _), parts]

theorem Node.everywhere_argument {argument : Argument} :
    (Node.argument argument).Everywhere P ↔ (Node.expr argument.value).Everywhere P := by
  simp [everywhere_iff (.argument _), parts]

end

theorem Expr.contains_unparenthesized (e : Expr) :
    (Node.expr e).Contains (.expr e.unparenthesized) := by
  fun_induction Expr.unparenthesized e with
  | case1 location notes inner ih =>
      exact Node.contains_of_mem_parts (by simp [Node.parts, ExprKind.parts]) ih
  | case2 e _ => exact Node.contains_self _

/-! ## Induction -/

theorem sizeOf_lt_of_mem_getD {α : Type} [SizeOf α] {x : α} {xs : Option (List α)}
    (h : x ∈ xs.getD []) : sizeOf x < sizeOf xs := by
  cases xs with
  | none => simp at h
  | some xs =>
      have hx := List.sizeOf_lt_of_mem h
      simp only [Option.getD_some] at hx
      simp only [Option.some.sizeOf_spec]
      omega

theorem sizeOf_lt_of_eq_some {α : Type} [SizeOf α] {x : α} {o : Option α} (h : o = some x) :
    sizeOf x < sizeOf o := by
  subst h
  simp only [Option.some.sizeOf_spec]
  omega

theorem ExprKind.sizeOf_part_le (kind : ExprKind) :
    ∀ part ∈ kind.parts, sizeOf part ≤ sizeOf kind := by
  cases kind
  case anonymousObject fields =>
    simp only [parts, List.mem_map]
    rintro part ⟨⟨name, value⟩, hf, rfl⟩
    have hs := List.sizeOf_lt_of_mem hf
    simp at hs ⊢
    omega
  case query clauses =>
    simp only [parts, List.mem_map]
    rintro part ⟨⟨kind, value⟩, hc, rfl⟩
    have hs := List.sizeOf_lt_of_mem hc
    simp at hs ⊢
    omega
  case objectCreation type arguments initializer =>
    simp only [parts, List.mem_append, List.mem_map]
    rintro part (⟨argument, ha, rfl⟩ | ⟨value, hv, rfl⟩)
    · have hs := List.sizeOf_lt_of_mem ha
      simp
      omega
    · have hs := sizeOf_lt_of_mem_getD hv
      simp
      omega
  case arrayCreation element size initializer =>
    simp only [parts, List.mem_append, List.mem_map, Option.mem_toList]
    rintro part (⟨value, hv, rfl⟩ | ⟨value, hv, rfl⟩)
    · have hs := sizeOf_lt_of_eq_some hv
      simp
      omega
    · have hs := sizeOf_lt_of_mem_getD hv
      simp
      omega
  case invocation | arrayInitializer | interpolatedString | lambda | anonymousMethod =>
    simp [parts]
    intro part hp
    have hs := List.sizeOf_lt_of_mem hp
    omega
  all_goals simp [parts] <;> omega

theorem VariableDeclaration.sizeOf_part_lt (declaration : VariableDeclaration) :
    ∀ part ∈ declaration.parts, sizeOf part < sizeOf declaration := by
  obtain ⟨type, declarators⟩ := declaration
  simp only [parts, List.mem_map, List.mem_filterMap]
  rintro part ⟨value, ⟨⟨name, initializer, location⟩, hd, rfl⟩, rfl⟩
  have hs := List.sizeOf_lt_of_mem hd
  simp at hs ⊢
  omega

theorem StmtKind.sizeOf_part_le (kind : StmtKind) :
    ∀ part ∈ kind.parts, sizeOf part ≤ sizeOf kind := by
  cases kind
  case declaration locals =>
    intro part hp
    have hs := locals.sizeOf_part_lt part hp
    simp
    omega
  case fixedBlock locals body =>
    simp only [parts, List.mem_append, List.mem_singleton]
    rintro part (hp | rfl)
    · have hs := locals.sizeOf_part_lt part hp
      simp
      omega
    · simp
  case switchOn value sections =>
    simp only [parts, List.mem_cons, List.mem_flatMap, List.mem_append, List.mem_map,
      List.mem_filterMap]
    rintro part (rfl | ⟨⟨labels, body⟩, hs, ⟨e, ⟨label, hl, rfl⟩, rfl⟩ | ⟨stmt, hb, rfl⟩⟩)
    · simp
    · have hs := List.sizeOf_lt_of_mem hs
      have hl := List.sizeOf_lt_of_mem hl
      simp at hs hl ⊢
      omega
    · have hs := List.sizeOf_lt_of_mem hs
      have hb := List.sizeOf_lt_of_mem hb
      simp at hs hb ⊢
      omega
  case tryBlock body catches finalizer =>
    simp only [parts, List.mem_append, List.mem_flatMap, List.mem_map]
    rintro part ((⟨stmt, hs, rfl⟩ | ⟨⟨type, handler⟩, hc, stmt, hs, rfl⟩) | ⟨stmt, hs, rfl⟩)
    · have hs := List.sizeOf_lt_of_mem hs
      simp
      omega
    · have hc := List.sizeOf_lt_of_mem hc
      have hs := List.sizeOf_lt_of_mem hs
      simp at hc hs ⊢
      omega
    · have hs := sizeOf_lt_of_mem_getD hs
      simp
      omega
  case forLoop initializers condition increments body =>
    simp only [parts, List.mem_append, List.mem_map, Option.mem_toList,
      List.mem_singleton]
    rintro part (((⟨stmt, hs, rfl⟩ | ⟨e, he, rfl⟩) | ⟨e, he, rfl⟩) | rfl)
    · have hs := List.sizeOf_lt_of_mem hs
      simp
      omega
    · have hs := sizeOf_lt_of_eq_some he
      simp
      omega
    · have hs := List.sizeOf_lt_of_mem he
      simp
      omega
    · simp
      omega
  case ifElse condition thenBranch elseBranch =>
    simp only [parts, List.mem_cons, List.mem_map, Option.mem_toList]
    rintro part (rfl | rfl | ⟨stmt, hs, rfl⟩)
    · simp
      omega
    · simp
      omega
    · have hs := sizeOf_lt_of_eq_some hs
      simp
      omega
  case returning | throwing | yielding =>
    simp [parts]
    intro part hp
    have hs := sizeOf_lt_of_eq_some hp
    omega
  case block | checkedBlock | uncheckedBlock | unsafeBlock | localFunction =>
    simp [parts]
    intro part hp
    have hs := List.sizeOf_lt_of_mem hp
    omega
  all_goals simp [parts] <;> omega

namespace Node

theorem sizeOf_lt_of_mem_parts {part whole : Node} (h : part ∈ whole.parts) :
    sizeOf part < sizeOf whole := by
  cases whole with
  | stmt s =>
      obtain ⟨kind, location⟩ := s
      have hs := kind.sizeOf_part_le part h
      simp
      omega
  | expr e =>
      obtain ⟨kind, location, notes⟩ := e
      have hs := kind.sizeOf_part_le part h
      simp
      omega
  | argument a =>
      obtain ⟨name, mode, value⟩ := a
      simp only [parts, List.mem_singleton] at h
      subst h
      simp only [Node.expr.sizeOf_spec, Node.argument.sizeOf_spec, Argument.mk.sizeOf_spec]
      omega

/-- A property holds of all nodes if it holds of a node whenever it holds of its parts. -/
theorem induction {P : Node → Prop}
    (step : ∀ node, (∀ part ∈ node.parts, P part) → P node) (node : Node) : P node :=
  step node fun part _ => induction step part
termination_by sizeOf node
decreasing_by exact sizeOf_lt_of_mem_parts ‹_›

end Node

theorem Stmt.induction {P : Stmt → Prop}
    (step : ∀ stmt, (∀ part, Node.stmt part ∈ stmt.kind.parts → P part) → P stmt)
    (stmt : Stmt) : P stmt := by
  have h : ∀ node, ∀ stmt, node = Node.stmt stmt → P stmt := by
    intro node
    induction node using Node.induction with
    | step node ih =>
        rintro stmt rfl
        exact step stmt fun part hp => ih _ hp part rfl
  exact h _ stmt rfl

/-- Induction over expressions alone: a property holds of an expression if it holds of all
expressions below it. -/
theorem Expr.induction {P : Expr → Prop}
    (step : ∀ e, (∀ part ∈ e.kind.parts, ∀ inner, part.Contains (.expr inner) → P inner) → P e)
    (e : Expr) : P e := by
  have h : ∀ node : Node, ∀ inner, node.Contains (.expr inner) → P inner := by
    intro node
    induction node using Node.induction with
    | step node ih =>
        intro inner hi
        rcases Relation.ReflTransGen.cases_head hi with rfl | ⟨part, hp, hi⟩
        · exact step inner ih
        · exact ih part hp inner hi
  exact h _ e (Node.contains_self _)

/-- Induction over expressions from operands and arguments. -/
theorem Expr.induction_parts {P : Expr → Prop}
    (step : ∀ e, (∀ part, Node.expr part ∈ e.kind.parts → P part) →
      (∀ argument, Node.argument argument ∈ e.kind.parts → P argument.value) → P e)
    (e : Expr) : P e := by
  induction e using Expr.induction with
  | step e ih =>
      refine step e (fun part hp => ih _ hp part (Node.contains_self _)) fun argument ha => ?_
      exact ih _ ha argument.value (.single (by simp [Node.parts]))

end ShaderEffect
