import ShaderEffect.Check.Construct
import ShaderEffect.Proofs.BareType
import ShaderEffect.Proofs.Walk

/-!
# Rewritten trees

A tree can be written in other ways without a change of what it means. Its types can be named with or
without the namespaces that they are in. Its expressions can be put in parentheses, apart from callees
and the targets of member accesses: there a name may stand for a method or a type, which it no longer
does in parentheses. Both are done by one rewriting. What is found out about a tree is found out about
the rewritten tree as well: its constants, the types and methods that its annotations determine, and
the identifiers in it.
-/

namespace ShaderEffect

/-! ## Names of types -/

/-- How the types in a rewritten tree are named: as they are written, or without qualification. -/
inductive Naming where
  | kept
  | bare

namespace Naming

/-- The name of a type. -/
def name : Naming → String → String
  | kept, name => name
  | bare, name => unqualified name

def type : Naming → TypeRef → TypeRef
  | kept, type => type
  | bare, type => type.bare

/-- The type of a cast of what may be a constant. -/
def castType : Naming → TypeRef → Option Value → TypeRef
  | kept, type, _ => type
  | bare, type, constant => type.bareCast constant

def notes : Naming → Notes → Notes
  | kept, notes => notes
  | bare, notes => { notes with type := notes.type.map TypeRef.bare }

/-- The method with the types in its signature. -/
def method : Naming → MethodRef → MethodRef
  | kept, method => method
  | bare, method => method.bare

variable (naming : Naming)

theorem type_type (type : TypeRef) : naming.type (naming.type type) = naming.type type := by
  cases naming with
  | kept => rfl
  | bare => exact type.bare_bare

theorem type_castType (type : TypeRef) (constant : Option Value) :
    naming.type (naming.castType type constant) = naming.type type := by
  cases naming with
  | kept => rfl
  | bare => exact type.bare_bareCast constant

theorem dataType_type (type : TypeRef) : (naming.type type).dataType = type.dataType := by
  cases naming with
  | kept => rfl
  | bare => exact type.dataType_bare

theorem dataType_castType (type : TypeRef) (constant : Option Value) :
    (naming.castType type constant).dataType = type.dataType := by
  rw [← naming.dataType_type, type_castType, dataType_type]

/-- A constant is converted alike to the type of a cast, however that is named. -/
theorem convert_castType (type : TypeRef) (constant : Option Value) :
    constant.bind (Value.convert (naming.castType type constant)) =
      constant.bind (Value.convert type) := by
  cases naming with
  | kept => rfl
  | bare => exact type.convert_bareCast constant

theorem name_describe (type : TypeRef) : naming.name type.describe = (naming.type type).describe := by
  cases naming with
  | kept => rfl
  | bare => exact type.unqualified_describe

theorem type_notes (notes : Notes) : (naming.notes notes).type = notes.type.map naming.type := by
  cases naming with
  | kept => exact Option.map_id'.symm
  | bare => rfl

theorem symbol_notes (notes : Notes) : (naming.notes notes).symbol = notes.symbol := by
  cases naming <;> rfl

theorem constant_notes (notes : Notes) : (naming.notes notes).constant = notes.constant := by
  cases naming <;> rfl

theorem method_eq (method : MethodRef) : naming.method method =
    { method with
      declaringType := naming.name method.declaringType
      parameterTypes := method.parameterTypes.map naming.name } := by
  cases naming with
  | kept =>
      have hnames : kept.name = id := rfl
      rw [hnames, List.map_id]
      rfl
  | bare => rfl

variable {naming}

theorem intrinsic_eq {first second : MethodRef} (h : naming.method first = naming.method second) :
    first.intrinsic = second.intrinsic := by
  cases naming with
  | kept => exact congrArg MethodRef.intrinsic h
  | bare => rw [← first.intrinsic_bare, ← second.intrinsic_bare]; exact congrArg _ h

theorem isStatic_eq {first second : MethodRef} (h : naming.method first = naming.method second) :
    first.isStatic = second.isStatic := by
  have hstatic (method : MethodRef) : (naming.method method).isStatic = method.isStatic := by
    rw [method_eq]
  rw [← hstatic, h, hstatic]

theorem getD_eq {first second : Option MethodRef}
    (h : first.map naming.method = second.map naming.method) (default : MethodRef) :
    naming.method (first.getD default) = naming.method (second.getD default) := by
  cases first <;> cases second <;> simp_all

end Naming

/-! ## Places -/

/-- Places in a tree, given by the paths to them. A path holds the numbers of the parts that it goes
through, the outermost first. -/
abbrev Places := List Nat → Bool

/-- The places in a part. -/
def Places.under (places : Places) (part : Nat) : Places :=
  fun path => places (part :: path)

/-- No places. -/
def Places.none : Places :=
  fun _ => false

/-- The places that are not the root. -/
def Places.inner (places : Places) : Places :=
  fun path => !path.isEmpty && places path

@[simp]
theorem Places.under_none (part : Nat) : Places.none.under part = .none :=
  rfl

@[simp]
theorem Places.inner_none : Places.none.inner = .none :=
  funext fun _ => Bool.and_false _

/-- The list with every element changed at the places in it. The first element is part 0 of a list
and the rest is part 1. -/
def changeEach {α : Type} (change : Places → α → α) (places : Places) : List α → List α
  | [] => []
  | x :: xs => change (places.under 0) x :: changeEach change (places.under 1) xs

section

variable {α β : Type} {change : Places → α → α} {xs : List α}

theorem map_changeEach {f g : α → β} (h : ∀ x ∈ xs, ∀ places, f (change places x) = g x)
    (places : Places) : (changeEach change places xs).map f = xs.map g := by
  induction xs generalizing places with
  | nil => rfl
  | cons x xs ih =>
      rw [List.forall_mem_cons] at h
      rw [changeEach, List.map_cons, List.map_cons, h.1, ih h.2]

theorem flatMap_changeEach {f g : α → List β} (h : ∀ x ∈ xs, ∀ places, f (change places x) = g x)
    (places : Places) : (changeEach change places xs).flatMap f = xs.flatMap g := by
  rw [List.flatMap_def, List.flatMap_def, map_changeEach h]

theorem changeEach_none (xs : List α) :
    changeEach change Places.none xs = xs.map (change Places.none) := by
  induction xs with
  | nil => rfl
  | cons x xs ih => exact congrArg (change Places.none x :: ·) ih

end

/-! ## Trees -/

/-- The expression in parentheses, at its own position and without notes. -/
def Expr.enclosed (e : Expr) : Expr :=
  { kind := .parenthesized e, location := e.location }

mutual

/-- The expression with its types named in another way and with parentheses at the places. -/
def Expr.rewritten (naming : Naming) (places : Places) : Expr → Expr
  | ⟨kind, location, notes⟩ =>
    let inside : Expr := ⟨kind.rewritten naming places, location, naming.notes notes⟩
    if places [] then inside.enclosed else inside

def ExprKind.rewritten (naming : Naming) (places : Places) : ExprKind → ExprKind
  | .literal value => .literal value
  | .identifier name => .identifier name
  | .memberAccess target member =>
    .memberAccess (target.rewritten naming (places.under 0).inner) member
  | .index target index =>
    .index (target.rewritten naming (places.under 0)) (index.rewritten naming (places.under 1))
  | .invocation callee arguments =>
    .invocation (callee.rewritten naming (places.under 0).inner)
      (rewrittenArguments naming (places.under 1) arguments)
  | .objectCreation type arguments initializer =>
    .objectCreation (naming.type type) (rewrittenArguments naming (places.under 0) arguments)
      (rewrittenOptionalValues naming (places.under 1) initializer)
  | .arrayCreation element size initializer =>
    .arrayCreation (naming.type element) (rewrittenOption naming (places.under 0) size)
      (rewrittenOptionalValues naming (places.under 1) initializer)
  | .arrayInitializer values => .arrayInitializer (rewrittenValues naming places values)
  | .binary op lhs rhs =>
    .binary op (lhs.rewritten naming (places.under 0)) (rhs.rewritten naming (places.under 1))
  | .unary op operand => .unary op (operand.rewritten naming (places.under 0))
  | .assignment op target value =>
    .assignment op (target.rewritten naming (places.under 0))
      (value.rewritten naming (places.under 1))
  | .conditional condition thenValue elseValue =>
    .conditional (condition.rewritten naming (places.under 0))
      (thenValue.rewritten naming (places.under 1)) (elseValue.rewritten naming (places.under 2))
  | .cast type operand =>
    .cast (naming.castType type operand.constant?) (operand.rewritten naming (places.under 0))
  | .parenthesized inner => .parenthesized (inner.rewritten naming (places.under 0))
  | .thisReference => .thisReference
  | .baseReference => .baseReference
  | .nullReference => .nullReference
  | .anonymousObject fields => .anonymousObject (rewrittenFields naming places fields)
  | .lambda parameters body => .lambda parameters (rewrittenStmts naming places body)
  | .anonymousMethod parameters body =>
    .anonymousMethod parameters (rewrittenStmts naming places body)
  | .pointerMemberAccess target member =>
    .pointerMemberAccess (target.rewritten naming (places.under 0)) member
  | .addressOf operand => .addressOf (operand.rewritten naming (places.under 0))
  | .dereference operand => .dereference (operand.rewritten naming (places.under 0))
  | .sizeOfType type => .sizeOfType (naming.type type)
  | .typeOfType type => .typeOfType (naming.type type)
  | .defaultValue type => .defaultValue (type.map naming.type)
  | .asType operand type =>
    .asType (operand.rewritten naming (places.under 0)) (naming.type type)
  | .isType operand type =>
    .isType (operand.rewritten naming (places.under 0)) (naming.type type)
  | .query clauses => .query (rewrittenClauses naming places clauses)
  | .await operand => .await (operand.rewritten naming (places.under 0))
  | .checked operand => .checked (operand.rewritten naming (places.under 0))
  | .unchecked operand => .unchecked (operand.rewritten naming (places.under 0))
  | .stackAllocation element size =>
    .stackAllocation (naming.type element) (size.rewritten naming (places.under 0))
  | .interpolatedString parts => .interpolatedString (rewrittenValues naming places parts)
  | .throwing operand => .throwing (operand.rewritten naming (places.under 0))

/-- The statement with rewritten types and expressions. -/
def Stmt.rewritten (naming : Naming) (places : Places) : Stmt → Stmt
  | ⟨kind, location⟩ => ⟨kind.rewritten naming places, location⟩

def StmtKind.rewritten (naming : Naming) (places : Places) : StmtKind → StmtKind
  | .block body => .block (rewrittenStmts naming places body)
  | .empty => .empty
  | .expression value => .expression (value.rewritten naming (places.under 0))
  | .declaration declaration => .declaration (declaration.rewritten naming places)
  | .ifElse condition thenBranch elseBranch =>
    .ifElse (condition.rewritten naming (places.under 0))
      (thenBranch.rewritten naming (places.under 1))
      (rewrittenOptionalStmt naming (places.under 2) elseBranch)
  | .whileLoop condition body =>
    .whileLoop (condition.rewritten naming (places.under 0))
      (body.rewritten naming (places.under 1))
  | .doWhileLoop body condition =>
    .doWhileLoop (body.rewritten naming (places.under 0))
      (condition.rewritten naming (places.under 1))
  | .forLoop initializers condition increments body =>
    .forLoop (rewrittenStmts naming (places.under 0) initializers)
      (rewrittenOption naming (places.under 1) condition)
      (rewrittenValues naming (places.under 2) increments) (body.rewritten naming (places.under 3))
  | .returning value => .returning (rewrittenOption naming (places.under 0) value)
  | .breakLoop => .breakLoop
  | .continueLoop => .continueLoop
  | .forEachLoop type name collection body =>
    .forEachLoop (naming.type type) name (collection.rewritten naming (places.under 0))
      (body.rewritten naming (places.under 1))
  | .switchOn value sections =>
    .switchOn (value.rewritten naming (places.under 0))
      (rewrittenSections naming (places.under 1) sections)
  | .checkedBlock body => .checkedBlock (rewrittenStmts naming places body)
  | .uncheckedBlock body => .uncheckedBlock (rewrittenStmts naming places body)
  | .unsafeBlock body => .unsafeBlock (rewrittenStmts naming places body)
  | .fixedBlock declaration body =>
    .fixedBlock (declaration.rewritten naming (places.under 0))
      (body.rewritten naming (places.under 1))
  | .lockBlock value body =>
    .lockBlock (value.rewritten naming (places.under 0)) (body.rewritten naming (places.under 1))
  | .tryBlock body catches finalizer =>
    .tryBlock (rewrittenStmts naming (places.under 0) body)
      (rewrittenCatches naming (places.under 1) catches)
      (rewrittenOptionalStmts naming (places.under 2) finalizer)
  | .throwing value => .throwing (rewrittenOption naming (places.under 0) value)
  | .usingBlock resource body =>
    .usingBlock (resource.rewritten naming (places.under 0))
      (body.rewritten naming (places.under 1))
  | .goto label => .goto label
  | .labeled label body => .labeled label (body.rewritten naming (places.under 0))
  | .yielding value => .yielding (rewrittenOption naming (places.under 0) value)
  | .localFunction name body => .localFunction name (rewrittenStmts naming places body)
  | .preprocessor text => .preprocessor text

def VariableDeclaration.rewritten (naming : Naming) (places : Places) :
    VariableDeclaration → VariableDeclaration
  | ⟨type, declarators⟩ => ⟨naming.type type, rewrittenDeclarators naming places declarators⟩

def rewrittenArguments (naming : Naming) (places : Places) : List Argument → List Argument
  | [] => []
  | ⟨name, mode, value⟩ :: rest =>
    ⟨name, mode, value.rewritten naming (places.under 0)⟩ ::
      rewrittenArguments naming (places.under 1) rest

def rewrittenValues (naming : Naming) (places : Places) : List Expr → List Expr
  | [] => []
  | value :: rest =>
    value.rewritten naming (places.under 0) :: rewrittenValues naming (places.under 1) rest

def rewrittenOption (naming : Naming) (places : Places) : Option Expr → Option Expr
  | none => none
  | some value => some (value.rewritten naming places)

def rewrittenOptionalValues (naming : Naming) (places : Places) :
    Option (List Expr) → Option (List Expr)
  | none => none
  | some values => some (rewrittenValues naming places values)

def rewrittenFields (naming : Naming) (places : Places) :
    List (String × Expr) → List (String × Expr)
  | [] => []
  | (name, value) :: rest =>
    (name, value.rewritten naming (places.under 0)) :: rewrittenFields naming (places.under 1) rest

def rewrittenClauses (naming : Naming) (places : Places) : List QueryClause → List QueryClause
  | [] => []
  | ⟨kind, value⟩ :: rest =>
    ⟨kind, value.rewritten naming (places.under 0)⟩ :: rewrittenClauses naming (places.under 1) rest

def rewrittenStmts (naming : Naming) (places : Places) : List Stmt → List Stmt
  | [] => []
  | stmt :: rest =>
    stmt.rewritten naming (places.under 0) :: rewrittenStmts naming (places.under 1) rest

def rewrittenOptionalStmt (naming : Naming) (places : Places) : Option Stmt → Option Stmt
  | none => none
  | some stmt => some (stmt.rewritten naming places)

def rewrittenOptionalStmts (naming : Naming) (places : Places) :
    Option (List Stmt) → Option (List Stmt)
  | none => none
  | some stmts => some (rewrittenStmts naming places stmts)

def rewrittenDeclarators (naming : Naming) (places : Places) :
    List VariableDeclarator → List VariableDeclarator
  | [] => []
  | ⟨name, initializer, location⟩ :: rest =>
    ⟨name, rewrittenOption naming (places.under 0) initializer, location⟩ ::
      rewrittenDeclarators naming (places.under 1) rest

def rewrittenLabels (naming : Naming) (places : Places) : List (Option Expr) → List (Option Expr)
  | [] => []
  | label :: rest =>
    rewrittenOption naming (places.under 0) label :: rewrittenLabels naming (places.under 1) rest

def rewrittenSections (naming : Naming) (places : Places) : List SwitchSection → List SwitchSection
  | [] => []
  | ⟨labels, body⟩ :: rest =>
    ⟨rewrittenLabels naming (places.under 0) labels, rewrittenStmts naming (places.under 1) body⟩ ::
      rewrittenSections naming (places.under 2) rest

def rewrittenCatches (naming : Naming) (places : Places) : List CatchClause → List CatchClause
  | [] => []
  | ⟨type, body⟩ :: rest =>
    ⟨type.map naming.type, rewrittenStmts naming (places.under 0) body⟩ ::
      rewrittenCatches naming (places.under 1) rest

end

attribute [simp] ExprKind.rewritten StmtKind.rewritten VariableDeclaration.rewritten

/-- The argument with a rewritten value. -/
def Argument.rewritten (naming : Naming) (places : Places) (argument : Argument) : Argument :=
  { argument with value := argument.value.rewritten naming places }

/-- The variable with a rewritten initializer. -/
def VariableDeclarator.rewritten (naming : Naming) (places : Places)
    (declarator : VariableDeclarator) : VariableDeclarator :=
  { declarator with initializer := declarator.initializer.map (Expr.rewritten naming places) }

section

variable (naming : Naming) (places : Places)

theorem rewrittenOption_eq_map (value : Option Expr) :
    rewrittenOption naming places value = value.map (Expr.rewritten naming places) := by
  cases value with
  | none => rw [rewrittenOption, Option.map_none]
  | some value => rw [rewrittenOption, Option.map_some]

theorem rewrittenOptionalStmt_eq_map (stmt : Option Stmt) :
    rewrittenOptionalStmt naming places stmt = stmt.map (Stmt.rewritten naming places) := by
  cases stmt with
  | none => rw [rewrittenOptionalStmt, Option.map_none]
  | some stmt => rw [rewrittenOptionalStmt, Option.map_some]

theorem rewrittenArguments_eq (arguments : List Argument) :
    rewrittenArguments naming places arguments =
      changeEach (Argument.rewritten naming) places arguments := by
  induction arguments generalizing places with
  | nil => rw [rewrittenArguments, changeEach]
  | cons argument rest ih =>
      obtain ⟨name, mode, value⟩ := argument
      rw [rewrittenArguments, changeEach, ih, Argument.rewritten]

theorem rewrittenValues_eq (values : List Expr) :
    rewrittenValues naming places values = changeEach (Expr.rewritten naming) places values := by
  induction values generalizing places with
  | nil => rw [rewrittenValues, changeEach]
  | cons value rest ih => rw [rewrittenValues, changeEach, ih]

theorem rewrittenStmts_eq (stmts : List Stmt) :
    rewrittenStmts naming places stmts = changeEach (Stmt.rewritten naming) places stmts := by
  induction stmts generalizing places with
  | nil => rw [rewrittenStmts, changeEach]
  | cons stmt rest ih => rw [rewrittenStmts, changeEach, ih]

theorem rewrittenDeclarators_eq (declarators : List VariableDeclarator) :
    rewrittenDeclarators naming places declarators =
      changeEach (VariableDeclarator.rewritten naming) places declarators := by
  induction declarators generalizing places with
  | nil => rw [rewrittenDeclarators, changeEach]
  | cons declarator rest ih =>
      obtain ⟨name, initializer, location⟩ := declarator
      rw [rewrittenDeclarators, changeEach, ih, VariableDeclarator.rewritten,
        rewrittenOption_eq_map]

end

/-! ## Around and inside -/

variable {naming : Naming}

namespace Expr

/-- The expression rewritten inside only, without parentheses around it. -/
def rewrittenInside (e : Expr) (naming : Naming) (places : Places) : Expr :=
  ⟨e.kind.rewritten naming places, e.location, naming.notes e.notes⟩

theorem rewritten_eq (e : Expr) (places : Places) :
    e.rewritten naming places =
      if places [] then (e.rewrittenInside naming places).enclosed
      else e.rewrittenInside naming places := by
  obtain ⟨kind, location, notes⟩ := e
  rw [rewritten]
  rfl

theorem rewritten_none (e : Expr) :
    e.rewritten naming .none = e.rewrittenInside naming .none := by
  rw [rewritten_eq]
  rfl

theorem rewritten_inner (e : Expr) (places : Places) :
    e.rewritten naming places.inner = e.rewrittenInside naming places.inner := by
  rw [rewritten_eq]
  rfl

/-- What parentheses around an expression do not change is as it is when rewritten inside. -/
theorem apply_rewritten {α : Type} {f : Expr → α} (h : ∀ e : Expr, f e.enclosed = f e) (e : Expr)
    (places : Places) : f (e.rewritten naming places) = f (e.rewrittenInside naming places) := by
  rw [rewritten_eq]
  split
  · rw [h]
  · rfl

theorem location_rewritten (e : Expr) (places : Places) :
    (e.rewritten naming places).location = e.location :=
  apply_rewritten (fun _ => rfl) e places

end Expr

theorem Stmt.rewritten_eq (stmt : Stmt) (places : Places) :
    stmt.rewritten naming places = ⟨stmt.kind.rewritten naming places, stmt.location⟩ := by
  obtain ⟨kind, location⟩ := stmt
  rw [rewritten]

/-! ## Constructs -/

theorem Construct.ofExpr?_rewritten (kind : ExprKind) (places : Places) :
    ofExpr? (kind.rewritten naming places) = ofExpr? kind := by
  cases kind
  case objectCreation type arguments initializer =>
    rw [ExprKind.rewritten]
    cases initializer <;> rw [rewrittenOptionalValues] <;> rfl
  case binary op lhs rhs =>
    rw [ExprKind.rewritten]
    cases op <;> rfl
  case assignment op target value =>
    rw [ExprKind.rewritten]
    cases op <;> rfl
  all_goals
    rw [ExprKind.rewritten]
    first | done | rfl

theorem Construct.ofStmt?_rewritten (kind : StmtKind) (places : Places) :
    ofStmt? (kind.rewritten naming places) = ofStmt? kind := by
  cases kind <;> rw [StmtKind.rewritten] <;> rfl

/-! ## Constants -/

namespace Expr

theorem unparenthesized_enclosed (e : Expr) : e.enclosed.unparenthesized = e.unparenthesized := by
  rw [enclosed, unparenthesized]

variable (naming) in
/-- Below all parentheses there is the same expression, rewritten inside. -/
theorem exists_unparenthesized_rewritten (e : Expr) (places : Places) : ∃ below : Places,
    (places = .none → below = .none) ∧ (e.rewritten naming places).unparenthesized =
      e.unparenthesized.rewrittenInside naming below := by
  rw [apply_rewritten unparenthesized_enclosed]
  fun_induction Expr.unparenthesized e generalizing places with
  | case1 location notes inner ih =>
      simp only [rewrittenInside, ExprKind.rewritten, unparenthesized]
      rw [apply_rewritten unparenthesized_enclosed]
      obtain ⟨below, hnone, h⟩ := ih (places.under 0)
      exact ⟨below, fun hp => hnone (by rw [hp, Places.under_none]), h⟩
  | case2 e hp =>
      -- the expression is not in parentheses itself, and none are put around it
      refine ⟨places, id, ?_⟩
      obtain ⟨kind, location, notes⟩ := e
      cases kind
      case parenthesized inner => exact (hp _ _ _ rfl).elim
      all_goals simp only [rewrittenInside, ExprKind.rewritten, unparenthesized]

theorem rootIdentifier?_enclosed (e : Expr) : e.enclosed.rootIdentifier? = e.rootIdentifier? := by
  rw [enclosed, rootIdentifier?]

theorem rootIdentifier?_rewritten (e : Expr) (places : Places) :
    (e.rewritten naming places).rootIdentifier? = e.rootIdentifier? := by
  induction e using Expr.induction_parts generalizing places with
  | step e hpart hargument =>
      rw [apply_rewritten rootIdentifier?_enclosed]
      obtain ⟨kind, location, notes⟩ := e
      cases kind
      case memberAccess target member =>
        simp only [rewrittenInside, ExprKind.rewritten, rootIdentifier?,
          hpart target (by simp [ExprKind.parts])]
      case index target position =>
        simp only [rewrittenInside, ExprKind.rewritten, rootIdentifier?,
          hpart target (by simp [ExprKind.parts])]
      case parenthesized inner =>
        simp only [rewrittenInside, ExprKind.rewritten, rootIdentifier?,
          hpart inner (by simp [ExprKind.parts])]
      all_goals simp only [rewrittenInside, ExprKind.rewritten, rootIdentifier?]

theorem nameOfOperand?_rewritten (operand : Expr) (places : Places) :
    nameOfOperand? (operand.rewritten naming places) = nameOfOperand? operand := by
  obtain ⟨below, -, h⟩ := operand.exists_unparenthesized_rewritten naming places
  rw [nameOfOperand?, h, rewrittenInside, nameOfOperand?]
  cases operand.unparenthesized.kind <;> simp only [ExprKind.rewritten]

theorem constant?_enclosed (e : Expr) : e.enclosed.constant? = e.constant? := by
  rw [enclosed, constant?]

theorem constant?_rewritten (e : Expr) (places : Places) :
    (e.rewritten naming places).constant? = e.constant? := by
  induction e using Expr.induction_parts generalizing places with
  | step e hpart hargument =>
      rw [apply_rewritten constant?_enclosed, constant?.eq_def, constant?.eq_def e]
      have hnotes : (e.rewrittenInside naming places).notes.constant = e.notes.constant :=
        naming.constant_notes e.notes
      rw [hnotes]
      cases e.notes.constant with
      | some value => rfl
      | none =>
          obtain ⟨kind, location, notes⟩ := e
          cases kind
          case parenthesized inner =>
            simp only [rewrittenInside, ExprKind.rewritten,
              hpart inner (by simp [ExprKind.parts])]
          case unary op operand =>
            simp only [rewrittenInside, ExprKind.rewritten,
              hpart operand (by simp [ExprKind.parts])]
          case binary op lhs rhs =>
            simp only [rewrittenInside, ExprKind.rewritten, hpart lhs (by simp [ExprKind.parts]),
              hpart rhs (by simp [ExprKind.parts])]
          case cast type operand =>
            simp only [rewrittenInside, ExprKind.rewritten,
              hpart operand (by simp [ExprKind.parts]), Naming.convert_castType]
          case invocation callee arguments =>
            obtain ⟨calleeKind, calleeLocation, calleeNotes⟩ := callee
            cases calleeKind
            case identifier name =>
              -- a callee gets no parentheses, so that its name is still seen
              by_cases hn : name = "nameof"
              · subst hn
                simp only [rewrittenInside, ExprKind.rewritten, rewritten_inner,
                  rewrittenArguments_eq]
                rcases arguments with - | ⟨argument, - | ⟨second, rest⟩⟩
                · rfl
                · simp only [changeEach, Argument.rewritten, nameOfOperand?_rewritten]
                · rfl
              · simp [rewrittenInside, ExprKind.rewritten, rewritten_inner, hn]
            all_goals simp only [rewrittenInside, ExprKind.rewritten, rewritten_inner]
          all_goals simp only [rewrittenInside, ExprKind.rewritten]

/-! ## Types and methods -/

theorem resolvedType?_enclosed (e : Expr) : e.enclosed.resolvedType? = e.resolvedType? := by
  rw [enclosed, resolvedType?]

/-- The resolved type is the same, however it is named. -/
theorem resolvedType?_rewritten (e : Expr) (places : Places) :
    (e.rewritten naming places).resolvedType?.map naming.type =
      e.resolvedType?.map naming.type := by
  induction e using Expr.induction_parts generalizing places with
  | step e hpart hargument =>
      rw [apply_rewritten resolvedType?_enclosed, resolvedType?.eq_def, resolvedType?.eq_def e]
      have hnotes : (e.rewrittenInside naming places).notes.type = e.notes.type.map naming.type :=
        naming.type_notes e.notes
      rw [hnotes]
      cases e.notes.type with
      | some type => simp only [Option.map_some, Naming.type_type]
      | none =>
          obtain ⟨kind, location, notes⟩ := e
          cases kind
          case parenthesized inner =>
            simp only [rewrittenInside, ExprKind.rewritten, Option.map_none,
              hpart inner (by simp [ExprKind.parts])]
          case objectCreation type arguments initializer =>
            simp only [rewrittenInside, ExprKind.rewritten, Option.map_none, Option.map_some,
              Naming.type_type]
          case cast type operand =>
            simp only [rewrittenInside, ExprKind.rewritten, Option.map_none, Option.map_some,
              Naming.type_castType]
          all_goals simp only [rewrittenInside, ExprKind.rewritten, Option.map_none]

/-- What is said about a type in the same way, however it is named, is the same. -/
theorem resolvedType?_map_rewritten {α : Type} {f : TypeRef → α}
    (h : ∀ type, f (naming.type type) = f type) (e : Expr) (places : Places) :
    (e.rewritten naming places).resolvedType?.map f = e.resolvedType?.map f := by
  have hf : f = f ∘ naming.type := funext fun type => (h type).symm
  rw [hf, ← Option.map_map, resolvedType?_rewritten, Option.map_map]

theorem annotatedDataType?_eq (e : Expr) : e.annotatedDataType? =
    (e.resolvedType?.map TypeRef.dataType).filter (· != .unknown) := by
  unfold annotatedDataType?
  cases e.resolvedType? with
  | none => rfl
  | some type => simp [Option.filter]

theorem annotatedDataType?_enclosed (e : Expr) :
    e.enclosed.annotatedDataType? = e.annotatedDataType? := by
  rw [annotatedDataType?, annotatedDataType?, resolvedType?_enclosed]

theorem annotatedDataType?_rewritten (e : Expr) (places : Places) :
    (e.rewritten naming places).annotatedDataType? = e.annotatedDataType? := by
  rw [annotatedDataType?_eq, annotatedDataType?_eq,
    resolvedType?_map_rewritten naming.dataType_type]

theorem annotatedTypeName?_rewrittenInside (e : Expr) (places : Places) :
    (e.rewrittenInside naming places).annotatedTypeName? = e.annotatedTypeName? := by
  rw [annotatedTypeName?, annotatedTypeName?, rewrittenInside, Naming.symbol_notes]

variable (naming) in
theorem describe_resolvedType?_rewritten (e : Expr) (places : Places) :
    ((e.rewritten naming places).resolvedType?.map TypeRef.describe).map naming.name =
      (e.resolvedType?.map TypeRef.describe).map naming.name := by
  rw [Option.map_map, Option.map_map]
  refine resolvedType?_map_rewritten (fun type => ?_) e places
  rw [Function.comp_apply, Function.comp_apply, Naming.name_describe, Naming.name_describe,
    Naming.type_type]

variable (naming) in
theorem parameterTypes_rewritten (arguments : List Argument) (places : Places) :
    ((changeEach (Argument.rewritten naming) places arguments).mapM fun (argument : Argument) =>
        argument.value.resolvedType?.map TypeRef.describe).map (·.map naming.name) =
      (arguments.mapM fun (argument : Argument) =>
        argument.value.resolvedType?.map TypeRef.describe).map (·.map naming.name) := by
  induction arguments generalizing places with
  | nil => rfl
  | cons argument rest ih =>
      have hfirst := describe_resolvedType?_rewritten naming argument.value (places.under 0)
      replace ih := ih (places.under 1)
      rw [changeEach, List.mapM_cons, List.mapM_cons, Argument.rewritten]
      generalize List.mapM (m := Option) _ (changeEach _ _ rest) = types' at ih ⊢
      generalize List.mapM (m := Option) _ rest = types at ih ⊢
      generalize (argument.value.rewritten naming _).resolvedType?.map TypeRef.describe = type'
        at hfirst ⊢
      generalize argument.value.resolvedType?.map TypeRef.describe = type at hfirst ⊢
      cases type <;> cases type' <;> cases types <;> cases types' <;> simp_all

variable (naming) in
theorem inferredMethod?_rewritten (callee : Expr) (arguments : List Argument)
    (places more : Places) :
    (inferredMethod? (callee.rewritten naming places)
        (changeEach (Argument.rewritten naming) more arguments)).map naming.method =
      (inferredMethod? callee arguments).map naming.method := by
  obtain ⟨below, -, h⟩ := callee.exists_unparenthesized_rewritten naming places
  unfold inferredMethod?
  rw [h, rewrittenInside]
  cases callee.unparenthesized.kind
  case memberAccess target member =>
    have hname : (target.rewritten naming (below.under 0).inner).annotatedTypeName? =
        target.annotatedTypeName? := by
      rw [rewritten_inner, annotatedTypeName?_rewrittenInside]
    have htypes := parameterTypes_rewritten naming arguments more
    have htarget := describe_resolvedType?_rewritten naming target (below.under 0).inner
    simp only [ExprKind.rewritten, hname]
    generalize List.mapM (m := Option) _ (changeEach _ _ arguments) = types' at htypes ⊢
    generalize List.mapM (m := Option) _ arguments = types at htypes ⊢
    generalize (target.rewritten naming _).resolvedType? = type' at htarget ⊢
    generalize target.resolvedType? = type at htarget ⊢
    cases target.annotatedTypeName? with
    | some name =>
        cases types <;> cases types' <;> simp_all [Naming.method_eq]
    | none =>
        cases type <;> cases type' <;> cases types <;> cases types' <;>
          simp_all [Naming.method_eq]
  all_goals simp only [ExprKind.rewritten]

theorem annotatedMethod?_rewrittenInside (e : Expr) (places : Places) :
    (e.rewrittenInside naming places).annotatedMethod?.map naming.method =
      e.annotatedMethod?.map naming.method := by
  have hnotes : (e.rewrittenInside naming places).notes.symbol = e.notes.symbol :=
    naming.symbol_notes e.notes
  simp only [annotatedMethod?, resolvedSymbol?, hnotes]
  cases e.notes.symbol with
  | some symbol => rfl
  | none =>
      obtain ⟨kind, location, notes⟩ := e
      cases kind
      case invocation callee arguments =>
        have h := inferredMethod?_rewritten naming callee arguments (places.under 0).inner
          (places.under 1)
        simp only [rewrittenInside, ExprKind.rewritten, rewrittenArguments_eq]
        generalize inferredMethod? (callee.rewritten naming _) _ = method' at h ⊢
        generalize inferredMethod? callee arguments = method at h ⊢
        cases method <;> cases method' <;> simp_all
      all_goals simp only [rewrittenInside, ExprKind.rewritten]

end Expr

/-! ## Identifiers -/

/-- The names of the identifiers that the walk over an expression comes to. -/
def Expr.names (e : Expr) : List String :=
  e.walk.filterMap Expr.identifier?

theorem Expr.names_enclosed (e : Expr) : e.enclosed.names = e.names := by
  rw [names, enclosed, walk]
  rfl

theorem Expr.names_eq_append (e : Expr) :
    e.names = e.identifier?.toList ++ e.kind.walked.flatMap names := by
  rw [names, walk_eq_cons, List.filterMap_cons, List.filterMap_flatMap]
  cases e.identifier? <;> rfl

theorem ExprKind.flatMap_names_rewritten {kind : ExprKind}
    (h : ∀ part ∈ kind.walked, ∀ places, (part.rewritten naming places).names = part.names)
    (places : Places) :
    (kind.rewritten naming places).walked.flatMap Expr.names =
      kind.walked.flatMap Expr.names := by
  have harguments {arguments : List Argument}
      (ha : ∀ argument ∈ arguments, ∀ places,
        (argument.value.rewritten naming places).names = argument.value.names)
      (places : Places) :
      ((changeEach (Argument.rewritten naming) places arguments).map (·.value)).flatMap
          Expr.names = (arguments.map (·.value)).flatMap Expr.names := by
    rw [List.flatMap_map, List.flatMap_map]
    exact flatMap_changeEach ha places
  cases kind
  case invocation callee arguments =>
    rw [walked, List.forall_mem_cons, List.forall_mem_map] at h
    simp only [ExprKind.rewritten, walked, List.flatMap_cons, rewrittenArguments_eq, h.1,
      harguments h.2]
  case objectCreation type arguments initializer =>
    rw [walked, List.forall_mem_map] at h
    simp only [ExprKind.rewritten, walked, rewrittenArguments_eq, harguments h]
  case memberAccess | index | binary | assignment | conditional | unary | cast | parenthesized =>
    simp only [walked, List.forall_mem_cons] at h
    simp only [ExprKind.rewritten, walked, List.flatMap_cons, h]
  all_goals simp only [ExprKind.rewritten, walked]

theorem Expr.names_rewritten (e : Expr) (places : Places) :
    (e.rewritten naming places).names = e.names := by
  induction e using Expr.induction generalizing places with
  | step e ih =>
      have hidentifier : (e.rewrittenInside naming places).identifier? = e.identifier? := by
        rw [identifier?, identifier?, rewrittenInside]
        cases e.kind <;> simp only [ExprKind.rewritten]
      have hwalked := ExprKind.flatMap_names_rewritten (fun part hp => by
        obtain ⟨node, hnode, hi⟩ := contains_of_mem_walked hp
        exact ih node hnode part hi) places
      rw [apply_rewritten names_enclosed, names_eq_append, names_eq_append e, hidentifier]
      exact congrArg (_ ++ ·) hwalked

/-- The names of the identifiers that the walk over a statement comes to. -/
def Stmt.names (stmt : Stmt) : List String :=
  stmt.walk.filterMap Expr.identifier?

theorem names_walkOption (e : Option Expr) (places : Places) :
    (walkOption (e.map (Expr.rewritten naming places))).filterMap Expr.identifier? =
      (walkOption e).filterMap Expr.identifier? := by
  cases e with
  | none => rfl
  | some e => exact e.names_rewritten places

theorem names_walkStmts_of {stmts : List Stmt}
    (h : ∀ stmt ∈ stmts, ∀ places, (stmt.rewritten naming places).names = stmt.names)
    (places : Places) :
    (walkStmts (changeEach (Stmt.rewritten naming) places stmts)).filterMap Expr.identifier? =
      (walkStmts stmts).filterMap Expr.identifier? := by
  induction stmts generalizing places with
  | nil => rfl
  | cons stmt rest ih =>
      rw [List.forall_mem_cons] at h
      have hfirst := h.1 (places.under 0)
      rw [changeEach, walkStmts, walkStmts, List.filterMap_append, List.filterMap_append, ih h.2]
      exact congrArg (· ++ _) hfirst

theorem Stmt.names_rewritten (stmt : Stmt) (places : Places) :
    (stmt.rewritten naming places).names = stmt.names := by
  have hexpr (e : Expr) (places : Places) :
      (e.rewritten naming places).walk.filterMap Expr.identifier? =
        e.walk.filterMap Expr.identifier? := e.names_rewritten places
  induction stmt using Stmt.induction generalizing places with
  | step stmt ih =>
      rw [Stmt.rewritten_eq]
      obtain ⟨kind, location⟩ := stmt
      simp only [names] at ih ⊢
      cases kind
      case block body =>
        have hbody := names_walkStmts_of fun stmt hs => ih stmt (by simpa [StmtKind.parts] using hs)
        simp [StmtKind.rewritten, walk, rewrittenStmts_eq, hbody]
      case expression value => simp [StmtKind.rewritten, walk, hexpr]
      case declaration declaration =>
        obtain ⟨type, declarators⟩ := declaration
        simp only [StmtKind.rewritten, VariableDeclaration.rewritten, walk,
          rewrittenDeclarators_eq, List.filterMap_flatMap]
        refine flatMap_changeEach (fun declarator _ places => ?_) places
        exact names_walkOption declarator.initializer places
      case ifElse condition thenBranch elseBranch =>
        have hthen := ih thenBranch (by simp [StmtKind.parts])
        cases elseBranch with
        | none => simp [StmtKind.rewritten, walk, hexpr, hthen, rewrittenOptionalStmt,
            walkOptionalStmt]
        | some branch =>
            have helse := ih branch (by simp [StmtKind.parts])
            simp [StmtKind.rewritten, walk, hexpr, hthen, rewrittenOptionalStmt, walkOptionalStmt,
              helse]
      case whileLoop condition body =>
        simp [StmtKind.rewritten, walk, hexpr, ih body (by simp [StmtKind.parts])]
      case doWhileLoop body condition =>
        simp [StmtKind.rewritten, walk, hexpr, ih body (by simp [StmtKind.parts])]
      case forLoop initializers condition increments body =>
        have hinitializers := names_walkStmts_of fun stmt (hs : stmt ∈ initializers) =>
          ih stmt (by simp [StmtKind.parts, hs])
        have hincrements (places : Places) :
            ((changeEach (Expr.rewritten naming) places increments).flatMap fun e =>
                e.walk.filterMap Expr.identifier?) =
              increments.flatMap fun e => e.walk.filterMap Expr.identifier? :=
          flatMap_changeEach (fun e _ => hexpr e) places
        simp [StmtKind.rewritten, walk, rewrittenStmts_eq, rewrittenOption_eq_map,
          rewrittenValues_eq, hinitializers, names_walkOption, List.filterMap_flatMap, hincrements,
          ih body (by simp [StmtKind.parts])]
      case returning value =>
        simp [StmtKind.rewritten, walk, rewrittenOption_eq_map, names_walkOption]
      all_goals simp [StmtKind.rewritten, walk]

theorem names_walkStmts (stmts : List Stmt) (places : Places) :
    (walkStmts (changeEach (Stmt.rewritten naming) places stmts)).filterMap Expr.identifier? =
      (walkStmts stmts).filterMap Expr.identifier? :=
  names_walkStmts_of (fun stmt _ => stmt.names_rewritten) places

end ShaderEffect
