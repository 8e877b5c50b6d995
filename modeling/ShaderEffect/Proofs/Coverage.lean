import ShaderEffect.Proofs.Literal
import ShaderEffect.Proofs.Names
import ShaderEffect.Proofs.Safety

/-!
# What validation covers

Validation is meant to guarantee that every method can be written. It does so up to a few gaps, which
this module describes exactly: a method of a valid effect compiles if and only if none of them is met.

The checker and the writers go through a body in the same order, but not always in the same scope. In
a loop header the checker gives each variable its own type and the writers give all of them the type
of the first one, and the condition of a `do` loop is checked before the body and written after it.
The walk below keeps both scopes, and lists what is written together with them.
-/

namespace ShaderEffect

/-! ## Two scopes -/

/-- The local variables at a point of the body of a method, as they are checked and as they are
written. -/
structure View (effect : Effect) (method : ShaderMethod) where
  checked : Locals := []
  written : Locals := []

section

variable {effect : Effect} {method : ShaderMethod}

namespace View

/-- The scope in which the checker is at this point. -/
def checkedScope (view : View effect method) : Scope :=
  { effect, method, locals := view.checked }

/-- The scope in which the writers are at this point. -/
def writtenScope (view : View effect method) : Scope :=
  { effect, method, locals := view.written }

/-- The view after the declaration of a local variable. -/
def declare (view : View effect method) (name : String) (checked written : DataType) :
    View effect method :=
  { checked := (name, checked) :: view.checked
    written := (name, written) :: view.written }

/-- The names in an expression have the types in the written scope that they were checked with. -/
def Settled (view : View effect method) (e : Expr) : Prop :=
  (Node.expr e).Everywhere fun part => ∀ name, part.kind = .identifier name →
    view.checked.type? name = view.written.type? name

theorem Settled.sameNames {view : View effect method} {e : Expr} (h : view.Settled e) :
    view.checkedScope.SameNames view.writtenScope e := by
  intro part hp name hk
  simp only [Scope.lookup?, checkedScope, writtenScope, h part hp name hk]

end View

/-! ## What is written -/

/-- Something that is written in the body of a method. -/
inductive Place (effect : Effect) (method : ShaderMethod) where
  | expression (view : View effect method) (e : Expr)
  /-- A declaration that is written with a type. -/
  | variable (type : DataType)
  /-- An initializer of a loop that is neither a declaration nor an expression. -/
  | otherInitializer

/-- What validation leaves open about a place. For an expression it is little where the scopes agree;
where they do not, checking it has established nothing. -/
def Place.Sound (dialect : Dialect) : Place effect method → Prop
  | .expression view e =>
    (view.Settled e → view.writtenScope.Throughout (Scope.Covered dialect view.writtenScope) e) ∧
      (¬ view.Settled e → view.writtenScope.Writable dialect e)
  | .variable type => type ≠ .unknown
  | .otherInitializer => False

theorem sound_expression_iff {dialect : Dialect} {view : View effect method} {e : Expr}
    (h : view.checkedScope.checkExpr e = []) :
    Succeeds (dialect.renderText view.writtenScope e) ↔
      (Place.expression view e).Sound dialect := by
  rw [Dialect.renderText, succeeds_bind_pure, Dialect.succeeds_render, Place.Sound]
  by_cases hs : view.Settled e
  · have hstage : view.checkedScope.method.stage = view.writtenScope.method.stage := rfl
    have hsame := hs.sameNames.references
    have hcovered : view.writtenScope.Writable dialect e ↔
        view.writtenScope.Throughout (Scope.Covered dialect view.writtenScope) e := by
      calc view.writtenScope.Writable dialect e
          ↔ view.checkedScope.Writable dialect e :=
            (Scope.throughout_congr (Scope.expressible_congr hstage) e hsame).symm
        _ ↔ view.checkedScope.Throughout (Scope.Covered dialect view.checkedScope) e :=
            Scope.writable_iff_covered e h
        _ ↔ view.writtenScope.Throughout (Scope.Covered dialect view.writtenScope) e :=
            Scope.throughout_congr Scope.covered_congr e hsame
    simp only [hs, hcovered, forall_const, not_true_eq_false, false_implies, and_true]
  · simp only [hs, false_implies, not_false_eq_true, forall_const, true_and]

/-! ## The walk -/

/-- The places of a part of a body in the order in which they are written, and the view after it. -/
abbrev Walk (effect : Effect) (method : ShaderMethod) : Type :=
  View effect method × List (Place effect method)

namespace View

/-- The variables of a declaration: each has its own type, in either scope. -/
def declarators (type : TypeRef) (view : View effect method) :
    List VariableDeclarator → Walk effect method
  | [] => (view, [])
  | declarator :: rest =>
    let checked := view.checkedScope.localType type declarator.initializer
    let written := view.writtenScope.localType type declarator.initializer
    let (after, places) := declarators type (view.declare declarator.name checked written) rest
    (after,
      .variable written :: (declarator.initializer.toList.map (.expression view) ++ places))

/-- The variables of a declaration in a loop header: they are checked with their own types and
written with one type. -/
def headerDeclarators (type : TypeRef) (shared : DataType) (view : View effect method) :
    List VariableDeclarator → Walk effect method
  | [] => (view, [])
  | declarator :: rest =>
    let checked := view.checkedScope.localType type declarator.initializer
    let (after, places) :=
      headerDeclarators type shared (view.declare declarator.name checked shared) rest
    (after, declarator.initializer.toList.map (.expression view) ++ places)

/-- One initializer of a loop header. -/
def headerInitializer (view : View effect method) (initializer : Stmt) : Walk effect method :=
  match initializer.kind with
  | .declaration locals =>
    let first := locals.declarators.head?.bind (·.initializer)
    let shared := view.writtenScope.localType locals.type first
    let (after, places) := headerDeclarators locals.type shared view locals.declarators
    (after, .variable shared :: places)
  | .expression value => (view, [.expression view value])
  | _ => (view, [.otherInitializer])

/-- The initializers of a loop header. -/
def headerInitializers (view : View effect method) : List Stmt → Walk effect method
  | [] => (view, [])
  | initializer :: rest =>
    let (inner, places) := view.headerInitializer initializer
    let (after, more) := headerInitializers inner rest
    (after, places ++ more)

mutual

/-- What is written for a statement, and the view after it. -/
def walkStmt (view : View effect method) (stmt : Stmt) : Walk effect method :=
  match stmt with
  | ⟨.block body, _⟩ => view.walkStmts body
  | ⟨.expression value, _⟩ => (view, [.expression view value])
  | ⟨.declaration locals, _⟩ => declarators locals.type view locals.declarators
  | ⟨.ifElse condition thenBranch elseBranch, _⟩ =>
    let (afterThen, thenPlaces) := view.walkStmt thenBranch
    let (after, elsePlaces) := afterThen.walkOptionalStmt elseBranch
    (after, .expression view condition :: (thenPlaces ++ elsePlaces))
  | ⟨.whileLoop condition body, _⟩ =>
    let (after, places) := view.walkStmt body
    (after, .expression view condition :: places)
  | ⟨.doWhileLoop body condition, _⟩ =>
    let (after, places) := view.walkStmt body
    (after, places ++ [.expression { checked := view.checked, written := after.written } condition])
  | ⟨.forLoop initializers condition increments body, _⟩ =>
    let (inner, header) := view.headerInitializers initializers
    let (after, places) := inner.walkStmt body
    (after, header ++ (condition.toList.map (.expression inner) ++
      (increments.map (.expression inner) ++ places)))
  | _ => (view, [])

/-- What is written for statements, and the view after them. -/
def walkStmts (view : View effect method) (stmts : List Stmt) : Walk effect method :=
  match stmts with
  | [] => (view, [])
  | stmt :: rest =>
    let (inner, places) := view.walkStmt stmt
    let (after, more) := inner.walkStmts rest
    (after, places ++ more)

/-- What is written for an optional statement, and the view after it. -/
def walkOptionalStmt (view : View effect method) (stmt : Option Stmt) : Walk effect method :=
  match stmt with
  | none => (view, [])
  | some stmt => view.walkStmt stmt

end

end View

/-! ## The walk follows the checker and the writers -/

/-- A result of writing that the walk describes: it is no error exactly if all places are sound, and
the walk then ends in the scopes of the checker and of the writer. -/
structure Mirrors {α : Type} (dialect : Dialect) (checked : Scope)
    (result : Except CompileError (Scope × α)) (after : View effect method)
    (places : List (Place effect method)) : Prop where
  succeeds : Succeeds result ↔ ∀ place ∈ places, place.Sound dialect
  scopes : ∀ written value, result = .ok (written, value) →
    after.checkedScope = checked ∧ after.writtenScope = written

variable {α β : Type} {dialect : Dialect} {view after : View effect method} {checked : Scope}

theorem Mirrors.pure (value : α) :
    Mirrors dialect view.checkedScope (Pure.pure (view.writtenScope, value)) view [] := by
  constructor
  · simp
  · intro written value h
    cases h
    exact ⟨rfl, rfl⟩

/-- Some places are written before the others, without a change of scope. -/
theorem Mirrors.append {text : Except CompileError α} {places more : List (Place effect method)}
    {rest : α → Except CompileError (Scope × β)}
    (hp : Succeeds text ↔ ∀ place ∈ places, place.Sound dialect)
    (h : ∀ value, Mirrors dialect checked (rest value) after more) :
    Mirrors dialect checked (text >>= rest) after (places ++ more) := by
  constructor
  · rw [succeeds_bind_iff fun value _ => (h value).succeeds, hp, List.forall_mem_append]
  · intro written value hr
    cases ht : text with
    | error e =>
        rw [ht] at hr
        cases hr
    | ok first =>
        rw [ht] at hr
        exact (h first).scopes written value hr

theorem Mirrors.cons {text : Except CompileError α} {place : Place effect method}
    {more : List (Place effect method)} {rest : α → Except CompileError (Scope × β)}
    (hp : Succeeds text ↔ place.Sound dialect)
    (h : ∀ value, Mirrors dialect checked (rest value) after more) :
    Mirrors dialect checked (text >>= rest) after (place :: more) :=
  Mirrors.append (by rw [List.forall_mem_singleton, hp]) h

/-- What comes next is written in the scope that the first part leads to. -/
theorem Mirrors.bind {first : Except CompileError (Scope × α)}
    {places more : List (Place effect method)}
    {next : Scope × α → Except CompileError (Scope × β)} {inner : View effect method}
    {checked' : Scope}
    (h : Mirrors dialect checked first inner places)
    (hn : ∀ value, inner.checkedScope = checked →
      Mirrors dialect checked' (next (inner.writtenScope, value)) after more) :
    Mirrors dialect checked' (first >>= next) after (places ++ more) := by
  have hnext : ∀ result, first = .ok result →
      Mirrors dialect checked' (next result) after more := by
    rintro ⟨written, value⟩ hr
    obtain ⟨hc, rfl⟩ := h.scopes written value hr
    exact hn value hc
  constructor
  · rw [succeeds_bind_iff fun result hr => (hnext result hr).succeeds, h.succeeds,
      List.forall_mem_append]
  · intro written value hr
    cases hf : first with
    | error e =>
        rw [hf] at hr
        cases hr
    | ok result =>
        rw [hf] at hr
        exact (hnext result hf).scopes written value hr

theorem Mirrors.map {first : Except CompileError (Scope × α)} {places : List (Place effect method)}
    {next : Scope × α → Except CompileError (Scope × β)}
    (h : Mirrors dialect checked first after places)
    (hn : ∀ written value, ∃ value', next (written, value) = .ok (written, value')) :
    Mirrors dialect checked (first >>= next) after places := by
  rw [← List.append_nil places]
  refine h.bind fun value hc => ?_
  obtain ⟨value', hv⟩ := hn after.writtenScope value
  rw [hv, ← hc]
  exact .pure value'

/-! ## Declarations -/

theorem sound_initializer_iff {declarator : VariableDeclarator}
    (h : view.checkedScope.checkOption declarator.initializer = []) :
    Succeeds (dialect.declarator view.writtenScope declarator) ↔
      ∀ place ∈ declarator.initializer.toList.map (Place.expression view), place.Sound dialect := by
  unfold Dialect.declarator
  cases hi : declarator.initializer with
  | none => simp
  | some value =>
      rw [hi, Scope.checkOption] at h
      simp only [Option.toList_some, List.map_cons, List.map_nil, List.forall_mem_singleton]
      rw [succeeds_bind_pure, sound_expression_iff h]

theorem mirrors_declarators {members : List String} {type : TypeRef} {location : Location}
    {depth : Nat} {ds : List VariableDeclarator} (view : View effect method)
    (h : (checkDeclarators members type location view.checkedScope ds).2 = []) :
    Mirrors dialect (checkDeclarators members type location view.checkedScope ds).1
      (dialect.writeDeclarators depth type view.writtenScope ds)
      (view.declarators type ds).1 (view.declarators type ds).2 := by
  induction ds generalizing view with
  | nil => exact .pure []
  | cons declarator rest ih =>
      simp only [checkDeclarators, checkDeclarator, List.append_eq_nil_iff] at h
      simp only [checkDeclarators, checkDeclarator, Dialect.writeDeclarators, View.declarators]
      refine .cons Dialect.succeeds_typeName fun _ => ?_
      refine .append (sound_initializer_iff h.1.1.1) fun _ => ?_
      exact (ih (view.declare _ _ _) h.2).map fun _ _ => ⟨_, rfl⟩

theorem mirrors_headerDeclarators {members : List String} {type : TypeRef} {location : Location}
    {shared : DataType} {ds : List VariableDeclarator} (view : View effect method)
    (h : (checkDeclarators members type location view.checkedScope ds).2 = []) :
    Mirrors dialect (checkDeclarators members type location view.checkedScope ds).1
      (dialect.headerDeclarators shared view.writtenScope ds)
      (view.headerDeclarators type shared ds).1 (view.headerDeclarators type shared ds).2 := by
  induction ds generalizing view with
  | nil => exact .pure []
  | cons declarator rest ih =>
      simp only [checkDeclarators, checkDeclarator, List.append_eq_nil_iff] at h
      simp only [checkDeclarators, checkDeclarator, Dialect.headerDeclarators,
        View.headerDeclarators]
      refine .append (sound_initializer_iff h.1.1.1) fun _ => ?_
      exact (ih (view.declare _ _ _) h.2).map fun _ _ => ⟨_, rfl⟩

/-! ## Loop headers -/

theorem mirrors_headerInitializer {members : List String} {initializer : Stmt}
    (view : View effect method)
    (h : (checkStmt members view.checkedScope initializer).2 = []) :
    Mirrors dialect (checkStmt members view.checkedScope initializer).1
      (dialect.headerInitializer view.writtenScope initializer)
      (view.headerInitializer initializer).1 (view.headerInitializer initializer).2 := by
  obtain ⟨kind, location⟩ := initializer
  cases kind
  case declaration locals =>
    simp only [checkStmt, Construct.ofStmt?] at h ⊢
    simp only [Dialect.headerInitializer, Dialect.headerDeclaration, View.headerInitializer]
    refine .cons Dialect.succeeds_typeName fun _ => ?_
    exact (mirrors_headerDeclarators view h).map fun _ _ => ⟨_, rfl⟩
  case expression value =>
    simp only [checkStmt, Construct.ofStmt?] at h ⊢
    exact .cons (sound_expression_iff h) fun _ => .pure _
  all_goals
    constructor
    · simp [Dialect.headerInitializer, View.headerInitializer, Place.Sound]
    · intro written value hr
      cases hr

theorem mirrors_headerInitializers {members : List String} {initializers : List Stmt}
    (view : View effect method)
    (h : (checkStmts members view.checkedScope initializers).2 = []) :
    Mirrors dialect (checkStmts members view.checkedScope initializers).1
      (dialect.headerInitializers view.writtenScope initializers)
      (view.headerInitializers initializers).1 (view.headerInitializers initializers).2 := by
  induction initializers generalizing view with
  | nil =>
      simp only [checkStmts]
      exact .pure []
  | cons initializer rest ih =>
      simp only [checkStmts, List.append_eq_nil_iff] at h
      simp only [checkStmts, Dialect.headerInitializers_cons, View.headerInitializers]
      refine (mirrors_headerInitializer view h.1).bind fun _ hc => ?_
      rw [← hc] at h ⊢
      exact (ih _ h.2).map fun _ _ => ⟨_, rfl⟩

/-! ## Statements -/

theorem sound_expressions_iff {es : List Expr} (h : view.checkedScope.checkExprs es = []) :
    Succeeds (dialect.renderTexts view.writtenScope es) ↔
      ∀ place ∈ es.map (Place.expression view), place.Sound dialect := by
  rw [Dialect.renderTexts, succeeds_mapM, List.forall_mem_map]
  refine forall₂_congr fun e he => sound_expression_iff ?_
  exact List.flatMap_eq_nil_iff.mp h e he

theorem mirrors_stmts {members : List String} {depth : Nat} {stmts : List Stmt}
    (ih : ∀ stmt ∈ stmts, ∀ (depth : Nat) (view : View effect method),
      (checkStmt members view.checkedScope stmt).2 = [] →
      Mirrors dialect (checkStmt members view.checkedScope stmt).1
        (dialect.writeStmt depth view.writtenScope stmt)
        (view.walkStmt stmt).1 (view.walkStmt stmt).2)
    (view : View effect method) (h : (checkStmts members view.checkedScope stmts).2 = []) :
    Mirrors dialect (checkStmts members view.checkedScope stmts).1
      (dialect.writeStmts depth view.writtenScope stmts)
      (view.walkStmts stmts).1 (view.walkStmts stmts).2 := by
  induction stmts generalizing view with
  | nil =>
      simp only [checkStmts, Dialect.writeStmts, View.walkStmts]
      exact .pure []
  | cons stmt rest ihs =>
      simp only [checkStmts, List.append_eq_nil_iff] at h
      simp only [checkStmts, Dialect.writeStmts, View.walkStmts]
      refine (ih stmt (by simp) depth view h.1).bind fun _ hc => ?_
      rw [← hc] at h ⊢
      exact (ihs (fun other ho => ih other (by simp [ho])) _ h.2).map fun _ _ => ⟨_, rfl⟩

/-- The walk over a statement without findings follows the checker and the writer. -/
theorem mirrors_stmt {members : List String} (stmt : Stmt) (depth : Nat) (view : View effect method)
    (h : (checkStmt members view.checkedScope stmt).2 = []) :
    Mirrors dialect (checkStmt members view.checkedScope stmt).1
      (dialect.writeStmt depth view.writtenScope stmt)
      (view.walkStmt stmt).1 (view.walkStmt stmt).2 := by
  induction stmt using Stmt.induction generalizing depth view with
  | step stmt ih =>
      obtain ⟨kind, location⟩ := stmt
      cases kind
      case block body =>
        simp only [checkStmt, Construct.ofStmt?] at h ⊢
        simp only [Dialect.writeStmt, Construct.ofStmt?, View.walkStmt]
        refine Mirrors.map (mirrors_stmts ?_ view h) fun _ _ => ⟨_, rfl⟩
        exact fun part hp => ih part (by simp [StmtKind.parts, hp])
      case expression value =>
        simp only [checkStmt, Construct.ofStmt?] at h ⊢
        simp only [Dialect.writeStmt, Construct.ofStmt?, View.walkStmt]
        exact .cons (sound_expression_iff h) fun _ => .pure _
      case declaration locals =>
        simp only [checkStmt, Construct.ofStmt?] at h ⊢
        simp only [Dialect.writeStmt, Construct.ofStmt?, View.walkStmt]
        exact mirrors_declarators view h
      case ifElse condition thenBranch elseBranch =>
        simp only [checkStmt, Construct.ofStmt?, List.append_eq_nil_iff] at h ⊢
        simp only [Dialect.writeStmt, Construct.ofStmt?, View.walkStmt]
        obtain ⟨⟨hcondition, hthen⟩, helse⟩ := h
        refine .cons (sound_expression_iff hcondition) fun _ => ?_
        refine (ih thenBranch (by simp [StmtKind.parts]) _ view hthen).bind fun _ hc => ?_
        rw [← hc] at helse ⊢
        cases elseBranch with
        | none =>
            simp only [checkOptionalStmt, Dialect.writeElse, View.walkOptionalStmt]
            exact .pure _
        | some elseBranch =>
            simp only [checkOptionalStmt] at helse ⊢
            simp only [Dialect.writeElse, View.walkOptionalStmt, bind_assoc]
            exact (ih elseBranch (by simp [StmtKind.parts]) _ _ helse).map fun _ _ => ⟨_, rfl⟩
      case whileLoop condition body =>
        simp only [checkStmt, Construct.ofStmt?, List.append_eq_nil_iff] at h ⊢
        simp only [Dialect.writeStmt, Construct.ofStmt?, View.walkStmt]
        refine .cons (sound_expression_iff h.1) fun _ => ?_
        exact (ih body (by simp [StmtKind.parts]) _ view h.2).map fun _ _ => ⟨_, rfl⟩
      case doWhileLoop body condition =>
        simp only [checkStmt, Construct.ofStmt?, List.append_eq_nil_iff] at h ⊢
        simp only [Dialect.writeStmt, Construct.ofStmt?, View.walkStmt]
        refine (ih body (by simp [StmtKind.parts]) _ view h.2).bind fun _ hc => ?_
        -- the condition was checked with the variables before the body
        let between : View effect method :=
          { checked := view.checked, written := (view.walkStmt body).1.written }
        have hcondition : Succeeds (dialect.renderText between.writtenScope condition) ↔
            (Place.expression between condition).Sound dialect := sound_expression_iff h.1
        rw [← hc]
        exact .cons hcondition fun _ => .pure _
      case forLoop initializers condition increments body =>
        simp only [checkStmt, Construct.ofStmt?, List.append_eq_nil_iff] at h ⊢
        simp only [Dialect.writeStmt, Construct.ofStmt?, View.walkStmt]
        obtain ⟨⟨⟨hinit, hcondition⟩, hincrements⟩, hbody⟩ := h
        refine (mirrors_headerInitializers view hinit).bind fun _ hc => ?_
        rw [← hc] at hcondition hincrements hbody ⊢
        refine .append (sound_expressions_iff ?_) fun _ => ?_
        · cases condition <;> simp_all [Scope.checkExprs, Scope.checkOption]
        refine .append (sound_expressions_iff hincrements) fun _ => ?_
        exact (ih body (by simp [StmtKind.parts]) _ _ hbody).map fun _ _ => ⟨_, rfl⟩
      case returning value =>
        cases value with
        | none =>
            simp only [checkStmt, Construct.ofStmt?, Dialect.writeStmt, View.walkStmt]
            exact .pure _
        | some value => simp [checkStmt, Construct.ofStmt?] at h
      case empty | breakLoop | continueLoop =>
        simp only [checkStmt, Construct.ofStmt?, Dialect.writeStmt, View.walkStmt]
        exact .pure _
      all_goals simp [checkStmt, Construct.ofStmt?] at h

end

/-! ## Units -/

/-- The expressions that are written for the value of a literal. -/
def ShaderLiteral.initializers (literal : ShaderLiteral) : List Expr :=
  literal.elements?.getD [literal.value]

theorem Dialect.succeeds_renderTexts {dialect : Dialect} {scope : Scope} {es : List Expr} :
    Succeeds (dialect.renderTexts scope es) ↔ ∀ e ∈ es, scope.Writable dialect e := by
  rw [renderTexts, succeeds_mapM]
  refine forall₂_congr fun e _ => ?_
  rw [renderText, succeeds_bind_pure, succeeds_render]

theorem Dialect.succeeds_writeLiteral {dialect : Dialect} {scope : Scope}
    {literal : ShaderLiteral} :
    Succeeds (dialect.writeLiteral scope literal) ↔
      (∀ e ∈ literal.initializers, scope.Writable dialect e) ∧ literal.type ≠ .unknown := by
  unfold writeLiteral ShaderLiteral.initializers
  have htype {next : String → Except CompileError Line} (hn : ∀ type, Succeeds (next type)) :
      Succeeds (dialect.typeName literal.type >>= next) ↔ literal.type ≠ .unknown := by
    rw [succeeds_bind_iff (P := True) fun type _ => iff_true_intro (hn type), and_true,
      succeeds_typeName]
  cases literal.elements? with
  | some elements =>
      rw [succeeds_bind_iff fun values _ => htype fun type => ?_, succeeds_renderTexts,
        Option.getD_some]
      cases dialect <;> simp
  | none =>
      rw [succeeds_bind_iff fun value _ => htype fun type => ?_, renderText, succeeds_bind_pure,
        succeeds_render, Option.getD_none, List.forall_mem_singleton]
      cases dialect <;> simp

section

variable {decl : TypeDecl} {effect : Effect} {method : ShaderMethod} {dialect : Dialect}

theorem checkLiteral_of_isValid (hv : isValid decl effect = true) {literal : ShaderLiteral}
    (hl : literal ∈ effect.literals) : checkLiteral decl literal = [] := by
  simp only [isValid_eq, declarationFindings, checkLiterals, Bool.and_eq_true, List.isEmpty_iff,
    List.append_eq_nil_iff] at hv
  exact List.flatMap_eq_nil_iff.mp hv.1.1.2 literal hl

/-- What the rule for literals establishes: a known type and constant values. -/
theorem constant_of_checkLiteral {literal : ShaderLiteral} (h : checkLiteral decl literal = []) :
    literal.type ≠ .unknown ∧ ∀ e ∈ literal.initializers, isConstantValue e = true := by
  unfold checkLiteral at h
  by_cases ht : literal.type.isValueType = true
  · have hknown : literal.type ≠ .unknown := by
      intro hu
      simp [hu, DataType.isValueType] at ht
    refine ⟨hknown, ?_⟩
    simp only [ht, Bool.not_true, Bool.false_eq_true, if_false] at h
    split at h
    · cases h
    · unfold ShaderLiteral.initializers
      cases he : literal.elements? <;> simp_all
  · simp [ht] at h

/-- A literal of a valid effect can be written in the scope of a method exactly if its values are
covered there. -/
theorem succeeds_writeLiteral_iff (hv : isValid decl effect = true) {literal : ShaderLiteral}
    (hl : literal ∈ effect.literals) (scope : Scope) :
    Succeeds (dialect.writeLiteral scope literal) ↔
      ∀ e ∈ literal.initializers, scope.ValueCovered dialect e := by
  obtain ⟨htype, hvalues⟩ := constant_of_checkLiteral (checkLiteral_of_isValid hv hl)
  rw [Dialect.succeeds_writeLiteral, and_iff_left htype]
  exact forall₂_congr fun e he => Scope.writable_iff_valueCovered e (hvalues e he)

/-- The unit of a method of a built effect can be written if its literals and its body can. -/
theorem succeeds_compile (hb : decl.build.result = .ok effect) (hm : method ∈ effect.methods) :
    Succeeds (effect.compile dialect method.name) ↔
      (∀ literal ∈ effect.literals, Succeeds (dialect.writeLiteral { effect, method } literal)) ∧
        Succeeds (dialect.writeStmts 1 { effect, method } method.body) := by
  simp only [Effect.compile, Effect.method?_of_mem hb hm]
  rw [succeeds_bind_pure, Dialect.writeUnit, ← succeeds_mapM]
  refine succeeds_bind_iff fun literals _ => ?_
  obtain ⟨buffers, hbuffers⟩ := Effect.succeeds_writeBuffers dialect hb
  obtain ⟨textures, htextures⟩ := Effect.succeeds_writeTextures dialect hb
  obtain ⟨interface, hinterface⟩ := Effect.succeeds_writeInterface dialect hb hm
  rw [hbuffers, htextures, hinterface]
  exact succeeds_bind_pure

/-- What validation leaves open about a method: the values of the literals are covered in its scope,
and all places of its body are sound. -/
def Effect.Covers (effect : Effect) (dialect : Dialect) (method : ShaderMethod) : Prop :=
  (∀ literal ∈ effect.literals, ∀ e ∈ literal.initializers,
      ({ effect, method } : Scope).ValueCovered dialect e) ∧
    ∀ place ∈ (({} : View effect method).walkStmts method.body).2, place.Sound dialect

theorem succeeds_body_iff (hv : isValid decl effect = true) (hm : method ∈ effect.methods) :
    Succeeds (dialect.writeStmts 1 { effect, method } method.body) ↔
      ∀ place ∈ (({} : View effect method).walkStmts method.body).2, place.Sound dialect := by
  have hbody : (checkStmts (memberNames decl effect) ({} : View effect method).checkedScope
      method.body).2 = [] := checkStmts_of_isValid hv hm
  exact (mirrors_stmts (fun stmt _ depth view => mirrors_stmt stmt depth view) _ hbody).succeeds

/-- A method of a valid effect compiles exactly if nothing is wrong that validation leaves open. -/
theorem valid_compiles_iff_covered (hb : decl.build.result = .ok effect)
    (hv : isValid decl effect = true) (hm : method ∈ effect.methods) (dialect : Dialect) :
    (∃ shader, effect.compile dialect method.name = .ok shader) ↔
      effect.Covers dialect method := by
  have hliterals : (∀ literal ∈ effect.literals,
        Succeeds (dialect.writeLiteral { effect, method } literal)) ↔
      ∀ literal ∈ effect.literals, ∀ e ∈ literal.initializers,
        ({ effect, method } : Scope).ValueCovered dialect e :=
    forall₂_congr fun literal hl => succeeds_writeLiteral_iff hv hl { effect, method }
  rw [Effect.Covers, ← hliterals, ← succeeds_body_iff hv hm]
  exact succeeds_compile hb hm

theorem repeatedTint_covered :
    isValid (tinting repeatedTint) (tintingEffect repeatedTint) = true ∧
      (tintingEffect repeatedTint).Covers .hlsl (tintingShade repeatedTint) :=
  ⟨isValid_repeatedTint, (valid_compiles_iff_covered (build_tinting repeatedTint)
    isValid_repeatedTint (tintingShade_mem repeatedTint) .hlsl).mp ⟨_, rfl⟩⟩

/-- The effect with a literal that is a static property, and with a second fragment shader that has a
parameter with the name of the type. -/
def hiddenType : TypeDecl :=
  { tinting [] with
    members := (tinting []).members ++ [
      .field {
        name := "Up"
        type := .named "Vector3"
        initializer := some ⟨.memberAccess (.named "Vector3") "UnitY", {}, {}⟩ },
      .method {
        name := "Light"
        attributes := [{ name := "FragmentShader" }]
        parameters := [
          { name := "Vector3", type := .named "Vector2", attributes := [{ name := "TexCoord" }] },
          { name := "light", type := .named "Vector4", mode := .out
            attributes := [{ name := "Color" }] }]
        body := some [] }] }

/-- A valid effect with a method that neither language can write: the type in the value of the literal
is taken for the parameter. -/
theorem valid_not_compiled : ∃ effect, hiddenType.build.result = .ok effect ∧
    isValid hiddenType effect = true ∧
    effect.compile .hlsl "Light" = .error (.unwritable .memberAccess) ∧
    ∀ version, effect.compile (.glsl version) "Light" = .error (.unwritable .memberAccess) :=
  ⟨hiddenType.scan.1, rfl, rfl, rfl, fun _ => rfl⟩

end

end ShaderEffect
