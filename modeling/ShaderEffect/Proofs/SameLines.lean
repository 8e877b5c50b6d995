import ShaderEffect.Proofs.Names

/-!
# Writing in another effect

What the lines of a body depend on. A writer looks up the names on the walk over the body and
nothing else, so that two effects in which these names refer to the same things give the same lines.
-/

namespace ShaderEffect

/-- Two effects have the same constants, literals and textures under the names on a walk. -/
def Effect.AgreeOn (first second : Effect) (walk : List Expr) : Prop :=
  ∀ e ∈ walk, ∀ name, e.kind = .identifier name →
    first.constant? name = second.constant? name ∧ first.literal? name = second.literal? name ∧
      first.texture? name = second.texture? name

/-- Two scopes of one method with the same local variables, in two effects. -/
inductive Scope.Parallel (first second : Effect) (method : ShaderMethod) :
    Scope → Scope → Prop where
  | intro (locals : Locals) :
    Parallel first second method { effect := first, method, locals }
      { effect := second, method, locals }

/-- Two results of writing are the same, up to the effects of their scopes. -/
abbrev SameLines {α : Type} (first second : Effect) (method : ShaderMethod)
    (result result' : Except CompileError (Scope × α)) : Prop :=
  Lockstep (fun a b => Scope.Parallel first second method a.1 b.1 ∧ a.2 = b.2) result result'

section

variable {α β : Type} {first second : Effect} {method : ShaderMethod} {s t : Scope}
  {walk more : List Expr} {dialect : Dialect}

theorem Effect.AgreeOn.mono (h : first.AgreeOn second walk) (hsub : more ⊆ walk) :
    first.AgreeOn second more :=
  fun e he => h e (hsub he)

theorem Effect.agreeOn_append :
    first.AgreeOn second (walk ++ more) ↔ first.AgreeOn second walk ∧ first.AgreeOn second more :=
  List.forall_mem_append

namespace Scope.Parallel

theorem declare (h : Parallel first second method s t) (name : String) (type : DataType) :
    Parallel first second method (s.declare name type) (t.declare name type) := by
  cases h
  exact .intro _

theorem references (h : Parallel first second method s t) {e : Expr}
    (ha : first.AgreeOn second e.walk) : s.SameReferences t e := by
  intro part hp name hk
  obtain ⟨hconstant, hliteral, htexture⟩ := ha part hp name hk
  cases h
  simp only [lookup?, hconstant, hliteral, htexture]

theorem method_eq (h : Parallel first second method s t) : s.method = t.method := by
  cases h
  rfl

theorem renderText_eq (h : Parallel first second method s t) {e : Expr}
    (ha : first.AgreeOn second e.walk) : dialect.renderText s e = dialect.renderText t e :=
  Dialect.renderText_congr h.method_eq e (h.references ha)

theorem renderTexts_eq (h : Parallel first second method s t) {es : List Expr}
    (ha : first.AgreeOn second (es.flatMap Expr.walk)) :
    dialect.renderTexts s es = dialect.renderTexts t es := by
  induction es with
  | nil => rfl
  | cons e rest ih =>
      rw [List.flatMap_cons, Effect.agreeOn_append] at ha
      have hrest := ih ha.2
      simp only [Dialect.renderTexts, List.mapM_cons, h.renderText_eq ha.1] at hrest ⊢
      rw [hrest]

theorem localType_eq (h : Parallel first second method s t) {type : TypeRef}
    {initializer : Option Expr} (ha : first.AgreeOn second (walkOption initializer)) :
    s.localType type initializer = t.localType type initializer := by
  cases initializer with
  | none => cases type <;> rfl
  | some value =>
      cases type with
      | inferred => exact Scope.typeOf_congr value (h.references ha)
      | named | array | pointer => rfl

theorem declarator_eq (h : Parallel first second method s t) {declarator : VariableDeclarator}
    (ha : first.AgreeOn second (walkOption declarator.initializer)) :
    dialect.declarator s declarator = dialect.declarator t declarator := by
  unfold Dialect.declarator
  cases hi : declarator.initializer with
  | none => rfl
  | some value =>
      rw [hi] at ha
      simp only [h.renderText_eq ha]

end Scope.Parallel

namespace SameLines

theorem pure (h : Scope.Parallel first second method s t) (value : α) :
    SameLines first second method (Pure.pure (s, value)) (Pure.pure (t, value)) :=
  .ok ⟨h, rfl⟩

theorem bind {result result' : Except CompileError (Scope × α)}
    {next next' : Scope × α → Except CompileError (Scope × β)}
    (h : SameLines first second method result result')
    (hn : ∀ s t value, Scope.Parallel first second method s t →
      SameLines first second method (next (s, value)) (next' (t, value))) :
    SameLines first second method (result >>= next) (result' >>= next') := by
  refine Lockstep.bind h ?_
  rintro ⟨s, value⟩ ⟨t, _⟩ ⟨hp, rfl⟩
  exact hn s t value hp

end SameLines

/-! ### Declarations -/

theorem sameLines_writeDeclarators {depth : Nat} {type : TypeRef} {ds : List VariableDeclarator}
    (ha : first.AgreeOn second (ds.flatMap fun declarator => walkOption declarator.initializer))
    (hp : Scope.Parallel first second method s t) :
    SameLines first second method (dialect.writeDeclarators depth type s ds)
      (dialect.writeDeclarators depth type t ds) := by
  induction ds generalizing s t with
  | nil => exact .pure hp []
  | cons declarator rest ih =>
      rw [List.flatMap_cons, Effect.agreeOn_append] at ha
      simp only [Dialect.writeDeclarators, hp.localType_eq ha.1]
      refine .bind_of_eq rfl fun _ => .bind_of_eq (hp.declarator_eq ha.1) fun _ => ?_
      exact (ih ha.2 (hp.declare _ _)).bind fun _ _ _ hafter => .pure hafter _

theorem sameLines_headerDeclarators {type : DataType} {ds : List VariableDeclarator}
    (ha : first.AgreeOn second (ds.flatMap fun declarator => walkOption declarator.initializer))
    (hp : Scope.Parallel first second method s t) :
    SameLines first second method (dialect.headerDeclarators type s ds)
      (dialect.headerDeclarators type t ds) := by
  induction ds generalizing s t with
  | nil => exact .pure hp []
  | cons declarator rest ih =>
      rw [List.flatMap_cons, Effect.agreeOn_append] at ha
      simp only [Dialect.headerDeclarators]
      refine .bind_of_eq (hp.declarator_eq ha.1) fun _ => ?_
      exact (ih ha.2 (hp.declare _ _)).bind fun _ _ _ hafter => .pure hafter _

theorem sameLines_headerInitializer {initializer : Stmt}
    (ha : first.AgreeOn second initializer.walk) (hp : Scope.Parallel first second method s t) :
    SameLines first second method (dialect.headerInitializer s initializer)
      (dialect.headerInitializer t initializer) := by
  obtain ⟨kind, location⟩ := initializer
  cases kind
  case declaration locals =>
    rw [Stmt.walk] at ha
    have hfirst : first.AgreeOn second
        (walkOption (locals.declarators.head?.bind (·.initializer))) := by
      refine ha.mono ?_
      cases locals.declarators <;> simp [walkOption]
    simp only [Dialect.headerInitializer, Dialect.headerDeclaration, hp.localType_eq hfirst]
    refine .bind_of_eq rfl fun _ => ?_
    exact (sameLines_headerDeclarators ha hp).bind fun _ _ _ hafter => .pure hafter _
  case expression value =>
    rw [Stmt.walk] at ha
    exact .bind_of_eq (hp.renderText_eq ha) fun _ => SameLines.pure hp _
  all_goals exact .error _

theorem sameLines_headerInitializers {initializers : List Stmt}
    (ha : first.AgreeOn second (walkStmts initializers))
    (hp : Scope.Parallel first second method s t) :
    SameLines first second method (dialect.headerInitializers s initializers)
      (dialect.headerInitializers t initializers) := by
  induction initializers generalizing s t with
  | nil => exact .pure hp []
  | cons initializer rest ih =>
      rw [walkStmts, Effect.agreeOn_append] at ha
      rw [Dialect.headerInitializers_cons, Dialect.headerInitializers_cons]
      refine (sameLines_headerInitializer ha.1 hp).bind fun _ _ _ hinner => ?_
      exact (ih ha.2 hinner).bind fun _ _ _ hafter => .pure hafter _

/-! ### Statements -/

theorem sameLines_stmts {depth : Nat} {stmts : List Stmt}
    (ih : ∀ stmt ∈ stmts, ∀ {s t : Scope} (depth : Nat), first.AgreeOn second stmt.walk →
      Scope.Parallel first second method s t →
      SameLines first second method (dialect.writeStmt depth s stmt)
        (dialect.writeStmt depth t stmt))
    (ha : first.AgreeOn second (walkStmts stmts)) (hp : Scope.Parallel first second method s t) :
    SameLines first second method (dialect.writeStmts depth s stmts)
      (dialect.writeStmts depth t stmts) := by
  induction stmts generalizing s t with
  | nil =>
      simp only [Dialect.writeStmts]
      exact .pure hp []
  | cons stmt rest ihs =>
      rw [walkStmts, Effect.agreeOn_append] at ha
      simp only [Dialect.writeStmts]
      refine (ih stmt (by simp) depth ha.1 hp).bind fun _ _ _ hinner => ?_
      exact (ihs (fun other ho => ih other (by simp [ho])) ha.2 hinner).bind
        fun _ _ _ hafter => .pure hafter _

/-- Only what is on the walk over a statement counts for its lines. -/
theorem sameLines_stmt (stmt : Stmt) (depth : Nat) (ha : first.AgreeOn second stmt.walk)
    (hp : Scope.Parallel first second method s t) :
    SameLines first second method (dialect.writeStmt depth s stmt)
      (dialect.writeStmt depth t stmt) := by
  induction stmt using Stmt.induction generalizing depth s t with
  | step stmt ih =>
      obtain ⟨kind, location⟩ := stmt
      cases kind
      case block body =>
        rw [Stmt.walk] at ha
        simp only [Dialect.writeStmt, Construct.ofStmt?]
        refine SameLines.bind (sameLines_stmts ?_ ha hp) fun _ _ _ hafter => .pure hafter _
        exact fun part hpart _ _ depth => ih part (by simp [StmtKind.parts, hpart]) depth
      case expression value =>
        rw [Stmt.walk] at ha
        simp only [Dialect.writeStmt, Construct.ofStmt?]
        exact .bind_of_eq (hp.renderText_eq ha) fun _ => SameLines.pure hp _
      case declaration locals =>
        rw [Stmt.walk] at ha
        simp only [Dialect.writeStmt, Construct.ofStmt?]
        exact sameLines_writeDeclarators ha hp
      case ifElse condition thenBranch elseBranch =>
        rw [Stmt.walk, Effect.agreeOn_append, Effect.agreeOn_append] at ha
        obtain ⟨⟨hcondition, hthen⟩, helse⟩ := ha
        simp only [Dialect.writeStmt, Construct.ofStmt?]
        refine .bind_of_eq (hp.renderText_eq hcondition) fun _ => ?_
        refine (ih thenBranch (by simp [StmtKind.parts]) _ hthen hp).bind fun _ _ _ hinner => ?_
        cases elseBranch with
        | none =>
            simp only [Dialect.writeElse]
            exact .pure hinner _
        | some elseBranch =>
            rw [walkOptionalStmt] at helse
            simp only [Dialect.writeElse, bind_assoc]
            refine (ih elseBranch (by simp [StmtKind.parts]) _ helse hinner).bind ?_
            exact fun _ _ _ hafter => .pure hafter _
      case whileLoop condition body =>
        rw [Stmt.walk, Effect.agreeOn_append] at ha
        simp only [Dialect.writeStmt, Construct.ofStmt?]
        refine .bind_of_eq (hp.renderText_eq ha.1) fun _ => ?_
        refine (ih body (by simp [StmtKind.parts]) _ ha.2 hp).bind ?_
        exact fun _ _ _ hafter => .pure hafter _
      case doWhileLoop body condition =>
        rw [Stmt.walk, Effect.agreeOn_append] at ha
        simp only [Dialect.writeStmt, Construct.ofStmt?]
        refine (ih body (by simp [StmtKind.parts]) _ ha.2 hp).bind fun _ _ _ hafter => ?_
        exact .bind_of_eq (hafter.renderText_eq ha.1) fun _ => SameLines.pure hafter _
      case forLoop initializers condition increments body =>
        simp only [Stmt.walk, Effect.agreeOn_append] at ha
        obtain ⟨⟨⟨hheader, hcondition⟩, hincrements⟩, hbody⟩ := ha
        simp only [Dialect.writeStmt, Construct.ofStmt?]
        refine (sameLines_headerInitializers hheader hp).bind fun inner inner' _ hinner => ?_
        have htexts : dialect.renderTexts inner condition.toList =
            dialect.renderTexts inner' condition.toList :=
          hinner.renderTexts_eq (by cases condition <;> simpa [walkOption] using hcondition)
        refine .bind_of_eq htexts fun _ => ?_
        refine .bind_of_eq (hinner.renderTexts_eq hincrements) fun _ => ?_
        refine (ih body (by simp [StmtKind.parts]) _ hbody hinner).bind ?_
        exact fun _ _ _ hafter => .pure hafter _
      case returning value =>
        cases value with
        | none =>
            simp only [Dialect.writeStmt, Construct.ofStmt?]
            exact .pure hp _
        | some value =>
            simp only [Dialect.writeStmt, Construct.ofStmt?]
            exact .error _
      case empty | breakLoop | continueLoop =>
        simp only [Dialect.writeStmt, Construct.ofStmt?]
        exact .pure hp _
      all_goals
        simp only [Dialect.writeStmt, Construct.ofStmt?]
        exact .error _

end

/-! ## Scopes after statements -/

section

variable {α : Type} {dialect : Dialect} {scope after : Scope}

theorem Effect.agreeOn_self (effect : Effect) (walk : List Expr) : effect.AgreeOn effect walk :=
  fun _ _ _ _ => ⟨rfl, rfl, rfl⟩

theorem SameLines.locals {value : α}
    (h : SameLines scope.effect scope.effect scope.method (.ok (after, value))
      (.ok (after, value))) :
    after = { scope with locals := after.locals } := by
  cases h with
  | ok h =>
      cases h.1
      rfl

/-- A statement changes nothing but the local variables. -/
theorem Dialect.writeStmt_scope {depth : Nat} {stmt : Stmt} {lines : List Line}
    (h : dialect.writeStmt depth scope stmt = .ok (after, lines)) :
    after = { scope with locals := after.locals } := by
  have hsame : SameLines scope.effect scope.effect scope.method
      (dialect.writeStmt depth scope stmt) (dialect.writeStmt depth scope stmt) :=
    sameLines_stmt stmt depth (Effect.agreeOn_self _ _) (.intro scope.locals)
  rw [h] at hsame
  exact hsame.locals

theorem Dialect.headerInitializer_scope {initializer : Stmt} {text : String}
    (h : dialect.headerInitializer scope initializer = .ok (after, text)) :
    after = { scope with locals := after.locals } := by
  have hsame : SameLines scope.effect scope.effect scope.method
      (dialect.headerInitializer scope initializer) (dialect.headerInitializer scope initializer) :=
    sameLines_headerInitializer (Effect.agreeOn_self _ _) (.intro scope.locals)
  rw [h] at hsame
  exact hsame.locals

end

end ShaderEffect
