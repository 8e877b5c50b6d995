import ShaderEffect.Proofs.Coverage
import ShaderEffect.Proofs.SameLines

/-!
# Where expressions are read

The checker and a writer come to the expressions of a body one after the other, each in a scope of
its own. A site is an expression with both of these scopes, and with the variables that are visible
there by block scoping. Each site holds an expression that stands in a statement, and if a body can
be written, its sites leave out no expression.
-/

namespace ShaderEffect

/-! ## Points of a body -/

/-- The scope after variables of one declaration. -/
def Scope.declareAll (scope : Scope) (type : TypeRef) : List VariableDeclarator → Scope
  | [] => scope
  | declarator :: rest =>
    (scope.declare declarator.name (scope.localType type declarator.initializer)).declareAll type
      rest

/-- A point of the body of a method: the local variables as they are checked and written, and the
ones that are visible by block scoping. -/
structure Point (effect : Effect) (method : ShaderMethod) extends View effect method where
  visible : Locals := []

/-- An expression, and the point at which the checker and a writer come to it. -/
structure Site (effect : Effect) (method : ShaderMethod) where
  point : Point effect method
  value : Expr

namespace Point

variable {effect : Effect} {method : ShaderMethod}

/-- The scope at a point by block scoping. -/
def blockScope (point : Point effect method) : Scope :=
  { effect, method, locals := point.visible }

/-- The point after the declaration of a local variable. -/
def declare (point : Point effect method) (name : String) (checked written visible : DataType) :
    Point effect method :=
  { point.toView.declare name checked written with visible := (name, visible) :: point.visible }

/-- The variables that are visible after a statement. -/
def visibleAfter (point : Point effect method) (stmt : Stmt) : Locals :=
  match stmt.kind with
  | .declaration locals => (point.blockScope.declareAll locals.type locals.declarators).locals
  | _ => point.visible

/-- The point after a statement, given the scope of the checker and the result of a writer, if it is
no error. -/
def after? {α : Type} (point : Point effect method) (stmt : Stmt) (checked : Scope)
    (result : Except CompileError (Scope × α)) : Option (Point effect method) :=
  match result with
  | .ok (written, _) =>
    some {
      checked := checked.locals
      written := written.locals
      visible := point.visibleAfter stmt }
  | .error _ => none

/-- The initializers of variables. A writer may give all variables one type. -/
def declaratorSites (type : TypeRef) (shared : Option DataType) (point : Point effect method) :
    List VariableDeclarator → List (Site effect method)
  | [] => []
  | declarator :: rest =>
    let checked := point.checkedScope.localType type declarator.initializer
    let written := shared.getD (point.writtenScope.localType type declarator.initializer)
    let visible := point.blockScope.localType type declarator.initializer
    declarator.initializer.toList.map (Site.mk point) ++
      declaratorSites type shared (point.declare declarator.name checked written visible) rest

section

variable (dialect : Dialect) (members : List String)

/-- The point after a statement. -/
def afterStmt? (depth : Nat) (point : Point effect method) (stmt : Stmt) :
    Option (Point effect method) :=
  point.after? stmt (checkStmt members point.checkedScope stmt).1
    (dialect.writeStmt depth point.writtenScope stmt)

/-- The point after an initializer of a loop. -/
def afterInitializer? (point : Point effect method) (initializer : Stmt) :
    Option (Point effect method) :=
  point.after? initializer (checkStmt members point.checkedScope initializer).1
    (dialect.headerInitializer point.writtenScope initializer)

/-- The point after the initializers of a loop. -/
def afterHeader? (point : Point effect method) : List Stmt → Option (Point effect method)
  | [] => some point
  | initializer :: rest => do
    (← point.afterInitializer? dialect members initializer).afterHeader? rest

/-- The expressions in an initializer of a loop. -/
def initializerSites (point : Point effect method) (initializer : Stmt) :
    List (Site effect method) :=
  match initializer.kind with
  | .declaration locals =>
    let first := locals.declarators.head?.bind (·.initializer)
    let shared := point.writtenScope.localType locals.type first
    point.declaratorSites locals.type (some shared) locals.declarators
  | .expression value => [⟨point, value⟩]
  | _ => []

/-- The expressions in the initializers of a loop. -/
def headerSites (point : Point effect method) : List Stmt → List (Site effect method)
  | [] => []
  | initializer :: rest =>
    point.initializerSites initializer ++
      (point.afterInitializer? dialect members initializer).toList.flatMap (·.headerSites rest)

mutual

/-- The expressions of a statement that both the checker and a writer come to, each in its own
scope. After a statement that cannot be written, neither is followed further. -/
def stmtSites (depth : Nat) (point : Point effect method) (stmt : Stmt) :
    List (Site effect method) :=
  match stmt with
  | ⟨.block body, _⟩ => point.stmtsSites (depth + 1) body
  | ⟨.expression value, _⟩ => [⟨point, value⟩]
  | ⟨.declaration locals, _⟩ => point.declaratorSites locals.type none locals.declarators
  | ⟨.ifElse condition thenBranch elseBranch, _⟩ =>
    let afterThen := point.afterStmt? dialect members (thenBranch.branchDepth depth) thenBranch
    ⟨point, condition⟩ :: (point.stmtSites (thenBranch.branchDepth depth) thenBranch ++
      afterThen.toList.flatMap fun after =>
        optionalStmtSites depth { after with visible := point.visible } elseBranch)
  | ⟨.whileLoop condition body, _⟩ =>
    ⟨point, condition⟩ :: point.stmtSites (body.branchDepth depth) body
  | ⟨.doWhileLoop body condition, _⟩ =>
    let afterBody := point.afterStmt? dialect members (body.branchDepth depth) body
    point.stmtSites (body.branchDepth depth) body ++
      afterBody.toList.map fun after => ⟨{ point with written := after.written }, condition⟩
  | ⟨.forLoop initializers condition increments body, _⟩ =>
    point.headerSites dialect members initializers ++
      (point.afterHeader? dialect members initializers).toList.flatMap fun inner =>
        condition.toList.map (Site.mk inner) ++ increments.map (Site.mk inner) ++
          inner.stmtSites (body.branchDepth depth) body
  | _ => []

/-- The expressions of statements. -/
def stmtsSites (depth : Nat) (point : Point effect method) (stmts : List Stmt) :
    List (Site effect method) :=
  match stmts with
  | [] => []
  | stmt :: rest =>
    point.stmtSites depth stmt ++
      (point.afterStmt? dialect members depth stmt).toList.flatMap fun after =>
        after.stmtsSites depth rest

/-- The expressions of an optional branch. -/
def optionalStmtSites (depth : Nat) (point : Point effect method) (stmt : Option Stmt) :
    List (Site effect method) :=
  match stmt with
  | none => []
  | some stmt => point.stmtSites (stmt.branchDepth depth) stmt

end

end

end Point

/-- The expressions in the body of a method that the checker and a writer come to. -/
def bodySites (dialect : Dialect) (members : List String) (effect : Effect)
    (method : ShaderMethod) : List (Site effect method) :=
  ({} : Point effect method).stmtsSites dialect members 1 method.body

/-! ## The points between statements -/

section

variable {effect : Effect} {method : ShaderMethod} {point : Point effect method}
  {dialect : Dialect} {members : List String}

theorem Point.after?_eq_some {α : Type} {stmt : Stmt} {checked : Scope}
    {result : Except CompileError (Scope × α)} {walked : View effect method}
    {places : List (Place effect method)} {after : Point effect method}
    (hm : Mirrors dialect checked result walked places)
    (h : point.after? stmt checked result = some after) :
    after.toView = walked ∧ after.visible = point.visibleAfter stmt ∧
      after.checkedScope = checked := by
  cases result with
  | error e => simp [after?] at h
  | ok result =>
      obtain ⟨written, value⟩ := result
      obtain ⟨hchecked, hwritten⟩ := hm.scopes written value rfl
      simp only [after?, Option.some.injEq] at h
      subst h hchecked hwritten
      exact ⟨rfl, rfl, rfl⟩

theorem Point.exists_afterStmt (members : List String) {depth : Nat} {stmt : Stmt}
    {written : Scope} {lines : List Line}
    (h : dialect.writeStmt depth point.writtenScope stmt = .ok (written, lines)) :
    ∃ after, point.afterStmt? dialect members depth stmt = some after ∧
      after.writtenScope = written := by
  rw [afterStmt?, h]
  exact ⟨_, rfl, (Dialect.writeStmt_scope h).symm⟩

theorem Point.exists_afterInitializer (members : List String) {initializer : Stmt}
    {written : Scope} {text : String}
    (h : dialect.headerInitializer point.writtenScope initializer = .ok (written, text)) :
    ∃ after, point.afterInitializer? dialect members initializer = some after ∧
      after.writtenScope = written := by
  rw [afterInitializer?, h]
  exact ⟨_, rfl, (Dialect.headerInitializer_scope h).symm⟩

theorem Point.exists_afterHeader (members : List String) {initializers : List Stmt}
    {written : Scope} {texts : List String}
    (h : dialect.headerInitializers point.writtenScope initializers = .ok (written, texts)) :
    ∃ after, point.afterHeader? dialect members initializers = some after ∧
      after.writtenScope = written := by
  induction initializers generalizing point texts with
  | nil =>
      cases h
      exact ⟨point, rfl, rfl⟩
  | cons initializer rest ih =>
      rw [Dialect.headerInitializers_cons] at h
      obtain ⟨⟨inner, text⟩, hfirst, h⟩ := bind_eq_ok.mp h
      obtain ⟨⟨last, more⟩, hrest, h⟩ := bind_eq_ok.mp h
      cases h
      obtain ⟨next, hnext, rfl⟩ := exists_afterInitializer members hfirst
      rw [afterHeader?, hnext]
      exact ih hrest

/-! ## Sites are in statements -/

theorem mem_declaratorSites {type : TypeRef} {shared : Option DataType}
    {ds : List VariableDeclarator} {site : Site effect method}
    (h : site ∈ point.declaratorSites type shared ds) :
    site.value ∈ ds.filterMap (·.initializer) := by
  induction ds generalizing point with
  | nil => simp [Point.declaratorSites] at h
  | cons declarator rest ih =>
      rw [Point.declaratorSites] at h
      rcases List.mem_append.mp h with h | h
      · obtain ⟨e, he, rfl⟩ := List.mem_map.mp h
        exact List.mem_filterMap.mpr ⟨declarator, List.mem_cons_self, Option.mem_toList.mp he⟩
      · obtain ⟨other, ho, he⟩ := List.mem_filterMap.mp (ih h)
        exact List.mem_filterMap.mpr ⟨other, List.mem_cons_of_mem _ ho, he⟩

theorem mem_initializerSites {initializer : Stmt} {site : Site effect method}
    (h : site ∈ point.initializerSites initializer) : initializer.Evaluates site.value := by
  obtain ⟨kind, location⟩ := initializer
  cases kind
  case declaration locals => exact .direct (mem_declaratorSites h)
  case expression value =>
    obtain rfl := List.mem_singleton.mp h
    exact .direct (List.mem_singleton_self _)
  all_goals cases h

theorem mem_headerSites {initializers : List Stmt} {site : Site effect method}
    (h : site ∈ point.headerSites dialect members initializers) :
    ∃ initializer ∈ initializers, initializer.Evaluates site.value := by
  induction initializers generalizing point with
  | nil => cases h
  | cons initializer rest ih =>
      rw [Point.headerSites] at h
      rcases List.mem_append.mp h with h | h
      · exact ⟨initializer, List.mem_cons_self, mem_initializerSites h⟩
      · obtain ⟨after, -, h⟩ := List.mem_flatMap.mp h
        obtain ⟨other, ho, he⟩ := ih h
        exact ⟨other, List.mem_cons_of_mem _ ho, he⟩

theorem mem_stmtsSites {depth : Nat} {stmts : List Stmt} {site : Site effect method}
    (ih : ∀ stmt ∈ stmts, ∀ {point : Point effect method} {depth : Nat},
      site ∈ point.stmtSites dialect members depth stmt → stmt.Evaluates site.value)
    (h : site ∈ point.stmtsSites dialect members depth stmts) :
    ∃ stmt ∈ stmts, stmt.Evaluates site.value := by
  induction stmts generalizing point with
  | nil =>
      rw [Point.stmtsSites] at h
      cases h
  | cons stmt rest ihs =>
      rw [Point.stmtsSites] at h
      rcases List.mem_append.mp h with h | h
      · exact ⟨stmt, List.mem_cons_self, ih stmt List.mem_cons_self h⟩
      · obtain ⟨after, -, h⟩ := List.mem_flatMap.mp h
        obtain ⟨other, ho, he⟩ := ihs (fun other ho => ih other (List.mem_cons_of_mem _ ho)) h
        exact ⟨other, List.mem_cons_of_mem _ ho, he⟩

/-- The expression of each site of a statement stands in the statement. -/
theorem mem_stmtSites {stmt : Stmt} {depth : Nat} {site : Site effect method}
    (h : site ∈ point.stmtSites dialect members depth stmt) : stmt.Evaluates site.value := by
  induction stmt using Stmt.induction generalizing depth point with
  | step stmt ih =>
      obtain ⟨kind, location⟩ := stmt
      have hbranch {part : Stmt} {point : Point effect method} {depth : Nat}
          (hp : part ∈ kind.branches) (hs : site ∈ point.stmtSites dialect members depth part) :
          Stmt.Evaluates ⟨kind, location⟩ site.value :=
        .branch hp (ih part (StmtKind.stmt_mem_parts hp) hs)
      cases kind
      case block body =>
        rw [Point.stmtSites] at h
        obtain ⟨part, hp, he⟩ := mem_stmtsSites
          (fun part hp _ _ => ih part (by simp [StmtKind.parts, hp])) h
        exact .branch hp he
      case expression value =>
        rw [Point.stmtSites] at h
        obtain rfl := List.mem_singleton.mp h
        exact .direct (List.mem_singleton_self _)
      case declaration locals =>
        rw [Point.stmtSites] at h
        exact .direct (mem_declaratorSites h)
      case ifElse condition thenBranch elseBranch =>
        rw [Point.stmtSites] at h
        rcases List.mem_cons.mp h with rfl | h
        · exact .direct (List.mem_singleton_self _)
        · rcases List.mem_append.mp h with h | h
          · exact hbranch List.mem_cons_self h
          · obtain ⟨after, -, h⟩ := List.mem_flatMap.mp h
            cases elseBranch with
            | none =>
                rw [Point.optionalStmtSites] at h
                cases h
            | some elseBranch =>
                rw [Point.optionalStmtSites] at h
                exact hbranch (by simp [StmtKind.branches]) h
      case whileLoop condition body =>
        rw [Point.stmtSites] at h
        rcases List.mem_cons.mp h with rfl | h
        · exact .direct (List.mem_singleton_self _)
        · exact hbranch (List.mem_singleton_self _) h
      case doWhileLoop body condition =>
        rw [Point.stmtSites] at h
        rcases List.mem_append.mp h with h | h
        · exact hbranch (List.mem_singleton_self _) h
        · obtain ⟨after, -, rfl⟩ := List.mem_map.mp h
          exact .direct (List.mem_singleton_self _)
      case forLoop initializers condition increments body =>
        rw [Point.stmtSites] at h
        rcases List.mem_append.mp h with h | h
        · obtain ⟨initializer, hi, he⟩ := mem_headerSites h
          exact .branch (List.mem_append_left _ hi) he
        · obtain ⟨inner, -, h⟩ := List.mem_flatMap.mp h
          rw [← List.map_append] at h
          rcases List.mem_append.mp h with h | h
          · obtain ⟨e, he, rfl⟩ := List.mem_map.mp h
            exact .direct he
          · exact hbranch (List.mem_append_right _ (List.mem_singleton_self _)) h
      all_goals simp [Point.stmtSites] at h

theorem mem_bodySites {site : Site effect method}
    (h : site ∈ bodySites dialect members effect method) :
    ∃ stmt ∈ method.body, stmt.Evaluates site.value :=
  mem_stmtsSites (fun _ _ _ _ => mem_stmtSites) h

/-! ## All expressions have sites -/

/-- Every expression in a node is part of the expression of a site. -/
def SitesCover (sites : List (Site effect method)) (node : Node) : Prop :=
  ∀ e, node.Contains (.expr e) → ∃ site ∈ sites, (Node.expr site.value).Contains (.expr e)

variable {sites more : List (Site effect method)} {stmt : Stmt}

theorem sitesCover_expr {site : Site effect method} (h : site ∈ sites) :
    SitesCover sites (.expr site.value) :=
  fun _ he => ⟨site, h, he⟩

theorem SitesCover.mono {node : Node} (h : SitesCover sites node) (hsub : sites ⊆ more) :
    SitesCover more node := by
  intro e he
  obtain ⟨site, hsite, hvalue⟩ := h e he
  exact ⟨site, hsub hsite, hvalue⟩

/-- A statement is no expression itself. -/
theorem sitesCover_stmt (h : ∀ part ∈ stmt.kind.parts, SitesCover sites part) :
    SitesCover sites (.stmt stmt) := by
  intro e he
  obtain heq | ⟨part, hp, hpart⟩ := Relation.ReflTransGen.cases_head he
  · cases heq
  · exact h part hp e hpart

theorem sitesCover_declaratorSites {type : TypeRef} {shared : Option DataType}
    {ds : List VariableDeclarator} {e : Expr} (h : e ∈ ds.filterMap (·.initializer)) :
    SitesCover (point.declaratorSites type shared ds) (.expr e) := by
  induction ds generalizing point with
  | nil => simp at h
  | cons declarator rest ih =>
      rw [Point.declaratorSites]
      obtain ⟨other, ho, he⟩ := List.mem_filterMap.mp h
      rcases List.mem_cons.mp ho with rfl | ho
      · have hsite : Site.mk point e ∈ other.initializer.toList.map (Site.mk point) :=
          List.mem_map_of_mem (Option.mem_toList.mpr he)
        exact sitesCover_expr (List.mem_append_left _ hsite)
      · have hrest := List.mem_filterMap.mpr ⟨other, ho, he⟩
        exact (ih hrest).mono (List.subset_append_right _ _)

/-- What is neither a declaration nor an expression cannot be written in the header of a loop. -/
theorem sitesCover_initializerSites {initializer : Stmt}
    (hw : Succeeds (dialect.headerInitializer point.writtenScope initializer)) :
    SitesCover (point.initializerSites initializer) (.stmt initializer) := by
  obtain ⟨kind, location⟩ := initializer
  refine sitesCover_stmt fun part hpart => ?_
  cases kind
  case declaration locals =>
    obtain ⟨e, he, rfl⟩ := List.mem_map.mp hpart
    exact sitesCover_declaratorSites he
  case expression value =>
    obtain rfl := List.mem_singleton.mp hpart
    exact sitesCover_expr (List.mem_singleton_self _)
  all_goals simp [Dialect.headerInitializer] at hw

theorem sitesCover_headerSites {initializers : List Stmt}
    (hw : Succeeds (dialect.headerInitializers point.writtenScope initializers)) :
    ∀ initializer ∈ initializers,
      SitesCover (point.headerSites dialect members initializers) (.stmt initializer) := by
  induction initializers generalizing point with
  | nil => simp
  | cons initializer rest ih =>
      rw [Dialect.headerInitializers_cons] at hw
      obtain ⟨⟨inner, text⟩, hfirst, hnext⟩ := succeeds_bind.mp hw
      obtain ⟨result, hrest, -⟩ := succeeds_bind.mp hnext
      obtain ⟨after, hafter, rfl⟩ := Point.exists_afterInitializer members hfirst
      rw [Point.headerSites, hafter]
      refine List.forall_mem_cons.mpr ⟨?_, fun other ho => ?_⟩
      · exact (sitesCover_initializerSites ⟨_, hfirst⟩).mono (List.subset_append_left _ _)
      · refine (ih ⟨result, hrest⟩ other ho).mono ?_
        simp

theorem sitesCover_stmtsSites {depth : Nat} {stmts : List Stmt}
    (ih : ∀ stmt ∈ stmts, ∀ {point : Point effect method} (depth : Nat),
      Succeeds (dialect.writeStmt depth point.writtenScope stmt) →
      SitesCover (point.stmtSites dialect members depth stmt) (.stmt stmt))
    (hw : Succeeds (dialect.writeStmts depth point.writtenScope stmts)) :
    ∀ stmt ∈ stmts, SitesCover (point.stmtsSites dialect members depth stmts) (.stmt stmt) := by
  induction stmts generalizing point with
  | nil => simp
  | cons stmt rest ihs =>
      rw [Dialect.writeStmts] at hw
      obtain ⟨⟨inner, lines⟩, hfirst, hnext⟩ := succeeds_bind.mp hw
      obtain ⟨result, hrest, -⟩ := succeeds_bind.mp hnext
      obtain ⟨after, hafter, rfl⟩ := Point.exists_afterStmt members hfirst
      have hhead := ih stmt (by simp) depth ⟨_, hfirst⟩
      rw [Point.stmtsSites, hafter]
      refine List.forall_mem_cons.mpr ⟨hhead.mono (List.subset_append_left _ _), fun other ho => ?_⟩
      have hcover := ihs (fun other ho => ih other (by simp [ho])) ⟨result, hrest⟩ other ho
      refine hcover.mono ?_
      simp

/-- The sites of a statement that can be written leave out no expression. -/
theorem sitesCover_stmtSites (depth : Nat)
    (hw : Succeeds (dialect.writeStmt depth point.writtenScope stmt)) :
    SitesCover (point.stmtSites dialect members depth stmt) (.stmt stmt) := by
  induction stmt using Stmt.induction generalizing depth point with
  | step stmt ih =>
      obtain ⟨kind, location⟩ := stmt
      refine sitesCover_stmt fun part hpart => ?_
      cases kind
      case block body =>
        simp only [Dialect.writeStmt, Construct.ofStmt?, succeeds_bind_pure] at hw
        rw [Point.stmtSites]
        obtain ⟨stmt, hs, rfl⟩ := List.mem_map.mp hpart
        refine sitesCover_stmtsSites (fun inner hi _ depth => ?_) hw stmt hs
        exact ih inner (by simp [StmtKind.parts, hi]) depth
      case expression value =>
        obtain rfl := List.mem_singleton.mp hpart
        rw [Point.stmtSites]
        exact sitesCover_expr (List.mem_singleton_self _)
      case declaration locals =>
        obtain ⟨e, he, rfl⟩ := List.mem_map.mp hpart
        rw [Point.stmtSites]
        exact sitesCover_declaratorSites he
      case ifElse condition thenBranch elseBranch =>
        simp only [Dialect.writeStmt, Construct.ofStmt?] at hw
        obtain ⟨_, -, hw⟩ := succeeds_bind.mp hw
        obtain ⟨⟨inner, lines⟩, hthen, hw⟩ := succeeds_bind.mp hw
        obtain ⟨result, helse, -⟩ := succeeds_bind.mp hw
        obtain ⟨after, hafter, rfl⟩ := Point.exists_afterStmt members hthen
        rw [Point.stmtSites, hafter]
        simp only [StmtKind.parts, List.mem_cons, List.mem_map, Option.mem_toList] at hpart
        rcases hpart with rfl | rfl | ⟨stmt, rfl, rfl⟩
        · exact sitesCover_expr List.mem_cons_self
        · have hcover := ih thenBranch (by simp [StmtKind.parts]) _ ⟨_, hthen⟩
          exact hcover.mono fun site hsite =>
            List.mem_cons_of_mem _ (List.mem_append_left _ hsite)
        · let between : Point effect method := { after with visible := point.visible }
          rw [Dialect.writeElse] at helse
          obtain ⟨_, helse, -⟩ := succeeds_bind.mp ⟨result, helse⟩
          have hcover : SitesCover
              (between.stmtSites dialect members (stmt.branchDepth depth) stmt) (.stmt stmt) :=
            ih stmt (by simp [StmtKind.parts]) _ ⟨_, helse⟩
          refine hcover.mono fun site hsite => ?_
          simp only [Point.optionalStmtSites, Option.toList_some, List.flatMap_singleton]
          exact List.mem_cons_of_mem _ (List.mem_append_right _ hsite)
      case whileLoop condition body =>
        simp only [Dialect.writeStmt, Construct.ofStmt?] at hw
        obtain ⟨_, -, hw⟩ := succeeds_bind.mp hw
        obtain ⟨_, hbody, -⟩ := succeeds_bind.mp hw
        rw [Point.stmtSites]
        simp only [StmtKind.parts, List.mem_cons, List.not_mem_nil, or_false] at hpart
        rcases hpart with rfl | rfl
        · exact sitesCover_expr List.mem_cons_self
        · have hcover := ih body (by simp [StmtKind.parts]) _ ⟨_, hbody⟩
          exact hcover.mono (List.subset_cons_self _ _)
      case doWhileLoop body condition =>
        simp only [Dialect.writeStmt, Construct.ofStmt?] at hw
        obtain ⟨⟨inner, lines⟩, hbody, -⟩ := succeeds_bind.mp hw
        obtain ⟨after, hafter, -⟩ := Point.exists_afterStmt members hbody
        rw [Point.stmtSites, hafter]
        simp only [StmtKind.parts, List.mem_cons, List.not_mem_nil, or_false] at hpart
        rcases hpart with rfl | rfl
        · exact sitesCover_expr (List.mem_append_right _ (List.mem_singleton_self _))
        · have hcover := ih body (by simp [StmtKind.parts]) _ ⟨_, hbody⟩
          exact hcover.mono (List.subset_append_left _ _)
      case forLoop initializers condition increments body =>
        simp only [Dialect.writeStmt, Construct.ofStmt?] at hw
        obtain ⟨⟨inner, texts⟩, hheader, hw⟩ := succeeds_bind.mp hw
        obtain ⟨_, -, hw⟩ := succeeds_bind.mp hw
        obtain ⟨_, -, hw⟩ := succeeds_bind.mp hw
        obtain ⟨_, hbody, -⟩ := succeeds_bind.mp hw
        obtain ⟨after, hafter, rfl⟩ := Point.exists_afterHeader members hheader
        rw [Point.stmtSites, hafter]
        simp only [Option.toList_some, List.flatMap_singleton]
        simp only [StmtKind.parts, List.mem_append, List.mem_map, Option.mem_toList,
          List.mem_singleton] at hpart
        rcases hpart with ((⟨stmt, hs, rfl⟩ | ⟨e, he, rfl⟩) | ⟨e, he, rfl⟩) | rfl
        · exact (sitesCover_headerSites ⟨_, hheader⟩ stmt hs).mono (List.subset_append_left _ _)
        · have hsite : Site.mk after e ∈ condition.toList.map (Site.mk after) :=
            List.mem_map_of_mem (Option.mem_toList.mpr he)
          exact sitesCover_expr (List.mem_append_right _
            (List.mem_append_left _ (List.mem_append_left _ hsite)))
        · have hsite : Site.mk after e ∈ increments.map (Site.mk after) := List.mem_map_of_mem he
          exact sitesCover_expr (List.mem_append_right _
            (List.mem_append_left _ (List.mem_append_right _ hsite)))
        · have hcover := ih body (by simp [StmtKind.parts]) _ ⟨_, hbody⟩
          exact hcover.mono fun site hsite =>
            List.mem_append_right _ (List.mem_append_right _ hsite)
      case returning value =>
        cases value with
        | none => simp [StmtKind.parts] at hpart
        | some value => simp [Dialect.writeStmt, Construct.ofStmt?] at hw
      case empty | breakLoop | continueLoop => simp [StmtKind.parts] at hpart
      all_goals simp [Dialect.writeStmt, Construct.ofStmt?] at hw

end

/-- The sites of a body that can be written leave out no expression. -/
theorem sitesCover_bodySites {effect : Effect} {method : ShaderMethod} {dialect : Dialect}
    {members : List String}
    (hw : Succeeds (dialect.writeStmts 1 { effect, method } method.body)) :
    ∀ stmt ∈ method.body, SitesCover (bodySites dialect members effect method) (.stmt stmt) :=
  sitesCover_stmtsSites (fun _ _ _ depth => sitesCover_stmtSites depth) hw

end ShaderEffect
