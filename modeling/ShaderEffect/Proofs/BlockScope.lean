import ShaderEffect.Proofs.Site

/-!
# Block scoping

The checker and the writers keep the local variables of a method in one flat list, from which
nothing is ever removed. In a body that obeys the scoping rules of the host language this is as good
as block scoping: wherever both come to an expression, they and block scoping give the names in it
the same types. What blocks have left behind in the list does no harm, because an outer variable is
never declared again in an inner block, and no name is used where its variable is out of scope.
-/

namespace ShaderEffect

/-! ## Scoping rules -/

mutual

/-- The variables that are declared in a statement, at any depth. -/
def Stmt.declaredNames (stmt : Stmt) : List String :=
  match stmt with
  | ⟨.block body, _⟩ => stmtsDeclaredNames body
  | ⟨.declaration locals, _⟩ => locals.declarators.map (·.name)
  | ⟨.ifElse _ thenBranch elseBranch, _⟩ =>
    thenBranch.declaredNames ++ optionalStmtDeclaredNames elseBranch
  | ⟨.whileLoop _ body, _⟩ | ⟨.doWhileLoop body _, _⟩ => body.declaredNames
  | ⟨.forLoop initializers _ _ body, _⟩ => stmtsDeclaredNames initializers ++ body.declaredNames
  | _ => []

/-- The variables that are declared in statements. -/
def stmtsDeclaredNames (stmts : List Stmt) : List String :=
  match stmts with
  | [] => []
  | stmt :: rest => stmt.declaredNames ++ stmtsDeclaredNames rest

/-- The variables that are declared in an optional statement. -/
def optionalStmtDeclaredNames (stmt : Option Stmt) : List String :=
  match stmt with
  | none => []
  | some stmt => stmt.declaredNames

end

/-- Names of an expression that are declared somewhere in the body are visible. -/
def Expr.RefersTo (declared visible : List String) (e : Expr) : Prop :=
  (Node.expr e).Everywhere fun part =>
    ∀ name, part.kind = .identifier name → name ∈ declared → name ∈ visible

/-- The variables of a declaration are not visible from an enclosing block, and the initializer of
each sees those before it. -/
def ScopedDeclarators (declared outer visible : List String) : List VariableDeclarator → Prop
  | [] => True
  | declarator :: rest =>
    declarator.name ∉ outer ∧ (∀ e ∈ declarator.initializer, e.RefersTo declared visible) ∧
      ScopedDeclarators declared outer (declarator.name :: visible) rest

/-- The names that are visible after a statement: only declarations add to them. -/
def Stmt.visibleAfter (visible : List String) (stmt : Stmt) : List String :=
  match stmt.kind with
  | .declaration locals => (locals.declarators.map (·.name)).reverse ++ visible
  | _ => visible

/-- The names that are visible after statements. -/
def visibleAfterStmts (visible : List String) (stmts : List Stmt) : List String :=
  stmts.foldl Stmt.visibleAfter visible

mutual

/-- A statement obeys the scoping rules of the host language, in a body with the declared names and
where some names are visible, of which some are visible from enclosing blocks: outer variables are
not declared again, an implicitly typed declaration has one variable, and names are used only where
they are visible. Branches, loops and their bodies are blocks of their own. -/
def Stmt.Scoped (declared outer visible : List String) (stmt : Stmt) : Prop :=
  match stmt with
  | ⟨.block body, _⟩ => StmtsScoped declared visible visible body
  | ⟨.expression value, _⟩ => value.RefersTo declared visible
  | ⟨.declaration locals, _⟩ =>
    (locals.type = .inferred → locals.declarators.length = 1) ∧
      ScopedDeclarators declared outer visible locals.declarators
  | ⟨.ifElse condition thenBranch elseBranch, _⟩ =>
    condition.RefersTo declared visible ∧ thenBranch.Scoped declared visible visible ∧
      OptionalStmtScoped declared visible elseBranch
  | ⟨.whileLoop condition body, _⟩ | ⟨.doWhileLoop body condition, _⟩ =>
    condition.RefersTo declared visible ∧ body.Scoped declared visible visible
  | ⟨.forLoop initializers condition increments body, _⟩ =>
    let inner := visibleAfterStmts visible initializers
    StmtsScoped declared visible visible initializers ∧
      (∀ e ∈ condition, e.RefersTo declared inner) ∧
      (∀ e ∈ increments, e.RefersTo declared inner) ∧ body.Scoped declared inner inner
  | _ => True

/-- The statements of a block obey the scoping rules. -/
def StmtsScoped (declared outer visible : List String) (stmts : List Stmt) : Prop :=
  match stmts with
  | [] => True
  | stmt :: rest =>
    stmt.Scoped declared outer visible ∧
      StmtsScoped declared outer (stmt.visibleAfter visible) rest

/-- An optional branch obeys the scoping rules. -/
def OptionalStmtScoped (declared visible : List String) (stmt : Option Stmt) : Prop :=
  match stmt with
  | none => True
  | some stmt => stmt.Scoped declared visible visible

end

/-- A method body obeys the scoping rules of the host language. -/
def ObeysScoping (body : List Stmt) : Prop :=
  StmtsScoped (stmtsDeclaredNames body) [] [] body

/-! ## What a statement leaves unchanged -/

section

variable {effect : Effect} {method : ShaderMethod}

@[simp]
theorem Locals.type?_cons (name other : String) (type : DataType) (locals : Locals) :
    Locals.type? ((other, type) :: locals) name =
      if name = other then some type else locals.type? name := by
  by_cases h : name = other
  · simp [Locals.type?, h]
  · simp [Locals.type?, List.lookup_cons, beq_false_of_ne h, h]

/-- Two views agree on a name, in both scopes. -/
def View.AgreeOn (view after : View effect method) (name : String) : Prop :=
  after.checked.type? name = view.checked.type? name ∧
    after.written.type? name = view.written.type? name

variable {view after : View effect method} {name : String}

theorem View.AgreeOn.trans {inner : View effect method} (h : view.AgreeOn inner name)
    (hn : inner.AgreeOn after name) : view.AgreeOn after name :=
  ⟨hn.1.trans h.1, hn.2.trans h.2⟩

theorem View.agreeOn_declare {other : String} (checked written : DataType) (h : name ≠ other) :
    view.AgreeOn (view.declare other checked written) name := by
  simp [AgreeOn, declare, h]

theorem View.agreeOn_declarators (type : TypeRef) (view : View effect method)
    {ds : List VariableDeclarator} (h : name ∉ ds.map (·.name)) :
    view.AgreeOn (view.declarators type ds).1 name := by
  induction ds generalizing view with
  | nil => exact ⟨rfl, rfl⟩
  | cons declarator rest ih =>
      simp only [List.map_cons, List.mem_cons, not_or] at h
      exact (agreeOn_declare _ _ h.1).trans (ih _ h.2)

theorem View.agreeOn_headerDeclarators (type : TypeRef) (shared : DataType)
    (view : View effect method) {ds : List VariableDeclarator} (h : name ∉ ds.map (·.name)) :
    view.AgreeOn (view.headerDeclarators type shared ds).1 name := by
  induction ds generalizing view with
  | nil => exact ⟨rfl, rfl⟩
  | cons declarator rest ih =>
      simp only [List.map_cons, List.mem_cons, not_or] at h
      exact (agreeOn_declare _ _ h.1).trans (ih _ h.2)

theorem View.agreeOn_headerInitializers (view : View effect method) {initializers : List Stmt}
    (h : name ∉ stmtsDeclaredNames initializers) :
    view.AgreeOn (view.headerInitializers initializers).1 name := by
  induction initializers generalizing view with
  | nil => exact ⟨rfl, rfl⟩
  | cons initializer rest ih =>
      simp only [stmtsDeclaredNames, List.mem_append, not_or] at h
      refine View.AgreeOn.trans ?_ (ih _ h.2)
      obtain ⟨kind, location⟩ := initializer
      cases kind
      case declaration locals => exact agreeOn_headerDeclarators _ _ view h.1
      all_goals exact ⟨rfl, rfl⟩

theorem View.agreeOn_walkStmts {stmts : List Stmt}
    (ih : ∀ stmt ∈ stmts, ∀ view : View effect method, name ∉ stmt.declaredNames →
      view.AgreeOn (view.walkStmt stmt).1 name)
    (view : View effect method) (h : name ∉ stmtsDeclaredNames stmts) :
    view.AgreeOn (view.walkStmts stmts).1 name := by
  induction stmts generalizing view with
  | nil => exact ⟨rfl, rfl⟩
  | cons stmt rest ihs =>
      simp only [stmtsDeclaredNames, List.mem_append, not_or] at h
      refine (ih stmt (by simp) view h.1).trans ?_
      exact ihs (fun other ho => ih other (by simp [ho])) _ h.2

/-- A statement changes the types of no other names than those that it declares. -/
theorem View.agreeOn_walkStmt (stmt : Stmt) (view : View effect method)
    (h : name ∉ stmt.declaredNames) : view.AgreeOn (view.walkStmt stmt).1 name := by
  induction stmt using Stmt.induction generalizing view with
  | step stmt ih =>
      obtain ⟨kind, location⟩ := stmt
      cases kind
      case block body =>
        rw [Stmt.declaredNames] at h
        rw [walkStmt]
        exact agreeOn_walkStmts (fun part hp => ih part (by simp [StmtKind.parts, hp])) view h
      case declaration locals =>
        rw [Stmt.declaredNames] at h
        rw [walkStmt]
        exact agreeOn_declarators _ view h
      case ifElse condition thenBranch elseBranch =>
        rw [Stmt.declaredNames, List.mem_append, not_or] at h
        rw [walkStmt]
        refine (ih thenBranch (by simp [StmtKind.parts]) view h.1).trans ?_
        cases elseBranch with
        | none => exact ⟨rfl, rfl⟩
        | some elseBranch => exact ih elseBranch (by simp [StmtKind.parts]) _ h.2
      case whileLoop condition body =>
        rw [Stmt.declaredNames] at h
        rw [walkStmt]
        exact ih body (by simp [StmtKind.parts]) view h
      case doWhileLoop body condition =>
        rw [Stmt.declaredNames] at h
        rw [walkStmt]
        exact ih body (by simp [StmtKind.parts]) view h
      case forLoop initializers condition increments body =>
        rw [Stmt.declaredNames, List.mem_append, not_or] at h
        rw [walkStmt]
        refine (agreeOn_headerInitializers view h.1).trans ?_
        exact ih body (by simp [StmtKind.parts]) _ h.2
      all_goals exact ⟨rfl, rfl⟩

end

/-! ## Outer variables -/

section

variable {declared outer visible : List String} {name : String}

theorem ScopedDeclarators.not_mem {ds : List VariableDeclarator}
    (h : ScopedDeclarators declared outer visible ds) (hname : name ∈ outer) :
    name ∉ ds.map (·.name) := by
  induction ds generalizing visible with
  | nil => simp
  | cons declarator rest ih =>
      simp only [List.map_cons, List.mem_cons, not_or]
      refine ⟨?_, ih h.2.2⟩
      rintro rfl
      exact h.1 hname

theorem Stmt.subset_visibleAfter (visible : List String) (stmt : Stmt) :
    visible ⊆ stmt.visibleAfter visible := by
  unfold visibleAfter
  split
  · exact List.subset_append_right _ _
  · exact List.Subset.refl _

theorem subset_visibleAfterStmts (visible : List String) (stmts : List Stmt) :
    visible ⊆ visibleAfterStmts visible stmts := by
  induction stmts generalizing visible with
  | nil => exact List.Subset.refl _
  | cons stmt rest ih => exact List.Subset.trans (stmt.subset_visibleAfter visible) (ih _)

theorem StmtsScoped.not_mem {stmts : List Stmt}
    (ih : ∀ stmt ∈ stmts, ∀ {visible}, stmt.Scoped declared outer visible → outer ⊆ visible →
      name ∉ stmt.declaredNames)
    (h : StmtsScoped declared outer visible stmts) (hsub : outer ⊆ visible) :
    name ∉ stmtsDeclaredNames stmts := by
  induction stmts generalizing visible with
  | nil => simp [stmtsDeclaredNames]
  | cons stmt rest ihs =>
      rw [StmtsScoped] at h
      rw [stmtsDeclaredNames, List.mem_append, not_or]
      refine ⟨ih stmt (by simp) h.1 hsub, ?_⟩
      exact ihs (fun other ho => ih other (by simp [ho])) h.2
        (List.Subset.trans hsub (stmt.subset_visibleAfter visible))

/-- A variable of an enclosing block is not declared again. -/
theorem Stmt.Scoped.not_mem {stmt : Stmt} (h : stmt.Scoped declared outer visible)
    (hsub : outer ⊆ visible) (hname : name ∈ outer) : name ∉ stmt.declaredNames := by
  induction stmt using Stmt.induction generalizing outer visible with
  | step stmt ih =>
      obtain ⟨kind, location⟩ := stmt
      cases kind
      case block body =>
        rw [Stmt.Scoped] at h
        rw [Stmt.declaredNames]
        refine h.not_mem ?_ (List.Subset.refl _)
        exact fun part hp _ hpart hinner =>
          ih part (by simp [StmtKind.parts, hp]) hpart hinner (hsub hname)
      case declaration locals =>
        rw [Stmt.Scoped] at h
        rw [Stmt.declaredNames]
        exact h.2.not_mem hname
      case ifElse condition thenBranch elseBranch =>
        rw [Stmt.Scoped] at h
        rw [Stmt.declaredNames, List.mem_append, not_or]
        refine ⟨ih thenBranch (by simp [StmtKind.parts]) h.2.1 (List.Subset.refl _)
          (hsub hname), ?_⟩
        cases elseBranch with
        | none => simp [optionalStmtDeclaredNames]
        | some elseBranch =>
            exact ih elseBranch (by simp [StmtKind.parts]) h.2.2 (List.Subset.refl _) (hsub hname)
      case whileLoop condition body =>
        rw [Stmt.Scoped] at h
        rw [Stmt.declaredNames]
        exact ih body (by simp [StmtKind.parts]) h.2 (List.Subset.refl _) (hsub hname)
      case doWhileLoop body condition =>
        rw [Stmt.Scoped] at h
        rw [Stmt.declaredNames]
        exact ih body (by simp [StmtKind.parts]) h.2 (List.Subset.refl _) (hsub hname)
      case forLoop initializers condition increments body =>
        rw [Stmt.Scoped] at h
        obtain ⟨hheader, -, -, hbody⟩ := h
        rw [Stmt.declaredNames, List.mem_append, not_or]
        constructor
        · refine hheader.not_mem ?_ (List.Subset.refl _)
          exact fun part hp _ hpart hinner =>
            ih part (by simp [StmtKind.parts, hp]) hpart hinner (hsub hname)
        · exact ih body (by simp [StmtKind.parts]) hbody (List.Subset.refl _)
            (subset_visibleAfterStmts visible initializers (hsub hname))
      all_goals simp [Stmt.declaredNames]

/-- Only a declaration adds to what is visible, and every other statement is a block of its own. -/
theorem Stmt.Scoped.of_not_declaration {stmt : Stmt} (h : stmt.Scoped declared outer visible)
    (hkind : ∀ locals, stmt.kind ≠ .declaration locals) : stmt.Scoped declared visible visible := by
  obtain ⟨kind, location⟩ := stmt
  cases kind
  case declaration locals => exact absurd rfl (hkind locals)
  all_goals exact h

end

/-! ## Points where the scopes agree -/

/-- The visible variables at a point have their types in both flat scopes, and what is not declared
in the body is in none of them. -/
structure Point.Sound {effect : Effect} {method : ShaderMethod} (declared visible : List String)
    (point : Point effect method) : Prop where
  visible : ∀ name ∈ visible, ∃ type, point.visible.type? name = some type ∧
    point.checked.type? name = some type ∧ point.written.type? name = some type
  undeclared : ∀ name, name ∉ declared → point.visible.type? name = none ∧
    point.checked.type? name = none ∧ point.written.type? name = none

section

variable {effect : Effect} {method : ShaderMethod} {declared outer visible : List String}
  {point : Point effect method} {e : Expr} {name : String}

namespace Point.Sound

theorem type?_eq (h : point.Sound declared visible) (hname : name ∈ declared → name ∈ visible) :
    point.checked.type? name = point.visible.type? name ∧
      point.written.type? name = point.visible.type? name := by
  by_cases hd : name ∈ declared
  · obtain ⟨type, hvisible, hchecked, hwritten⟩ := h.visible name (hname hd)
    exact ⟨hchecked.trans hvisible.symm, hwritten.trans hvisible.symm⟩
  · obtain ⟨hvisible, hchecked, hwritten⟩ := h.undeclared name hd
    exact ⟨hchecked.trans hvisible.symm, hwritten.trans hvisible.symm⟩

theorem sameNames (h : point.Sound declared visible) (he : e.RefersTo declared visible) :
    point.checkedScope.SameNames point.blockScope e ∧
      point.writtenScope.SameNames point.blockScope e := by
  refine ⟨fun part hp name hk => ?_, fun part hp name hk => ?_⟩
  · have htype := (h.type?_eq (he part hp name hk)).1
    simp only [Scope.lookup?, View.checkedScope, blockScope, htype]
  · have htype := (h.type?_eq (he part hp name hk)).2
    simp only [Scope.lookup?, View.writtenScope, blockScope, htype]

theorem typeOf_eq (h : point.Sound declared visible) (he : e.RefersTo declared visible) :
    point.checkedScope.typeOf e = point.blockScope.typeOf e ∧
      point.writtenScope.typeOf e = point.blockScope.typeOf e := by
  obtain ⟨hchecked, hwritten⟩ := h.sameNames he
  exact ⟨Scope.typeOf_congr e hchecked.references, Scope.typeOf_congr e hwritten.references⟩

theorem localType_eq (h : point.Sound declared visible) (type : TypeRef) {initializer : Option Expr}
    (he : ∀ e ∈ initializer, e.RefersTo declared visible) :
    point.checkedScope.localType type initializer = point.blockScope.localType type initializer ∧
      point.writtenScope.localType type initializer =
        point.blockScope.localType type initializer := by
  cases initializer with
  | none => cases type <;> exact ⟨rfl, rfl⟩
  | some value =>
      cases type with
      | inferred => exact h.typeOf_eq (he value rfl)
      | named | array | pointer => exact ⟨rfl, rfl⟩

theorem declare (h : point.Sound declared visible) (hname : name ∈ declared) (type : DataType) :
    (point.declare name type type type).Sound declared (name :: visible) := by
  constructor
  · intro other ho
    by_cases heq : other = name
    · exact ⟨type, by simp [Point.declare, View.declare, heq]⟩
    · have hvisible := (List.mem_cons.mp ho).resolve_left heq
      simpa [Point.declare, View.declare, heq] using h.visible other hvisible
  · intro other ho
    have hne : other ≠ name := by
      rintro rfl
      exact ho hname
    simpa [Point.declare, View.declare, hne] using h.undeclared other ho

end Point.Sound

/-- The point of a site is sound for what its expression refers to. -/
def Site.Sound (declared : List String) (site : Site effect method) : Prop :=
  ∃ visible, site.point.Sound declared visible ∧ site.value.RefersTo declared visible

/-! ## Declarations -/

theorem sound_declaratorSites {type : TypeRef} {shared : Option DataType}
    {ds : List VariableDeclarator} (hp : point.Sound declared visible)
    (hs : ScopedDeclarators declared outer visible ds) (hd : ds.map (·.name) ⊆ declared)
    (hshared : ∀ given ∈ shared, ∀ scope : Scope, ∀ declarator ∈ ds,
      scope.localType type declarator.initializer = given) :
    ∀ site ∈ point.declaratorSites type shared ds, site.Sound declared := by
  induction ds generalizing point visible with
  | nil => simp [Point.declaratorSites]
  | cons declarator rest ih =>
      obtain ⟨-, hinitializer, hrest⟩ := hs
      obtain ⟨hchecked, hwritten⟩ := hp.localType_eq type hinitializer
      have hsame : shared.getD (point.writtenScope.localType type declarator.initializer) =
          point.blockScope.localType type declarator.initializer := by
        cases shared with
        | none => exact hwritten
        | some given => exact (hshared given rfl point.blockScope declarator (by simp)).symm
      rw [Point.declaratorSites, hchecked, hsame]
      simp only [List.map_cons, List.cons_subset] at hd
      refine List.forall_mem_append.mpr ⟨?_, ?_⟩
      · simp only [List.forall_mem_map, Option.mem_toList]
        exact fun e he => ⟨visible, hp, hinitializer e he⟩
      · refine ih (hp.declare hd.1 _) hrest hd.2 ?_
        exact fun given hg scope other ho => hshared given hg scope other (by simp [ho])

/-- Declared variables have the same types in all three scopes. -/
theorem Point.Sound.declareAll {type : TypeRef} {ds : List VariableDeclarator}
    (hp : point.Sound declared visible) (hs : ScopedDeclarators declared outer visible ds)
    (hd : ds.map (·.name) ⊆ declared) {after : Point effect method}
    (hchecked : after.checked = (point.checkedScope.declareAll type ds).locals)
    (hwritten : after.written = (point.writtenScope.declareAll type ds).locals)
    (hvisible : after.visible = (point.blockScope.declareAll type ds).locals) :
    after.Sound declared ((ds.map (·.name)).reverse ++ visible) := by
  induction ds generalizing point visible with
  | nil =>
      obtain ⟨⟨_, _⟩, _⟩ := after
      obtain ⟨⟨_, _⟩, _⟩ := point
      cases hchecked
      cases hwritten
      cases hvisible
      exact hp
  | cons declarator rest ih =>
      obtain ⟨-, hinitializer, hrest⟩ := hs
      obtain ⟨hsame, hsame'⟩ := hp.localType_eq type hinitializer
      simp only [List.map_cons, List.cons_subset] at hd
      rw [Scope.declareAll] at hchecked hwritten hvisible
      rw [hsame] at hchecked
      rw [hsame'] at hwritten
      simp only [List.map_cons, List.reverse_cons, List.append_assoc, List.singleton_append]
      exact ih (hp.declare hd.1 _) hrest hd.2 hchecked hwritten hvisible

theorem View.declarators_eq (type : TypeRef) (ds : List VariableDeclarator)
    (view : View effect method) :
    (view.declarators type ds).1 =
      { checked := (view.checkedScope.declareAll type ds).locals
        written := (view.writtenScope.declareAll type ds).locals } := by
  induction ds generalizing view with
  | nil => rfl
  | cons declarator rest ih => exact ih _

/-- One type for all variables is the type of each of them. -/
theorem View.headerDeclarators_eq {type : TypeRef} {shared : DataType}
    {ds : List VariableDeclarator} (view : View effect method)
    (h : ∀ scope : Scope, ∀ declarator ∈ ds,
      scope.localType type declarator.initializer = shared) :
    (view.headerDeclarators type shared ds).1 = (view.declarators type ds).1 := by
  induction ds generalizing view with
  | nil => rfl
  | cons declarator rest ih =>
      simp only [headerDeclarators, declarators]
      rw [h view.writtenScope declarator (by simp)]
      exact ih _ fun scope other ho => h scope other (by simp [ho])

theorem Scope.localType_of_ne_inferred {type : TypeRef} (h : type ≠ .inferred) (scope : Scope)
    (initializer : Option Expr) : scope.localType type initializer = type.dataType := by
  cases type with
  | inferred => exact absurd rfl h
  | named | array | pointer => rfl

/-! ## Steps -/

variable {dialect : Dialect} {members : List String}

/-- The point after a statement that declares no visible variable again. -/
theorem Point.Sound.of_agreeOn {names : List String} (hp : point.Sound declared visible)
    {after : Point effect method} (hvisible : after.visible = point.visible)
    (hview : ∀ name, name ∉ names → point.toView.AgreeOn after.toView name)
    (hnames : ∀ name ∈ visible, name ∉ names) (hd : names ⊆ declared) :
    after.Sound declared visible := by
  constructor
  · intro name hname
    obtain ⟨hchecked, hwritten⟩ := hview name (hnames name hname)
    rw [hvisible, hchecked, hwritten]
    exact hp.visible name hname
  · intro name hname
    obtain ⟨hchecked, hwritten⟩ := hview name fun hn => hname (hd hn)
    rw [hvisible, hchecked, hwritten]
    exact hp.undeclared name hname

/-- The point after a block: what was visible before it has kept its types. -/
theorem Point.Sound.afterBlock {stmt : Stmt} (hp : point.Sound declared visible)
    (hs : stmt.Scoped declared visible visible) (hd : stmt.declaredNames ⊆ declared)
    {after : Point effect method} (hview : after.toView = (point.toView.walkStmt stmt).1)
    (hvisible : after.visible = point.visible) : after.Sound declared visible := by
  refine hp.of_agreeOn hvisible (fun name hname => ?_) (fun name hname => ?_) hd
  · rw [hview]
    exact View.agreeOn_walkStmt stmt point.toView hname
  · exact hs.not_mem (List.Subset.refl _) hname

theorem Point.Sound.afterDeclaration {locals : VariableDeclaration} {location : Location}
    (hp : point.Sound declared visible)
    (hs : Stmt.Scoped declared outer visible ⟨.declaration locals, location⟩)
    (hd : locals.declarators.map (·.name) ⊆ declared) {after : Point effect method}
    (hview : after.toView = (point.toView.declarators locals.type locals.declarators).1)
    (hvisible :
      after.visible = (point.blockScope.declareAll locals.type locals.declarators).locals) :
    after.Sound declared ((locals.declarators.map (·.name)).reverse ++ visible) := by
  rw [Stmt.Scoped] at hs
  rw [View.declarators_eq] at hview
  have hchecked := congrArg View.checked hview
  have hwritten := congrArg View.written hview
  exact hp.declareAll hs.2 hd hchecked hwritten hvisible

theorem sound_afterStmt {depth : Nat} {stmt : Stmt} {after : Point effect method}
    (hp : point.Sound declared visible) (hs : stmt.Scoped declared outer visible)
    (hd : stmt.declaredNames ⊆ declared)
    (hok : (checkStmt members point.checkedScope stmt).2 = [])
    (h : point.afterStmt? dialect members depth stmt = some after) :
    after.Sound declared (stmt.visibleAfter visible) ∧
      after.checkedScope = (checkStmt members point.checkedScope stmt).1 := by
  obtain ⟨hview, hvisible, hscope⟩ :=
    Point.after?_eq_some (mirrors_stmt stmt depth point.toView hok) h
  refine ⟨?_, hscope⟩
  obtain ⟨kind, location⟩ := stmt
  cases kind
  case declaration locals =>
    rw [View.walkStmt] at hview
    exact hp.afterDeclaration hs hd hview hvisible
  all_goals
    exact hp.afterBlock (hs.of_not_declaration (by simp)) hd hview hvisible

theorem View.headerInitializer_declaration {locals : VariableDeclaration} {location : Location}
    (view : View effect method)
    (h : locals.type = .inferred → locals.declarators.length = 1) :
    (view.headerInitializer ⟨.declaration locals, location⟩).1 =
      (view.declarators locals.type locals.declarators).1 := by
  obtain ⟨type, ds⟩ := locals
  by_cases hinferred : type = .inferred
  · obtain ⟨declarator, rfl⟩ := List.length_eq_one_iff.mp (h hinferred)
    rfl
  · refine headerDeclarators_eq view fun scope declarator _ => ?_
    rw [Scope.localType_of_ne_inferred hinferred, Scope.localType_of_ne_inferred hinferred]

theorem sound_initializerSites {initializer : Stmt} (hp : point.Sound declared visible)
    (hs : initializer.Scoped declared outer visible) (hd : initializer.declaredNames ⊆ declared) :
    ∀ site ∈ point.initializerSites initializer, site.Sound declared := by
  obtain ⟨kind, location⟩ := initializer
  cases kind
  case expression value =>
    rw [Stmt.Scoped] at hs
    simp only [Point.initializerSites, List.forall_mem_singleton]
    exact ⟨visible, hp, hs⟩
  case declaration locals =>
    rw [Stmt.Scoped] at hs
    obtain ⟨type, ds⟩ := locals
    by_cases hinferred : type = .inferred
    · obtain ⟨declarator, rfl⟩ := List.length_eq_one_iff.mp (hs.1 hinferred)
      -- a single initializer is written before its variable has a type
      have hsites : ∀ site ∈ point.declaratorSites type none [declarator], site.Sound declared :=
        sound_declaratorSites hp hs.2 hd (by simp)
      exact hsites
    · refine sound_declaratorSites hp hs.2 hd ?_
      rintro given ⟨⟩ scope declarator -
      rw [Scope.localType_of_ne_inferred hinferred, Scope.localType_of_ne_inferred hinferred]
  all_goals simp [Point.initializerSites]

theorem sound_afterInitializer {initializer : Stmt} {after : Point effect method}
    (hp : point.Sound declared visible) (hs : initializer.Scoped declared outer visible)
    (hd : initializer.declaredNames ⊆ declared)
    (hok : (checkStmt members point.checkedScope initializer).2 = [])
    (h : point.afterInitializer? dialect members initializer = some after) :
    after.Sound declared (initializer.visibleAfter visible) ∧
      after.checkedScope = (checkStmt members point.checkedScope initializer).1 := by
  obtain ⟨hview, hvisible, hscope⟩ :=
    Point.after?_eq_some (mirrors_headerInitializer point.toView hok) h
  refine ⟨?_, hscope⟩
  obtain ⟨kind, location⟩ := initializer
  cases kind
  case declaration locals =>
    have hsingle := hs
    rw [Stmt.Scoped] at hsingle
    rw [View.headerInitializer_declaration point.toView hsingle.1] at hview
    exact hp.afterDeclaration hs hd hview hvisible
  case expression value =>
    exact hp.afterBlock (hs.of_not_declaration (by simp)) hd hview hvisible
  all_goals cases h

theorem sound_headerSites {initializers : List Stmt} (hp : point.Sound declared visible)
    (hs : StmtsScoped declared outer visible initializers)
    (hd : stmtsDeclaredNames initializers ⊆ declared)
    (hok : (checkStmts members point.checkedScope initializers).2 = []) :
    ∀ site ∈ point.headerSites dialect members initializers, site.Sound declared := by
  induction initializers generalizing point visible with
  | nil => simp [Point.headerSites]
  | cons initializer rest ih =>
      rw [StmtsScoped] at hs
      rw [stmtsDeclaredNames, List.append_subset] at hd
      simp only [checkStmts, List.append_eq_nil_iff] at hok
      rw [Point.headerSites]
      refine List.forall_mem_append.mpr ⟨sound_initializerSites hp hs.1 hd.1, ?_⟩
      intro site hsite
      obtain ⟨after, hafter, hsite⟩ := List.mem_flatMap.mp hsite
      obtain ⟨hsound, hscope⟩ :=
        sound_afterInitializer hp hs.1 hd.1 hok.1 (Option.mem_toList.mp hafter)
      rw [← hscope] at hok
      exact ih hsound hs.2 hd.2 hok.2 site hsite

theorem sound_afterHeader {initializers : List Stmt} {after : Point effect method}
    (hp : point.Sound declared visible) (hs : StmtsScoped declared outer visible initializers)
    (hd : stmtsDeclaredNames initializers ⊆ declared)
    (hok : (checkStmts members point.checkedScope initializers).2 = [])
    (h : point.afterHeader? dialect members initializers = some after) :
    after.Sound declared (visibleAfterStmts visible initializers) ∧
      after.checkedScope = (checkStmts members point.checkedScope initializers).1 := by
  induction initializers generalizing point visible with
  | nil =>
      cases h
      exact ⟨hp, by simp only [checkStmts]⟩
  | cons initializer rest ih =>
      rw [StmtsScoped] at hs
      rw [stmtsDeclaredNames, List.append_subset] at hd
      simp only [checkStmts, List.append_eq_nil_iff] at hok ⊢
      obtain ⟨inner, hinner, hrest⟩ := Option.bind_eq_some_iff.mp h
      obtain ⟨hsound, hscope⟩ := sound_afterInitializer hp hs.1 hd.1 hok.1 hinner
      rw [← hscope] at hok ⊢
      exact ih hsound hs.2 hd.2 hok.2 hrest

/-! ## Walks -/

theorem sound_stmtsSites {depth : Nat} {stmts : List Stmt}
    (ih : ∀ stmt ∈ stmts, ∀ {point : Point effect method} {outer visible} (depth : Nat),
      point.Sound declared visible → stmt.Scoped declared outer visible →
      stmt.declaredNames ⊆ declared → (checkStmt members point.checkedScope stmt).2 = [] →
      ∀ site ∈ point.stmtSites dialect members depth stmt, site.Sound declared)
    (hp : point.Sound declared visible) (hs : StmtsScoped declared outer visible stmts)
    (hd : stmtsDeclaredNames stmts ⊆ declared)
    (hok : (checkStmts members point.checkedScope stmts).2 = []) :
    ∀ site ∈ point.stmtsSites dialect members depth stmts, site.Sound declared := by
  induction stmts generalizing point visible with
  | nil => simp [Point.stmtsSites]
  | cons stmt rest ihs =>
      rw [StmtsScoped] at hs
      rw [stmtsDeclaredNames, List.append_subset] at hd
      simp only [checkStmts, List.append_eq_nil_iff] at hok
      rw [Point.stmtsSites]
      refine List.forall_mem_append.mpr ⟨ih stmt (by simp) depth hp hs.1 hd.1 hok.1, ?_⟩
      intro site hsite
      obtain ⟨after, hafter, hsite⟩ := List.mem_flatMap.mp hsite
      obtain ⟨hsound, hscope⟩ := sound_afterStmt hp hs.1 hd.1 hok.1 (Option.mem_toList.mp hafter)
      rw [← hscope] at hok
      exact ihs (fun other ho => ih other (by simp [ho])) hsound hs.2 hd.2 hok.2 site hsite

/-- Both walks over a statement come to its expressions with sound scopes. -/
theorem sound_stmtSites {stmt : Stmt} (depth : Nat) (hp : point.Sound declared visible)
    (hs : stmt.Scoped declared outer visible) (hd : stmt.declaredNames ⊆ declared)
    (hok : (checkStmt members point.checkedScope stmt).2 = []) :
    ∀ site ∈ point.stmtSites dialect members depth stmt, site.Sound declared := by
  induction stmt using Stmt.induction generalizing depth point outer visible with
  | step stmt ih =>
      obtain ⟨kind, location⟩ := stmt
      cases kind
      case block body =>
        rw [Stmt.Scoped] at hs
        rw [Stmt.declaredNames] at hd
        simp only [checkStmt, Construct.ofStmt?] at hok
        rw [Point.stmtSites]
        refine sound_stmtsSites ?_ hp hs hd hok
        exact fun part hpart _ _ _ depth => ih part (by simp [StmtKind.parts, hpart]) depth
      case expression value =>
        rw [Stmt.Scoped] at hs
        rw [Point.stmtSites, List.forall_mem_singleton]
        exact ⟨visible, hp, hs⟩
      case declaration locals =>
        rw [Stmt.Scoped] at hs
        rw [Point.stmtSites]
        exact sound_declaratorSites hp hs.2 hd (by simp)
      case ifElse condition thenBranch elseBranch =>
        rw [Stmt.Scoped] at hs
        rw [Stmt.declaredNames, List.append_subset] at hd
        simp only [checkStmt, Construct.ofStmt?, List.append_eq_nil_iff] at hok
        obtain ⟨hcondition, hthen, helse⟩ := hs
        obtain ⟨⟨-, hokThen⟩, hokElse⟩ := hok
        rw [Point.stmtSites]
        refine List.forall_mem_cons.mpr ⟨⟨visible, hp, hcondition⟩, ?_⟩
        refine List.forall_mem_append.mpr
          ⟨ih thenBranch (by simp [StmtKind.parts]) _ hp hthen hd.1 hokThen, ?_⟩
        intro site hsite
        obtain ⟨after, hafter, hsite⟩ := List.mem_flatMap.mp hsite
        obtain ⟨hview, -, hscope⟩ := Point.after?_eq_some
          (mirrors_stmt thenBranch _ point.toView hokThen) (Option.mem_toList.mp hafter)
        cases elseBranch with
        | none => simp [Point.optionalStmtSites] at hsite
        | some elseBranch =>
            rw [Point.optionalStmtSites] at hsite
            rw [← hscope] at hokElse
            have hinner : ({ after with visible := point.visible } : Point effect method).Sound
                declared visible := hp.afterBlock hthen hd.1 hview rfl
            exact ih elseBranch (by simp [StmtKind.parts]) _ hinner helse hd.2 hokElse site hsite
      case whileLoop condition body =>
        rw [Stmt.Scoped] at hs
        rw [Stmt.declaredNames] at hd
        simp only [checkStmt, Construct.ofStmt?, List.append_eq_nil_iff] at hok
        rw [Point.stmtSites]
        refine List.forall_mem_cons.mpr ⟨⟨visible, hp, hs.1⟩, ?_⟩
        exact ih body (by simp [StmtKind.parts]) _ hp hs.2 hd hok.2
      case doWhileLoop body condition =>
        rw [Stmt.Scoped] at hs
        rw [Stmt.declaredNames] at hd
        simp only [checkStmt, Construct.ofStmt?, List.append_eq_nil_iff] at hok
        rw [Point.stmtSites]
        refine List.forall_mem_append.mpr
          ⟨ih body (by simp [StmtKind.parts]) _ hp hs.2 hd hok.2, ?_⟩
        intro site hsite
        obtain ⟨after, hafter, rfl⟩ := List.mem_map.mp hsite
        obtain ⟨hview, -, -⟩ := Point.after?_eq_some
          (mirrors_stmt body _ point.toView hok.2) (Option.mem_toList.mp hafter)
        -- the body has left its variables in the written scope only
        refine ⟨visible, hp.of_agreeOn rfl (fun name hname => ⟨rfl, ?_⟩) ?_ hd, hs.1⟩
        · have hagree := View.agreeOn_walkStmt body point.toView hname
          rw [← hview] at hagree
          exact hagree.2
        · exact fun name hname => hs.2.not_mem (List.Subset.refl _) hname
      case forLoop initializers condition increments body =>
        rw [Stmt.Scoped] at hs
        rw [Stmt.declaredNames, List.append_subset] at hd
        simp only [checkStmt, Construct.ofStmt?, List.append_eq_nil_iff] at hok
        obtain ⟨hheader, hcondition, hincrements, hbody⟩ := hs
        obtain ⟨⟨⟨hokHeader, -⟩, -⟩, hokBody⟩ := hok
        rw [Point.stmtSites]
        refine List.forall_mem_append.mpr ⟨sound_headerSites hp hheader hd.1 hokHeader, ?_⟩
        intro site hsite
        obtain ⟨inner, hinner, hsite⟩ := List.mem_flatMap.mp hsite
        obtain ⟨hsound, hscope⟩ :=
          sound_afterHeader hp hheader hd.1 hokHeader (Option.mem_toList.mp hinner)
        rw [← hscope] at hokBody
        simp only [List.mem_append, List.mem_map, Option.mem_toList] at hsite
        obtain (⟨e, he, rfl⟩ | ⟨e, he, rfl⟩) | hsite := hsite
        · exact ⟨_, hsound, hcondition e he⟩
        · exact ⟨_, hsound, hincrements e he⟩
        · exact ih body (by simp [StmtKind.parts]) _ hsound hbody hd.2 hokBody site hsite
      all_goals simp [Point.stmtSites]

end

/-! ## Bodies -/

section

variable {decl : TypeDecl} {effect : Effect} {method : ShaderMethod}

theorem sound_bodySites (hv : isValid decl effect = true) (hm : method ∈ effect.methods)
    (hs : ObeysScoping method.body) (dialect : Dialect) :
    ∀ site ∈ bodySites dialect (memberNames decl effect) effect method,
      site.Sound (stmtsDeclaredNames method.body) := by
  have hstart : ({} : Point effect method).Sound (stmtsDeclaredNames method.body) [] :=
    ⟨by simp, fun _ _ => ⟨rfl, rfl, rfl⟩⟩
  refine sound_stmtsSites ?_ hstart hs (List.Subset.refl _) (checkStmts_of_isValid hv hm)
  exact fun stmt _ _ _ _ depth => sound_stmtSites depth

/-- Where both scopes are sound, a name that is declared in the body is bound to its visible
variable. -/
theorem Point.Sound.lookup?_eq {declared visible : List String} {point : Point effect method}
    (h : point.Sound declared visible) {name : String} (hname : name ∈ visible) :
    ∃ type, point.visible.type? name = some type ∧
      point.checkedScope.lookup? name = some (.localVariable type) ∧
      point.writtenScope.lookup? name = some (.localVariable type) := by
  obtain ⟨type, hvisible, hchecked, hwritten⟩ := h.visible name hname
  refine ⟨type, hvisible, ?_, ?_⟩
  · simp [Scope.lookup?, View.checkedScope, hchecked]
  · simp [Scope.lookup?, View.writtenScope, hwritten]

theorem Scope.typeOf_identifier {scope : Scope} {part : Expr} {name : String} {binding : Binding}
    (hk : part.kind = .identifier name) (hnone : part.annotatedDataType? = none)
    (h : scope.lookup? name = some binding) : scope.typeOf part = binding.type := by
  obtain ⟨kind, location, notes⟩ := part
  obtain rfl : kind = .identifier name := hk
  rw [typeOf, hnone]
  simp only [h]

/-- Flat scopes are sound for block-structured bodies. Wherever the checker and a writer both come
to an expression, all parts of it have the type in either scope that they have by block scoping, and
a reference to a local variable is bound to a variable of the type that its visible declaration has.
If the body can be written, this is so for all expressions in it. -/
theorem flat_scopes_agree_with_blocks (hv : isValid decl effect = true)
    (hm : method ∈ effect.methods) (hs : ObeysScoping method.body) (dialect : Dialect) :
    (∀ site ∈ bodySites dialect (memberNames decl effect) effect method, ∀ part,
      (Node.expr site.value).Contains (.expr part) →
        site.point.checkedScope.typeOf part = site.point.writtenScope.typeOf part ∧
        site.point.checkedScope.typeOf part = site.point.blockScope.typeOf part ∧
        ∀ name, part.kind = .identifier name → name ∈ stmtsDeclaredNames method.body →
          ∃ type, site.point.visible.type? name = some type ∧
            site.point.checkedScope.lookup? name = some (.localVariable type) ∧
            site.point.writtenScope.lookup? name = some (.localVariable type) ∧
            (part.annotatedDataType? = none → site.point.checkedScope.typeOf part = type)) ∧
      ∀ result, dialect.writeStmts 1 { effect, method } method.body = .ok result →
        ∀ stmt ∈ method.body, ∀ part, (Node.stmt stmt).Contains (.expr part) →
          ∃ site ∈ bodySites dialect (memberNames decl effect) effect method,
            (Node.expr site.value).Contains (.expr part) := by
  refine ⟨fun site hsite part hpart => ?_, fun result hr => sitesCover_bodySites ⟨result, hr⟩⟩
  obtain ⟨visible, hsound, hrefers⟩ := sound_bodySites hv hm hs dialect site hsite
  have hrefers' : part.RefersTo (stmtsDeclaredNames method.body) visible :=
    Node.Everywhere.contains hrefers hpart
  obtain ⟨hchecked, hwritten⟩ := hsound.typeOf_eq hrefers'
  refine ⟨hchecked.trans hwritten.symm, hchecked, ?_⟩
  intro name hk hname
  have hvisible := hrefers' part (Node.contains_self _) name hk hname
  obtain ⟨type, hblock, hcheckedType, hwrittenType⟩ := hsound.lookup?_eq hvisible
  exact ⟨type, hblock, hcheckedType, hwrittenType,
    fun hnone => Scope.typeOf_identifier hk hnone hcheckedType⟩

end

/-- A loop whose body declares a name again that has gone out of scope, with another type. -/
def countdown : List Stmt :=
  let number (value : Int64) : Expr := ⟨.literal (.int value), {}, {}⟩
  let declared (type : TypeRef) (name : String) (value : Expr) : Stmt :=
    ⟨.declaration ⟨type, [{ name, initializer := some value }]⟩, {}⟩
  [⟨.block [declared (.named "int") "shown" (number 1)], {}⟩,
    declared .inferred "left" (number 3),
    ⟨.doWhileLoop
      ⟨.block [
        declared .inferred "shown" (.named "Tint"),
        ⟨.expression ⟨.assignment .assign (.named "shade") (.named "shown"), {}, {}⟩, {}⟩,
        ⟨.expression ⟨.unary .postDecrement (.named "left"), {}, {}⟩, {}⟩], {}⟩
      ⟨.binary .less (number 0) (.named "left"), {}, {}⟩, {}⟩]

theorem isValid_countdown : isValid (tinting countdown) (tintingEffect countdown) = true := by
  decide +kernel

theorem obeysScoping_countdown : ObeysScoping countdown := by
  simp [ObeysScoping, countdown, StmtsScoped, Stmt.Scoped, stmtsDeclaredNames, Stmt.declaredNames,
    ScopedDeclarators, Stmt.visibleAfter, Expr.RefersTo, Node.everywhere_expr, ExprKind.parts,
    Expr.named]

/-- The condition of the loop. It is checked before the body and written after it. -/
def countdownCondition : Site (tintingEffect countdown) (tintingShade countdown) where
  point := {
    checked := [("left", .int), ("shown", .int)]
    written := [("shown", .vector4), ("left", .int), ("shown", .int)]
    visible := [("left", .int)] }
  value := ⟨.binary .less ⟨.literal (.int 0), {}, {}⟩ (.named "left"), {}, {}⟩

theorem countdown_scopes_agree :
    countdownCondition ∈ bodySites .hlsl
        (memberNames (tinting countdown) (tintingEffect countdown))
        (tintingEffect countdown) (tintingShade countdown) ∧
      countdownCondition.point.checkedScope.typeOf (.named "left") =
        countdownCondition.point.writtenScope.typeOf (.named "left") ∧
      countdownCondition.point.checkedScope.typeOf (.named "left") =
        countdownCondition.point.blockScope.typeOf (.named "left") ∧
      ∃ type, countdownCondition.point.visible.type? "left" = some type ∧
        countdownCondition.point.checkedScope.lookup? "left" = some (.localVariable type) ∧
        countdownCondition.point.writtenScope.lookup? "left" = some (.localVariable type) := by
  have hsite : countdownCondition ∈ bodySites .hlsl
      (memberNames (tinting countdown) (tintingEffect countdown))
      (tintingEffect countdown) (tintingShade countdown) := List.mem_of_getLast? rfl
  have hpart : (Node.expr countdownCondition.value).Contains (.expr (.named "left")) :=
    .single (by simp [Node.parts, ExprKind.parts, countdownCondition])
  have hname : "left" ∈ stmtsDeclaredNames countdown := by
    simp [countdown, stmtsDeclaredNames, Stmt.declaredNames]
  obtain ⟨hagree, -⟩ := flat_scopes_agree_with_blocks isValid_countdown
    (tintingShade_mem countdown) obeysScoping_countdown .hlsl
  obtain ⟨hsame, hblock, hlocal⟩ := hagree countdownCondition hsite (.named "left") hpart
  obtain ⟨type, hvisible, hchecked, hwritten, -⟩ := hlocal "left" rfl hname
  exact ⟨hsite, hsame, hblock, type, hvisible, hchecked, hwritten⟩

end ShaderEffect
