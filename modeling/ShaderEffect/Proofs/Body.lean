import ShaderEffect.Proofs.Checked

/-!
# Accepted bodies

The checker threads one growing scope through a body. Each node of an accepted body is accepted in the
scope in which the checker meets it, and the local variables of that scope hide neither members of the
effect nor parameters of the method.
-/

namespace ShaderEffect

/-! ## The scopes of the parts of a node -/

/-- Statements in the scopes in which they are checked one after the other. -/
def stmtsIn (members : List String) (scope : Scope) : List Stmt → List (Scope × Node)
  | [] => []
  | stmt :: rest =>
    (scope, .stmt stmt) :: stmtsIn members (checkStmt members scope stmt).1 rest

/-- The initializers of variables in the scopes in which they are checked: each sees the variables
before its own. -/
def initializersIn (type : TypeRef) (scope : Scope) :
    List VariableDeclarator → List (Scope × Node)
  | [] => []
  | declarator :: rest =>
    let after := scope.declare declarator.name (scope.localType type declarator.initializer)
    declarator.initializer.toList.map (fun e => (scope, .expr e)) ++ initializersIn type after rest

/-- The parts of a statement in the scopes in which they are checked. -/
def StmtKind.partsIn (members : List String) (scope : Scope) : StmtKind → List (Scope × Node)
  | .block body => stmtsIn members scope body
  | .declaration locals => initializersIn locals.type scope locals.declarators
  | .ifElse condition thenBranch elseBranch =>
    (scope, .expr condition) :: (scope, .stmt thenBranch) ::
      elseBranch.toList.map fun stmt => ((checkStmt members scope thenBranch).1, .stmt stmt)
  | .forLoop initializers condition increments body =>
    let inner := (checkStmts members scope initializers).1
    stmtsIn members scope initializers ++ condition.toList.map (fun e => (inner, .expr e)) ++
      increments.map (fun e => (inner, .expr e)) ++ [(inner, .stmt body)]
  | kind => kind.parts.map fun part => (scope, part)

/-- The parts of a node in the scopes in which they are checked. -/
def Node.partsIn (members : List String) (scope : Scope) : Node → List (Scope × Node)
  | .stmt s => s.kind.partsIn members scope
  | node => node.parts.map fun part => (scope, part)

theorem map_stmtsIn (members : List String) (scope : Scope) (stmts : List Stmt) :
    (stmtsIn members scope stmts).map (·.2) = stmts.map .stmt := by
  induction stmts generalizing scope with
  | nil => rfl
  | cons stmt rest ih => simp [stmtsIn, ih]

theorem map_initializersIn (type : TypeRef) (scope : Scope)
    (declarators : List VariableDeclarator) :
    (initializersIn type scope declarators).map (·.2) =
      (declarators.filterMap (·.initializer)).map .expr := by
  induction declarators generalizing scope with
  | nil => rfl
  | cons declarator rest ih =>
      cases hi : declarator.initializer <;> simp [initializersIn, hi, ih]

theorem Node.map_partsIn (members : List String) (scope : Scope) (node : Node) :
    (node.partsIn members scope).map (·.2) = node.parts := by
  cases node with
  | expr e => simp [partsIn, Function.comp_def]
  | argument a => simp [partsIn, Function.comp_def]
  | stmt stmt =>
      obtain ⟨kind, location⟩ := stmt
      cases kind
      case block body => exact map_stmtsIn members scope body
      case declaration locals => exact map_initializersIn locals.type scope locals.declarators
      all_goals
        simp [partsIn, parts, StmtKind.partsIn, StmtKind.parts, map_stmtsIn, Function.comp_def]

theorem Node.exists_mem_partsIn (members : List String) (scope : Scope) {part node : Node}
    (h : part ∈ node.parts) : ∃ inner, (inner, part) ∈ node.partsIn members scope := by
  rw [← map_partsIn members scope, List.mem_map] at h
  obtain ⟨⟨inner, _⟩, hp, rfl⟩ := h
  exact ⟨inner, hp⟩

/-! ## Local variables that hide nothing -/

/-- A scope of a method of an effect in which no local variable has the name of a member or of a
parameter. -/
structure Scope.FreshLocals (members : List String) (effect : Effect) (method : ShaderMethod)
    (scope : Scope) : Prop where
  effect_eq : scope.effect = effect
  method_eq : scope.method = method
  fresh : ∀ name, (scope.locals.type? name).isSome →
    name ∉ members ∧ method.parameter? name = none

section

variable {members : List String} {effect : Effect} {method : ShaderMethod} {scope : Scope}

theorem Scope.freshLocals_start (members : List String) (effect : Effect)
    (method : ShaderMethod) : ({ effect, method } : Scope).FreshLocals members effect method :=
  ⟨rfl, rfl, by simp [Locals.type?]⟩

theorem checkLocalName_eq_nil {name : String} {location : Location}
    (h : checkLocalName members method name location = []) :
    name ∉ members ∧ method.parameter? name = none := by
  simp only [checkLocalName, List.append_eq_nil_iff] at h
  by_cases hm : name ∈ members
  · simp [hm] at h
  · simpa [hm] using h.2

theorem Scope.FreshLocals.declare (hf : scope.FreshLocals members effect method)
    {name : String} {location : Location} (type : DataType)
    (h : checkLocalName members scope.method name location = []) :
    (scope.declare name type).FreshLocals members effect method := by
  refine ⟨hf.effect_eq, hf.method_eq, ?_⟩
  intro other ho
  by_cases hn : other = name
  · subst hn
    rw [hf.method_eq] at h
    exact checkLocalName_eq_nil h
  · apply hf.fresh
    have hb : (other == name) = false := by simpa using hn
    simpa [Scope.declare, Locals.type?, List.lookup_cons, hb] using ho

theorem checkDeclarators_fresh {type : TypeRef} {location : Location}
    {declarators : List VariableDeclarator} (hf : scope.FreshLocals members effect method)
    (h : (checkDeclarators members type location scope declarators).2 = []) :
    (checkDeclarators members type location scope declarators).1.FreshLocals
      members effect method := by
  induction declarators generalizing scope with
  | nil => exact hf
  | cons declarator rest ih =>
      simp only [checkDeclarators, checkDeclarator, List.append_eq_nil_iff] at h ⊢
      exact ih (hf.declare _ h.1.2) h.2

theorem checkStmts_fresh {stmts : List Stmt}
    (ih : ∀ stmt ∈ stmts, ∀ scope : Scope, scope.FreshLocals members effect method →
      (checkStmt members scope stmt).2 = [] →
      (checkStmt members scope stmt).1.FreshLocals members effect method)
    (hf : scope.FreshLocals members effect method) (h : (checkStmts members scope stmts).2 = []) :
    (checkStmts members scope stmts).1.FreshLocals members effect method := by
  induction stmts generalizing scope with
  | nil =>
      simp only [checkStmts]
      exact hf
  | cons stmt rest ihs =>
      simp only [checkStmts, List.append_eq_nil_iff] at h ⊢
      have hstmt := ih stmt (by simp) scope hf h.1
      exact ihs (fun other ho => ih other (by simp [ho])) hstmt h.2

/-- An accepted statement leaves behind a scope in which no local variable hides anything. -/
theorem checkStmt_fresh (stmt : Stmt) (scope : Scope)
    (hf : scope.FreshLocals members effect method) (h : (checkStmt members scope stmt).2 = []) :
    (checkStmt members scope stmt).1.FreshLocals members effect method := by
  induction stmt using Stmt.induction generalizing scope with
  | step stmt ih =>
      obtain ⟨kind, location⟩ := stmt
      cases kind
      case block body =>
        simp only [checkStmt, Construct.ofStmt?] at h ⊢
        exact checkStmts_fresh (fun part hp => ih part (by simp [StmtKind.parts, hp])) hf h
      case declaration locals =>
        simp only [checkStmt, Construct.ofStmt?] at h ⊢
        exact checkDeclarators_fresh hf h
      case ifElse condition thenBranch elseBranch =>
        simp only [checkStmt, Construct.ofStmt?, List.append_eq_nil_iff] at h ⊢
        have hthen := ih thenBranch (by simp [StmtKind.parts]) scope hf h.1.2
        cases elseBranch with
        | none =>
            simp only [checkOptionalStmt]
            exact hthen
        | some elseBranch =>
            simp only [checkOptionalStmt] at h ⊢
            exact ih elseBranch (by simp [StmtKind.parts]) _ hthen h.2
      case whileLoop condition body | doWhileLoop body condition =>
        simp only [checkStmt, Construct.ofStmt?, List.append_eq_nil_iff] at h ⊢
        exact ih body (by simp [StmtKind.parts]) scope hf h.2
      case forLoop initializers condition increments body =>
        simp only [checkStmt, Construct.ofStmt?, List.append_eq_nil_iff] at h ⊢
        have hinner := checkStmts_fresh
          (fun part hp => ih part (by simp [StmtKind.parts, hp])) hf h.1.1.1
        exact ih body (by simp [StmtKind.parts]) _ hinner h.2
      case returning value =>
        cases value <;> simpa [checkStmt, Construct.ofStmt?] using hf
      all_goals simpa [checkStmt, Construct.ofStmt?] using hf

/-! ## Accepted nodes -/

/-- A scope that is met in an accepted body together with a node that is accepted in it. -/
def AcceptedIn (members : List String) (effect : Effect) (method : ShaderMethod)
    (place : Scope × Node) : Prop :=
  place.1.FreshLocals members effect method ∧ place.1.Accepts members place.2

theorem acceptedIn_stmtsIn {stmts : List Stmt} (hf : scope.FreshLocals members effect method)
    (h : (checkStmts members scope stmts).2 = []) :
    ∀ place ∈ stmtsIn members scope stmts, AcceptedIn members effect method place := by
  induction stmts generalizing scope with
  | nil => simp [stmtsIn]
  | cons stmt rest ih =>
      simp only [checkStmts, List.append_eq_nil_iff] at h
      intro place hp
      rcases List.mem_cons.mp hp with rfl | hp
      · exact ⟨hf, h.1⟩
      · exact ih (checkStmt_fresh stmt scope hf h.1) h.2 place hp

theorem acceptedIn_initializersIn {type : TypeRef} {location : Location}
    {declarators : List VariableDeclarator} (hf : scope.FreshLocals members effect method)
    (h : (checkDeclarators members type location scope declarators).2 = []) :
    ∀ place ∈ initializersIn type scope declarators, AcceptedIn members effect method place := by
  induction declarators generalizing scope with
  | nil => simp [initializersIn]
  | cons declarator rest ih =>
      simp only [checkDeclarators, checkDeclarator, List.append_eq_nil_iff] at h
      intro place hp
      simp only [initializersIn, List.mem_append, List.mem_map, Option.mem_toList] at hp
      rcases hp with ⟨e, he, rfl⟩ | hp
      · have hinit := h.1.1.1
        rw [he, Scope.checkOption] at hinit
        exact ⟨hf, .checked hinit⟩
      · exact ih (hf.declare _ h.1.2) h.2 place hp

/-- The step of the walk: the parts of an accepted statement are accepted where they are met. -/
theorem acceptedIn_stmt_parts {stmt : Stmt} (hf : scope.FreshLocals members effect method)
    (h : (checkStmt members scope stmt).2 = []) :
    ∀ place ∈ stmt.kind.partsIn members scope, AcceptedIn members effect method place := by
  obtain ⟨kind, location⟩ := stmt
  cases kind
  case block body =>
    simp only [checkStmt, Construct.ofStmt?] at h
    exact acceptedIn_stmtsIn hf h
  case declaration locals =>
    simp only [checkStmt, Construct.ofStmt?] at h
    exact acceptedIn_initializersIn hf h
  case expression value =>
    simp only [checkStmt, Construct.ofStmt?] at h
    intro place hp
    obtain rfl : place = (scope, .expr value) := by
      simpa [StmtKind.partsIn, StmtKind.parts] using hp
    exact ⟨hf, .checked h⟩
  case ifElse condition thenBranch elseBranch =>
    simp only [checkStmt, Construct.ofStmt?, List.append_eq_nil_iff] at h
    intro place hp
    simp only [StmtKind.partsIn, List.mem_cons, List.mem_map, Option.mem_toList] at hp
    rcases hp with rfl | rfl | ⟨branch, hb, rfl⟩
    · exact ⟨hf, .checked h.1.1⟩
    · exact ⟨hf, h.1.2⟩
    · subst hb
      exact ⟨checkStmt_fresh thenBranch scope hf h.1.2, h.2⟩
  case whileLoop condition body | doWhileLoop body condition =>
    simp only [checkStmt, Construct.ofStmt?, List.append_eq_nil_iff] at h
    intro place hp
    simp only [StmtKind.partsIn, StmtKind.parts, List.map_cons, List.map_nil, List.mem_cons,
      List.not_mem_nil, or_false] at hp
    rcases hp with rfl | rfl
    · exact ⟨hf, .checked h.1⟩
    · exact ⟨hf, h.2⟩
  case forLoop initializers condition increments body =>
    simp only [checkStmt, Construct.ofStmt?, List.append_eq_nil_iff] at h
    obtain ⟨⟨⟨hinit, hcondition⟩, hincrements⟩, hbody⟩ := h
    have hinner := checkStmts_fresh (fun stmt _ => checkStmt_fresh stmt) hf hinit
    intro place hp
    simp only [StmtKind.partsIn, List.mem_append, List.mem_map, Option.mem_toList,
      List.mem_singleton] at hp
    rcases hp with ((hp | ⟨e, he, rfl⟩) | ⟨e, he, rfl⟩) | rfl
    · exact acceptedIn_stmtsIn hf hinit place hp
    · rw [he, Scope.checkOption] at hcondition
      exact ⟨hinner, .checked hcondition⟩
    · exact ⟨hinner, .checked (List.flatMap_eq_nil_iff.mp hincrements e he)⟩
    · exact ⟨hinner, hbody⟩
  case returning value =>
    cases value with
    | none => simp [StmtKind.partsIn, StmtKind.parts]
    | some value => simp [checkStmt, Construct.ofStmt?] at h
  case empty | breakLoop | continueLoop => simp [StmtKind.partsIn, StmtKind.parts]
  all_goals simp [checkStmt, Construct.ofStmt?] at h

/-- The step of the walk for any node. -/
theorem acceptedIn_parts {node : Node} (h : AcceptedIn members effect method (scope, node))
    (hs : node.SymbolsOnIdentifiers) :
    ∀ place ∈ node.partsIn members scope, AcceptedIn members effect method place := by
  obtain ⟨hf, ha⟩ := h
  cases node with
  | stmt stmt => exact acceptedIn_stmt_parts hf ha
  | expr e =>
      intro place hp
      obtain ⟨part, hpart, rfl⟩ := List.mem_map.mp hp
      exact ⟨hf, Scope.Passes.accepts ha hs part hpart⟩
  | argument a =>
      intro place hp
      obtain rfl : place = (scope, .expr a.value) := by
        simpa [Node.partsIn, Node.parts] using hp
      exact ⟨hf, ha.2⟩

/-- Every node of an accepted one is accepted in some scope. -/
theorem AcceptedIn.contains {whole node : Node}
    (h : AcceptedIn members effect method (scope, whole)) (hs : whole.SymbolsOnIdentifiers)
    (hn : whole.Contains node) : ∃ inner, AcceptedIn members effect method (inner, node) := by
  -- the scope changes from node to node, so that the invariant only says there is one
  refine (Node.contains_invariant (P := fun node => node.SymbolsOnIdentifiers ∧
    ∃ inner, AcceptedIn members effect method (inner, node)) ?_ ⟨hs, scope, h⟩ hn).2
  rintro outer ⟨hs, scope, h⟩ part hp
  obtain ⟨inner, hinner⟩ := Node.exists_mem_partsIn members scope hp
  exact ⟨hs.part hp, inner, acceptedIn_parts h hs _ hinner⟩

end

end ShaderEffect
