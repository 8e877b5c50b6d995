import ShaderEffect.Proofs.RewrittenText

/-!
# Effects without qualification

The bare form of an effect names all types without namespaces. The rules for shader bodies are broken
at the same positions in it; only messages name types as they are written. Its methods are compiled to
the text of the methods of the effect, or neither of them is compiled.
-/

namespace ShaderEffect

/-! ## Trees -/

/-- The expression without qualification of types. -/
def Expr.bare (e : Expr) : Expr :=
  e.rewritten .bare .none

/-- The statement without qualification of types. -/
def Stmt.bare (stmt : Stmt) : Stmt :=
  stmt.rewritten .bare .none

theorem map_bare_exprs (es : List Expr) :
    es.map Expr.bare = changeEach (Expr.rewritten .bare) .none es := by
  rw [changeEach_none]
  rfl

theorem map_bare_stmts (stmts : List Stmt) :
    stmts.map Stmt.bare = changeEach (Stmt.rewritten .bare) .none stmts := by
  rw [changeEach_none]
  rfl

theorem Expr.constant?_bare (e : Expr) : e.bare.constant? = e.constant? :=
  e.constant?_rewritten .none

theorem Expr.unparenthesized_bare (e : Expr) :
    e.bare.unparenthesized = e.unparenthesized.rewrittenInside .bare .none := by
  obtain ⟨below, hnone, h⟩ := e.exists_unparenthesized_rewritten .bare .none
  rw [bare, h, hnone rfl]

/-! ## Effects -/

/-- The literal without qualification in its value. -/
def ShaderLiteral.bare (literal : ShaderLiteral) : ShaderLiteral :=
  { literal with value := literal.value.bare }

/-- The method without qualification in its body. -/
def ShaderMethod.bare (method : ShaderMethod) : ShaderMethod :=
  { method with body := method.body.map Stmt.bare }

/-- The effect without qualification in its literals and its methods. -/
def Effect.bare (effect : Effect) : Effect :=
  { effect with
    methods := effect.methods.map ShaderMethod.bare
    literals := effect.literals.map ShaderLiteral.bare }

theorem ShaderLiteral.elements?_bare (literal : ShaderLiteral) :
    literal.bare.elements? = literal.elements?.map (·.map Expr.bare) := by
  simp only [elements?, ShaderLiteral.bare, Expr.unparenthesized_bare, Expr.rewrittenInside]
  cases literal.value.unparenthesized.kind
  case arrayCreation element size initializer =>
    cases initializer with
    | none => simp [rewrittenOptionalValues]
    | some values =>
        simp only [ExprKind.rewritten, rewrittenOptionalValues, rewrittenValues_eq,
          Option.map_some, map_bare_exprs]
        rfl
  case arrayInitializer values =>
    simp only [ExprKind.rewritten, rewrittenValues_eq, Option.map_some, map_bare_exprs]
  all_goals simp only [ExprKind.rewritten, Option.map_none]

theorem ShaderLiteral.outline_bare (literal : ShaderLiteral) :
    literal.bare.outline = literal.outline := by
  simp only [outline, length?, elements?_bare, Option.map_map, Function.comp_def, List.length_map]
  rfl

theorem Effect.literal?_bare (effect : Effect) (name : String) :
    effect.bare.literal? name = (effect.literal? name).map ShaderLiteral.bare := by
  simp only [literal?, Effect.bare, List.find?_map]
  rfl

theorem Effect.method?_bare (effect : Effect) (name : String) :
    effect.bare.method? name = (effect.method? name).map ShaderMethod.bare := by
  simp only [method?, Effect.bare, List.find?_map]
  rfl

theorem Effect.matches_bare (effect : Effect) (method : ShaderMethod) :
    Scope.Matches { effect := effect.bare, method := method.bare } { effect, method } where
  locals := rfl
  name := rfl
  stage := rfl
  parameters := rfl
  constants := rfl
  literals name := by
    have houtline : ShaderLiteral.outline ∘ ShaderLiteral.bare = ShaderLiteral.outline :=
      funext ShaderLiteral.outline_bare
    rw [effect.literal?_bare, Option.map_map, houtline]
  textures := rfl

/-! ## Positions -/

section

variable {φ : Type}

/-- The positions of what is found. -/
def positions (found : List (Located φ)) : List Location :=
  found.map (·.location)

@[simp]
theorem positions_append (first second : List (Located φ)) :
    positions (first ++ second) = positions first ++ positions second :=
  List.map_append

theorem positions_eq_nil {found : List (Located φ)} : positions found = [] ↔ found = [] :=
  List.map_eq_nil_iff

theorem positions_flatMap_bare {α : Type} {bareOf : α → α} {f g : α → List (Located φ)}
    {xs : List α} (h : ∀ x ∈ xs, positions (f (bareOf x)) = positions (g x)) :
    positions ((xs.map bareOf).flatMap f) = positions (xs.flatMap g) := by
  induction xs with
  | nil => rfl
  | cons x xs ih =>
      rw [List.forall_mem_cons] at h
      simp only [List.map_cons, List.flatMap_cons, positions_append, h.1, ih h.2]

end

/-- The view of findings without messages is that of their positions. -/
theorem positions_eq_of_view {first second : List Finding}
    (h : Naming.bare.view first = Naming.bare.view second) :
    positions first = positions second := by
  have hview (found : List Finding) : (Naming.bare.view found).map Prod.fst = positions found := by
    rw [Naming.view, positions, List.map_map]
    rfl
  rw [← hview, h, hview]

/-- The rules for bodies are broken at the same positions with and without qualification. -/
theorem checkBody_bare (members : List String) (effect : Effect) (method : ShaderMethod) :
    positions (checkBody members effect.bare method.bare) =
      positions (checkBody members effect method) := by
  have hbody : CheckedAlike .bare (checkStmts members _ _) _ :=
    checkStmts_rewritten members method.body (effect.matches_bare method) .none
  rw [← map_bare_stmts] at hbody
  exact positions_eq_of_view hbody.findings

/-! ## Texts -/

section

variable {α β : Type} {x y : Except CompileError α}

/-- What is done next with the same value gives the same text. -/
protected theorem SameText.bind {f g : α → Except CompileError β} (h : SameText True x y)
    (hf : ∀ a, SameText True (f a) (g a)) : SameText True (x >>= f) (y >>= g) := by
  refine Alike.bind h fun a b hab => ?_
  obtain rfl := hab trivial
  exact hf a

theorem SameText.eq_ok_iff (h : SameText True x y) {a : α} : x = .ok a ↔ y = .ok a := by
  cases h with
  | ok h => rw [h trivial]
  | error e e' => simp

end

namespace Dialect

variable (dialect : Dialect) {scope scope' : Scope}

theorem writeLiteral_bare (h : scope'.Matches scope) (literal : ShaderLiteral) :
    SameText True (dialect.writeLiteral scope' literal.bare)
      (dialect.writeLiteral scope literal) := by
  simp only [writeLiteral, ShaderLiteral.elements?_bare]
  cases literal.elements? with
  | some elements =>
      simp only [Option.map_some, map_bare_exprs]
      exact (dialect.renderTexts_rewritten h (fun _ => rfl) elements).bind fun _ => .refl _
  | none => exact (dialect.renderText_rewritten h (fun _ => rfl) literal.value).bind fun _ => .refl _

theorem endsWithReturn_bare (body : List Stmt) :
    endsWithReturn (body.map Stmt.bare) = endsWithReturn body := by
  rw [endsWithReturn, endsWithReturn, List.getLast?_map]
  cases body.getLast? with
  | none => rfl
  | some stmt =>
      obtain ⟨kind, location⟩ := stmt
      rw [Option.map_some, Stmt.bare, Stmt.rewritten]
      cases kind <;> simp only [StmtKind.rewritten]

theorem writeUnit_bare (effect : Effect) (method : ShaderMethod) :
    SameText True (dialect.writeUnit effect.bare method.bare)
      (dialect.writeUnit effect method) := by
  have hend : dialect.entryPointEnd method.bare = dialect.entryPointEnd method := by
    simp only [entryPointEnd, ShaderMethod.bare, endsWithReturn_bare]
  have hgap : gapAfter effect.bare.literals = gapAfter effect.literals := by
    simp [gapAfter, Effect.bare]
  have hliterals : effect.bare.literals =
      changeEach (fun _ => ShaderLiteral.bare) .none effect.literals := by
    rw [changeEach_none]
    rfl
  have hmatches := effect.matches_bare method
  have hbody : SameScoped True
      (dialect.writeStmts 1 { effect := effect.bare, method := method.bare } method.bare.body)
      (dialect.writeStmts 1 { effect, method } method.body) := by
    have hstmts : method.bare.body = changeEach (Stmt.rewritten .bare) .none method.body :=
      map_bare_stmts method.body
    rw [hstmts]
    exact dialect.writeStmts_rewritten method.body 1 hmatches fun _ => rfl
  simp only [writeUnit, hend, hgap]
  rw [hliterals]
  refine (SameText.mapM (fun _ => rfl) fun literal _ _ _ =>
    dialect.writeLiteral_bare hmatches literal).bind fun _ => ?_
  refine SameText.bind (.refl _) fun _ => ?_
  refine SameText.bind (.refl _) fun _ => ?_
  refine SameText.bind (.refl _) fun _ => ?_
  exact Alike.bind hbody fun _ _ hwritten => .pure fun ht => by rw [hwritten.2 ht]; rfl

end Dialect

/-- A method has the same text with and without qualification, in every language, or none. -/
theorem Effect.compile_bare (effect : Effect) (dialect : Dialect) (method : String) :
    SameText True (effect.bare.compile dialect method) (effect.compile dialect method) := by
  simp only [compile, Effect.method?_bare]
  cases effect.method? method with
  | none => exact .refl _
  | some shader => exact (dialect.writeUnit_bare effect shader).bind fun _ => .refl _

end ShaderEffect
