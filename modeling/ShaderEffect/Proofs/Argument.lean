import ShaderEffect.Proofs.Site

/-!
# Arguments by position

Arguments are written in the order in which they stand, without their names and without the way in
which they are passed. In the bodies of a valid effect nothing is lost by this: no argument that is
written has a name or is passed by reference, whatever the scope it is written in. The values of
literals are checked apart from bodies, and there names are not looked at.
-/

namespace ShaderEffect

/-- The arguments of a construction or an invocation. -/
def ExprKind.arguments : ExprKind → List Argument
  | .invocation _ arguments | .objectCreation _ arguments _ => arguments
  | _ => []

/-- The arguments have no names and are passed by value, so that their order says it all. -/
def Expr.Positional (e : Expr) : Prop :=
  ∀ argument ∈ e.kind.arguments, argument.name = none ∧ argument.mode = .byValue

/-! ## Checked expressions in any scope -/

theorem Construct.ofArgument?_eq_none {argument : Argument}
    (h : Construct.ofArgument? argument = none) :
    argument.name = none ∧ argument.mode = .byValue := by
  unfold ofArgument? at h
  split at h
  · cases h
  · split at h
    · cases h
    · simp_all

namespace Scope

variable {s t : Scope} {e operand : Expr}

theorem positional_of_checkExpr (h : s.checkExpr e = []) : e.Positional := by
  have hpositional {arguments : List Argument} (ha : s.checkArguments arguments = []) :
      ∀ argument ∈ arguments, argument.name = none ∧ argument.mode = .byValue :=
    fun argument hmem => Construct.ofArgument?_eq_none (checkArguments_eq_nil.mp ha argument hmem).1
  obtain ⟨kind, location, notes⟩ := e
  cases kind
  case invocation callee arguments => exact hpositional (checkExpr_invocation.mp h).1
  case objectCreation type arguments initializer =>
    exact hpositional (checkExpr_objectCreation.mp h).2.1
  all_goals exact fun argument ha => (List.not_mem_nil ha).elim

/-- An expression names a type in all scopes, unless it is a plain name. -/
theorem staticReceiver?_of_not_identifier (h : (s.staticReceiver? e).isSome)
    (hk : ∀ name, e.kind ≠ .identifier name) (t : Scope) : (t.staticReceiver? e).isSome := by
  unfold staticReceiver? at h
  split at h
  · rename_i name hn
    simp [staticReceiver?, hn]
  · split at h
    · exact (hk _ ‹_›).elim
    · cases h

/-- The receiver of a call is checked, whatever the scope in which it is the receiver, unless it is
a plain name: only a name can stand for a type in one scope and for a value in another. -/
theorem checkExpr_receiver {call : Call} (h : s.checkExpr e = []) (hc : t.call? e = some call)
    (hr : call.receiver = some operand) (hk : ∀ name, operand.kind ≠ .identifier name) :
    s.checkExpr operand = [] := by
  obtain ⟨callee, target, member, he, hm, hmethod, hreceiver⟩ := call?_eq_some hc
  obtain ⟨hstatic, rfl⟩ : call.method.isStatic = false ∧ target = operand := by
    rw [hreceiver] at hr
    split at hr
    · cases hr
    · rename_i hs
      exact ⟨by simpa using hs, Option.some.inj hr⟩
  obtain ⟨kind, location, notes⟩ := e
  subst he
  obtain ⟨-, checked, hchecked, hcheck, -⟩ := checkExpr_invocation.mp h
  obtain ⟨callee', target', member', he', hm', hmethod', hreceiver'⟩ := call?_eq_some hchecked
  obtain rfl : callee = callee' := (by simpa using he' : _ ∧ _).1
  obtain ⟨rfl, rfl⟩ : target = target' ∧ member = member' := by simpa [hm] using hm'
  rw [← checkReceiver_eq callee hm]
  apply hcheck
  -- the checker would take the method for a static one only if it took the target for a type
  cases hs : checked.method.isStatic with
  | false => simp [hreceiver', hs]
  | true =>
      rw [hmethod'] at hs
      rw [hmethod] at hstatic
      cases ha : Expr.annotatedMethod? ⟨.invocation callee call.arguments, location, notes⟩ with
      | some method => simp_all
      | none =>
          simp only [ha, Option.getD_none, inferredMethod] at hs hstatic
          have htype := staticReceiver?_of_not_identifier hs hk t
          simp [htype] at hstatic

theorem checkExpr_operand_of_not_identifier (h : s.checkExpr e = []) (ho : operand ∈ t.operands e)
    (hk : ∀ name, operand.kind ≠ .identifier name) : s.checkExpr operand = [] := by
  obtain ⟨kind, location, notes⟩ := e
  cases kind
  case memberAccess target member =>
    simp only [operands] at ho
    split at ho
    · cases ho
    · rename_i htype
      obtain rfl := List.mem_singleton.mp ho
      have hnone : s.staticReceiver? operand = none := by
        rw [← Option.not_isSome_iff_eq_none]
        exact fun hsome => htype (staticReceiver?_of_not_identifier hsome hk t)
      rw [checkExpr_memberAccess, hnone] at h
      exact h.1
  case invocation callee arguments =>
    cases hc : t.call? ⟨.invocation callee arguments, location, notes⟩ with
    | none => simp [operands, hc] at ho
    | some call =>
        rcases mem_operands_invocation hc ho with hr | ⟨argument, ha, rfl⟩
        · exact checkExpr_receiver h hc hr hk
        · exact (checkArguments_eq_nil.mp (checkExpr_invocation.mp h).1 argument ha).2
  all_goals exact checkExpr_operand h ho

/-- All that is written for an accepted expression has its arguments by position, in the scope of
the checker and in any other one. -/
theorem Passes.throughout_positional (t : Scope) (e : Expr) (h : s.Passes e) :
    t.Throughout Expr.Positional e := by
  induction e using Expr.induction with
  | step e ih =>
      suffices hstep : e.Positional ∧ ∀ operand ∈ t.operands e, s.Passes operand by
        refine throughout_iff.mpr ⟨hstep.1, fun operand ho => ?_⟩
        obtain ⟨part, hp, hi⟩ := contains_operand ho
        exact ih part hp operand hi (hstep.2 operand ho)
      cases h with
      | checked h =>
          refine ⟨positional_of_checkExpr h, fun operand ho => ?_⟩
          by_cases hk : ∃ name, operand.kind = .identifier name
          · obtain ⟨name, hk⟩ := hk
            exact .name hk
          · exact .checked (checkExpr_operand_of_not_identifier h ho (not_exists.mp hk))
      | name h => simp [Expr.Positional, ExprKind.arguments, operands, h]
      | @member _ target _ h ht =>
          refine ⟨by simp [Expr.Positional, ExprKind.arguments, h], fun operand ho => ?_⟩
          simp only [operands, h] at ho
          split at ho
          · cases ho
          · exact List.mem_singleton.mp ho ▸ ht
      | parenthesized h hi =>
          refine ⟨by simp [Expr.Positional, ExprKind.arguments, h], fun operand ho => ?_⟩
          simp only [operands, h] at ho
          exact List.mem_singleton.mp ho ▸ hi

end Scope

/-! ## Bodies -/

/-- Each expression that stands in an accepted statement is accepted in some scope. -/
theorem Stmt.Evaluates.acceptedIn {members : List String} {effect : Effect} {method : ShaderMethod}
    {scope : Scope} {stmt : Stmt} {e : Expr} (h : stmt.Evaluates e)
    (ha : AcceptedIn members effect method (scope, .stmt stmt)) :
    ∃ inner, AcceptedIn members effect method (inner, .expr e) := by
  induction h generalizing scope with
  | @direct stmt e h =>
      have hpart : Node.expr e ∈ (Node.stmt stmt).parts := StmtKind.expr_mem_parts h
      obtain ⟨inner, hinner⟩ := Node.exists_mem_partsIn members scope hpart
      exact ⟨inner, acceptedIn_stmt_parts ha.1 ha.2 _ hinner⟩
  | @branch stmt part e hp _ ih =>
      have hpart : Node.stmt part ∈ (Node.stmt stmt).parts := StmtKind.stmt_mem_parts hp
      obtain ⟨inner, hinner⟩ := Node.exists_mem_partsIn members scope hpart
      exact ih (acceptedIn_stmt_parts ha.1 ha.2 _ hinner)

/-! ## Values of literals -/

mutual

/-- The value of a literal without the names and the passing modes of arguments in it. -/
def Expr.unnamed (e : Expr) : Expr :=
  match e with
  | ⟨.parenthesized inner, location, notes⟩ => ⟨.parenthesized inner.unnamed, location, notes⟩
  | ⟨.unary op operand, location, notes⟩ => ⟨.unary op operand.unnamed, location, notes⟩
  | ⟨.objectCreation type arguments none, location, notes⟩ =>
    ⟨.objectCreation type (unnamedArguments arguments) none, location, notes⟩
  | ⟨.arrayCreation type size (some values), location, notes⟩ =>
    ⟨.arrayCreation type size (some (unnamedValues values)), location, notes⟩
  | ⟨.arrayInitializer values, location, notes⟩ =>
    ⟨.arrayInitializer (unnamedValues values), location, notes⟩
  | e => e

/-- The values of arguments alone. -/
def unnamedArguments : List Argument → List Argument
  | [] => []
  | ⟨_, _, value⟩ :: rest => { value := value.unnamed } :: unnamedArguments rest

/-- The elements of an array. -/
def unnamedValues : List Expr → List Expr
  | [] => []
  | value :: rest => value.unnamed :: unnamedValues rest

end

theorem unnamedValues_eq_map (values : List Expr) :
    unnamedValues values = values.map Expr.unnamed := by
  induction values with
  | nil => simp [unnamedValues]
  | cons value rest ih => simp [unnamedValues, ih]

theorem areConstantValues_unnamed {arguments : List Argument}
    (h : ∀ argument ∈ arguments,
      isConstantValue argument.value.unnamed = isConstantValue argument.value) :
    areConstantValues (unnamedArguments arguments) = areConstantValues arguments := by
  induction arguments with
  | nil => rw [unnamedArguments]
  | cons argument rest ih =>
      obtain ⟨name, mode, value⟩ := argument
      rw [List.forall_mem_cons] at h
      simp only [unnamedArguments, areConstantValues, h.1, ih h.2]

theorem Dialect.renderArguments_unnamed {dialect : Dialect} {scope : Scope}
    {arguments : List Argument}
    (h : ∀ argument ∈ arguments,
      dialect.render scope argument.value.unnamed = dialect.render scope argument.value) :
    dialect.renderArguments scope (unnamedArguments arguments) =
      dialect.renderArguments scope arguments := by
  induction arguments with
  | nil => rw [unnamedArguments]
  | cons argument rest ih =>
      obtain ⟨name, mode, value⟩ := argument
      rw [List.forall_mem_cons] at h
      simp only [unnamedArguments, renderArguments, h.1, ih h.2]

namespace Expr

theorem notes_unnamed (e : Expr) : e.unnamed.notes = e.notes := by
  unfold unnamed
  split <;> rfl

theorem constant?_unnamed (e : Expr) : e.unnamed.constant? = e.constant? := by
  induction e using Expr.induction with
  | step e ih =>
      have hpart (part : Expr) (hp : Node.expr part ∈ e.kind.parts) :
          part.unnamed.constant? = part.constant? := ih _ hp part (Node.contains_self _)
      rw [constant?.eq_def, constant?.eq_def, notes_unnamed]
      cases e.notes.constant with
      | some value => rfl
      | none =>
          obtain ⟨kind, location, notes⟩ := e
          cases kind
          case parenthesized inner => simp only [unnamed, hpart inner (by simp [ExprKind.parts])]
          case unary op operand => simp only [unnamed, hpart operand (by simp [ExprKind.parts])]
          case objectCreation type arguments initializer => cases initializer <;> simp [unnamed]
          case arrayCreation type size initializer => cases initializer <;> simp [unnamed]
          case arrayInitializer values => simp [unnamed]
          all_goals simp only [unnamed]

theorem isConstantValue_unnamed (e : Expr) : isConstantValue e.unnamed = isConstantValue e := by
  induction e using Expr.induction with
  | step e ih =>
      have hscalar : isScalarConstant e.unnamed = isScalarConstant e := by
        simp only [isScalarConstant, constant?_unnamed]
      have hconstant : e.unnamed.isConstant = e.isConstant := by
        simp only [isConstant, constant?_unnamed]
      have hpart (part : Expr) (hp : Node.expr part ∈ e.kind.parts) :
          isConstantValue part.unnamed = isConstantValue part :=
        ih _ hp part (Node.contains_self _)
      obtain ⟨kind, location, notes⟩ := e
      cases kind
      case parenthesized inner =>
        simp only [unnamed, isConstantValue, hpart inner (by simp [ExprKind.parts])]
      case unary op operand =>
        have ho := hpart operand (by simp [ExprKind.parts])
        simp only [unnamed] at hscalar hconstant ⊢
        cases op <;> simp only [isConstantValue, hscalar, hconstant, ho]
      case objectCreation type arguments initializer =>
        cases initializer with
        | some values => simp only [unnamed]
        | none =>
            have harguments : ∀ argument ∈ arguments,
                isConstantValue argument.value.unnamed = isConstantValue argument.value := by
              intro argument ha
              exact ih (.argument argument) (by simp [ExprKind.parts, ha]) _
                (.single (by simp [Node.parts]))
            simp only [unnamed, isConstantValue, areConstantValues_unnamed harguments]
      case arrayCreation type size initializer =>
        cases initializer with
        | none => simp only [unnamed]
        | some values =>
            simp only [unnamed] at hscalar ⊢
            simp only [isConstantValue, hscalar]
      case arrayInitializer values =>
        simp only [unnamed] at hscalar ⊢
        simp only [isConstantValue, hscalar]
      all_goals simp only [unnamed]

theorem unparenthesized_unnamed (e : Expr) :
    e.unnamed.unparenthesized = e.unparenthesized.unnamed := by
  fun_induction Expr.unparenthesized e with
  | case1 location notes inner ih =>
      rw [unnamed, unparenthesized]
      exact ih
  | case2 e hp =>
      obtain ⟨kind, location, notes⟩ := e
      cases kind
      case parenthesized inner => exact (hp _ _ _ rfl).elim
      case objectCreation type arguments initializer =>
        cases initializer <;> simp only [unnamed, unparenthesized]
      case arrayCreation type size initializer =>
        cases initializer <;> simp only [unnamed, unparenthesized]
      all_goals simp only [unnamed, unparenthesized]

end Expr

theorem Dialect.render_unnamed {dialect : Dialect} {scope : Scope} (e : Expr) :
    dialect.render scope e.unnamed = dialect.render scope e := by
  induction e using Expr.induction with
  | step e ih =>
      have hpart (part : Expr) (hp : Node.expr part ∈ e.kind.parts) :
          dialect.render scope part.unnamed = dialect.render scope part :=
        ih _ hp part (Node.contains_self _)
      obtain ⟨kind, location, notes⟩ := e
      cases kind
      case parenthesized inner =>
        simp only [Expr.unnamed, render, Construct.ofExpr?, hpart inner (by simp [ExprKind.parts])]
      case unary op operand =>
        have ho := hpart operand (by simp [ExprKind.parts])
        simp only [Expr.unnamed, render, Construct.ofExpr?, ho]
      case objectCreation type arguments initializer =>
        cases initializer with
        | some values => simp only [Expr.unnamed]
        | none =>
            have harguments : dialect.renderArguments scope (unnamedArguments arguments) =
                dialect.renderArguments scope arguments := by
              refine renderArguments_unnamed fun argument ha => ?_
              exact ih (.argument argument) (by simp [ExprKind.parts, ha]) _
                (.single (by simp [Node.parts]))
            simp only [Expr.unnamed, render, Construct.ofExpr?, harguments]
      case arrayCreation type size initializer =>
        cases initializer with
        | none => simp only [Expr.unnamed]
        | some values => simp only [Expr.unnamed, render, Construct.ofExpr?]
      case arrayInitializer values =>
        simp only [Expr.unnamed, render, Construct.ofExpr?]
      all_goals simp only [Expr.unnamed]

/-- The literal without the names and the passing modes of arguments in its value. -/
def ShaderLiteral.unnamed (literal : ShaderLiteral) : ShaderLiteral :=
  { literal with value := literal.value.unnamed }

theorem ShaderLiteral.elements?_unnamed (literal : ShaderLiteral) :
    literal.unnamed.elements? = literal.elements?.map (·.map Expr.unnamed) := by
  simp only [elements?, unnamed, Expr.unparenthesized_unnamed]
  generalize literal.value.unparenthesized = e
  obtain ⟨kind, location, notes⟩ := e
  cases kind
  case objectCreation type arguments initializer => cases initializer <;> simp [Expr.unnamed]
  case arrayCreation type size initializer =>
    cases initializer <;> simp [Expr.unnamed, unnamedValues_eq_map]
  all_goals simp [Expr.unnamed, unnamedValues_eq_map]

theorem checkLiteral_unnamed (decl : TypeDecl) (literal : ShaderLiteral) :
    checkLiteral decl literal.unnamed = checkLiteral decl literal := by
  have hconstant : literal.unnamed.value.constant? = literal.value.constant? :=
    literal.value.constant?_unnamed
  simp only [checkLiteral, hconstant, literal.elements?_unnamed]
  cases literal.elements? with
  | none => simp [ShaderLiteral.unnamed, Expr.isConstantValue_unnamed]
  | some values =>
      simp [ShaderLiteral.unnamed, Expr.isConstantValue_unnamed, List.all_map, Function.comp_def]

theorem Dialect.writeLiteral_unnamed (dialect : Dialect) (scope : Scope)
    (literal : ShaderLiteral) :
    dialect.writeLiteral scope literal.unnamed = dialect.writeLiteral scope literal := by
  have htext (e : Expr) : dialect.renderText scope e.unnamed = dialect.renderText scope e := by
    rw [renderText, renderText, render_unnamed]
  have htexts (es : List Expr) :
      dialect.renderTexts scope (es.map Expr.unnamed) = dialect.renderTexts scope es := by
    simp only [renderTexts, List.mapM_map, Function.comp_def, htext]
  simp only [writeLiteral, literal.elements?_unnamed]
  cases literal.elements? with
  | none => simp only [Option.map_none, ShaderLiteral.unnamed, htext]
  | some values => simp only [Option.map_some, ShaderLiteral.unnamed, htexts]

section

variable {decl : TypeDecl} {effect : Effect} {method : ShaderMethod}

theorem throughout_positional_of_isValid (hv : isValid decl effect = true)
    (hm : method ∈ effect.methods) {dialect : Dialect} {members : List String}
    {site : Site effect method} (hs : site ∈ bodySites dialect members effect method)
    (scope : Scope) : scope.Throughout Expr.Positional site.value := by
  obtain ⟨stmt, hstmt, he⟩ := mem_bodySites hs
  have hfresh := Scope.freshLocals_start (memberNames decl effect) effect method
  have hmem : Node.stmt stmt ∈ method.body.map Node.stmt := List.mem_map_of_mem hstmt
  rw [← map_stmtsIn (memberNames decl effect) { effect, method }] at hmem
  obtain ⟨⟨inner, _⟩, hplace, rfl⟩ := List.mem_map.mp hmem
  have haccepted := acceptedIn_stmtsIn hfresh (checkStmts_of_isValid hv hm) _ hplace
  obtain ⟨checked, -, hpasses⟩ := he.acceptedIn haccepted
  exact hpasses.throughout_positional scope site.value

/-- No argument that is written in the body of a method of a valid effect has a name or is passed by
reference. This is not so for the values of literals: a literal is checked and written as if its
arguments had no names and were passed by value, whatever stands there. -/
theorem arguments_written_by_position (hv : isValid decl effect = true)
    (hm : method ∈ effect.methods) (dialect : Dialect) (members : List String) :
    (∀ site ∈ bodySites dialect members effect method,
        site.point.writtenScope.Throughout Expr.Positional site.value) ∧
      (∀ result, dialect.writeStmts 1 { effect, method } method.body = .ok result →
        ∀ e, method.Contains (.expr e) → ∃ site ∈ bodySites dialect members effect method,
          (Node.expr site.value).Contains (.expr e)) ∧
      ∀ literal ∈ effect.literals, checkLiteral decl literal.unnamed = checkLiteral decl literal ∧
        dialect.writeLiteral { effect, method } literal.unnamed =
          dialect.writeLiteral { effect, method } literal := by
  refine ⟨fun site hs => throughout_positional_of_isValid hv hm hs _, ?_, fun literal _ => ?_⟩
  · rintro result hw e ⟨stmt, hs, he⟩
    exact sitesCover_bodySites ⟨result, hw⟩ stmt hs e he
  · exact ⟨checkLiteral_unnamed decl literal, dialect.writeLiteral_unnamed _ literal⟩

end

theorem imageSample_by_position :
    isValid (tinting repeatedTint) (tintingEffect repeatedTint) = true ∧
      ∃ site ∈ bodySites .hlsl [] (tintingEffect repeatedTint) (tintingShade repeatedTint),
        site.value = imageSample ∧
          site.point.writtenScope.Throughout Expr.Positional site.value := by
  obtain ⟨hpositional, -, -⟩ := arguments_written_by_position isValid_repeatedTint
    (tintingShade_mem repeatedTint) .hlsl []
  have hsite : ⟨{}, imageSample⟩ ∈
      bodySites .hlsl [] (tintingEffect repeatedTint) (tintingShade repeatedTint) :=
    List.mem_of_head? rfl
  exact ⟨isValid_repeatedTint, _, hsite, rfl, hpositional _ hsite⟩

/-- The effect with a vector whose components are given by name, in the other order. -/
def swappedHalf : TypeDecl :=
  { tinting [] with
    members := (tinting []).members ++ [
      .field {
        name := "Half"
        type := .named "Vector2"
        initializer := some ⟨.objectCreation (.named "Vector2")
          [{ name := some "y", value := ⟨.literal (.int 1), {}, {}⟩ },
            { name := some "x", value := ⟨.literal (.int 2), {}, {}⟩ }] none, {}, {}⟩ }] }

/-- A valid effect with named arguments in the value of a literal, which is written with its
components exchanged. -/
theorem valid_not_by_position : ∃ effect, swappedHalf.build.result = .ok effect ∧
    isValid swappedHalf effect = true ∧
    ∃ literal ∈ effect.literals, ¬ literal.value.Positional ∧
      ∃ method ∈ effect.methods, Dialect.hlsl.writeLiteral { effect, method } literal =
        .ok { text := "static const float2 Half = float2(1, 2);" } := by
  refine ⟨swappedHalf.scan.1, rfl, rfl, _, List.mem_of_getLast? rfl, ?_, _, List.mem_of_head? rfl,
    rfl⟩
  intro h
  have hname := (h _ List.mem_cons_self).1
  cases hname

end ShaderEffect
