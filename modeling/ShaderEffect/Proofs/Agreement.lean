import ShaderEffect.Proofs.Dialect

/-!
# Agreement of the languages

Both languages write the same programs: a method of a built effect can be written in both of them or
in neither, and then for the same reason. The one exception is an invocation that is annotated with a
method; a sample can then have operands that only one of the languages takes.
-/

namespace ShaderEffect

/-! ## Agreement -/

/-- Both results are values, or both are the same error. -/
abbrev Agree {α β : Type} (first : Except CompileError α) (second : Except CompileError β) : Prop :=
  Lockstep (fun _ _ => True) first second

section

variable {α β γ δ : Type}

theorem Agree.map {x : Except CompileError α} {y : Except CompileError β} (f : α → γ) (g : β → δ)
    (h : Agree x y) : Agree (x >>= fun a => Pure.pure (f a)) (y >>= fun b => Pure.pure (g b)) :=
  h.bind fun _ _ _ => .ok trivial

theorem Agree.mapM {xs : List α} {f : α → Except CompileError γ} {g : α → Except CompileError δ}
    (h : ∀ x ∈ xs, Agree (f x) (g x)) : Agree (xs.mapM f) (xs.mapM g) := by
  induction xs with
  | nil => exact .pure trivial
  | cons x xs ih =>
      simp only [List.mapM_cons]
      refine (h x (by simp)).bind fun _ _ _ => ?_
      exact (ih fun other ho => h other (by simp [ho])).map _ _

theorem Agree.lockstep {x : Except CompileError α} {y : Except CompileError β} {P : α → Prop}
    {Q : β → Prop} (h : Agree x y) (hx : ∀ a, x = .ok a → P a) (hy : ∀ b, y = .ok b → Q b) :
    Lockstep (fun a b => P a ∧ Q b) x y := by
  cases h with
  | ok _ => exact .ok ⟨hx _ rfl, hy _ rfl⟩
  | error e => exact .error e

theorem agree_of_succeeds {x : Except CompileError α} {y : Except CompileError β} (hx : Succeeds x)
    (hy : Succeeds y) : Agree x y := by
  obtain ⟨a, rfl⟩ := hx
  obtain ⟨b, rfl⟩ := hy
  exact .ok trivial

end

/-! ## Expressions -/

/-- An invocation is not annotated with a method. -/
def Expr.WithoutMethod (e : Expr) : Prop :=
  ∀ callee arguments, e.kind = .invocation callee arguments →
    ∀ method, e.notes.symbol ≠ some (.method method)

/-- No invocation in a node is annotated with a method. -/
abbrev Node.WithoutMethods (node : Node) : Prop :=
  node.Everywhere Expr.WithoutMethod

theorem Node.withoutMethods_initializer {stmt : Stmt} {locals : VariableDeclaration}
    (h : (Node.stmt stmt).WithoutMethods) (hk : stmt.kind = .declaration locals) :
    ∀ declarator ∈ locals.declarators, ∀ e, declarator.initializer = some e →
      (Node.expr e).WithoutMethods := by
  intro declarator hd e he
  apply h.part
  simp only [parts, hk, StmtKind.parts, VariableDeclaration.parts, List.mem_map,
    List.mem_filterMap]
  exact ⟨e, ⟨declarator, hd, he⟩, rfl⟩

namespace Dialect

variable {first second : Dialect} {scope : Scope}

theorem typeName_agree (first second : Dialect) (type : DataType) :
    Agree (first.typeName type) (second.typeName type) := by
  by_cases hu : type = .unknown
  · rw [hu, typeName_unknown, typeName_unknown]
    exact .error _
  · exact agree_of_succeeds (succeeds_typeName.mpr hu) (succeeds_typeName.mpr hu)

theorem construction_agree (type : DataType) (texts texts' : List String) :
    Agree (first.construction type texts) (second.construction type texts') := by
  by_cases hu : type = .unknown
  · rw [hu, construction_unknown, construction_unknown]
    exact .error _
  · exact agree_of_succeeds (succeeds_construction.mpr hu) (succeeds_construction.mpr hu)

theorem cast_agree (type : DataType) (operand operand' : Operand) :
    Agree (first.cast type operand) (second.cast type operand') := by
  by_cases hu : type = .unknown
  · rw [hu, cast_unknown, cast_unknown]
    exact .error _
  · exact agree_of_succeeds (succeeds_cast.mpr hu) (succeeds_cast.mpr hu)

theorem identifier_agree (name : String) :
    Agree (first.identifier scope name) (second.identifier scope name) := by
  unfold identifier
  split
  · exact .pure trivial
  · exact .pure trivial
  · exact .error _

theorem staticMember_agree (receiver member : String) :
    Agree (first.staticMember receiver member) (second.staticMember receiver member) := by
  simp only [staticMember]
  split
  · exact construction_agree _ _ _
  · exact .error _

theorem intrinsicCall_agree (stage : Stage) {intrinsic : Intrinsic}
    {operands operands' : List Operand} (hi : intrinsic ≠ .unknown)
    (hl : operands.length = operands'.length)
    (hs : intrinsic = .sampleTexture → operands.length = 2) :
    Agree (first.intrinsicCall stage intrinsic operands)
      (second.intrinsicCall stage intrinsic operands') := by
  obtain ⟨text, ht⟩ := first.intrinsicCall_eq stage hi fun h => by
    rw [hs h]
    exact first.samples_two
  obtain ⟨text', ht'⟩ := second.intrinsicCall_eq stage hi fun h => by
    rw [← hl, hs h]
    exact second.samples_two
  rw [ht, ht']
  split
  · exact .error _
  · exact .ok trivial

theorem renderArguments_agree {arguments : List Argument}
    (h : ∀ argument ∈ arguments,
      Agree (first.render scope argument.value) (second.render scope argument.value)) :
    Agree (first.renderArguments scope arguments) (second.renderArguments scope arguments) := by
  induction arguments with
  | nil => exact .pure trivial
  | cons argument rest ih =>
      obtain ⟨name, mode, value⟩ := argument
      simp only [renderArguments]
      refine (h ⟨name, mode, value⟩ (by simp)).bind fun _ _ _ => ?_
      exact (ih fun other ho => h other (by simp [ho])).map _ _

theorem receiverOperands_agree {call : Call}
    (h : ∀ receiver, call.receiver = some receiver →
      Agree (first.render scope receiver) (second.render scope receiver)) :
    Agree (first.receiverOperands scope call) (second.receiverOperands scope call) := by
  unfold receiverOperands
  split
  · exact .pure trivial
  · split
    · split
      · exact .pure trivial
      · exact .error _
    · exact (h _ ‹_›).map _ _

/-- The method of a sample takes one argument unless an annotation says otherwise. -/
theorem length_arguments_of_sample {e : Expr} {call : Call} (hc : scope.call? e = some call)
    (hm : e.WithoutMethod) (hs : call.intrinsic = .sampleTexture) :
    call.receiver.isSome ∧ call.arguments.length = 1 := by
  obtain ⟨callee, target, member, hk, -, -, hreceiver⟩ := Scope.call?_eq_some hc
  obtain ⟨hstatic, hlength⟩ := MethodRef.of_intrinsic_eq_sampleTexture hs
  rw [Scope.length_parameterTypes hc (hm _ _ hk)] at hlength
  simp [hreceiver, hstatic, hlength]

theorem render_invocation_agree {callee : Expr} {arguments : List Argument} {location : Location}
    {notes : Notes} (hm : Expr.WithoutMethod ⟨.invocation callee arguments, location, notes⟩)
    (hreceiver : ∀ target member, callee.unparenthesized.kind = .memberAccess target member →
      Agree (first.render scope target) (second.render scope target))
    (harguments : ∀ argument ∈ arguments,
      Agree (first.render scope argument.value) (second.render scope argument.value)) :
    Agree (first.render scope ⟨.invocation callee arguments, location, notes⟩)
      (second.render scope ⟨.invocation callee arguments, location, notes⟩) := by
  cases hc : scope.call? ⟨.invocation callee arguments, location, notes⟩ with
  | none =>
      simp only [render, Construct.ofExpr?, hc]
      exact .error _
  | some call =>
      by_cases hu : call.intrinsic = .unknown
      · simp only [render, Construct.ofExpr?, hc, hu, if_true]
        exact .error _
      · obtain ⟨callee', target, member, hk, -⟩ := Scope.call?_eq_some hc
        obtain ⟨rfl, rfl⟩ : callee = callee' ∧ arguments = call.arguments := by simpa using hk
        have hfirst : ∀ receiver, call.receiver = some receiver →
            Agree (first.render scope receiver) (second.render scope receiver) := by
          intro receiver hr
          obtain ⟨callee', member', hk', hm'⟩ := Scope.call?_receiver hc hr
          obtain rfl : callee = callee' := by simpa using hk'
          exact hreceiver receiver member' hm'
        rw [render_invocation hc hu, render_invocation hc hu]
        refine ((receiverOperands_agree hfirst).lockstep (fun _ => length_receiverOperands)
          fun _ => length_receiverOperands).bind fun xs ys hxs => ?_
        refine ((renderArguments_agree harguments).lockstep (fun _ => length_renderArguments)
          fun _ => length_renderArguments).bind fun as bs has => ?_
        refine (intrinsicCall_agree _ hu (by simp [hxs, has]) fun hs => ?_).map _ _
        obtain ⟨hsome, hlength⟩ := length_arguments_of_sample hc hm hs
        obtain ⟨receiver, hsome⟩ := Option.isSome_iff_exists.mp hsome
        simp [hxs, has, hsome, hlength]

/-- Both languages write an expression, or neither does for the same reason. -/
theorem render_agree (first second : Dialect) (scope : Scope) (e : Expr)
    (h : (Node.expr e).WithoutMethods) : Agree (first.render scope e) (second.render scope e) := by
  induction e using Expr.induction with
  | step e ih =>
      have hpart : ∀ part ∈ e.kind.parts, ∀ inner, part.Contains (.expr inner) →
          Agree (first.render scope inner) (second.render scope inner) := by
        intro part hp inner hi
        exact ih part hp inner hi ((h.part hp).contains hi)
      have hexpr : ∀ inner, Node.expr inner ∈ e.kind.parts →
          Agree (first.render scope inner) (second.render scope inner) :=
        fun inner hi => hpart _ hi inner (Node.contains_self _)
      have hargument : ∀ argument, Node.argument argument ∈ e.kind.parts →
          Agree (first.render scope argument.value) (second.render scope argument.value) :=
        fun argument ha => hpart _ ha _ (Node.contains_of_mem_parts (by simp [Node.parts])
          (Node.contains_self _))
      have hself := h e (Node.contains_self _)
      obtain ⟨kind, location, notes⟩ := e
      cases kind
      case literal value =>
        simp only [render]
        split
        · exact .error _
        · cases value.render with
          | error e => exact .error e
          | ok text => exact .ok trivial
      case identifier name =>
        simp only [render, Construct.ofExpr?]
        exact (identifier_agree name).map _ _
      case memberAccess target member =>
        simp only [render, Construct.ofExpr?]
        cases scope.staticReceiver? target with
        | some receiver => exact (staticMember_agree receiver member).map _ _
        | none =>
            cases swizzle? member (scope.typeOf target) with
            | none => exact .error _
            | some components => exact (hexpr target (by simp [ExprKind.parts])).map _ _
      case index target position =>
        simp only [render, Construct.ofExpr?]
        refine (hexpr target (by simp [ExprKind.parts])).bind fun _ _ _ => ?_
        exact (hexpr position (by simp [ExprKind.parts])).map _ _
      case invocation callee arguments =>
        refine render_invocation_agree hself ?_ fun argument ha =>
          hargument argument (by simp [ExprKind.parts, ha])
        intro target member hm
        refine hpart (.expr callee) (by simp [ExprKind.parts]) target ?_
        exact callee.contains_unparenthesized.tail (by simp [Node.parts, hm, ExprKind.parts])
      case objectCreation type arguments initializer =>
        simp only [render, Construct.ofExpr?]
        cases initializer with
        | some values => exact .error _
        | none =>
            have harguments : Agree (first.renderArguments scope arguments)
                (second.renderArguments scope arguments) :=
              renderArguments_agree fun argument ha =>
                hargument argument (by simp [ExprKind.parts, ha])
            simp only
            split
            · exact harguments.bind fun _ _ _ => (construction_agree _ _ _).map _ _
            · exact .error _
      case binary op lhs rhs =>
        simp only [render]
        split
        · exact .error _
        · refine (hexpr lhs (by simp [ExprKind.parts])).bind fun _ _ _ => ?_
          exact (hexpr rhs (by simp [ExprKind.parts])).map _ _
      case assignment op target value =>
        simp only [render]
        split
        · exact .error _
        · refine (hexpr target (by simp [ExprKind.parts])).bind fun _ _ _ => ?_
          exact (hexpr value (by simp [ExprKind.parts])).map _ _
      case unary op operand =>
        simp only [render, Construct.ofExpr?]
        exact (hexpr operand (by simp [ExprKind.parts])).map _ _
      case conditional condition thenValue elseValue =>
        simp only [render, Construct.ofExpr?]
        refine (hexpr condition (by simp [ExprKind.parts])).bind fun _ _ _ => ?_
        refine (hexpr thenValue (by simp [ExprKind.parts])).bind fun _ _ _ => ?_
        exact (hexpr elseValue (by simp [ExprKind.parts])).map _ _
      case cast type operand =>
        simp only [render, Construct.ofExpr?]
        refine (hexpr operand (by simp [ExprKind.parts])).bind fun _ _ _ => ?_
        exact (cast_agree _ _ _).map _ _
      case parenthesized inner =>
        simp only [render, Construct.ofExpr?]
        exact (hexpr inner (by simp [ExprKind.parts])).map _ _
      all_goals
        simp only [render, Construct.ofExpr?]
        exact .error _

theorem renderText_agree {e : Expr} (h : (Node.expr e).WithoutMethods) :
    Agree (first.renderText scope e) (second.renderText scope e) :=
  (render_agree first second scope e h).map _ _

theorem renderTexts_agree {es : List Expr} (h : ∀ e ∈ es, (Node.expr e).WithoutMethods) :
    Agree (first.renderTexts scope es) (second.renderTexts scope es) :=
  .mapM fun e he => renderText_agree (h e he)

/-! ## Statements -/

/-- Both results end in the same scope, or both are the same error. -/
abbrev InStep {α β : Type} (x : Except CompileError (Scope × α))
    (y : Except CompileError (Scope × β)) : Prop :=
  Lockstep (fun a b => a.1 = b.1) x y

theorem declarator_agree {declarator : VariableDeclarator}
    (h : ∀ e, declarator.initializer = some e → (Node.expr e).WithoutMethods) :
    Agree (first.declarator scope declarator) (second.declarator scope declarator) := by
  unfold Dialect.declarator
  split
  · exact (renderText_agree (h _ ‹_›)).map _ _
  · exact .pure trivial

theorem writeDeclarators_inStep {depth : Nat} {type : TypeRef}
    {declarators : List VariableDeclarator}
    (h : ∀ declarator ∈ declarators, ∀ e, declarator.initializer = some e →
      (Node.expr e).WithoutMethods) :
    InStep (first.writeDeclarators depth type scope declarators)
      (second.writeDeclarators depth type scope declarators) := by
  induction declarators generalizing scope with
  | nil => exact .pure rfl
  | cons declarator rest ih =>
      simp only [writeDeclarators]
      refine (typeName_agree first second _).bind fun _ _ _ => ?_
      refine (declarator_agree (h declarator (by simp))).bind fun _ _ _ => ?_
      refine (ih fun other ho => h other (by simp [ho])).bind ?_
      rintro ⟨after, lines⟩ ⟨_, lines'⟩ rfl
      exact .pure rfl

theorem headerDeclarators_inStep {type : DataType} {declarators : List VariableDeclarator}
    (h : ∀ declarator ∈ declarators, ∀ e, declarator.initializer = some e →
      (Node.expr e).WithoutMethods) :
    InStep (first.headerDeclarators type scope declarators)
      (second.headerDeclarators type scope declarators) := by
  induction declarators generalizing scope with
  | nil => exact .pure rfl
  | cons declarator rest ih =>
      simp only [headerDeclarators]
      refine (declarator_agree (h declarator (by simp))).bind fun _ _ _ => ?_
      refine (ih fun other ho => h other (by simp [ho])).bind ?_
      rintro ⟨after, texts⟩ ⟨_, texts'⟩ rfl
      exact .pure rfl

theorem headerInitializer_inStep {initializer : Stmt}
    (h : (Node.stmt initializer).WithoutMethods) :
    InStep (first.headerInitializer scope initializer)
      (second.headerInitializer scope initializer) := by
  obtain ⟨kind, location⟩ := initializer
  cases kind
  case declaration locals =>
    simp only [headerInitializer, headerDeclaration]
    refine (typeName_agree first second _).bind fun _ _ _ => ?_
    refine (headerDeclarators_inStep (Node.withoutMethods_initializer h rfl)).bind ?_
    rintro ⟨after, texts⟩ ⟨_, texts'⟩ rfl
    exact .pure rfl
  case expression value =>
    have hv : (Node.expr value).WithoutMethods := h.part (by simp [Node.parts, StmtKind.parts])
    exact (renderText_agree hv).bind fun _ _ _ => .pure rfl
  all_goals exact .error _

theorem headerInitializers_inStep {initializers : List Stmt}
    (h : ∀ stmt ∈ initializers, (Node.stmt stmt).WithoutMethods) :
    InStep (first.headerInitializers scope initializers)
      (second.headerInitializers scope initializers) := by
  induction initializers generalizing scope with
  | nil => exact .pure rfl
  | cons initializer rest ih =>
      rw [headerInitializers_cons, headerInitializers_cons]
      refine (headerInitializer_inStep (h initializer (by simp))).bind ?_
      rintro ⟨inner, text⟩ ⟨_, text'⟩ rfl
      refine (ih fun other ho => h other (by simp [ho])).bind ?_
      rintro ⟨after, texts⟩ ⟨_, texts'⟩ rfl
      exact .pure rfl

theorem writeStmts_inStep {depth : Nat} {stmts : List Stmt}
    (h : ∀ stmt ∈ stmts, ∀ depth scope, InStep (first.writeStmt depth scope stmt)
      (second.writeStmt depth scope stmt)) :
    InStep (first.writeStmts depth scope stmts) (second.writeStmts depth scope stmts) := by
  induction stmts generalizing scope with
  | nil =>
      simp only [writeStmts]
      exact .pure rfl
  | cons stmt rest ih =>
      simp only [writeStmts]
      refine (h stmt (by simp) depth scope).bind ?_
      rintro ⟨inner, lines⟩ ⟨_, lines'⟩ rfl
      refine (ih fun other ho => h other (by simp [ho])).bind ?_
      rintro ⟨after, more⟩ ⟨_, more'⟩ rfl
      exact .pure rfl

/-- Both languages write a statement in the same scopes, or neither writes it. -/
theorem writeStmt_inStep (first second : Dialect) (stmt : Stmt)
    (h : (Node.stmt stmt).WithoutMethods) (depth : Nat) (scope : Scope) :
    InStep (first.writeStmt depth scope stmt) (second.writeStmt depth scope stmt) := by
  induction stmt using Stmt.induction generalizing depth scope with
  | step stmt ih =>
      have hstmt : ∀ part, Node.stmt part ∈ stmt.kind.parts → ∀ depth scope,
          InStep (first.writeStmt depth scope part) (second.writeStmt depth scope part) :=
        fun part hp => ih part hp (h.part hp)
      have hexpr : ∀ part, Node.expr part ∈ stmt.kind.parts → ∀ scope,
          Agree (first.renderText scope part) (second.renderText scope part) :=
        fun part hp scope => renderText_agree (h.part hp)
      obtain ⟨kind, location⟩ := stmt
      cases kind
      case block body =>
        simp only [writeStmt, Construct.ofStmt?]
        refine (writeStmts_inStep fun part hp => hstmt part (by simp [StmtKind.parts, hp])).bind ?_
        rintro ⟨after, lines⟩ ⟨_, lines'⟩ rfl
        exact .pure rfl
      case expression value =>
        simp only [writeStmt, Construct.ofStmt?]
        exact (hexpr value (by simp [StmtKind.parts]) scope).bind fun _ _ _ => .pure rfl
      case declaration locals =>
        simp only [writeStmt, Construct.ofStmt?]
        exact writeDeclarators_inStep (Node.withoutMethods_initializer h rfl)
      case ifElse condition thenBranch elseBranch =>
        simp only [writeStmt, Construct.ofStmt?]
        refine (hexpr condition (by simp [StmtKind.parts]) scope).bind fun _ _ _ => ?_
        refine (hstmt thenBranch (by simp [StmtKind.parts]) _ scope).bind ?_
        rintro ⟨afterThen, lines⟩ ⟨_, lines'⟩ rfl
        cases elseBranch with
        | none =>
            simp only [writeElse]
            exact .pure rfl
        | some elseBranch =>
            simp only [writeElse, bind_assoc]
            refine (hstmt elseBranch (by simp [StmtKind.parts]) _ _).bind ?_
            rintro ⟨after, elseLines⟩ ⟨_, elseLines'⟩ rfl
            exact .pure rfl
      case whileLoop condition body =>
        simp only [writeStmt, Construct.ofStmt?]
        refine (hexpr condition (by simp [StmtKind.parts]) scope).bind fun _ _ _ => ?_
        refine (hstmt body (by simp [StmtKind.parts]) _ scope).bind ?_
        rintro ⟨after, lines⟩ ⟨_, lines'⟩ rfl
        exact .pure rfl
      case doWhileLoop body condition =>
        simp only [writeStmt, Construct.ofStmt?]
        refine (hstmt body (by simp [StmtKind.parts]) _ scope).bind ?_
        rintro ⟨after, lines⟩ ⟨_, lines'⟩ rfl
        exact (hexpr condition (by simp [StmtKind.parts]) after).bind fun _ _ _ => .pure rfl
      case forLoop initializers condition increments body =>
        simp only [writeStmt, Construct.ofStmt?]
        refine (headerInitializers_inStep fun part hp =>
          h.part (by simp [Node.parts, StmtKind.parts, hp])).bind ?_
        rintro ⟨inner, texts⟩ ⟨_, texts'⟩ rfl
        refine (Agree.mapM fun e he => hexpr e (by simp_all [StmtKind.parts]) inner).bind
          fun _ _ _ => ?_
        refine (Agree.mapM fun e he => hexpr e (by simp [StmtKind.parts, he]) inner).bind
          fun _ _ _ => ?_
        refine (hstmt body (by simp [StmtKind.parts]) _ inner).bind ?_
        rintro ⟨after, lines⟩ ⟨_, lines'⟩ rfl
        exact .pure rfl
      case returning value =>
        cases value with
        | none =>
            simp only [writeStmt, Construct.ofStmt?]
            exact .pure rfl
        | some value =>
            simp only [writeStmt, Construct.ofStmt?]
            exact .error _
      case empty | breakLoop | continueLoop =>
        simp only [writeStmt, Construct.ofStmt?]
        exact .pure rfl
      all_goals
        simp only [writeStmt, Construct.ofStmt?]
        exact .error _

/-! ## Units -/

theorem writeLiteral_agree {literal : ShaderLiteral}
    (h : (Node.expr literal.value).WithoutMethods) :
    Agree (first.writeLiteral scope literal) (second.writeLiteral scope literal) := by
  unfold writeLiteral
  cases he : literal.elements? with
  | some elements =>
      have helements : ∀ e ∈ elements, (Node.expr e).WithoutMethods :=
        fun e hmem => h.contains (literal.contains_element he hmem)
      refine (renderTexts_agree helements).bind fun _ _ _ => ?_
      refine (typeName_agree first second _).bind fun _ _ _ => ?_
      cases first <;> cases second <;> exact .pure trivial
  | none =>
      refine (renderText_agree h).bind fun _ _ _ => ?_
      refine (typeName_agree first second _).bind fun _ _ _ => ?_
      cases first <;> cases second <;> exact .pure trivial

end Dialect

/-- A method of a built effect is written in both languages, or in neither for the same reason. -/
theorem compile_agree {decl : TypeDecl} {effect : Effect} (hb : decl.build.result = .ok effect)
    (first second : Dialect) (name : String)
    (hm : ∀ method, effect.method? name = some method →
      ∀ stmt ∈ method.body, (Node.stmt stmt).WithoutMethods)
    (hl : ∀ literal ∈ effect.literals, (Node.expr literal.value).WithoutMethods) :
    Agree (effect.compile first name) (effect.compile second name) := by
  unfold Effect.compile
  cases hfound : effect.method? name with
  | none => exact .error _
  | some method =>
      have hmem : method ∈ effect.methods := List.mem_of_find?_eq_some hfound
      refine Agree.map _ _ ?_
      simp only [Dialect.writeUnit]
      refine (Agree.mapM fun literal hlit => Dialect.writeLiteral_agree (hl literal hlit)).bind
        fun _ _ _ => ?_
      refine (agree_of_succeeds (Effect.succeeds_writeBuffers first hb)
        (Effect.succeeds_writeBuffers second hb)).bind fun _ _ _ => ?_
      refine (agree_of_succeeds (Effect.succeeds_writeTextures first hb)
        (Effect.succeeds_writeTextures second hb)).bind fun _ _ _ => ?_
      refine (agree_of_succeeds (Effect.succeeds_writeInterface first hb hmem)
        (Effect.succeeds_writeInterface second hb hmem)).bind fun _ _ _ => ?_
      refine (Dialect.writeStmts_inStep fun stmt hs =>
        Dialect.writeStmt_inStep first second stmt (hm method hfound stmt hs)).bind ?_
      rintro ⟨after, body⟩ ⟨_, body'⟩ _
      exact .pure trivial

/-- The two languages accept the same programs: HLSL and any version of GLSL both compile a method of
a built effect, valid or not, or both fail with the same error. -/
theorem languages_accept_same_programs {decl : TypeDecl} {effect : Effect}
    (hb : decl.build.result = .ok effect) (name : String) (version : GlslVersion)
    (hm : ∀ method, effect.method? name = some method →
      ∀ e, method.Contains (.expr e) → e.WithoutMethod)
    (hl : ∀ literal ∈ effect.literals, ∀ e, (Node.expr literal.value).Contains (.expr e) →
      e.WithoutMethod) :
    (∃ hlsl glsl, effect.compile .hlsl name = .ok hlsl ∧
        effect.compile (.glsl version) name = .ok glsl) ∨
      ∃ error, effect.compile .hlsl name = .error error ∧
        effect.compile (.glsl version) name = .error error := by
  have hagree := compile_agree hb .hlsl (.glsl version) name
    (fun method hf stmt hs e he => hm method hf e ⟨stmt, hs, he⟩) hl
  generalize effect.compile .hlsl name = first at hagree ⊢
  generalize effect.compile (.glsl version) name = second at hagree ⊢
  cases hagree with
  | ok _ => exact .inl ⟨_, _, rfl, rfl⟩
  | error e => exact .inr ⟨e, rfl, rfl⟩

theorem repeatedTint_same_result :
    (∃ hlsl glsl, (tintingEffect repeatedTint).compile .hlsl "Shade" = .ok hlsl ∧
        (tintingEffect repeatedTint).compile (.glsl .v410) "Shade" = .ok glsl) ∨
      ∃ error, (tintingEffect repeatedTint).compile .hlsl "Shade" = .error error ∧
        (tintingEffect repeatedTint).compile (.glsl .v410) "Shade" = .error error := by
  have hbody : ∀ stmt ∈ repeatedTint, (Node.stmt stmt).WithoutMethods := by
    simp [repeatedTint, imageSample, imageSampleAt, Expr.named, Expr.WithoutMethod,
      Node.everywhere_stmt, Node.everywhere_expr, Node.everywhere_argument, StmtKind.parts,
      ExprKind.parts, VariableDeclaration.parts]
  refine languages_accept_same_programs (build_tinting repeatedTint) "Shade" .v410 ?_ ?_
  · rintro method hm e ⟨stmt, hs, he⟩
    obtain rfl : tintingShade repeatedTint = method := Option.some.inj hm
    exact hbody stmt hs e he
  · intro literal hl
    obtain rfl := List.mem_singleton.mp hl
    exact Node.everywhere_expr.mpr ⟨by simp [Expr.WithoutMethod], by simp [ExprKind.parts]⟩

end ShaderEffect
