import ShaderEffect.Proofs.Dialect
import ShaderEffect.Proofs.RewrittenScope

/-!
# Rewritten trees as text

A rewritten tree can be written in a language exactly if the tree can be written. The texts differ only
in parentheses: without new ones the text is the same, however types are named. Why something cannot
be written may be said in other words, because errors show types as they are written.
-/

namespace ShaderEffect

/-! ## Results -/

/-- Both are written or neither is, with the same result if texts are the same. -/
abbrev SameText {α : Type} (texts : Prop) (first second : Except CompileError α) : Prop :=
  Alike (fun a b => texts → a = b) first second

/-- Both lists of operands are written or neither is, with as many operands. -/
abbrev SameOperands (texts : Prop) (first second : Except CompileError (List Operand)) : Prop :=
  Alike (fun a b => a.length = b.length ∧ (texts → a = b)) first second

/-- The same is written, and the scopes after it match. -/
abbrev SameScoped {α : Type} (texts : Prop) (first second : Except CompileError (Scope × α)) :
    Prop :=
  Alike (fun a b => a.1.Matches b.1 ∧ (texts → a.2 = b.2)) first second

section

variable {α β : Type} {texts : Prop} {places : Places}

theorem Places.under_eq_none (hp : texts → places = .none) (part : Nat) (ht : texts) :
    places.under part = .none := by
  rw [hp ht, Places.under_none]

theorem Places.inner_eq_none (hp : texts → places = .none) (ht : texts) :
    places.inner = .none := by
  rw [hp ht, Places.inner_none]

theorem SameText.of_succeeds_iff {x y : Except CompileError α} (h : Succeeds x ↔ Succeeds y)
    (he : texts → x = y) : SameText texts x y := by
  cases x with
  | ok a =>
      obtain ⟨b, rfl⟩ := h.mp (succeeds_ok a)
      exact .ok fun ht => Except.ok.inj (he ht)
  | error e =>
      cases y with
      | ok b => simp at h
      | error e' => exact .error e e'

protected theorem SameText.refl (x : Except CompileError α) : SameText texts x x :=
  .of_succeeds_iff Iff.rfl fun _ => rfl

/-- What is done with the same text gives the same text. -/
theorem SameText.map {x y : Except CompileError α} (h : SameText texts x y) (f : α → β) :
    SameText texts (x >>= fun a => pure (f a)) (y >>= fun a => pure (f a)) :=
  h.bind fun _ _ hab => .pure fun ht => congrArg f (hab ht)

theorem SameText.map₂ {γ : Type} {x y : Except CompileError α} {x' y' : Except CompileError β}
    (h : SameText texts x y) (h' : SameText texts x' y') (f : α → β → γ) :
    SameText texts (x >>= fun a => x' >>= fun b => pure (f a b))
      (y >>= fun a => y' >>= fun b => pure (f a b)) :=
  h.bind fun _ _ hx => h'.bind fun _ _ hy => .pure fun ht => congrArg₂ f (hx ht) (hy ht)

theorem SameText.mapM {γ : Type} {change : Places → γ → γ} {f g : γ → Except CompileError β}
    {xs : List γ} (hp : texts → places = .none)
    (h : ∀ x ∈ xs, ∀ places, (texts → places = .none) → SameText texts (f (change places x)) (g x)) :
    SameText texts ((changeEach change places xs).mapM f) (xs.mapM g) := by
  induction xs generalizing places with
  | nil => exact .refl _
  | cons x xs ih =>
      rw [List.forall_mem_cons] at h
      rw [changeEach, List.mapM_cons, List.mapM_cons]
      have hfirst := h.1 _ (Places.under_eq_none hp 0)
      exact hfirst.map₂ (ih (Places.under_eq_none hp 1) h.2) List.cons

end

/-! ## Expressions -/

namespace Dialect

variable {naming : Naming} {scope scope' : Scope} {texts : Prop} {places : Places}
variable (dialect : Dialect)

theorem identifier_of_matches (h : scope'.Matches scope) (name : String) :
    dialect.identifier scope' name = dialect.identifier scope name := by
  have hparameter (declared : ShaderParameter) :
      dialect.parameter scope'.method declared = dialect.parameter scope.method declared := by
    cases dialect with
    | hlsl => rfl
    | glsl version => simp only [parameter, h.stage]
  rw [identifier, identifier]
  rcases h.lookup? name with ⟨hnone, hnone'⟩ | ⟨first, second, hfirst, hsecond, hlike⟩
  · rw [hnone, hnone']
  · rw [hfirst, hsecond]
    cases hlike with
    | same => cases first <;> simp only [hparameter]
    | literal hliteral => rfl

theorem sameText_construction (type : DataType) {first second : List String}
    (h : texts → first = second) :
    SameText texts (dialect.construction type first) (dialect.construction type second) := by
  refine .of_succeeds_iff ?_ fun ht => by rw [h ht]
  rw [succeeds_construction, succeeds_construction]

theorem sameText_cast (type : DataType) {first second : Operand} (h : texts → first = second) :
    SameText texts (dialect.cast type first) (dialect.cast type second) := by
  refine .of_succeeds_iff ?_ fun ht => by rw [h ht]
  rw [succeeds_cast, succeeds_cast]

theorem sameText_intrinsicCall {stage : Stage} {intrinsic : Intrinsic}
    {first second : List Operand} (hi : intrinsic ≠ .unknown)
    (hlength : first.length = second.length) (h : texts → first = second) :
    SameText texts (dialect.intrinsicCall stage intrinsic first)
      (dialect.intrinsicCall stage intrinsic second) := by
  refine .of_succeeds_iff ?_ fun ht => by rw [h ht]
  rw [succeeds_intrinsicCall hi, succeeds_intrinsicCall hi, hlength]

theorem renderArguments_rewritten_of {arguments : List Argument}
    (h : ∀ argument ∈ arguments, ∀ places, (texts → places = .none) →
      SameText texts (dialect.render scope' (argument.value.rewritten naming places))
        (dialect.render scope argument.value)) (hp : texts → places = .none) :
    SameOperands texts
      (dialect.renderArguments scope' (changeEach (Argument.rewritten naming) places arguments))
      (dialect.renderArguments scope arguments) := by
  induction arguments generalizing places with
  | nil =>
      rw [changeEach, renderArguments, renderArguments]
      exact .pure ⟨rfl, fun _ => rfl⟩
  | cons argument rest ih =>
      obtain ⟨name, mode, value⟩ := argument
      rw [List.forall_mem_cons] at h
      rw [changeEach, Argument.rewritten, renderArguments, renderArguments]
      refine (h.1 _ (Places.under_eq_none hp 0)).bind fun operand operand' ho => ?_
      refine (ih h.2 (Places.under_eq_none hp 1)).bind fun operands operands' hos => ?_
      refine .pure ⟨by simp [hos.1], fun ht => ?_⟩
      rw [ho ht, hos.2 ht]

theorem render_enclosed (scope : Scope) (e : Expr) :
    dialect.render scope e.enclosed =
      (dialect.render scope e >>= fun operand => pure (.atom s!"({operand.text})")) := by
  rw [Expr.enclosed, render]
  rfl

theorem renderReceiver_enclosed (scope : Scope) (e : Expr) :
    dialect.renderReceiver scope e.enclosed = dialect.renderReceiver scope e := by
  rw [Expr.enclosed, renderReceiver]

/-- New parentheses change the text only. -/
theorem render_rewritten_of_inside {e : Expr}
    (h : SameText texts (dialect.render scope' (e.rewrittenInside naming places))
      (dialect.render scope e)) (hp : texts → places = .none) :
    SameText texts (dialect.render scope' (e.rewritten naming places))
      (dialect.render scope e) := by
  rw [Expr.rewritten_eq]
  split
  case isFalse => exact h
  case isTrue henclosed =>
    rw [render_enclosed, ← bind_pure (dialect.render scope e)]
    refine h.bind fun _ _ _ => .pure fun ht => ?_
    rw [hp ht] at henclosed
    cases henclosed

theorem render_invocation_rewritten {callee : Expr} {arguments : List Argument}
    {location : Location} {notes : Notes} (h : scope'.Matches scope)
    (hreceiver : SameText texts
      (dialect.renderReceiver scope' (callee.rewritten naming (places.under 0).inner))
      (dialect.renderReceiver scope callee))
    (harguments : SameOperands texts
      (dialect.renderArguments scope'
        (changeEach (Argument.rewritten naming) (places.under 1) arguments))
      (dialect.renderArguments scope arguments)) :
    SameText texts
      (dialect.render scope'
        (Expr.rewrittenInside ⟨.invocation callee arguments, location, notes⟩ naming places))
      (dialect.render scope ⟨.invocation callee arguments, location, notes⟩) := by
  have hcall := h.call? naming ⟨.invocation callee arguments, location, notes⟩ places
  simp only [Expr.rewrittenInside, ExprKind.rewritten, rewrittenArguments_eq] at hcall ⊢
  simp only [render, Construct.ofExpr?]
  rcases hcall with ⟨hnone, hnone'⟩ | ⟨first, second, hfirst, hsecond, hrewritten⟩
  · rw [hnone, hnone']
    exact .refl _
  · obtain ⟨below, hbelow⟩ := hrewritten.receiver
    rw [hfirst, hsecond]
    simp only [hrewritten.intrinsic_eq, hbelow, h.stage]
    split
    case isTrue => exact .error _ _
    case isFalse hknown =>
      -- what is written after the receivers
      have hcalled (receivers receivers' : List Operand)
          (hlength : receivers.length = receivers'.length) (hr : texts → receivers = receivers') :
          SameText texts
            (dialect.renderArguments scope'
                (changeEach (Argument.rewritten naming) (places.under 1) arguments) >>=
              fun operands =>
                dialect.intrinsicCall scope.method.stage second.intrinsic (receivers ++ operands) >>=
                  fun text => pure (Operand.atom text))
            (dialect.renderArguments scope arguments >>= fun operands =>
              dialect.intrinsicCall scope.method.stage second.intrinsic (receivers' ++ operands) >>=
                fun text => pure (Operand.atom text)) := by
        refine harguments.bind fun operands operands' ho => ?_
        refine (dialect.sameText_intrinsicCall hknown (by simp [hlength, ho.1]) fun ht => ?_).map _
        rw [hr ht, ho.2 ht]
      cases second.receiver with
      | none => exact hcalled [] [] rfl fun _ => rfl
      | some receiver =>
          simp only [Option.map_some, h.texture?]
          split
          · cases scope.texture? receiver with
            | none => exact .error _ _
            | some texture => exact hcalled _ _ rfl fun _ => rfl
          · simp only [pure_bind]
            exact hreceiver.bind fun _ _ hr => hcalled _ _ rfl fun ht => by rw [hr ht]

theorem render_renderReceiver_rewritten (h : scope'.Matches scope) (e : Expr)
    (hp : texts → places = .none) :
    SameText texts (dialect.render scope' (e.rewritten naming places)) (dialect.render scope e) ∧
      SameText texts (dialect.renderReceiver scope' (e.rewritten naming places))
        (dialect.renderReceiver scope e) := by
  induction e using Expr.induction_parts generalizing places with
  | step e hpart hargument =>
      have hunder (part : Nat) : texts → places.under part = .none :=
        Places.under_eq_none hp part
      have hinner (part : Nat) : texts → (places.under part).inner = .none :=
        Places.inner_eq_none (hunder part)
      have hrender (part : Expr) (hm : Node.expr part ∈ e.kind.parts) {places : Places}
          (hp : texts → places = .none) :
          SameText texts (dialect.render scope' (part.rewritten naming places))
            (dialect.render scope part) := (hpart part hm hp).1
      have harguments {arguments : List Argument} (i : Nat)
          (ha : ∀ argument ∈ arguments, Node.argument argument ∈ e.kind.parts) :
          SameOperands texts
            (dialect.renderArguments scope'
              (changeEach (Argument.rewritten naming) (places.under i) arguments))
            (dialect.renderArguments scope arguments) :=
        dialect.renderArguments_rewritten_of
          (fun argument hm places hp => (hargument argument (ha argument hm) hp).1) (hunder i)
      constructor
      · refine dialect.render_rewritten_of_inside ?_ hp
        have hconstruct : Construct.ofExpr? (e.kind.rewritten naming places) =
            Construct.ofExpr? e.kind := Construct.ofExpr?_rewritten e.kind places
        obtain ⟨kind, location, notes⟩ := e
        cases kind
        case invocation callee arguments =>
          exact dialect.render_invocation_rewritten h
            (hpart callee (by simp [ExprKind.parts]) (hinner 0)).2
            (harguments 1 fun argument ha => by simp [ExprKind.parts, ha])
        case literal value =>
          simp only [Expr.rewrittenInside, ExprKind.rewritten, render]
          exact .refl _
        case identifier name =>
          simp only [Expr.rewrittenInside, ExprKind.rewritten, render, Construct.ofExpr?,
            dialect.identifier_of_matches h]
          exact .refl _
        case memberAccess target member =>
          simp only [Expr.rewrittenInside, ExprKind.rewritten, render, Construct.ofExpr?,
            h.staticReceiver?, h.typeOf]
          cases scope.staticReceiver? target with
          | some receiver => exact .refl _
          | none =>
              cases swizzle? member (scope.typeOf target) with
              | some components => exact (hrender target (by simp [ExprKind.parts]) (hinner 0)).map _
              | none => exact .refl _
        case index target position =>
          simp only [Expr.rewrittenInside, ExprKind.rewritten, render, Construct.ofExpr?]
          have htarget := hrender target (by simp [ExprKind.parts]) (hunder 0)
          exact htarget.map₂ (hrender position (by simp [ExprKind.parts]) (hunder 1)) _
        case objectCreation type arguments initializer =>
          simp only [ExprKind.rewritten, rewrittenArguments_eq] at hconstruct
          simp only [Expr.rewrittenInside, ExprKind.rewritten, render, rewrittenArguments_eq,
            hconstruct, Naming.dataType_type]
          cases Construct.ofExpr? (.objectCreation type arguments initializer) with
          | some construct => exact .error _ _
          | none =>
              dsimp only
              split
              · refine (harguments 0 fun argument ha => by simp [ExprKind.parts, ha]).bind
                  fun _ _ ho => ?_
                exact (dialect.sameText_construction _ fun ht => by rw [ho.2 ht]).map _
              · exact .refl _
        case binary op lhs rhs =>
          simp only [ExprKind.rewritten] at hconstruct
          simp only [Expr.rewrittenInside, ExprKind.rewritten, render, hconstruct, h.typeOf]
          cases Construct.ofExpr? (.binary op lhs rhs) with
          | some construct => exact .error _ _
          | none =>
              have hlhs := hrender lhs (by simp [ExprKind.parts]) (hunder 0)
              exact hlhs.map₂ (hrender rhs (by simp [ExprKind.parts]) (hunder 1)) _
        case unary op operand =>
          simp only [Expr.rewrittenInside, ExprKind.rewritten, render, Construct.ofExpr?]
          exact (hrender operand (by simp [ExprKind.parts]) (hunder 0)).map _
        case assignment op target value =>
          simp only [ExprKind.rewritten] at hconstruct
          simp only [Expr.rewrittenInside, ExprKind.rewritten, render, hconstruct, h.typeOf]
          cases Construct.ofExpr? (.assignment op target value) with
          | some construct => exact .error _ _
          | none =>
              have htarget := hrender target (by simp [ExprKind.parts]) (hunder 0)
              exact htarget.map₂ (hrender value (by simp [ExprKind.parts]) (hunder 1)) _
        case conditional condition thenValue elseValue =>
          simp only [Expr.rewrittenInside, ExprKind.rewritten, render, Construct.ofExpr?]
          refine (hrender condition (by simp [ExprKind.parts]) (hunder 0)).bind fun _ _ hc => ?_
          refine (hrender thenValue (by simp [ExprKind.parts]) (hunder 1)).bind fun _ _ ht => ?_
          refine (hrender elseValue (by simp [ExprKind.parts]) (hunder 2)).bind fun _ _ he => ?_
          exact .pure fun htexts => by rw [hc htexts, ht htexts, he htexts]
        case cast type operand =>
          simp only [Expr.rewrittenInside, ExprKind.rewritten, render, Construct.ofExpr?,
            Naming.dataType_castType]
          refine (hrender operand (by simp [ExprKind.parts]) (hunder 0)).bind fun _ _ ho => ?_
          exact (dialect.sameText_cast _ ho).map _
        case parenthesized inner =>
          simp only [Expr.rewrittenInside, ExprKind.rewritten, render, Construct.ofExpr?]
          exact (hrender inner (by simp [ExprKind.parts]) (hunder 0)).map _
        all_goals
          simp only [Expr.rewrittenInside, ExprKind.rewritten, render, Construct.ofExpr?]
          exact .error _ _
      · rw [Expr.apply_rewritten (dialect.renderReceiver_enclosed _)]
        obtain ⟨kind, location, notes⟩ := e
        cases kind
        case memberAccess target member =>
          simp only [Expr.rewrittenInside, ExprKind.rewritten, renderReceiver]
          exact hrender target (by simp [ExprKind.parts]) (hinner 0)
        case parenthesized inner =>
          simp only [Expr.rewrittenInside, ExprKind.rewritten, renderReceiver]
          exact (hpart inner (by simp [ExprKind.parts]) (hunder 0)).2
        all_goals
          simp only [Expr.rewrittenInside, ExprKind.rewritten, renderReceiver]
          exact .error _ _

variable (h : scope'.Matches scope) (hp : texts → places = .none)

include h hp

theorem renderText_rewritten (e : Expr) :
    SameText texts (dialect.renderText scope' (e.rewritten naming places))
      (dialect.renderText scope e) :=
  (dialect.render_renderReceiver_rewritten h e hp).1.map _

theorem renderTexts_rewritten (es : List Expr) :
    SameText texts (dialect.renderTexts scope' (changeEach (Expr.rewritten naming) places es))
      (dialect.renderTexts scope es) :=
  .mapM hp fun e _ _ hp => dialect.renderText_rewritten h hp e

/-! ## Statements -/

theorem declarator_rewritten (declarator : VariableDeclarator) :
    SameText texts (dialect.declarator scope' (declarator.rewritten naming places))
      (dialect.declarator scope declarator) := by
  simp only [Dialect.declarator, VariableDeclarator.rewritten]
  cases declarator.initializer with
  | none => exact .refl _
  | some value => exact (dialect.renderText_rewritten h hp value).map _

theorem writeDeclarators_rewritten (depth : Nat) (type : TypeRef)
    (declarators : List VariableDeclarator) :
    SameScoped texts
      (dialect.writeDeclarators depth (naming.type type) scope'
        (changeEach (VariableDeclarator.rewritten naming) places declarators))
      (dialect.writeDeclarators depth type scope declarators) := by
  induction declarators generalizing scope scope' places with
  | nil => exact .pure ⟨h, fun _ => rfl⟩
  | cons declarator rest ih =>
      have hlocal : scope'.localType (naming.type type)
          (declarator.rewritten naming (places.under 0)).initializer =
            scope.localType type declarator.initializer :=
        h.localType type _ _
      simp only [changeEach, writeDeclarators, hlocal]
      refine Alike.bind (.refl _) ?_
      rintro typeName _ rfl
      refine (dialect.declarator_rewritten h (Places.under_eq_none hp 0) declarator).bind
        fun _ _ htext => ?_
      refine (ih (h.declare declarator.name _) (Places.under_eq_none hp 1)).bind
        fun _ _ hrest => ?_
      exact .pure ⟨hrest.1, fun ht => by rw [htext ht, hrest.2 ht]⟩

theorem headerDeclarators_rewritten (type : DataType) (declarators : List VariableDeclarator) :
    SameScoped texts
      (dialect.headerDeclarators type scope'
        (changeEach (VariableDeclarator.rewritten naming) places declarators))
      (dialect.headerDeclarators type scope declarators) := by
  induction declarators generalizing scope scope' places with
  | nil => exact .pure ⟨h, fun _ => rfl⟩
  | cons declarator rest ih =>
      simp only [changeEach, headerDeclarators]
      refine (dialect.declarator_rewritten h (Places.under_eq_none hp 0) declarator).bind
        fun _ _ htext => ?_
      refine (ih (h.declare declarator.name type) (Places.under_eq_none hp 1)).bind
        fun _ _ hrest => ?_
      exact .pure ⟨hrest.1, fun ht => by rw [htext ht, hrest.2 ht]⟩

theorem headerInitializer_rewritten (initializer : Stmt) :
    SameScoped texts
      (dialect.headerInitializer scope' (initializer.rewritten naming places))
      (dialect.headerInitializer scope initializer) := by
  obtain ⟨kind, location⟩ := initializer
  cases kind
  case declaration declaration =>
    obtain ⟨type, declarators⟩ := declaration
    have htype : scope'.localType (naming.type type)
        ((changeEach (VariableDeclarator.rewritten naming) places declarators).head?.bind
          (·.initializer)) =
          scope.localType type (declarators.head?.bind (·.initializer)) := by
      cases declarators with
      | nil => exact h.localType type none places
      | cons declarator rest => exact h.localType type _ _
    simp only [Stmt.rewritten, StmtKind.rewritten, VariableDeclaration.rewritten,
      rewrittenDeclarators_eq, headerInitializer, headerDeclaration, htype]
    refine Alike.bind (.refl _) ?_
    rintro typeName _ rfl
    refine (dialect.headerDeclarators_rewritten h hp _ declarators).bind fun _ _ hd => ?_
    exact .pure ⟨hd.1, fun ht => by rw [hd.2 ht]⟩
  case expression value =>
    simp only [Stmt.rewritten, StmtKind.rewritten, headerInitializer]
    refine (dialect.renderText_rewritten h (Places.under_eq_none hp 0) value).bind
      fun _ _ htext => ?_
    exact .pure ⟨h, htext⟩
  all_goals
    simp only [Stmt.rewritten, StmtKind.rewritten, headerInitializer]
    exact .error _ _

theorem headerInitializers_rewritten (initializers : List Stmt) :
    SameScoped texts
      (dialect.headerInitializers scope'
        (changeEach (Stmt.rewritten naming) places initializers))
      (dialect.headerInitializers scope initializers) := by
  induction initializers generalizing scope scope' places with
  | nil => exact .pure ⟨h, fun _ => rfl⟩
  | cons initializer rest ih =>
      rw [changeEach, headerInitializers_cons, headerInitializers_cons]
      refine (dialect.headerInitializer_rewritten h (Places.under_eq_none hp 0)
        initializer).bind fun _ _ hfirst => ?_
      refine (ih hfirst.1 (Places.under_eq_none hp 1)).bind fun _ _ hrest => ?_
      exact .pure ⟨hrest.1, fun ht => by rw [hfirst.2 ht, hrest.2 ht]⟩

theorem writeStmts_rewritten_of {stmts : List Stmt}
    (hs : ∀ stmt ∈ stmts, ∀ (depth : Nat) {scope scope' : Scope} {places : Places},
      scope'.Matches scope → (texts → places = .none) →
        SameScoped texts (dialect.writeStmt depth scope' (stmt.rewritten naming places))
          (dialect.writeStmt depth scope stmt)) (depth : Nat) :
    SameScoped texts
      (dialect.writeStmts depth scope' (changeEach (Stmt.rewritten naming) places stmts))
      (dialect.writeStmts depth scope stmts) := by
  induction stmts generalizing scope scope' places with
  | nil =>
      simp only [changeEach, writeStmts]
      exact .pure ⟨h, fun _ => rfl⟩
  | cons stmt rest ih =>
      rw [List.forall_mem_cons] at hs
      simp only [changeEach, writeStmts]
      refine (hs.1 depth h (Places.under_eq_none hp 0)).bind fun _ _ hfirst => ?_
      refine (ih hfirst.1 (Places.under_eq_none hp 1) hs.2).bind fun _ _ hrest => ?_
      exact .pure ⟨hrest.1, fun ht => by rw [hfirst.2 ht, hrest.2 ht]⟩

end Dialect

theorem Stmt.isBlock_rewritten {naming : Naming} (stmt : Stmt) (places : Places) :
    (stmt.rewritten naming places).isBlock = stmt.isBlock := by
  rw [isBlock, isBlock, Stmt.rewritten_eq]
  cases stmt.kind <;> simp only [StmtKind.rewritten]

theorem Stmt.branchDepth_rewritten {naming : Naming} (stmt : Stmt) (places : Places)
    (depth : Nat) : (stmt.rewritten naming places).branchDepth depth = stmt.branchDepth depth := by
  rw [branchDepth, branchDepth, isBlock_rewritten]

theorem Stmt.encloseBranch_rewritten {naming : Naming} (stmt : Stmt) (places : Places)
    (depth : Nat) (lines : List Line) :
    (stmt.rewritten naming places).encloseBranch depth lines =
      stmt.encloseBranch depth lines := by
  rw [encloseBranch, encloseBranch, isBlock_rewritten]

namespace Dialect

variable {naming : Naming} {texts : Prop} (dialect : Dialect)

theorem writeStmt_rewritten (stmt : Stmt) (depth : Nat) {scope scope' : Scope} {places : Places}
    (h : scope'.Matches scope) (hp : texts → places = .none) :
    SameScoped texts (dialect.writeStmt depth scope' (stmt.rewritten naming places))
      (dialect.writeStmt depth scope stmt) := by
  induction stmt using Stmt.induction generalizing depth scope scope' places with
  | step stmt ih =>
      have hunder (part : Nat) : texts → places.under part = .none :=
        Places.under_eq_none hp part
      rw [Stmt.rewritten_eq, writeStmt.eq_def, writeStmt.eq_def dialect depth scope]
      simp only [Construct.ofStmt?_rewritten]
      cases Construct.ofStmt? stmt.kind with
      | some construct => exact .error _ _
      | none =>
          obtain ⟨kind, location⟩ := stmt
          cases kind
          case block body =>
            simp only [StmtKind.rewritten, rewrittenStmts_eq]
            refine (dialect.writeStmts_rewritten_of h hp (fun stmt hs depth _ _ _ =>
              ih stmt (by simpa [StmtKind.parts] using hs) depth) (depth + 1)).bind
              fun _ _ hbody => ?_
            exact .pure ⟨hbody.1, fun ht => by rw [hbody.2 ht]⟩
          case expression value =>
            simp only [StmtKind.rewritten]
            refine (dialect.renderText_rewritten h (hunder 0) value).bind fun _ _ hv => ?_
            exact .pure ⟨h, fun ht => by rw [hv ht]⟩
          case declaration declaration =>
            obtain ⟨type, declarators⟩ := declaration
            simp only [StmtKind.rewritten, VariableDeclaration.rewritten, rewrittenDeclarators_eq]
            exact dialect.writeDeclarators_rewritten h hp depth type declarators
          case ifElse condition thenBranch elseBranch =>
            simp only [StmtKind.rewritten, rewrittenOptionalStmt_eq_map,
              Stmt.branchDepth_rewritten, Stmt.encloseBranch_rewritten]
            refine (dialect.renderText_rewritten h (hunder 0) condition).bind fun _ _ hc => ?_
            refine (ih thenBranch (by simp [StmtKind.parts]) _ h (hunder 1)).bind
              fun _ _ hthen => ?_
            cases elseBranch with
            | none =>
                simp only [Option.map_none, writeElse]
                exact .pure ⟨hthen.1, fun ht => by rw [hc ht, hthen.2 ht]⟩
            | some branch =>
                simp only [Option.map_some, writeElse, Stmt.branchDepth_rewritten,
                  Stmt.encloseBranch_rewritten, bind_assoc]
                refine (ih branch (by simp [StmtKind.parts]) _ hthen.1 (hunder 2)).bind
                  fun _ _ helse => ?_
                exact .pure ⟨helse.1, fun ht => by rw [hc ht, hthen.2 ht, helse.2 ht]⟩
          case whileLoop condition body =>
            simp only [StmtKind.rewritten, Stmt.branchDepth_rewritten,
              Stmt.encloseBranch_rewritten]
            refine (dialect.renderText_rewritten h (hunder 0) condition).bind fun _ _ hc => ?_
            refine (ih body (by simp [StmtKind.parts]) _ h (hunder 1)).bind fun _ _ hbody => ?_
            exact .pure ⟨hbody.1, fun ht => by rw [hc ht, hbody.2 ht]⟩
          case doWhileLoop body condition =>
            simp only [StmtKind.rewritten, Stmt.branchDepth_rewritten,
              Stmt.encloseBranch_rewritten]
            refine (ih body (by simp [StmtKind.parts]) _ h (hunder 0)).bind fun _ _ hbody => ?_
            refine (dialect.renderText_rewritten hbody.1 (hunder 1) condition).bind
              fun _ _ hc => ?_
            exact .pure ⟨hbody.1, fun ht => by rw [hc ht, hbody.2 ht]⟩
          case forLoop initializers condition increments body =>
            have hcondition {inner inner' : Scope} (hi : inner'.Matches inner) :
                SameText texts
                  ((condition.map (Expr.rewritten naming (places.under 1))).toList.mapM
                    (dialect.renderText inner'))
                  (condition.toList.mapM (dialect.renderText inner)) := by
              cases condition with
              | none => exact .refl _
              | some condition =>
                  simp only [Option.map_some, Option.toList_some, List.mapM_cons, List.mapM_nil,
                    pure_bind]
                  exact (dialect.renderText_rewritten hi (hunder 1) condition).map _
            simp only [StmtKind.rewritten, rewrittenStmts_eq, rewrittenOption_eq_map,
              rewrittenValues_eq, Stmt.branchDepth_rewritten, Stmt.encloseBranch_rewritten]
            refine (dialect.headerInitializers_rewritten h (hunder 0) initializers).bind
              fun _ _ hinit => ?_
            refine (hcondition hinit.1).bind fun _ _ hc => ?_
            refine (dialect.renderTexts_rewritten hinit.1 (hunder 2) increments).bind
              fun _ _ hincrements => ?_
            refine (ih body (by simp [StmtKind.parts]) _ hinit.1 (hunder 3)).bind
              fun _ _ hbody => ?_
            exact .pure ⟨hbody.1, fun ht => by
              rw [hinit.2 ht, hc ht, hincrements ht, hbody.2 ht]⟩
          case returning value =>
            cases value with
            | none =>
                simp only [StmtKind.rewritten, rewrittenOption]
                exact .pure ⟨h, fun _ => rfl⟩
            | some value =>
                simp only [StmtKind.rewritten, rewrittenOption]
                exact .error _ _
          case empty | breakLoop | continueLoop =>
            simp only [StmtKind.rewritten]
            exact .pure ⟨h, fun _ => rfl⟩
          all_goals
            simp only [StmtKind.rewritten]
            exact .error _ _

theorem writeStmts_rewritten (stmts : List Stmt) (depth : Nat) {scope scope' : Scope}
    {places : Places} (h : scope'.Matches scope) (hp : texts → places = .none) :
    SameScoped texts
      (dialect.writeStmts depth scope' (changeEach (Stmt.rewritten naming) places stmts))
      (dialect.writeStmts depth scope stmts) :=
  dialect.writeStmts_rewritten_of h hp
    (fun stmt _ depth _ _ _ => dialect.writeStmt_rewritten stmt depth) depth

end Dialect

end ShaderEffect
