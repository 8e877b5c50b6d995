import ShaderEffect.Proofs.StepText
import ShaderEffect.Proofs.Writable

/-!
# Side effects in written expressions

Increments and decrements are the side effects inside expressions. A language writes each of them as
often as it writes the expression: once, except in the target of a compound assignment with a special
operator, which is written on both sides of the assignment.
-/

namespace ShaderEffect

/-! ## Written expressions -/

/-- The expression is an increment or a decrement. -/
def Step.applies (step : Step) (e : Expr) : Bool :=
  match e.kind with
  | .unary op _ => op.step? = some step
  | _ => false

theorem Node.sizeOf_le_of_contains {whole node : Node} (h : whole.Contains node) :
    sizeOf node ≤ sizeOf whole := by
  refine contains_invariant (P := fun node => sizeOf node ≤ sizeOf whole) ?_ (Nat.le_refl _) h
  intro outer ho part hp
  exact Nat.le_trans (Nat.le_of_lt (sizeOf_lt_of_mem_parts hp)) ho

namespace Scope

theorem sizeOf_operand_lt {scope : Scope} {e operand : Expr} (h : operand ∈ scope.operands e) :
    sizeOf operand < sizeOf e := by
  obtain ⟨part, hp, hcontains⟩ := contains_operand h
  have hpart : sizeOf part < sizeOf (Node.expr e) := Node.sizeOf_lt_of_mem_parts hp
  have hoperand := Node.sizeOf_le_of_contains hcontains
  simp only [Node.expr.sizeOf_spec] at hpart hoperand
  omega

/-- The operands that are written a second time. -/
def repeated (scope : Scope) (e : Expr) : List Expr :=
  match e.kind with
  | .assignment op target value =>
    if op.repeatsTarget (scope.typeOf target) (scope.typeOf value) then [target] else []
  | _ => []

theorem mem_operands_of_mem_repeated {scope : Scope} {e target : Expr}
    (h : target ∈ scope.repeated e) : target ∈ scope.operands e := by
  unfold repeated at h
  split at h
  · rename_i hk
    split at h
    · simp_all [operands]
    · cases h
  · cases h

/-- The expression and all expressions that are written as values inside it. -/
def values (scope : Scope) (e : Expr) : List Expr :=
  e :: (scope.operands e).attach.flatMap fun operand => scope.values operand.1
termination_by sizeOf e
decreasing_by exact sizeOf_operand_lt operand.2

/-- The expressions that are written directly inside an expression, as often as they are. -/
def pieces (scope : Scope) (e : Expr) : List Expr :=
  scope.operands e ++ scope.repeated e

theorem mem_operands_of_mem_pieces {scope : Scope} {e piece : Expr}
    (h : piece ∈ scope.pieces e) : piece ∈ scope.operands e :=
  (List.mem_append.mp h).elim id mem_operands_of_mem_repeated

/-- The expression and all expressions inside it, as often as they are written. -/
def written (scope : Scope) (e : Expr) : List Expr :=
  e :: (scope.pieces e).attach.flatMap fun piece => scope.written piece.1
termination_by sizeOf e
decreasing_by exact sizeOf_operand_lt (mem_operands_of_mem_pieces piece.2)

/-- The number of steps among the values in an expression. -/
def stepsIn (scope : Scope) (step : Step) (e : Expr) : Nat :=
  (scope.values e).countP step.applies

/-- The number of steps that are written for an expression. -/
def writtenSteps (scope : Scope) (step : Step) (e : Expr) : Nat :=
  (scope.written e).countP step.applies

variable {scope : Scope} {step : Step} {e : Expr}

theorem values_eq : scope.values e = e :: (scope.operands e).flatMap scope.values := by
  rw [values]
  simp

theorem stepsIn_eq : scope.stepsIn step e =
    (if step.applies e then 1 else 0) + ((scope.operands e).map (scope.stepsIn step)).sum := by
  rw [stepsIn, values_eq, List.countP_cons, List.countP_flatMap, Nat.add_comm]
  rfl

theorem written_eq : scope.written e = e :: (scope.pieces e).flatMap scope.written := by
  rw [written]
  simp

theorem writtenSteps_eq : scope.writtenSteps step e =
    (if step.applies e then 1 else 0) + ((scope.operands e).map (scope.writtenSteps step)).sum +
      ((scope.repeated e).map (scope.writtenSteps step)).sum := by
  rw [writtenSteps, written_eq, List.countP_cons, List.countP_flatMap, pieces, List.map_append,
    List.sum_append, Nat.add_comm, Nat.add_assoc]
  rfl

end Scope

/-! ## Expressions that are written once -/

theorem sum_map_le_and_eq_iff {α : Type} {f g : α → Nat} {xs : List α}
    (h : ∀ x ∈ xs, f x ≤ g x) : (xs.map f).sum ≤ (xs.map g).sum ∧
      ((xs.map g).sum = (xs.map f).sum ↔ ∀ x ∈ xs, g x = f x) := by
  induction xs with
  | nil => simp
  | cons x xs ih =>
      have hx := h x (by simp)
      have hrest := ih fun y hy => h y (by simp [hy])
      simp only [List.map_cons, List.sum_cons, List.forall_mem_cons, ← hrest.2]
      omega

namespace Scope

variable {scope : Scope} {step : Step}

/-- No target that is written twice in an expression has a step in it. -/
def StepsOnce (scope : Scope) (step : Step) (e : Expr) : Prop :=
  ∀ inner ∈ scope.values e, ∀ target ∈ scope.repeated inner, scope.stepsIn step target = 0

theorem stepsOnce_iff {e : Expr} : scope.StepsOnce step e ↔
    (∀ target ∈ scope.repeated e, scope.stepsIn step target = 0) ∧
      ∀ operand ∈ scope.operands e, scope.StepsOnce step operand := by
  unfold StepsOnce
  rw [values_eq, List.forall_mem_cons, List.forall_mem_flatMap]

/-- At least the steps among the values are written, and exactly these if no step is in a target that
is written twice. -/
theorem stepsIn_le_writtenSteps (scope : Scope) (step : Step) (e : Expr) :
    scope.stepsIn step e ≤ scope.writtenSteps step e ∧
      (scope.writtenSteps step e = scope.stepsIn step e ↔ scope.StepsOnce step e) := by
  induction e using Expr.induction with
  | step e ih =>
      have hoperand : ∀ operand ∈ scope.operands e,
          scope.stepsIn step operand ≤ scope.writtenSteps step operand ∧
            (scope.writtenSteps step operand = scope.stepsIn step operand ↔
              scope.StepsOnce step operand) := by
        intro operand ho
        obtain ⟨part, hp, hcontains⟩ := contains_operand ho
        exact ih part hp operand hcontains
      obtain ⟨hle, heq⟩ := sum_map_le_and_eq_iff fun operand ho => (hoperand operand ho).1
      have hrepeated : ((scope.repeated e).map (scope.writtenSteps step)).sum = 0 ↔
          ∀ target ∈ scope.repeated e, scope.writtenSteps step target = 0 := by
        simp [List.sum_eq_zero_iff]
      rw [writtenSteps_eq, stepsIn_eq, stepsOnce_iff]
      refine ⟨by omega, ?_, ?_⟩
      · intro h
        have hall := heq.mp (by omega)
        have hzero := hrepeated.mp (by omega)
        refine ⟨fun target ht => ?_, fun operand ho => (hoperand operand ho).2.mp (hall operand ho)⟩
        rw [← hall target (mem_operands_of_mem_repeated ht)]
        exact hzero target ht
      · rintro ⟨htargets, honce⟩
        have hall : ∀ operand ∈ scope.operands e,
            scope.writtenSteps step operand = scope.stepsIn step operand :=
          fun operand ho => (hoperand operand ho).2.mpr (honce operand ho)
        have hzero := hrepeated.mpr fun target ht =>
          (hall target (mem_operands_of_mem_repeated ht)).trans (htargets target ht)
        rw [hzero, heq.mpr hall, Nat.add_zero]

end Scope

/-! ## Texts of expressions -/

/-- A name is a single word. -/
def Expr.PlainName (e : Expr) : Prop :=
  ∀ name, e.kind = .identifier name → IsWord name

/-- All names in a node are single words, as identifiers are. -/
abbrev Node.PlainNames (node : Node) : Prop :=
  node.Everywhere Expr.PlainName

theorem Scope.name_of_lookup?_texture {scope : Scope} {name : String} {texture : ShaderTexture}
    (h : scope.lookup? name = some (.texture texture)) : texture.name = name := by
  unfold lookup? at h
  split at h
  · cases h
  · split at h
    · cases h
    · split at h
      · cases h
      · split at h
        · cases h
        · obtain ⟨found, hf, ⟨rfl⟩⟩ := Option.map_eq_some_iff.mp h
          simpa using List.find?_some hf

theorem Scope.kind_of_texture? {scope : Scope} {e : Expr} {texture : ShaderTexture}
    (h : scope.texture? e = some texture) : e.unparenthesized.kind = .identifier texture.name := by
  unfold texture? at h
  split at h
  · rename_i name hk
    split at h
    · rename_i found hlookup
      cases h
      rw [name_of_lookup?_texture hlookup]
      exact hk
    · cases h
  · cases h

namespace Dialect

variable {dialect : Dialect} {scope : Scope} {step : Step}

/-- What is written for an expression has the steps that are counted for it. -/
def WritesSteps (dialect : Dialect) (scope : Scope) (step : Step) (e : Expr) : Prop :=
  ∀ operand, dialect.render scope e = .ok operand →
    step.Writes (scope.writtenSteps step e) operand.text

section

variable {location : Location} {notes : Notes} {type : TypeRef} {target value lhs rhs inner : Expr}

attribute [local simp] Scope.writtenSteps_eq Step.applies Scope.operands Scope.repeated Operand.atom
  Operand.ofOperator toString

theorem writesSteps_literal {value : Value} :
    dialect.WritesSteps scope step ⟨.literal value, location, notes⟩ := by
  intro operand h
  cases value
  case string => cases h
  all_goals
    simp only [render, Construct.ofExpr?] at h
    obtain ⟨text, htext, h⟩ := bind_eq_ok.mp h
    cases h
    have hwrites : step.Writes 0 text := Value.writes_render htext
    simpa using hwrites

theorem writesSteps_identifier {name : String} (hname : IsWord name) :
    dialect.WritesSteps scope step ⟨.identifier name, location, notes⟩ := by
  intro operand h
  simp only [render, Construct.ofExpr?] at h
  obtain ⟨text, htext, h⟩ := bind_eq_ok.mp h
  cases h
  have hword : IsWord text := by
    cases hlookup : scope.lookup? name with
    | none => simp [identifier, hlookup] at htext
    | some binding =>
        rw [identifier_eq hlookup] at htext
        cases htext
        exact isWord_reference hname
  have hwrites : step.Writes 0 text := hword.neutral.writes hword.1
  simpa using hwrites

theorem writesSteps_memberAccess {member : String}
    (ht : scope.staticReceiver? target = none → dialect.WritesSteps scope step target) :
    dialect.WritesSteps scope step ⟨.memberAccess target member, location, notes⟩ := by
  intro operand h
  simp only [render, Construct.ofExpr?] at h
  cases hr : scope.staticReceiver? target with
  | some receiver =>
      simp only [hr] at h
      obtain ⟨text, htext, h⟩ := bind_eq_ok.mp h
      cases h
      have hwrites : step.Writes 0 text := writes_staticMember htext
      simpa [hr] using hwrites
  | none =>
      simp only [hr] at h
      cases hs : swizzle? member (scope.typeOf target) with
      | none => simp [hs] at h
      | some components =>
          simp only [hs] at h
          obtain ⟨written, hwritten, h⟩ := bind_eq_ok.mp h
          cases h
          have htarget := Operand.writes_wrapped (ht hr written hwritten)
          have hmember : Step.Neutral ("." ++ components) :=
            .append (by decide) (isWord_swizzle hs).neutral
          refine ⟨?_, by simp⟩
          simpa [hr, String.append_assoc] using htarget.spells.append hmember.spells

theorem writesSteps_index {position : Expr} (ht : dialect.WritesSteps scope step target)
    (hp : dialect.WritesSteps scope step position) :
    dialect.WritesSteps scope step ⟨.index target position, location, notes⟩ := by
  intro operand h
  simp only [render, Construct.ofExpr?] at h
  obtain ⟨left, hleft, h⟩ := bind_eq_ok.mp h
  obtain ⟨right, hright, h⟩ := bind_eq_ok.mp h
  cases h
  have hbracket : step.Spells 0 "[" := Step.Neutral.spells (by decide)
  have hend : step.Spells 0 "]" := Step.Neutral.spells (by decide)
  have hjoined := (Operand.writes_wrapped (ht left hleft)).join hbracket (hp right hright)
  refine ⟨?_, by simp⟩
  simpa using hjoined.spells.append hend

theorem writesSteps_binary {op : BinaryOp} (hl : dialect.WritesSteps scope step lhs)
    (hr : dialect.WritesSteps scope step rhs) :
    dialect.WritesSteps scope step ⟨.binary op lhs rhs, location, notes⟩ := by
  intro operand h
  cases hc : Construct.ofExpr? (.binary op lhs rhs) with
  | some construct =>
      simp only [render, hc] at h
      cases h
  | none =>
      simp only [render, hc] at h
      obtain ⟨left, hleft, h⟩ := bind_eq_ok.mp h
      obtain ⟨right, hright, h⟩ := bind_eq_ok.mp h
      cases h
      simpa using writes_binary (hl left hleft) (hr right hright)

theorem writesSteps_unary {op : UnaryOp} (hi : dialect.WritesSteps scope step inner) :
    dialect.WritesSteps scope step ⟨.unary op inner, location, notes⟩ := by
  intro operand h
  simp only [render, Construct.ofExpr?] at h
  obtain ⟨written, hwritten, h⟩ := bind_eq_ok.mp h
  cases h
  simpa [UnaryOp.steps] using op.writes_render (hi written hwritten)

theorem writesSteps_assignment {op : AssignOp} (ht : dialect.WritesSteps scope step target)
    (hv : dialect.WritesSteps scope step value) :
    dialect.WritesSteps scope step ⟨.assignment op target value, location, notes⟩ := by
  intro operand h
  cases hc : Construct.ofExpr? (.assignment op target value) with
  | some construct =>
      simp only [render, hc] at h
      cases h
  | none =>
      simp only [render, hc] at h
      obtain ⟨left, hleft, h⟩ := bind_eq_ok.mp h
      obtain ⟨right, hright, h⟩ := bind_eq_ok.mp h
      cases h
      have hsteps : scope.writtenSteps step ⟨.assignment op target value, location, notes⟩ =
          scope.writtenSteps step target + scope.writtenSteps step value +
            if op.repeatsTarget (scope.typeOf target) (scope.typeOf value) then
              scope.writtenSteps step target else 0 := by
        rw [Scope.writtenSteps_eq]
        by_cases hr : op.repeatsTarget (scope.typeOf target) (scope.typeOf value) <;> simp [hr]
      rw [hsteps]
      exact writes_assignment (ht left hleft) (hv right hright)

theorem writesSteps_conditional {condition : Expr}
    (hc : dialect.WritesSteps scope step condition) (ht : dialect.WritesSteps scope step lhs)
    (he : dialect.WritesSteps scope step rhs) :
    dialect.WritesSteps scope step ⟨.conditional condition lhs rhs, location, notes⟩ := by
  intro operand h
  simp only [render, Construct.ofExpr?] at h
  obtain ⟨first, hfirst, h⟩ := bind_eq_ok.mp h
  obtain ⟨second, hsecond, h⟩ := bind_eq_ok.mp h
  obtain ⟨third, hthird, h⟩ := bind_eq_ok.mp h
  cases h
  have hmark : step.Spells 0 " ? " := Step.Neutral.spells (by decide)
  have hcolon : step.Spells 0 " : " := Step.Neutral.spells (by decide)
  have hjoined := ((Operand.writes_wrapped (hc first hfirst)).join hmark
    (Operand.writes_wrapped (ht second hsecond))).join hcolon
    (Operand.writes_wrapped (he third hthird))
  simpa [Nat.add_assoc] using hjoined

theorem writesSteps_cast (hi : dialect.WritesSteps scope step inner) :
    dialect.WritesSteps scope step ⟨.cast type inner, location, notes⟩ := by
  intro operand h
  simp only [render, Construct.ofExpr?] at h
  obtain ⟨written, hwritten, h⟩ := bind_eq_ok.mp h
  obtain ⟨text, htext, h⟩ := bind_eq_ok.mp h
  cases h
  simpa using writes_cast (hi written hwritten) htext

theorem writesSteps_parenthesized (hi : dialect.WritesSteps scope step inner) :
    dialect.WritesSteps scope step ⟨.parenthesized inner, location, notes⟩ := by
  intro operand h
  simp only [render, Construct.ofExpr?] at h
  obtain ⟨written, hwritten, h⟩ := bind_eq_ok.mp h
  cases h
  refine ⟨?_, by simp⟩
  simpa using (hi written hwritten).spells.between "(" ")" (by decide) (by decide)

theorem writes_renderArguments {arguments : List Argument} {operands : List Operand}
    (ha : ∀ argument ∈ arguments, dialect.WritesSteps scope step argument.value)
    (h : dialect.renderArguments scope arguments = .ok operands) :
    List.Forall₂ step.Writes
      ((arguments.map (·.value)).map (scope.writtenSteps step)) (operands.map (·.text)) := by
  induction arguments generalizing operands with
  | nil =>
      rw [renderArguments] at h
      cases h
      exact .nil
  | cons argument rest ih =>
      obtain ⟨name, mode, value⟩ := argument
      rw [renderArguments] at h
      obtain ⟨first, hfirst, h⟩ := bind_eq_ok.mp h
      obtain ⟨others, hothers, h⟩ := bind_eq_ok.mp h
      cases h
      refine .cons (ha ⟨name, mode, value⟩ (by simp) first hfirst) (ih ?_ hothers)
      exact fun argument hmem => ha argument (by simp [hmem])

theorem writesSteps_objectCreation {arguments : List Argument} {initializer : Option (List Expr)}
    (ha : ∀ argument ∈ arguments, dialect.WritesSteps scope step argument.value) :
    dialect.WritesSteps scope step ⟨.objectCreation type arguments initializer, location, notes⟩ := by
  intro operand h
  cases hc : Construct.ofExpr? (.objectCreation type arguments initializer) with
  | some construct =>
      simp only [render, hc] at h
      cases h
  | none =>
      simp only [render, hc] at h
      split at h
      · obtain ⟨operands, hoperands, h⟩ := bind_eq_ok.mp h
        obtain ⟨text, htext, h⟩ := bind_eq_ok.mp h
        cases h
        have hwrites := writes_construction (writes_renderArguments ha hoperands) htext
        simpa using hwrites
      · cases h

/-- The receiver of a sample is written as the name of the texture. -/
theorem exists_texture_of_receiverOperands {e : Expr} {call : Call} {receivers : List Operand}
    (hc : scope.call? e = some call) (hs : call.intrinsic = .sampleTexture)
    (h : dialect.receiverOperands scope call = .ok receivers) :
    ∃ name inner, receivers = [.atom name] ∧ inner.kind = .identifier name ∧
      (Node.expr e).Contains (.expr inner) := by
  obtain ⟨callee, target, member, -, -, -, hreceiver⟩ := Scope.call?_eq_some hc
  have hstatic := (MethodRef.of_intrinsic_eq_sampleTexture hs).1
  simp only [hstatic, Bool.false_eq_true, if_false] at hreceiver
  simp only [receiverOperands, hreceiver, hs, if_true] at h
  cases ht : scope.texture? target with
  | none => simp [ht] at h
  | some texture =>
      simp only [ht] at h
      cases h
      obtain ⟨part, hp, hcontains⟩ := Scope.contains_receiver hc hreceiver
      refine ⟨texture.name, target.unparenthesized, rfl, Scope.kind_of_texture? ht, ?_⟩
      exact Node.contains_of_mem_parts hp (hcontains.trans target.contains_unparenthesized)

theorem writes_receiverOperands {call : Call} {receivers : List Operand}
    (hs : call.intrinsic ≠ .sampleTexture)
    (hr : ∀ receiver ∈ call.receiver, dialect.WritesSteps scope step receiver)
    (h : dialect.receiverOperands scope call = .ok receivers) :
    List.Forall₂ step.Writes (call.receiver.toList.map (scope.writtenSteps step))
      (receivers.map (·.text)) := by
  unfold receiverOperands at h
  cases hc : call.receiver with
  | none =>
      simp only [hc] at h
      cases h
      exact .nil
  | some receiver =>
      simp only [hc, hs, if_false] at h
      obtain ⟨operand, hoperand, h⟩ := bind_eq_ok.mp h
      cases h
      exact .cons (hr receiver hc operand hoperand) .nil

theorem writesSteps_invocation {callee : Expr} {arguments : List Argument}
    (hn : (Node.expr ⟨.invocation callee arguments, location, notes⟩).PlainNames)
    (ho : ∀ operand ∈ scope.operands ⟨.invocation callee arguments, location, notes⟩,
      dialect.WritesSteps scope step operand) :
    dialect.WritesSteps scope step ⟨.invocation callee arguments, location, notes⟩ := by
  intro operand h
  cases hc : scope.call? ⟨.invocation callee arguments, location, notes⟩ with
  | none => simp [render, Construct.ofExpr?, hc] at h
  | some call =>
      obtain ⟨callee', target, member, hk, -, -, -⟩ := Scope.call?_eq_some hc
      obtain ⟨rfl, rfl⟩ : callee = callee' ∧ arguments = call.arguments := by simpa using hk
      by_cases hu : call.intrinsic = .unknown
      · simp [render, Construct.ofExpr?, hc, hu] at h
      · rw [render_invocation hc hu] at h
        obtain ⟨receivers, hreceivers, h⟩ := bind_eq_ok.mp h
        obtain ⟨operands, hoperands, h⟩ := bind_eq_ok.mp h
        obtain ⟨text, htext, h⟩ := bind_eq_ok.mp h
        cases h
        rw [Scope.operands_invocation hc, List.forall_mem_append, List.forall_mem_map] at ho
        have harguments := writes_renderArguments ho.2 hoperands
        rw [Scope.writtenSteps_eq, Scope.operands_invocation hc]
        by_cases hs : call.intrinsic = .sampleTexture
        · obtain ⟨name, inner, rfl, hk, hinner⟩ :=
            exists_texture_of_receiverOperands hc hs hreceivers
          have hword : IsWord name := hn _ hinner name hk
          have htexture : step.Writes 0 name := hword.neutral.writes hword.1
          have hwrites := writes_intrinsicCall (.cons htexture harguments)
            (by simp [hword.neutral]) htext
          simpa [hs] using hwrites
        · simp only [hs, if_false] at ho
          have hreceiver := writes_receiverOperands hs (by simpa using ho.1) hreceivers
          have hall := List.rel_append hreceiver harguments
          have hwrites := writes_intrinsicCall (by simpa using hall) (by simp [hs]) htext
          simpa [hs] using hwrites

end

/-- A text has the steps that are counted for its expression. -/
theorem writesSteps (e : Expr) (hn : (Node.expr e).PlainNames) :
    dialect.WritesSteps scope step e := by
  induction e using Expr.induction with
  | step e ih =>
      have hoperand : ∀ operand ∈ scope.operands e, dialect.WritesSteps scope step operand := by
        intro operand ho
        obtain ⟨part, hp, hcontains⟩ := Scope.contains_operand ho
        exact ih part hp operand hcontains ((hn.part hp).contains hcontains)
      clear ih
      obtain ⟨kind, location, notes⟩ := e
      cases kind
      case literal value => exact writesSteps_literal
      case identifier name => exact writesSteps_identifier (hn _ (Node.contains_self _) name rfl)
      case memberAccess target member =>
        refine writesSteps_memberAccess fun hr => hoperand target ?_
        simp [Scope.operands, hr]
      case invocation callee arguments => exact writesSteps_invocation hn hoperand
      case objectCreation type arguments initializer =>
        refine writesSteps_objectCreation fun argument ha => hoperand argument.value ?_
        exact List.mem_map_of_mem ha
      case index target position =>
        exact writesSteps_index (hoperand _ (by simp [Scope.operands]))
          (hoperand _ (by simp [Scope.operands]))
      case binary op lhs rhs =>
        exact writesSteps_binary (hoperand _ (by simp [Scope.operands]))
          (hoperand _ (by simp [Scope.operands]))
      case unary op inner => exact writesSteps_unary (hoperand _ (by simp [Scope.operands]))
      case assignment op target value =>
        exact writesSteps_assignment (hoperand _ (by simp [Scope.operands]))
          (hoperand _ (by simp [Scope.operands]))
      case conditional condition thenValue elseValue =>
        exact writesSteps_conditional (hoperand _ (by simp [Scope.operands]))
          (hoperand _ (by simp [Scope.operands])) (hoperand _ (by simp [Scope.operands]))
      case cast type inner => exact writesSteps_cast (hoperand _ (by simp [Scope.operands]))
      case parenthesized inner =>
        exact writesSteps_parenthesized (hoperand _ (by simp [Scope.operands]))
      all_goals
        intro operand h
        cases h

end Dialect

/-- How often side effects are written. The text of an expression has as many increments, and as many
decrements, as the expressions that are written: none is lost, and the text has exactly those among
the values in the expression unless one stands in the target of a compound assignment with a special
operator. Such a target is written on both sides, and its side effects with it. -/
theorem Dialect.side_effects_written {dialect : Dialect} {scope : Scope} {e : Expr}
    {operand : Operand} (hn : (Node.expr e).PlainNames)
    (h : dialect.render scope e = .ok operand) (step : Step) :
    step.count operand.text = (scope.written e).countP step.applies ∧
      (scope.values e).countP step.applies ≤ step.count operand.text ∧
      (step.count operand.text = (scope.values e).countP step.applies ↔
        ∀ inner ∈ scope.values e, ∀ target ∈ scope.repeated inner,
          (scope.values target).countP step.applies = 0) := by
  have hcount : step.count operand.text = scope.writtenSteps step e :=
    (writesSteps e hn operand h).spells.count_eq
  rw [hcount]
  exact ⟨rfl, scope.stepsIn_le_writtenSteps step e⟩

/-! ## An example -/

/-- The remainder of one component after the other: `shade[next++] %= uv.X`. -/
def steppedRemainder : Expr :=
  ⟨.assignment .rem
    ⟨.index (.named "shade") ⟨.unary .postIncrement (.named "next"), {}, {}⟩, {}, {}⟩
    ⟨.memberAccess (.named "uv") "X", {}, {}⟩, {}, {}⟩

/-- A body that starts with the first component. -/
def steppedShade : List Stmt :=
  let next : VariableDeclarator :=
    { name := "next", initializer := some ⟨.literal (.int 0), {}, {}⟩ }
  [⟨.declaration ⟨.named "int", [next]⟩, {}⟩, ⟨.expression steppedRemainder, {}⟩]

/-- The names in the body after the declaration. -/
def steppedScope : Scope :=
  { effect := tintingEffect steppedShade
    method := tintingShade steppedShade
    locals := [("next", .int)] }

/-- A valid effect has one increment in its body, and the text has two in each language. -/
theorem valid_increment_written_twice :
    isValid (tinting steppedShade) (tintingEffect steppedShade) = true ∧
      (steppedScope.values steppedRemainder).countP Step.increment.applies = 1 ∧
      Dialect.hlsl.renderText steppedScope steppedRemainder =
        .ok "fx_output.shade[next++] = fx_output.shade[next++] % fx_input.uv.x" ∧
      ∀ version, (Dialect.glsl version).renderText steppedScope steppedRemainder =
        .ok "o_color0[next++] = mod(o_color0[next++], v_texcoord0.x)" := by
  have hreceiver : steppedScope.staticReceiver? ⟨.identifier "uv", {}, {}⟩ = none := rfl
  refine ⟨rfl, ?_, rfl, fun version => rfl⟩
  have hsteps : steppedScope.stepsIn .increment steppedRemainder = 1 := by
    simp [Scope.stepsIn_eq, steppedRemainder, Scope.operands, Step.applies, UnaryOp.step?,
      hreceiver, Expr.named]
  exact hsteps

theorem plainNames_steppedRemainder : (Node.expr steppedRemainder).PlainNames := by
  have hword : IsWord "shade" ∧ IsWord "next" ∧ IsWord "uv" := by decide
  simp [steppedRemainder, Node.everywhere_expr, ExprKind.parts, Expr.PlainName, Expr.named, hword]

/-- Both increments of the text are counted as written, and no decrement. -/
theorem steppedRemainder_side_effects_written :
    (Node.expr steppedRemainder).PlainNames ∧
      (∃ operand, Dialect.hlsl.render steppedScope steppedRemainder = .ok operand) ∧
      (steppedScope.written steppedRemainder).countP Step.increment.applies = 2 ∧
      (steppedScope.written steppedRemainder).countP Step.decrement.applies = 0 := by
  have hrender : Dialect.hlsl.render steppedScope steppedRemainder =
      .ok (.ofOperator "fx_output.shade[next++] = fx_output.shade[next++] % fx_input.uv.x") := rfl
  have hwritten := Dialect.side_effects_written plainNames_steppedRemainder hrender
  exact ⟨plainNames_steppedRemainder, ⟨_, hrender⟩, (hwritten .increment).1.symm,
    (hwritten .decrement).1.symm⟩

end ShaderEffect
