import ShaderEffect.Proofs.Checked
import ShaderEffect.Proofs.Dialect

/-!
# Expressions that can be written

Exactly which expressions a language can write in a scope. An expression is written together with its
operands, so that the condition is one on each expression that is written, and on nothing else: the
receivers of static members and the callees of invocations are never written.

Checking an expression establishes most of the condition. What it leaves open is whether every name
that is written is bound, and whether every sample has the operands that the language takes.
-/

namespace ShaderEffect

namespace Scope

/-! ## Operands -/

/-- The expressions that are written directly inside an expression. The receiver of a sample is not
among them: it is written as the name of the texture. -/
def operands (scope : Scope) (e : Expr) : List Expr :=
  match e.kind with
  | .memberAccess target _ => if (scope.staticReceiver? target).isSome then [] else [target]
  | .index target position => [target, position]
  | .invocation _ arguments =>
    match scope.call? e with
    | none => []
    | some call =>
      (if call.intrinsic = .sampleTexture then [] else call.receiver.toList) ++
        arguments.map (·.value)
  | .objectCreation _ arguments _ => arguments.map (·.value)
  | .binary _ lhs rhs => [lhs, rhs]
  | .assignment _ target value => [target, value]
  | .conditional condition thenValue elseValue => [condition, thenValue, elseValue]
  | .unary _ operand | .cast _ operand | .parenthesized operand => [operand]
  | _ => []

/-- A property of an expression and of all expressions that are written inside it. -/
inductive Throughout (scope : Scope) (P : Expr → Prop) : Expr → Prop where
  | intro {e} (h : P e) (ho : ∀ operand ∈ scope.operands e, Throughout scope P operand) :
    Throughout scope P e

theorem throughout_iff {scope : Scope} {P : Expr → Prop} {e : Expr} :
    scope.Throughout P e ↔ P e ∧ ∀ operand ∈ scope.operands e, scope.Throughout P operand := by
  constructor
  · rintro ⟨h, ho⟩
    exact ⟨h, ho⟩
  · rintro ⟨h, ho⟩
    exact .intro h ho

theorem contains_argument_value {e : Expr} {argument : Argument}
    (h : Node.argument argument ∈ e.kind.parts) :
    ∃ part ∈ e.kind.parts, part.Contains (.expr argument.value) :=
  ⟨_, h, Node.contains_of_mem_parts (by simp [Node.parts]) (Node.contains_self _)⟩

/-- The receiver of a call stands inside the callee. -/
theorem contains_receiver {scope : Scope} {e receiver : Expr} {call : Call}
    (hc : scope.call? e = some call) (hr : call.receiver = some receiver) :
    ∃ part ∈ e.kind.parts, part.Contains (.expr receiver) := by
  obtain ⟨callee, member, hk, hm⟩ := call?_receiver hc hr
  refine ⟨.expr callee, by simp [hk, ExprKind.parts], ?_⟩
  exact callee.contains_unparenthesized.tail (by simp [Node.parts, hm, ExprKind.parts])

theorem operands_invocation {scope : Scope} {callee : Expr} {arguments : List Argument}
    {location : Location} {notes : Notes} {call : Call}
    (hc : scope.call? ⟨.invocation callee arguments, location, notes⟩ = some call) :
    scope.operands ⟨.invocation callee arguments, location, notes⟩ =
      (if call.intrinsic = .sampleTexture then [] else call.receiver.toList) ++
        arguments.map (·.value) := by
  simp only [operands, hc]

/-- An operand of an invocation is its receiver or the value of an argument. -/
theorem mem_operands_invocation {scope : Scope} {callee operand : Expr} {arguments : List Argument}
    {location : Location} {notes : Notes} {call : Call}
    (hc : scope.call? ⟨.invocation callee arguments, location, notes⟩ = some call)
    (h : operand ∈ scope.operands ⟨.invocation callee arguments, location, notes⟩) :
    call.receiver = some operand ∨ ∃ argument ∈ arguments, argument.value = operand := by
  rw [operands_invocation hc, List.mem_append, List.mem_map] at h
  rcases h with hr | hv
  · left
    split at hr
    · cases hr
    · simpa using hr
  · exact .inr hv

/-- Operands stand below the expression that they are operands of. -/
theorem contains_operand {scope : Scope} {e operand : Expr} (h : operand ∈ scope.operands e) :
    ∃ part ∈ e.kind.parts, part.Contains (.expr operand) := by
  have hpart (hp : Node.expr operand ∈ e.kind.parts) :
      ∃ part ∈ e.kind.parts, part.Contains (.expr operand) := ⟨_, hp, Node.contains_self _⟩
  obtain ⟨kind, location, notes⟩ := e
  cases kind
  case memberAccess target member =>
    simp only [operands] at h
    split at h
    · cases h
    · exact hpart (by simpa [ExprKind.parts] using h)
  case invocation callee arguments =>
    cases hc : scope.call? ⟨.invocation callee arguments, location, notes⟩ with
    | none => simp [operands, hc] at h
    | some call =>
        rcases mem_operands_invocation hc h with hr | ⟨argument, ha, rfl⟩
        · exact contains_receiver hc hr
        · exact contains_argument_value (by simp [ExprKind.parts, ha])
  case objectCreation type arguments initializer =>
    obtain ⟨argument, ha, rfl⟩ := List.mem_map.mp h
    exact contains_argument_value (by simp [ExprKind.parts, ha])
  case index | binary | assignment | conditional | unary | cast | parenthesized =>
    exact hpart (by simpa [operands, ExprKind.parts] using h)
  all_goals cases h

/-! ## Expressions that can be written -/

/-- What a language needs to write an expression once its operands are written. -/
def Expressible (dialect : Dialect) (scope : Scope) (e : Expr) : Prop :=
  Construct.ofExpr? e.kind = none ∧
    match e.kind with
    | .identifier name => (scope.lookup? name).isSome
    | .memberAccess target member =>
      match scope.staticReceiver? target with
      | some receiver => (staticProperty? (DataType.ofHostName receiver) member).isSome
      | none => (swizzle? member (scope.typeOf target)).isSome
    | .invocation _ _ =>
      ∃ call, scope.call? e = some call ∧ call.intrinsic ≠ .unknown ∧
        (call.intrinsic = .sampleTexture →
          (∀ receiver ∈ call.receiver, (scope.texture? receiver).isSome) ∧
            dialect.Samples (1 + call.arguments.length)) ∧
        ¬ (call.intrinsic.isFragmentOnly ∧ scope.method.stage = .vertex)
    | .objectCreation type _ _ => type.dataType.isVector ∨ type.dataType.isMatrix
    | .cast type _ => type.dataType ≠ .unknown
    | _ => True

theorem expressible_invocation {dialect : Dialect} {scope : Scope} {callee : Expr}
    {arguments : List Argument} {location : Location} {notes : Notes} {call : Call}
    (hc : scope.call? ⟨.invocation callee arguments, location, notes⟩ = some call) :
    Expressible dialect scope ⟨.invocation callee arguments, location, notes⟩ ↔
      call.intrinsic ≠ .unknown ∧
        (call.intrinsic = .sampleTexture →
          (∀ receiver ∈ call.receiver, (scope.texture? receiver).isSome) ∧
            dialect.Samples (1 + call.arguments.length)) ∧
        ¬ (call.intrinsic.isFragmentOnly ∧ scope.method.stage = .vertex) := by
  simp [Expressible, Construct.ofExpr?, hc]

/-- An expression can be written with all its operands. -/
abbrev Writable (dialect : Dialect) (scope : Scope) (e : Expr) : Prop :=
  scope.Throughout (Expressible dialect scope) e

end Scope

namespace Dialect

variable {dialect : Dialect} {scope : Scope}

theorem succeeds_renderArguments {arguments : List Argument} :
    Succeeds (dialect.renderArguments scope arguments) ↔
      ∀ argument ∈ arguments, Succeeds (dialect.render scope argument.value) := by
  induction arguments with
  | nil => simp [renderArguments]
  | cons argument rest ih =>
      obtain ⟨name, mode, value⟩ := argument
      rw [renderArguments, List.forall_mem_cons, ← ih]
      exact succeeds_bind_iff fun _ _ => succeeds_bind_pure

theorem succeeds_receiverOperands {call : Call} :
    Succeeds (dialect.receiverOperands scope call) ↔ ∀ receiver ∈ call.receiver,
      if call.intrinsic = .sampleTexture then (scope.texture? receiver).isSome
      else Succeeds (dialect.render scope receiver) := by
  unfold receiverOperands
  cases hr : call.receiver with
  | none => simp
  | some receiver =>
      by_cases hs : call.intrinsic = .sampleTexture
      · cases ht : scope.texture? receiver <;> simp [hs, ht]
      · simp only [hs, if_false, Option.mem_some_iff, forall_eq']
        exact succeeds_bind_pure

/-- The call itself can be written after its operands unless it is a sample with operands that the
language does not take, or not available in the stage. -/
theorem succeeds_intrinsicCall_operands {call : Call} {e : Expr}
    {receivers arguments : List Operand}
    (hc : scope.call? e = some call) (hu : call.intrinsic ≠ .unknown)
    (hr : dialect.receiverOperands scope call = .ok receivers)
    (ha : dialect.renderArguments scope call.arguments = .ok arguments) :
    Succeeds (dialect.intrinsicCall scope.method.stage call.intrinsic (receivers ++ arguments)) ↔
      (call.intrinsic = .sampleTexture → dialect.Samples (1 + call.arguments.length)) ∧
        ¬ (call.intrinsic.isFragmentOnly ∧ scope.method.stage = .vertex) := by
  have hlength : call.intrinsic = .sampleTexture →
      (receivers ++ arguments).length = 1 + call.arguments.length := by
    intro hs
    obtain ⟨callee, target, member, -, -, -, hreceiver⟩ := Scope.call?_eq_some hc
    have hstatic := (MethodRef.of_intrinsic_eq_sampleTexture hs).1
    rw [List.length_append, length_receiverOperands hr, length_renderArguments ha]
    simp [hreceiver, hstatic]
  rw [succeeds_intrinsicCall hu]
  refine and_congr_left' (imp_congr_right fun hs => ?_)
  rw [hlength hs]

theorem succeeds_render_invocation {callee : Expr} {arguments : List Argument}
    {location : Location} {notes : Notes} :
    Succeeds (dialect.render scope ⟨.invocation callee arguments, location, notes⟩) ↔
      Scope.Expressible dialect scope ⟨.invocation callee arguments, location, notes⟩ ∧
        ∀ operand ∈ scope.operands ⟨.invocation callee arguments, location, notes⟩,
          Succeeds (dialect.render scope operand) := by
  cases hc : scope.call? ⟨.invocation callee arguments, location, notes⟩ with
  | none => simp [render, Construct.ofExpr?, hc, Scope.Expressible]
  | some call =>
      obtain ⟨callee', target, member, hk, -, -, -⟩ := Scope.call?_eq_some hc
      obtain ⟨rfl, rfl⟩ : callee = callee' ∧ arguments = call.arguments := by simpa using hk
      by_cases hu : call.intrinsic = .unknown
      · simp [render, Construct.ofExpr?, hc, hu, Scope.Expressible]
      · rw [render_invocation hc hu, succeeds_bind_iff fun receivers hr =>
          succeeds_bind_iff fun operands ha =>
            succeeds_bind_pure.trans (succeeds_intrinsicCall_operands hc hu hr ha)]
        rw [succeeds_receiverOperands, succeeds_renderArguments]
        rw [Scope.expressible_invocation hc, Scope.operands_invocation hc, List.forall_mem_append,
          List.forall_mem_map]
        by_cases hs : call.intrinsic = .sampleTexture
        · simp only [hs, if_true, forall_const]
          constructor
          · rintro ⟨hr, ha, hn, hf⟩
            exact ⟨⟨by simp, ⟨hr, hn⟩, hf⟩, by simp, ha⟩
          · rintro ⟨⟨-, ⟨hr, hn⟩, hf⟩, -, ha⟩
            exact ⟨hr, ha, hn, hf⟩
        · simp only [hs, if_false, false_implies, true_and, Option.mem_toList]
          constructor
          · rintro ⟨hr, ha, hf⟩
            exact ⟨⟨hu, hf⟩, hr, ha⟩
          · rintro ⟨⟨-, hf⟩, hr, ha⟩
            exact ⟨hr, ha, hf⟩

/-- A language writes exactly the expressions that it can express throughout. -/
theorem succeeds_render (e : Expr) :
    Succeeds (dialect.render scope e) ↔ scope.Writable dialect e := by
  induction e using Expr.induction with
  | step e ih =>
      have hoperands : (∀ operand ∈ scope.operands e, scope.Writable dialect operand) ↔
          ∀ operand ∈ scope.operands e, Succeeds (dialect.render scope operand) := by
        refine forall₂_congr fun operand ho => ?_
        obtain ⟨part, hp, hi⟩ := Scope.contains_operand ho
        exact (ih part hp operand hi).symm
      rw [Scope.Writable, Scope.throughout_iff, hoperands]
      -- what is left is about one expression and the results for its operands
      clear ih hoperands
      obtain ⟨kind, location, notes⟩ := e
      cases hc : Construct.ofExpr? kind with
      | some construct =>
          rw [render.eq_def]
          simp [hc, Scope.Expressible]
      | none =>
          cases kind
          case literal value =>
            cases value <;> simp_all [render, Construct.ofExpr?, Scope.Expressible, Scope.operands,
              Value.render]
          case identifier name =>
            simp only [render, hc]
            rw [succeeds_bind_pure, succeeds_identifier]
            simp [Scope.Expressible, Scope.operands, hc]
          case memberAccess target member =>
            simp only [render, hc]
            cases hr : scope.staticReceiver? target with
            | some receiver =>
                simp only
                rw [succeeds_bind_pure, succeeds_staticMember]
                simp [Scope.Expressible, Scope.operands, hc, hr]
            | none =>
                cases hs : swizzle? member (scope.typeOf target) with
                | none => simp [Scope.Expressible, hr, hs]
                | some components =>
                    simp only
                    rw [succeeds_bind_pure]
                    simp [Scope.Expressible, Scope.operands, hc, hr, hs]
          case invocation callee arguments => exact succeeds_render_invocation
          case objectCreation type arguments initializer =>
            simp only [render, hc]
            by_cases ht : type.dataType.isVector || type.dataType.isMatrix
            · have hknown : type.dataType ≠ .unknown := by
                intro hu
                simp [hu, DataType.isVector, DataType.isMatrix] at ht
              simp only [ht, if_true]
              rw [succeeds_bind_iff fun _ _ => succeeds_bind_pure.trans succeeds_construction,
                succeeds_renderArguments]
              simp_all [Scope.Expressible, Scope.operands]
            · simp_all [Scope.Expressible]
          case index target position =>
            simp only [render, hc]
            rw [succeeds_bind_iff fun _ _ => succeeds_bind_pure]
            simp [Scope.Expressible, Scope.operands, hc]
          case binary op lhs rhs =>
            simp only [render, hc]
            rw [succeeds_bind_iff fun _ _ => succeeds_bind_pure]
            simp [Scope.Expressible, Scope.operands, hc]
          case assignment op target value =>
            simp only [render, hc]
            rw [succeeds_bind_iff fun _ _ => succeeds_bind_pure]
            simp [Scope.Expressible, Scope.operands, hc]
          case conditional condition thenValue elseValue =>
            simp only [render, hc]
            rw [succeeds_bind_iff fun _ _ => succeeds_bind_iff fun _ _ => succeeds_bind_pure]
            simp [Scope.Expressible, Scope.operands, hc]
          case unary op operand =>
            simp only [render, hc]
            rw [succeeds_bind_pure]
            simp [Scope.Expressible, Scope.operands, hc]
          case cast type operand =>
            simp only [render, hc]
            rw [succeeds_bind_iff fun _ _ => succeeds_bind_pure.trans succeeds_cast]
            simp [Scope.Expressible, Scope.operands, hc, and_comm]
          case parenthesized inner =>
            simp only [render, hc]
            rw [succeeds_bind_pure]
            simp [Scope.Expressible, Scope.operands, hc]
          all_goals simp [Construct.ofExpr?] at hc

end Dialect

/-! ## What checking leaves open -/

namespace Scope

variable {scope : Scope} {dialect : Dialect}

/-- What the checker does not look at in an expression that is written: whether a name stands for a
value and not only for a type, and whether a sample has the operands that the language takes. -/
def Covered (dialect : Dialect) (scope : Scope) (e : Expr) : Prop :=
  match e.kind with
  | .identifier name => (scope.lookup? name).isSome
  | .invocation _ _ => ∀ call, scope.call? e = some call → call.intrinsic = .sampleTexture →
      dialect.Samples (1 + call.arguments.length)
  | _ => True

theorem checkCall_eq_nil {call : Call} {location : Location} :
    scope.checkCall call location = [] ↔
      call.intrinsic ≠ .unknown ∧
        (call.intrinsic = .sampleTexture →
          ∀ receiver ∈ call.receiver, (scope.texture? receiver).isSome) ∧
        ¬ (call.intrinsic.isFragmentOnly ∧ scope.method.stage = .vertex) := by
  have hany : (call.receiver.any fun receiver => (scope.texture? receiver).isNone) = false ↔
      ∀ receiver ∈ call.receiver, (scope.texture? receiver).isSome := by
    cases call.receiver <;> simp [Option.isSome_iff_ne_none]
  unfold checkCall
  by_cases hu : call.intrinsic = .unknown
  · simp [hu]
  · by_cases hs : call.intrinsic = .sampleTexture
    · rw [← hany]
      simp [hs, Intrinsic.isFragmentOnly]
    · simp [hu, hs]

theorem checkConstruction_eq_nil {type : TypeRef} {arguments : List Argument} {location : Location}
    (h : scope.checkConstruction type arguments location = []) :
    type.dataType.isVector ∨ type.dataType.isMatrix := by
  cases ht : type.dataType <;>
    simp [checkConstruction, ht, DataType.constructedComponents?, DataType.isVector,
      DataType.isMatrix] at h ⊢

theorem expressible_iff_covered {e : Expr} (h : scope.checkExpr e = []) :
    Expressible dialect scope e ↔ Covered dialect scope e := by
  have hc := ofExpr?_eq_none_of_checkExpr h
  obtain ⟨kind, location, notes⟩ := e
  cases kind
  case memberAccess target member =>
    rw [checkExpr_memberAccess] at h
    simp only [Expressible, Covered, hc, true_and, iff_true]
    split at h
    · simp_all
    · simp_all
  case invocation callee arguments =>
    obtain ⟨-, call, hcall, -, hcheck⟩ := checkExpr_invocation.mp h
    obtain ⟨hu, ht, hf⟩ := checkCall_eq_nil.mp hcheck
    rw [expressible_invocation hcall]
    constructor
    · rintro ⟨-, hsample, -⟩ call' hcall' hs
      obtain rfl : call = call' := Option.some.inj (hcall.symm.trans hcall')
      exact (hsample hs).2
    · intro hcovered
      exact ⟨hu, fun hs => ⟨ht hs, hcovered call hcall hs⟩, hf⟩
  case objectCreation type arguments initializer =>
    have ht := checkConstruction_eq_nil (checkExpr_objectCreation.mp h).2.2
    simp [Expressible, Covered, hc, ht]
  case cast type operand =>
    have ht := (checkExpr_cast.mp h).1
    simp only [Expressible, Covered, hc, true_and, iff_true]
    intro hu
    simp [hu, DataType.isValueType] at ht
  all_goals simp [Expressible, Covered, hc]

theorem checkExpr_operand {e operand : Expr} (h : scope.checkExpr e = [])
    (ho : operand ∈ scope.operands e) : scope.checkExpr operand = [] := by
  obtain ⟨kind, location, notes⟩ := e
  cases kind
  case memberAccess target member =>
    rw [checkExpr_memberAccess] at h
    simp only [operands] at ho
    split at h
    · simp_all
    · simp_all
  case invocation callee arguments =>
    obtain ⟨ha, call, hcall, hreceiver, -⟩ := checkExpr_invocation.mp h
    rcases mem_operands_invocation hcall ho with hr | ⟨argument, hmem, rfl⟩
    · obtain ⟨callee', member, hk, hm⟩ := call?_receiver hcall hr
      obtain ⟨rfl, -⟩ : callee = callee' ∧ arguments = call.arguments := by simpa using hk
      rw [← checkReceiver_eq callee hm]
      exact hreceiver (by simp [hr])
    · exact (checkArguments_eq_nil.mp ha argument hmem).2
  case objectCreation type arguments initializer =>
    obtain ⟨argument, hmem, rfl⟩ := List.mem_map.mp ho
    exact (checkArguments_eq_nil.mp (checkExpr_objectCreation.mp h).2.1 argument hmem).2
  case index target position =>
    obtain ⟨ht, hp, -⟩ := checkExpr_index.mp h
    simp only [operands, List.mem_cons, List.not_mem_nil, or_false] at ho
    rcases ho with rfl | rfl
    · exact ht
    · exact hp
  case binary op lhs rhs =>
    obtain ⟨-, hl, hr⟩ := checkExpr_binary.mp h
    simp only [operands, List.mem_cons, List.not_mem_nil, or_false] at ho
    rcases ho with rfl | rfl
    · exact hl
    · exact hr
  case assignment op target value =>
    obtain ⟨-, ht, hv, -⟩ := checkExpr_assignment.mp h
    simp only [operands, List.mem_cons, List.not_mem_nil, or_false] at ho
    rcases ho with rfl | rfl
    · exact ht
    · exact hv
  case conditional condition thenValue elseValue =>
    obtain ⟨hcondition, ht, he⟩ := checkExpr_conditional.mp h
    simp only [operands, List.mem_cons, List.not_mem_nil, or_false] at ho
    rcases ho with rfl | rfl | rfl
    · exact hcondition
    · exact ht
    · exact he
  case unary op inner =>
    obtain rfl := List.mem_singleton.mp ho
    exact (checkExpr_unary.mp h).1
  case cast type inner =>
    obtain rfl := List.mem_singleton.mp ho
    exact (checkExpr_cast.mp h).2
  case parenthesized inner =>
    obtain rfl := List.mem_singleton.mp ho
    exact checkExpr_parenthesized.mp h
  all_goals cases ho

/-- A checked expression can be written exactly if what the checker leaves open holds throughout. -/
theorem writable_iff_covered (e : Expr) (h : scope.checkExpr e = []) :
    scope.Writable dialect e ↔ scope.Throughout (Covered dialect scope) e := by
  induction e using Expr.induction with
  | step e ih =>
      rw [Writable, throughout_iff, throughout_iff, expressible_iff_covered h]
      refine and_congr_right fun _ => forall₂_congr fun operand ho => ?_
      obtain ⟨part, hp, hi⟩ := contains_operand ho
      exact ih part hp operand hi (checkExpr_operand h ho)

end Scope

end ShaderEffect
