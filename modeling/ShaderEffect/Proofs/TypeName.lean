import ShaderEffect.Proofs.Agreement
import ShaderEffect.Proofs.Writable

/-!
# Names of types in expressions

An identifier that is bound to nothing passes the checker if it names a type, but it cannot be
written. As long as such identifiers only stand in front of members, they are receivers of static
members and calls, which are not written either, so that every expression that passes the checker can
be written.
-/

namespace ShaderEffect

namespace Expr

/-- The expressions directly inside an expression: its operands and the values of its arguments. The
statements of a lambda are left out, which no checked expression contains. -/
def Holds (e part : Expr) : Prop :=
  Node.expr part ∈ e.kind.parts ∨
    ∃ argument, Node.argument argument ∈ e.kind.parts ∧ argument.value = part

/-- A method that follows from the host types of an invocation is static or has a target with a host
type. -/
theorem isStatic_or_resolvedType? {callee target : Expr} {arguments : List Argument}
    {member : String} {method : MethodRef}
    (hm : callee.unparenthesized.kind = .memberAccess target member)
    (h : inferredMethod? callee arguments = some method) :
    method.isStatic ∨ target.resolvedType?.isSome := by
  rw [(inferredMethod?_eq_some hm h).2]
  cases hn : target.annotatedTypeName? with
  | some name => simp
  | none =>
      simp only [inferredMethod?, hm, hn, Option.bind_eq_bind, Option.bind_eq_some_iff,
        Option.map_eq_some_iff] at h
      obtain ⟨_, ⟨type, ht, -⟩, -⟩ := h
      simp [ht]

end Expr

namespace Scope

variable {scope : Scope}

/-- An identifier that is bound to nothing. -/
def Unbound (scope : Scope) (e : Expr) : Prop :=
  ∃ name, e.kind = .identifier name ∧ scope.lookup? name = none

/-- What is bound to nothing directly inside an expression is the target of a member access, and it
is not annotated with a type. -/
def UnboundInFront (scope : Scope) (e : Expr) : Prop :=
  ∀ part, e.Holds part → scope.Unbound part →
    (∃ member, e.kind = .memberAccess part member) ∧ part.notes.type = none

/-- Identifiers that are bound to nothing stand in front of members only, at any depth. -/
structure NamesTypesInFront (scope : Scope) (e : Expr) : Prop where
  bound : ¬ scope.Unbound e
  below : (Node.expr e).Everywhere scope.UnboundInFront

/-! ## Receivers -/

/-- An unbound identifier that passes the checker names a type. -/
theorem Unbound.staticReceiver? {e : Expr} (h : scope.Unbound e) (hc : scope.checkExpr e = []) :
    (scope.staticReceiver? e).isSome := by
  obtain ⟨name, hk, hl⟩ := h
  obtain ⟨kind, location, notes⟩ := e
  subst hk
  simp only [checkExpr, Construct.ofExpr?, checkIdentifier, hl] at hc
  have hknown : isKnownType name := by simpa using hc
  unfold Scope.staticReceiver?
  split
  · rfl
  · simp [hl, hknown]

theorem Unbound.resolvedType? {e : Expr} (h : scope.Unbound e) (ht : e.notes.type = none) :
    e.resolvedType? = none := by
  obtain ⟨name, hk, -⟩ := h
  obtain ⟨kind, location, notes⟩ := e
  subst hk
  simp only at ht
  simp [Expr.resolvedType?, ht]

/-- A call on the name of a type is of a static method, whether the method follows from annotations
or is inferred. -/
theorem isStatic_of_unbound {e callee target : Expr} {member : String} {call : Call}
    (hc : scope.call? e = some call) (hw : e.WithoutMethod)
    (hk : e.kind = .invocation callee call.arguments)
    (hm : callee.unparenthesized.kind = .memberAccess target member) (hu : scope.Unbound target)
    (ht : target.notes.type = none) (hr : (scope.staticReceiver? target).isSome) :
    call.method.isStatic := by
  obtain ⟨callee', target', member', hk', hm', hmethod, -⟩ := call?_eq_some hc
  obtain rfl : callee = callee' := by simpa [hk] using hk'
  obtain ⟨rfl, rfl⟩ : target = target' ∧ member = member' := by simpa [hm] using hm'
  rw [hmethod]
  cases ha : e.annotatedMethod? with
  | none => simpa [inferredMethod] using hr
  | some method =>
      rcases Expr.annotatedMethod?_eq_some hk ha with hs | ⟨-, hi⟩
      · exact (hw _ _ hk method hs).elim
      · exact (Expr.isStatic_or_resolvedType? hm hi).resolve_right (by simp [hu.resolvedType? ht])

/-- The receiver of a checked call is not the name of a type. -/
theorem not_unbound_receiver {e receiver : Expr} {call : Call}
    (hc : scope.call? e = some call) (hr : call.receiver = some receiver)
    (hchecked : scope.checkExpr receiver = [])
    (hw : e.WithoutMethod) (hf : (Node.expr e).Everywhere scope.UnboundInFront) :
    ¬ scope.Unbound receiver := by
  intro hu
  obtain ⟨callee, member, hk, hm⟩ := call?_receiver hc hr
  have hcallee : (Node.expr e).Contains (.expr callee.unparenthesized) :=
    Node.contains_of_mem_parts (by simp [Node.parts, hk, ExprKind.parts])
      callee.contains_unparenthesized
  have htype : receiver.notes.type = none :=
    (hf _ hcallee receiver (.inl (by simp [hm, ExprKind.parts])) hu).2
  have hstatic := isStatic_of_unbound hc hw hk hm hu htype (hu.staticReceiver? hchecked)
  obtain ⟨_, _, _, -, -, -, hreceiver⟩ := call?_eq_some hc
  simp [hreceiver, hstatic] at hr

/-! ## Operands -/

theorem UnboundInFront.not_unbound {e part : Expr} (hf : scope.UnboundInFront e)
    (hk : ∀ member, e.kind ≠ .memberAccess part member) (hp : e.Holds part) :
    ¬ scope.Unbound part := by
  intro hu
  obtain ⟨⟨member, hm⟩, -⟩ := hf part hp hu
  exact hk member hm

/-- The operands of a checked expression are no names of types. -/
theorem not_unbound_operand {e operand : Expr} (h : scope.checkExpr e = [])
    (hw : e.WithoutMethod) (hf : (Node.expr e).Everywhere scope.UnboundInFront)
    (ho : operand ∈ scope.operands e) : ¬ scope.Unbound operand := by
  have hchecked := checkExpr_operand h ho
  have hself := hf e (Node.contains_self _)
  obtain ⟨kind, location, notes⟩ := e
  cases kind
  case memberAccess target member =>
    -- a static receiver is not written, and any other one is bound
    simp only [operands] at ho
    split at ho
    · cases ho
    · obtain rfl := List.mem_singleton.mp ho
      intro hu
      exact absurd (hu.staticReceiver? hchecked) ‹_›
  case invocation callee arguments =>
    obtain ⟨-, call, hcall, -, -⟩ := checkExpr_invocation.mp h
    rcases mem_operands_invocation hcall ho with hr | ⟨argument, ha, rfl⟩
    · exact not_unbound_receiver hcall hr hchecked hw hf
    · exact hself.not_unbound (by simp) (.inr ⟨argument, by simp [ExprKind.parts, ha], rfl⟩)
  case objectCreation type arguments initializer =>
    obtain ⟨argument, ha, rfl⟩ := List.mem_map.mp ho
    exact hself.not_unbound (by simp) (.inr ⟨argument, by simp [ExprKind.parts, ha], rfl⟩)
  case index | binary | assignment | conditional | unary | cast | parenthesized =>
    exact hself.not_unbound (by simp) (.inl (by simpa [operands, ExprKind.parts] using ho))
  all_goals cases ho

theorem NamesTypesInFront.operand {e operand : Expr} (h : scope.NamesTypesInFront e)
    (hc : scope.checkExpr e = []) (hw : e.WithoutMethod) (ho : operand ∈ scope.operands e) :
    scope.NamesTypesInFront operand := by
  obtain ⟨part, hp, hi⟩ := contains_operand ho
  exact ⟨not_unbound_operand hc hw h.below ho,
    h.below.contains (Node.contains_of_mem_parts hp hi)⟩

/-! ## Written expressions -/

/-- What the checker leaves open of an expression holds if the expression is bound and no annotation
changes the number of operands of a sample. -/
theorem covered_of_not_unbound {dialect : Dialect} {e : Expr} (h : ¬ scope.Unbound e)
    (hw : e.WithoutMethod) : Covered dialect scope e := by
  unfold Covered
  split
  · rename_i name hk
    rw [Option.isSome_iff_ne_none]
    exact fun hl => h ⟨name, hk, hl⟩
  · intro call hc hs
    rw [(Dialect.length_arguments_of_sample hc hw hs).2]
    exact dialect.samples_two
  · trivial

theorem NamesTypesInFront.covered {dialect : Dialect} (e : Expr) (h : scope.NamesTypesInFront e)
    (hc : scope.checkExpr e = []) (hw : (Node.expr e).WithoutMethods) :
    scope.Throughout (Covered dialect scope) e := by
  induction e using Expr.induction with
  | step e ih =>
      have hself := hw e (Node.contains_self _)
      refine throughout_iff.mpr ⟨covered_of_not_unbound h.bound hself, fun operand ho => ?_⟩
      obtain ⟨part, hp, hi⟩ := contains_operand ho
      exact ih part hp operand hi (h.operand hc hself ho) (checkExpr_operand hc ho)
        (hw.contains (Node.contains_of_mem_parts hp hi))

end Scope

/-- Every expression that the checker passes can be written in the same scope, in HLSL and in every
version of GLSL: in any effect, method and locals, where the names that are bound to nothing stand in
front of members and no invocation is annotated with a method. -/
theorem checked_expressions_render {scope : Scope} {e : Expr} (hw : (Node.expr e).WithoutMethods)
    (hn : scope.NamesTypesInFront e) (hc : scope.checkExpr e = []) (dialect : Dialect) :
    ∃ operand, dialect.render scope e = .ok operand :=
  (Dialect.succeeds_render e).mpr ((Scope.writable_iff_covered e hc).mpr (hn.covered e hc hw))

/-- A sample with a light from above: a call on a texture, static calls and a static member of a
type, and components of a local variable. -/
def litSample : Expr :=
  let direction : Expr :=
    ⟨.invocation ⟨.memberAccess (.named "Vector3") "Normalize", {}, {}⟩
      [{ value := .named "normal" }], {}, {}⟩
  let light : Expr :=
    ⟨.invocation ⟨.parenthesized ⟨.memberAccess (.named "Vector3") "Dot", {}, {}⟩, {}, {}⟩
      [{ value := direction },
        { value := ⟨.memberAccess (.named "Vector3") "UnitY", {}, {}⟩ }], {}, {}⟩
  ⟨.binary .mul imageSample
    ⟨.objectCreation (.named "Vector4")
      [{ value := ⟨.memberAccess (.named "normal") "XYZ", {}, {}⟩ }, { value := light }] none,
      {}, {}⟩, {}, {}⟩

/-- The fragment shader with a local variable. -/
def litScope : Scope :=
  { effect := tintingEffect [], method := tintingShade [], locals := [("normal", .vector3)] }

theorem litSample_namesTypesInFront : litScope.NamesTypesInFront litSample := by
  have huv : litScope.lookup? "uv" ≠ none := Option.isSome_iff_ne_none.mp (by decide)
  have hnormal : litScope.lookup? "normal" ≠ none := Option.isSome_iff_ne_none.mp (by decide)
  constructor
  · simp [litSample, Scope.Unbound]
  · simp [litSample, imageSample, imageSampleAt, Expr.named, Node.everywhere_expr,
      Node.everywhere_argument, ExprKind.parts, Scope.UnboundInFront, Scope.Unbound, Expr.Holds,
      or_imp, forall_and, huv, hnormal]

theorem litSample_renders :
    litScope.checkExpr litSample = [] ∧
      (∃ operand, Dialect.hlsl.render litScope litSample = .ok operand) ∧
      ∃ operand, (Dialect.glsl .v410).render litScope litSample = .ok operand := by
  have hw : (Node.expr litSample).WithoutMethods := by
    simp [litSample, imageSample, imageSampleAt, Expr.named, Expr.WithoutMethod,
      Node.everywhere_expr, Node.everywhere_argument, ExprKind.parts]
  have hc : litScope.checkExpr litSample = [] := by decide +kernel
  have hrender := checked_expressions_render hw litSample_namesTypesInFront hc
  exact ⟨hc, hrender .hlsl, hrender (.glsl .v410)⟩

end ShaderEffect
