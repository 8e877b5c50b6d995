import ShaderEffect.Scope
import ShaderEffect.Proofs.Node

/-!
# Calls

How an invocation is resolved: what its callee looks like, when it has a receiver, and how many
parameters the method has that it is taken to call.
-/

namespace ShaderEffect

theorem length_of_mapM_eq_some {α β : Type} {f : α → Option β} {xs : List α} {ys : List β}
    (h : xs.mapM f = some ys) : ys.length = xs.length := by
  induction xs generalizing ys with
  | nil =>
      simp only [List.mapM_nil, Option.pure_def, Option.some.injEq] at h
      simp [← h]
  | cons x xs ih =>
      simp only [List.mapM_cons, Option.bind_eq_bind, Option.pure_def, Option.bind_eq_some_iff,
        Option.some.injEq] at h
      obtain ⟨y, _, ys', hys, rfl⟩ := h
      simp [ih hys]

namespace Expr

/-! ## Methods that the tree determines -/

/-- The method that follows from the host types of an invocation takes its arguments, and it is
static if its target is annotated with a type. -/
theorem inferredMethod?_eq_some {callee target : Expr} {arguments : List Argument} {member : String}
    {method : MethodRef} (hm : callee.unparenthesized.kind = .memberAccess target member)
    (h : inferredMethod? callee arguments = some method) :
    method.parameterTypes.length = arguments.length ∧
      method.isStatic = target.annotatedTypeName?.isSome := by
  simp only [inferredMethod?, hm] at h
  cases hn : target.annotatedTypeName? with
  | some name =>
      simp only [hn, Option.bind_eq_bind, Option.bind_some, Option.bind_eq_some_iff,
        Option.some.injEq] at h
      obtain ⟨types, ht, rfl⟩ := h
      exact ⟨length_of_mapM_eq_some ht, rfl⟩
  | none =>
      simp only [hn, Option.bind_eq_bind, Option.bind_eq_some_iff, Option.map_eq_some_iff,
        Option.some.injEq] at h
      obtain ⟨_, ⟨type, _, rfl⟩, types, ht, rfl⟩ := h
      exact ⟨length_of_mapM_eq_some ht, rfl⟩

/-- An invocation resolves to the method it is annotated with, or without any annotation to the one
that the tree determines. -/
theorem annotatedMethod?_eq_some {e callee : Expr} {arguments : List Argument}
    {method : MethodRef} (hk : e.kind = .invocation callee arguments)
    (h : e.annotatedMethod? = some method) :
    e.notes.symbol = some (.method method) ∨
      e.notes.symbol = none ∧ inferredMethod? callee arguments = some method := by
  unfold annotatedMethod? resolvedSymbol? at h
  cases hs : e.notes.symbol with
  | some symbol =>
      simp only [hs] at h
      split at h
      · simp_all
      · cases h
  | none =>
      simp only [hs, hk] at h
      split at h
      · simp_all
      · cases h

end Expr

/-! ## Resolved invocations -/

namespace Scope

/-- A resolved invocation has a member access for a callee, up to parentheses, and the target of
that access is the receiver unless the method is static. -/
theorem call?_eq_some {scope : Scope} {e : Expr} {call : Call} (h : scope.call? e = some call) :
    ∃ callee target member, e.kind = .invocation callee call.arguments ∧
      callee.unparenthesized.kind = .memberAccess target member ∧
      call.method = e.annotatedMethod?.getD (inferredMethod (scope.staticReceiver? target)
        (scope.typeOf target) member (scope.argumentTypes call.arguments)) ∧
      call.receiver = if call.method.isStatic then none else some target := by
  unfold call? at h
  split at h
  · split at h
    · rename_i _ callee arguments hk _ target member hm
      obtain rfl := Option.some.inj h
      exact ⟨callee, target, member, hk, hm, rfl, rfl⟩
    · cases h
  · cases h

/-- The receiver of a call is the target of the member access that is called. -/
theorem call?_receiver {scope : Scope} {e receiver : Expr} {call : Call}
    (hc : scope.call? e = some call) (hr : call.receiver = some receiver) :
    ∃ callee member, e.kind = .invocation callee call.arguments ∧
      callee.unparenthesized.kind = .memberAccess receiver member := by
  obtain ⟨callee, target, member, hk, hm, -, hreceiver⟩ := call?_eq_some hc
  rw [hreceiver] at hr
  split at hr
  · cases hr
  · cases hr
    exact ⟨callee, member, hk, hm⟩

theorem argumentTypes_eq_map (scope : Scope) (arguments : List Argument) :
    scope.argumentTypes arguments = arguments.map fun argument => scope.typeOf argument.value := by
  induction arguments with
  | nil => simp [argumentTypes]
  | cons argument rest ih =>
      obtain ⟨name, mode, value⟩ := argument
      simp [argumentTypes, ih]

/-- Unless an invocation is annotated with a method, the method it calls takes its arguments. -/
theorem length_parameterTypes {scope : Scope} {e : Expr} {call : Call}
    (h : scope.call? e = some call) (hs : ∀ method, e.notes.symbol ≠ some (.method method)) :
    call.method.parameterTypes.length = call.arguments.length := by
  obtain ⟨callee, target, member, hk, hm, hmethod, -⟩ := call?_eq_some h
  rw [hmethod]
  cases ha : e.annotatedMethod? with
  | none => simp [inferredMethod, argumentTypes_eq_map]
  | some method =>
      rcases Expr.annotatedMethod?_eq_some hk ha with hs' | ⟨-, hi⟩
      · exact (hs method hs').elim
      · exact (Expr.inferredMethod?_eq_some hm hi).1

end Scope

/-! ## Samples -/

theorem Signature.sampleTexture {signature : Signature} (h : signature ∈ Signature.all)
    (hs : signature.intrinsic = .sampleTexture) :
    signature.isStatic = false ∧ signature.parameters.length = 1 := by
  revert signature
  decide

theorem MethodRef.isCandidate_of_intrinsic (method : MethodRef)
    (h : method.intrinsic ≠ .unknown) :
    ∃ signature ∈ Signature.all, signature.intrinsic = method.intrinsic ∧
      method.isCandidate signature := by
  unfold intrinsic intrinsicIn at h ⊢
  split
  · rename_i signature hs
    have hc := List.find?_some hs
    simp only [matchesExactly, Bool.and_eq_true] at hc
    exact ⟨signature, List.mem_of_find?_eq_some hs, rfl, hc.1⟩
  · split
    · rename_i signature hs
      have hc := List.find?_some hs
      simp only [matchesWidened, Bool.and_eq_true] at hc
      exact ⟨signature, List.mem_of_find?_eq_some hs, rfl, hc.1⟩
    · simp_all

/-- A texture is sampled by an instance method with one parameter. -/
theorem MethodRef.of_intrinsic_eq_sampleTexture {method : MethodRef}
    (h : method.intrinsic = .sampleTexture) :
    method.isStatic = false ∧ method.parameterTypes.length = 1 := by
  obtain ⟨signature, hs, hi, hc⟩ := method.isCandidate_of_intrinsic (by simp [h])
  obtain ⟨hstatic, hlength⟩ := Signature.sampleTexture hs (hi.trans h)
  simp only [isCandidate, Bool.and_eq_true, beq_iff_eq] at hc
  exact ⟨hc.2.symm.trans hstatic, hc.1.2.symm.trans hlength⟩

end ShaderEffect
