import ShaderEffect.Proofs.BareType
import ShaderEffect.Proofs.Model
import ShaderEffect.Proofs.Overload

/-!
# Inferred targets of invocations

A method that is not annotated is inferred in two ways: from the host types that are evident in the
tree, or from the shader types of the receiver and the arguments in their scope. The first way knows
how types are written, the second only which shader types they are. Both arrive at the same intrinsic
wherever the first one has an answer.
-/

namespace ShaderEffect

/-! ## Written types -/

theorem DataType.ofHostName_hostName (type : DataType) : ofHostName type.hostName = type := by
  cases type <;> decide +kernel

/-- The names of shader types are words of letters and digits. -/
theorem DataType.isAlphanum_of_ofShortName {name : String} (h : ofShortName name ≠ unknown) :
    ∀ c ∈ name.toList, c.isAlphanum = true := by
  unfold ofShortName at h
  split at h
  case h_14 => exact absurd rfl h
  all_goals exact List.all_eq_true.mp (by decide)

theorem DataType.ofHostName_append {name ending : String} {c : Char} (hc : c ∈ ending.toList)
    (hn : c.isAlphanum = false) (hdot : '.' ∉ ending.toList) :
    ofHostName (name ++ ending) = unknown := by
  rw [ofHostName, unqualified_append hdot]
  by_contra h
  have halphanum := isAlphanum_of_ofShortName h c (by simp [hc])
  simp [hn] at halphanum

/-- A type is the shader type that its text denotes. Arrays and pointers are written with signs that
are in no name of a shader type. -/
theorem TypeRef.ofHostName_describe (type : TypeRef) :
    DataType.ofHostName type.describe = type.dataType := by
  cases type with
  | named name => rfl
  | array element => exact DataType.ofHostName_append (c := '[') (by decide) (by decide) (by decide)
  | pointer element =>
      exact DataType.ofHostName_append (c := '*') (by decide) (by decide) (by decide)
  | inferred => decide +kernel

theorem canonicalTypeName_of_known {name : String} (h : DataType.ofHostName name ≠ .unknown) :
    canonicalTypeName name = (DataType.ofHostName name).hostName := by
  unfold canonicalTypeName
  split
  · exact absurd ‹_› h
  · rfl

theorem Value.dataType_hostType (value : Value) : value.hostType.dataType = value.dataType := by
  cases value <;> rfl

/-! ## Types of expressions -/

/-- No expression in a node is annotated with a type. -/
abbrev Node.WithoutTypes (node : Node) : Prop :=
  node.Everywhere fun e => e.notes.type = none

/-- Without annotations the shader type of an expression is the one of its evident host type, if it
has one. -/
theorem Scope.typeOf_eq_of_resolvedType? (scope : Scope) {e : Expr} {type : TypeRef}
    (hn : (Node.expr e).WithoutTypes) (h : e.resolvedType? = some type) :
    scope.typeOf e = type.dataType := by
  induction e using Expr.induction_parts with
  | step e ih iha =>
      rw [typeOf.eq_def, Expr.annotatedDataType?, h]
      by_cases hu : type.dataType = .unknown
      · have hnotes : e.notes.type = none := hn e (Node.contains_self _)
        rw [Expr.resolvedType?.eq_def, hnotes] at h
        obtain ⟨kind, location, notes⟩ := e
        cases kind
        case literal value =>
          cases h
          simp only [hu, if_true, ← value.dataType_hostType]
        case parenthesized inner =>
          have hp : Node.expr inner ∈ (ExprKind.parenthesized inner).parts := by
            simp [ExprKind.parts]
          simp only [hu, if_true]
          exact (ih inner hp (hn.part hp) h).trans hu
        case objectCreation | cast =>
          cases h
          simp only [hu, if_true]
        all_goals cases h
      · simp only [hu, if_false]

/-! ## Methods -/

namespace MethodRef

/-- Only types of the shading languages have instance methods that stand for intrinsics. -/
theorem known_of_isStatic_eq_false {signature : Signature} (h : signature ∈ Signature.all)
    (hs : signature.isStatic = false) :
    DataType.ofHostName signature.declaringType ≠ .unknown := by
  revert signature
  decide +kernel

theorem intrinsic_eq_unknown_of_unknown {method : MethodRef} (hs : method.isStatic = false)
    (hu : DataType.ofHostName method.declaringType = .unknown) : method.intrinsic = .unknown := by
  refine intrinsicIn_eq_unknown (.refl _) fun signature hmem hfits => ?_
  have hknown := known_of_isStatic_eq_false hmem (hfits.isStatic.trans hs)
  rw [hfits.declaringType, canonicalTypeName, hu, DataType.ofHostName_unqualified] at hknown
  exact hknown hu

/-- A method of a receiver stands for the same intrinsic if the receiver's type is only known as a
shader type. -/
theorem intrinsic_describe {type : TypeRef} {method other : MethodRef}
    (ht : method.declaringType = type.describe) (ho : other.declaringType = type.dataType.hostName)
    (hs : method.isStatic = false) (hname : method.name = other.name)
    (hstatic : method.isStatic = other.isStatic)
    (hparameters : method.parameterDataTypes = other.parameterDataTypes) :
    method.intrinsic = other.intrinsic := by
  have htype : DataType.ofHostName method.declaringType = type.dataType := by
    rw [ht, type.ofHostName_describe]
  have hother : DataType.ofHostName other.declaringType = type.dataType := by
    rw [ho, DataType.ofHostName_hostName]
  by_cases hu : type.dataType = .unknown
  · rw [intrinsic_eq_unknown_of_unknown hs (htype.trans hu),
      intrinsic_eq_unknown_of_unknown (hstatic ▸ hs) (hother.trans hu)]
  · refine intrinsic_congr ?_ hname hstatic hparameters
    rw [canonicalTypeName_of_known (htype ▸ hu), canonicalTypeName_of_known (hother ▸ hu), htype,
      hother]

end MethodRef

/-- The method that a scope itself takes an invocation to call, whatever the tree says about it. -/
def Scope.ownMethod? (scope : Scope) (e : Expr) : Option MethodRef :=
  match e.kind with
  | .invocation callee arguments =>
    match callee.unparenthesized.kind with
    | .memberAccess target member =>
      some (inferredMethod (scope.staticReceiver? target) (scope.typeOf target) member
        (scope.argumentTypes arguments))
    | _ => none
  | _ => none

/-- An invocation calls the method of its scope unless the tree has an answer of its own. -/
theorem Scope.exists_call_of_ownMethod? {scope : Scope} {e : Expr} {own : MethodRef}
    (h : scope.ownMethod? e = some own) :
    ∃ call, scope.call? e = some call ∧ call.method = e.annotatedMethod?.getD own := by
  unfold ownMethod? at h
  split at h
  · rename_i callee arguments hk
    split at h
    · rename_i target member hm
      cases h
      exact ⟨_, by simp only [call?, hk, hm]; rfl, rfl⟩
    · cases h
  · cases h

/-- The evident types of arguments are written forms of their shader types. -/
theorem Scope.argumentTypes_of_mapM (scope : Scope) {arguments : List Argument}
    {types : List String}
    (hn : ∀ argument ∈ arguments, (Node.expr argument.value).WithoutTypes)
    (h : (arguments.mapM fun argument => argument.value.resolvedType?.map TypeRef.describe) =
      some types) :
    types.map DataType.ofHostName = scope.argumentTypes arguments := by
  induction arguments generalizing types with
  | nil =>
      cases h
      simp [argumentTypes]
  | cons argument rest ih =>
      simp only [List.mapM_cons, Option.bind_eq_bind, Option.pure_def, Option.bind_eq_some_iff,
        Option.some.injEq, Option.map_eq_some_iff] at h
      obtain ⟨_, ⟨type, htype, rfl⟩, others, hothers, rfl⟩ := h
      have hfirst := scope.typeOf_eq_of_resolvedType? (hn argument (by simp)) htype
      have hrest := ih (fun other ho => hn other (by simp [ho])) hothers
      rw [argumentTypes_eq_map] at hrest ⊢
      simp [hfirst, hrest, type.ofHostName_describe]

/-- The method that follows from host types: a static one of the annotated type of the target, or
one of the evident type of the target. -/
theorem Expr.exists_of_inferredMethod? {callee : Expr} {arguments : List Argument}
    {method : MethodRef} (h : inferredMethod? callee arguments = some method) :
    ∃ target member types,
      callee.unparenthesized.kind = .memberAccess target member ∧
      (arguments.mapM fun argument => argument.value.resolvedType?.map TypeRef.describe) =
        some types ∧
      ((∃ name, target.annotatedTypeName? = some name ∧ method = ⟨name, member, types, true⟩) ∨
        target.annotatedTypeName? = none ∧ ∃ type, target.resolvedType? = some type ∧
          method = ⟨type.describe, member, types, false⟩) := by
  unfold inferredMethod? at h
  split at h
  · rename_i target member hm
    cases hn : target.annotatedTypeName? with
    | some name =>
        simp only [hn, Option.bind_eq_bind, Option.bind_some, Option.bind_eq_some_iff,
          Option.some.injEq] at h
        obtain ⟨types, htypes, rfl⟩ := h
        exact ⟨target, member, types, hm, htypes, .inl ⟨name, hn, rfl⟩⟩
    | none =>
        simp only [hn, Option.bind_eq_bind, Option.bind_eq_some_iff, Option.map_eq_some_iff,
          Option.some.injEq] at h
        obtain ⟨_, ⟨type, htype, rfl⟩, types, htypes, rfl⟩ := h
        exact ⟨target, member, types, hm, htypes, .inr ⟨hn, type, htype, rfl⟩⟩
  · cases h

/-- A target with an evident type is not the name of a type. -/
theorem Scope.staticReceiver?_of_resolvedType? (scope : Scope) {e : Expr} {type : TypeRef}
    (hn : e.notes.type = none) (ha : e.annotatedTypeName? = none)
    (h : e.resolvedType? = some type) : scope.staticReceiver? e = none := by
  rw [Expr.resolvedType?.eq_def, hn] at h
  unfold staticReceiver?
  rw [ha]
  obtain ⟨kind, location, notes⟩ := e
  cases kind
  case identifier name => cases h
  all_goals rfl

theorem Expr.inferredMethod?_of_resolvedSymbol? {e : Expr} {method : MethodRef}
    (hs : e.notes.symbol = none) (h : e.resolvedSymbol? = some (.method method)) :
    ∃ callee arguments, e.kind = .invocation callee arguments ∧
      inferredMethod? callee arguments = some method := by
  unfold resolvedSymbol? at h
  rw [hs] at h
  cases hk : e.kind
  case invocation callee arguments =>
    simp only [hk, Option.map_eq_some_iff] at h
    obtain ⟨inferred, hinferred, ⟨rfl⟩⟩ := h
    exact ⟨callee, arguments, rfl, hinferred⟩
  all_goals simp [hk] at h

/-- Both ways to infer the target of an invocation agree. If no type is annotated in an invocation
that has no symbol of its own, and the tree determines a method for it, then this method is called, and
the one that the scope alone would have called stands for the same intrinsic and is static exactly if
the other one is. -/
theorem inferred_targets_agree {scope : Scope} {e : Expr} {method : MethodRef}
    (hs : e.notes.symbol = none) (hn : (Node.expr e).WithoutTypes)
    (h : e.resolvedSymbol? = some (.method method)) :
    ∃ call own, scope.call? e = some call ∧ call.method = method ∧
      scope.ownMethod? e = some own ∧ method.intrinsic = own.intrinsic ∧
      method.isStatic = own.isStatic := by
  obtain ⟨callee, arguments, hk, hmethod⟩ := Expr.inferredMethod?_of_resolvedSymbol? hs h
  obtain ⟨target, member, types, hm, htypes, hcases⟩ := Expr.exists_of_inferredMethod? hmethod
  have hown : scope.ownMethod? e = some (inferredMethod (scope.staticReceiver? target)
      (scope.typeOf target) member (scope.argumentTypes arguments)) := by
    simp only [Scope.ownMethod?, hk, hm]
  have htarget : (Node.expr target).WithoutTypes := by
    have hcallee : (Node.expr callee).WithoutTypes :=
      hn.part (by simp [Node.parts, hk, ExprKind.parts])
    exact (hcallee.contains callee.contains_unparenthesized).part
      (by simp [Node.parts, hm, ExprKind.parts])
  have harguments : ∀ argument ∈ arguments, (Node.expr argument.value).WithoutTypes := by
    intro argument ha
    have hargument : (Node.argument argument).WithoutTypes :=
      hn.part (by simp [Node.parts, hk, ExprKind.parts, ha])
    exact Node.everywhere_argument.mp hargument
  have hparameters : types.map DataType.ofHostName =
      ((scope.argumentTypes arguments).map DataType.hostName).map DataType.ofHostName := by
    rw [scope.argumentTypes_of_mapM harguments htypes, List.map_map]
    simp [Function.comp_def, DataType.ofHostName_hostName]
  obtain ⟨call, hcall, hcalled⟩ := Scope.exists_call_of_ownMethod? hown
  have hannotated : e.annotatedMethod? = some method := by
    simp only [Expr.annotatedMethod?, h]
  refine ⟨call, _, hcall, by rw [hcalled, hannotated]; rfl, hown, ?_⟩
  rcases hcases with ⟨name, ha, rfl⟩ | ⟨ha, type, htype, rfl⟩
  · have hreceiver : scope.staticReceiver? target = some name := by
      simp only [Scope.staticReceiver?, ha]
    rw [hreceiver]
    exact ⟨MethodRef.intrinsic_congr rfl rfl rfl hparameters, rfl⟩
  · have hreceiver := scope.staticReceiver?_of_resolvedType?
      (htarget target (Node.contains_self _)) ha htype
    rw [hreceiver, scope.typeOf_eq_of_resolvedType? htarget htype]
    exact ⟨MethodRef.intrinsic_describe rfl rfl rfl rfl rfl hparameters, rfl⟩

/-- A mixture of vectors of which only the type in front is annotated:
`Vector3.Lerp((Numerics.Vector3)uv, new Vector3(), 1)`. -/
def annotatedLerp : Expr :=
  ⟨.invocation
    ⟨.memberAccess
      ⟨.identifier "Vector3", {}, { symbol := some (.typeName "System.Numerics.Vector3") }⟩
      "Lerp", {}, {}⟩
    [{ value := ⟨.cast (.named "Numerics.Vector3") (.named "uv"), {}, {}⟩ },
      { value := ⟨.objectCreation (.named "Vector3") [] none, {}, {}⟩ },
      { value := ⟨.literal (.int 1), {}, {}⟩ }], {}, {}⟩

/-- The method that the tree determines, with the types as they are written there. -/
def writtenLerp : MethodRef :=
  { declaringType := "System.Numerics.Vector3"
    name := "Lerp"
    parameterTypes := ["Numerics.Vector3", "Vector3", "int"]
    isStatic := true }

theorem annotatedLerp_targets_agree :
    annotatedLerp.resolvedSymbol? = some (.method writtenLerp) ∧
      ∃ own, Scope.ownMethod? { effect := tintingEffect [], method := tintingShade [] }
          annotatedLerp = some own ∧
        own.intrinsic = .lerp ∧ own.isStatic = true := by
  have hn : (Node.expr annotatedLerp).WithoutTypes := by
    simp [annotatedLerp, Expr.named, Node.everywhere_expr, Node.everywhere_argument,
      ExprKind.parts]
  have hwritten : annotatedLerp.resolvedSymbol? = some (.method writtenLerp) := rfl
  have hlerp : writtenLerp.intrinsic = .lerp := by decide +kernel
  obtain ⟨call, own, -, -, hown, hintrinsic, hstatic⟩ := inferred_targets_agree rfl hn hwritten
  exact ⟨hwritten, own, hown, hintrinsic.symm.trans hlerp, hstatic.symm⟩

end ShaderEffect
