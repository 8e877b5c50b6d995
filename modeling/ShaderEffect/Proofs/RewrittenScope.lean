import ShaderEffect.Check.Body
import ShaderEffect.Proofs.RewrittenTree

/-!
# Rewritten trees in their scopes

The names in a rewritten tree may be looked up in another scope, as long as they refer to the same
things there. Every expression then has the same type, and the same rules are broken in a body, at the
same positions. The messages are the same as well if the types are named as they are written.
-/

namespace ShaderEffect

/-! ## Scopes that match -/

/-- Options with the same image are both empty, or their values have the same image. -/
theorem none_or_some_of_map_eq {α β : Type} {f : α → β} {x y : Option α}
    (h : x.map f = y.map f) :
    (x = none ∧ y = none) ∨ ∃ a b, x = some a ∧ y = some b ∧ f a = f b := by
  cases x <;> cases y <;> simp_all

/-- What the names in a body see of a literal: all but its value. -/
def ShaderLiteral.outline (literal : ShaderLiteral) : String × DataType × Option Nat :=
  (literal.name, literal.type, literal.length?)

/-- Two scopes in which names refer to the same things, up to the values of literals. -/
structure Scope.Matches (first second : Scope) : Prop where
  locals : first.locals = second.locals
  name : first.method.name = second.method.name
  stage : first.method.stage = second.method.stage
  parameters : first.method.parameters = second.method.parameters
  constants : first.effect.constant? = second.effect.constant?
  literals : ∀ name, (first.effect.literal? name).map ShaderLiteral.outline =
    (second.effect.literal? name).map ShaderLiteral.outline
  textures : first.effect.texture? = second.effect.texture?

/-- What a name refers to in two scopes that match. -/
inductive Binding.Like : Binding → Binding → Prop where
  | same (binding : Binding) : Like binding binding
  | literal {first second : ShaderLiteral} (h : first.outline = second.outline) :
    Like (.literal first) (.literal second)

theorem ShaderLiteral.outline_eq_iff {first second : ShaderLiteral} :
    first.outline = second.outline ↔
      first.name = second.name ∧ first.type = second.type ∧ first.length? = second.length? := by
  simp only [outline, Prod.mk.injEq]

theorem ShaderLiteral.isArray_eq_of_outline {first second : ShaderLiteral}
    (h : first.outline = second.outline) : first.isArray = second.isArray := by
  obtain ⟨-, -, hlength⟩ := outline_eq_iff.mp h
  have harray (literal : ShaderLiteral) : literal.isArray = literal.length?.isSome := by
    simp [isArray, length?]
  rw [harray, harray, hlength]

theorem Binding.Like.type_eq {first second : Binding} (h : first.Like second) :
    first.type = second.type := by
  cases h with
  | same binding => rfl
  | literal h =>
      obtain ⟨-, htype, -⟩ := ShaderLiteral.outline_eq_iff.mp h
      simp only [Binding.type, ShaderLiteral.isArray_eq_of_outline h, htype]

variable {naming : Naming} {scope scope' : Scope}

namespace Scope

theorem Matches.declare (h : scope'.Matches scope) (name : String) (type : DataType) :
    (scope'.declare name type).Matches (scope.declare name type) :=
  { h with locals := congrArg ((name, type) :: ·) h.locals }

theorem Matches.parameter? (h : scope'.Matches scope) (name : String) :
    scope'.method.parameter? name = scope.method.parameter? name := by
  rw [ShaderMethod.parameter?, ShaderMethod.parameter?, h.parameters]

/-- A name is bound in both scopes or in neither. -/
theorem Matches.lookup? (h : scope'.Matches scope) (name : String) :
    (scope'.lookup? name = none ∧ scope.lookup? name = none) ∨
      ∃ first second, scope'.lookup? name = some first ∧ scope.lookup? name = some second ∧
        first.Like second := by
  have hsame {found found' : Option Binding} (heq : found' = found) :
      (found' = none ∧ found = none) ∨
        ∃ first second, found' = some first ∧ found = some second ∧ first.Like second := by
    subst heq
    cases found' with
    | none => exact .inl ⟨rfl, rfl⟩
    | some binding => exact .inr ⟨binding, binding, rfl, rfl, .same binding⟩
  simp only [Scope.lookup?, h.locals, h.parameter?, h.constants, h.textures]
  cases scope.locals.type? name with
  | some type => exact hsame rfl
  | none =>
      cases scope.method.parameter? name with
      | some parameter => exact hsame rfl
      | none =>
          cases scope.effect.constant? name with
          | some constant => exact hsame rfl
          | none =>
              rcases none_or_some_of_map_eq (h.literals name) with
                ⟨hnone, hnone'⟩ | ⟨first, second, hfirst, hsecond, houtline⟩
              · rw [hnone, hnone']
                exact hsame rfl
              · rw [hfirst, hsecond]
                exact .inr ⟨_, _, rfl, rfl, .literal houtline⟩

theorem Matches.isNone_lookup? (h : scope'.Matches scope) (name : String) :
    (scope'.lookup? name).isNone = (scope.lookup? name).isNone := by
  rcases h.lookup? name with ⟨hnone, hnone'⟩ | ⟨first, second, hfirst, hsecond, -⟩
  · rw [hnone, hnone']
  · rw [hfirst, hsecond]
    rfl

/-! ## Names and types -/

theorem Matches.arrayLiteral?_map (h : scope'.Matches scope) (naming : Naming) (e : Expr)
    (places : Places) :
    (scope'.arrayLiteral? (e.rewritten naming places)).map ShaderLiteral.outline =
      (scope.arrayLiteral? e).map ShaderLiteral.outline := by
  obtain ⟨below, -, hbelow⟩ := e.exists_unparenthesized_rewritten naming places
  rw [Scope.arrayLiteral?, hbelow, Expr.rewrittenInside, Scope.arrayLiteral?]
  cases e.unparenthesized.kind
  case identifier name =>
    simp only [ExprKind.rewritten]
    rcases h.lookup? name with ⟨hnone, hnone'⟩ | ⟨first, second, hfirst, hsecond, hlike⟩
    · rw [hnone, hnone']
    · rw [hfirst, hsecond]
      cases hlike with
      | same binding => rfl
      | literal hliteral =>
          simp only [ShaderLiteral.isArray_eq_of_outline hliteral]
          split
          · exact congrArg some hliteral
          · rfl
  all_goals simp only [ExprKind.rewritten, Option.map_none]

/-- An expression names an array in both scopes or in neither. -/
theorem Matches.arrayLiteral? (h : scope'.Matches scope) (naming : Naming) (e : Expr)
    (places : Places) :
    (scope'.arrayLiteral? (e.rewritten naming places) = none ∧ scope.arrayLiteral? e = none) ∨
      ∃ first second, scope'.arrayLiteral? (e.rewritten naming places) = some first ∧
        scope.arrayLiteral? e = some second ∧ first.outline = second.outline :=
  none_or_some_of_map_eq (h.arrayLiteral?_map naming e places)

theorem Matches.texture? (h : scope'.Matches scope) (e : Expr) (places : Places) :
    scope'.texture? (e.rewritten naming places) = scope.texture? e := by
  obtain ⟨below, -, hbelow⟩ := e.exists_unparenthesized_rewritten naming places
  rw [Scope.texture?, hbelow, Expr.rewrittenInside, Scope.texture?]
  cases e.unparenthesized.kind
  case identifier name =>
    simp only [ExprKind.rewritten]
    rcases h.lookup? name with ⟨hnone, hnone'⟩ | ⟨first, second, hfirst, hsecond, hlike⟩
    · rw [hnone, hnone']
    · rw [hfirst, hsecond]
      cases hlike <;> rfl
  all_goals simp only [ExprKind.rewritten]

/-- Parentheses around it would hide the type that an expression names. -/
theorem Matches.staticReceiver? (h : scope'.Matches scope) (e : Expr) (places : Places) :
    scope'.staticReceiver? (e.rewritten naming places.inner) = scope.staticReceiver? e := by
  rw [Expr.rewritten_inner, Scope.staticReceiver?, Expr.annotatedTypeName?_rewrittenInside,
    Scope.staticReceiver?, Expr.rewrittenInside]
  cases e.annotatedTypeName? with
  | some name => rfl
  | none =>
      cases e.kind
      case identifier name => simp only [ExprKind.rewritten, h.isNone_lookup?]
      all_goals simp only [ExprKind.rewritten]

theorem typeOf_enclosed (scope : Scope) (e : Expr) :
    scope.typeOf e.enclosed = scope.typeOf e := by
  rw [typeOf.eq_def, Expr.annotatedDataType?_enclosed]
  cases ha : e.annotatedDataType? with
  | some type => rw [typeOf.eq_def, ha]
  | none => rfl

theorem calleeType?_enclosed (scope : Scope) (e : Expr) :
    scope.calleeType? e.enclosed = scope.calleeType? e := by
  rw [Expr.enclosed, calleeType?]

theorem argumentTypes_rewritten_of {arguments : List Argument}
    (h : ∀ argument ∈ arguments, ∀ places,
      scope'.typeOf (argument.value.rewritten naming places) = scope.typeOf argument.value)
    (places : Places) :
    scope'.argumentTypes (changeEach (Argument.rewritten naming) places arguments) =
      scope.argumentTypes arguments := by
  induction arguments generalizing places with
  | nil => rw [changeEach, argumentTypes, argumentTypes]
  | cons argument rest ih =>
      obtain ⟨name, mode, value⟩ := argument
      rw [List.forall_mem_cons] at h
      rw [changeEach, Argument.rewritten, argumentTypes, argumentTypes, h.1, ih h.2]

theorem typeOf_calleeType?_rewritten (h : scope'.Matches scope) (e : Expr) (places : Places) :
    scope'.typeOf (e.rewritten naming places) = scope.typeOf e ∧
      scope'.calleeType? (e.rewritten naming places) = scope.calleeType? e := by
  induction e using Expr.induction_parts generalizing places with
  | step e hpart hargument =>
      have htypeOf (part : Expr) (hp : Node.expr part ∈ e.kind.parts) (places : Places) :
          scope'.typeOf (part.rewritten naming places) = scope.typeOf part :=
        (hpart part hp places).1
      constructor
      · have hannotated : (e.rewrittenInside naming places).annotatedDataType? =
            e.annotatedDataType? := by
          rw [← Expr.apply_rewritten Expr.annotatedDataType?_enclosed,
            Expr.annotatedDataType?_rewritten]
        have hmethod : (e.rewrittenInside naming places).annotatedMethod?.map naming.method =
            e.annotatedMethod?.map naming.method := e.annotatedMethod?_rewrittenInside places
        rw [Expr.apply_rewritten (typeOf_enclosed _), typeOf.eq_def, typeOf.eq_def scope,
          hannotated]
        cases e.annotatedDataType? with
        | some type => rfl
        | none =>
            obtain ⟨kind, location, notes⟩ := e
            cases kind
            case identifier name =>
              simp only [Expr.rewrittenInside, ExprKind.rewritten]
              rcases h.lookup? name with ⟨hnone, hnone'⟩ | ⟨first, second, hfirst, hsecond, hlike⟩
              · rw [hnone, hnone']
              · rw [hfirst, hsecond]
                exact hlike.type_eq
            case memberAccess target member =>
              simp only [Expr.rewrittenInside, ExprKind.rewritten, h.staticReceiver?,
                htypeOf target (by simp [ExprKind.parts])]
            case index target position =>
              simp only [Expr.rewrittenInside, ExprKind.rewritten,
                htypeOf target (by simp [ExprKind.parts])]
              rcases h.arrayLiteral? naming target (places.under 0) with
                ⟨hnone, hnone'⟩ | ⟨first, second, hfirst, hsecond, houtline⟩
              · rw [hnone, hnone']
              · obtain ⟨-, htype, -⟩ := ShaderLiteral.outline_eq_iff.mp houtline
                rw [hfirst, hsecond]
                exact htype
            case invocation callee arguments =>
              have harguments := argumentTypes_rewritten_of
                fun argument (ha : argument ∈ arguments) places =>
                  (hargument argument (by simp [ExprKind.parts, ha]) places).1
              have hcallee (places : Places) := (hpart callee (by simp [ExprKind.parts]) places).2
              simp only [Expr.rewrittenInside, ExprKind.rewritten, rewrittenArguments_eq]
                at hmethod ⊢
              simp only [hcallee, harguments]
              cases scope.calleeType? callee with
              | none => rfl
              | some found =>
                  have hcalled := Naming.getD_eq hmethod
                    (inferredMethod found.1 found.2.1 found.2.2 (scope.argumentTypes arguments))
                  simp only [Naming.intrinsic_eq hcalled, Naming.isStatic_eq hcalled]
            case objectCreation type arguments initializer =>
              simp only [Expr.rewrittenInside, ExprKind.rewritten, Naming.dataType_type]
            case cast type operand =>
              simp only [Expr.rewrittenInside, ExprKind.rewritten, Naming.dataType_castType]
            case binary op lhs rhs =>
              simp only [Expr.rewrittenInside, ExprKind.rewritten,
                htypeOf lhs (by simp [ExprKind.parts]), htypeOf rhs (by simp [ExprKind.parts])]
            case unary op operand =>
              simp only [Expr.rewrittenInside, ExprKind.rewritten,
                htypeOf operand (by simp [ExprKind.parts])]
            case assignment op target value =>
              simp only [Expr.rewrittenInside, ExprKind.rewritten,
                htypeOf target (by simp [ExprKind.parts])]
            case conditional condition thenValue elseValue =>
              simp only [Expr.rewrittenInside, ExprKind.rewritten,
                htypeOf thenValue (by simp [ExprKind.parts])]
            case parenthesized inner =>
              simp only [Expr.rewrittenInside, ExprKind.rewritten,
                htypeOf inner (by simp [ExprKind.parts])]
            all_goals simp only [Expr.rewrittenInside, ExprKind.rewritten]
      · rw [Expr.apply_rewritten (calleeType?_enclosed _)]
        obtain ⟨kind, location, notes⟩ := e
        cases kind
        case memberAccess target member =>
          simp only [Expr.rewrittenInside, ExprKind.rewritten, calleeType?, h.staticReceiver?,
            htypeOf target (by simp [ExprKind.parts])]
        case parenthesized inner =>
          simp only [Expr.rewrittenInside, ExprKind.rewritten, calleeType?]
          exact (hpart inner (by simp [ExprKind.parts]) _).2
        all_goals simp only [Expr.rewrittenInside, ExprKind.rewritten, calleeType?]

theorem Matches.typeOf (h : scope'.Matches scope) (e : Expr) (places : Places) :
    scope'.typeOf (e.rewritten naming places) = scope.typeOf e :=
  (typeOf_calleeType?_rewritten h e places).1

theorem Matches.argumentTypes (h : scope'.Matches scope) (arguments : List Argument)
    (places : Places) :
    scope'.argumentTypes (changeEach (Argument.rewritten naming) places arguments) =
      scope.argumentTypes arguments :=
  argumentTypes_rewritten_of (fun argument _ => h.typeOf argument.value) places

theorem localType_of_ne {type : TypeRef} (h : type ≠ .inferred) (initializer : Option Expr) :
    scope.localType type initializer = type.dataType := by
  cases type with
  | inferred => exact absurd rfl h
  | named name => rfl
  | array element => rfl
  | pointer element => rfl

theorem Matches.localType (h : scope'.Matches scope) (type : TypeRef) (initializer : Option Expr)
    (places : Places) :
    scope'.localType (naming.type type) (initializer.map (Expr.rewritten naming places)) =
      scope.localType type initializer := by
  by_cases hi : type = .inferred
  · subst hi
    have hinferred : naming.type .inferred = .inferred := by cases naming <;> rfl
    rw [hinferred]
    cases initializer with
    | none => rfl
    | some value => exact h.typeOf value places
  · have hother : naming.type type ≠ .inferred := by
      cases naming with
      | kept => exact hi
      | bare => cases type <;> simp_all [Naming.type, TypeRef.bare]
    rw [localType_of_ne hother, localType_of_ne hi, Naming.dataType_type]

end Scope

/-! ## Calls -/

/-- A call of the same method, with a rewritten receiver. -/
structure Call.IsRewritten (naming : Naming) (first second : Call) : Prop where
  method : naming.method first.method = naming.method second.method
  receiver : ∃ places, first.receiver = second.receiver.map (Expr.rewritten naming places)

namespace Call.IsRewritten

variable {first second : Call}

theorem intrinsic_eq (h : first.IsRewritten naming second) :
    first.intrinsic = second.intrinsic :=
  Naming.intrinsic_eq h.method

theorem isSome_receiver (h : first.IsRewritten naming second) :
    first.receiver.isSome = second.receiver.isSome := by
  obtain ⟨places, hreceiver⟩ := h.receiver
  rw [hreceiver, Option.isSome_map]

end Call.IsRewritten

/-- An invocation is resolved in both scopes or in neither. -/
theorem Scope.Matches.call? (h : scope'.Matches scope) (naming : Naming) (e : Expr)
    (places : Places) :
    (scope'.call? (e.rewrittenInside naming places) = none ∧ scope.call? e = none) ∨
      ∃ first second, scope'.call? (e.rewrittenInside naming places) = some first ∧
        scope.call? e = some second ∧ first.IsRewritten naming second := by
  have hmethod : (e.rewrittenInside naming places).annotatedMethod?.map naming.method =
      e.annotatedMethod?.map naming.method := e.annotatedMethod?_rewrittenInside places
  obtain ⟨kind, location, notes⟩ := e
  cases kind
  case invocation callee arguments =>
    obtain ⟨below, -, hbelow⟩ :=
      callee.exists_unparenthesized_rewritten naming (places.under 0).inner
    simp only [Expr.rewrittenInside, ExprKind.rewritten, rewrittenArguments_eq] at hmethod ⊢
    simp only [Scope.call?, hbelow, Expr.rewrittenInside]
    cases callee.unparenthesized.kind
    case memberAccess target member =>
      simp only [ExprKind.rewritten, h.staticReceiver?, h.typeOf, h.argumentTypes]
      have hcalled := Naming.getD_eq hmethod
        (inferredMethod (scope.staticReceiver? target) (scope.typeOf target) member
          (scope.argumentTypes arguments))
      refine .inr ⟨_, _, rfl, rfl, hcalled, (below.under 0).inner, ?_⟩
      simp only [Naming.isStatic_eq hcalled]
      split <;> rfl
    all_goals exact .inl ⟨by simp only [ExprKind.rewritten], rfl⟩
  all_goals
    refine .inl ⟨?_, rfl⟩
    simp only [Expr.rewrittenInside, ExprKind.rewritten, Scope.call?]

/-! ## Rules for expressions -/

namespace Naming

/-- What is compared of findings: the positions, and the messages unless they may name types in
another way. -/
def view (naming : Naming) (found : List Finding) : List (Location × Option Violation) :=
  found.map fun finding =>
    (finding.location,
      match naming with
      | kept => some finding.value
      | bare => none)

@[simp]
theorem view_append (naming : Naming) (first second : List Finding) :
    naming.view (first ++ second) = naming.view first ++ naming.view second :=
  List.map_append

theorem eq_of_view_kept {first second : List Finding} (h : kept.view first = kept.view second) :
    first = second := by
  refine List.map_injective_iff.mpr ?_ h
  rintro ⟨location, value⟩ ⟨location', value'⟩ heq
  simpa using heq

theorem view_type (naming : Naming) (message : TypeRef → Violation) (location : Location)
    (type : TypeRef) :
    naming.view [{ location, value := message (naming.type type) }] =
      naming.view [{ location, value := message type }] := by
  cases naming <;> rfl

theorem view_castType (naming : Naming) (message : TypeRef → Violation) (location : Location)
    (type : TypeRef) (constant : Option Value) :
    naming.view [{ location, value := message (naming.castType type constant) }] =
      naming.view [{ location, value := message type }] := by
  cases naming <;> rfl

theorem view_method {first second : MethodRef} (h : naming.method first = naming.method second)
    (message : String → Violation) (location : Location) :
    naming.view [{ location, value := message first.describe }] =
      naming.view [{ location, value := message second.describe }] := by
  cases naming with
  | kept =>
      have heq : first = second := h
      rw [heq]
  | bare => rfl

end Naming

namespace Scope

theorem Matches.checkMember (h : scope'.Matches scope) (target : Expr) (places : Places)
    (member : String) (location : Location) :
    scope'.checkMember (target.rewritten naming places) member location =
      scope.checkMember target member location := by
  simp only [Scope.checkMember, h.typeOf]
  rcases h.arrayLiteral? naming target places with
    ⟨hnone, hnone'⟩ | ⟨first, second, hfirst, hsecond, houtline⟩
  · rw [hnone, hnone']
  · obtain ⟨hname, -, -⟩ := ShaderLiteral.outline_eq_iff.mp houtline
    simp only [hfirst, hsecond, hname]

theorem Matches.checkBounds (h : scope'.Matches scope) (target index : Expr)
    (inTarget inIndex : Places) (location : Location) :
    scope'.checkBounds (target.rewritten naming inTarget) (index.rewritten naming inIndex) location =
      scope.checkBounds target index location := by
  simp only [Scope.checkBounds, Expr.constant?_rewritten, h.typeOf]
  rcases h.arrayLiteral? naming target inTarget with
    ⟨hnone, hnone'⟩ | ⟨first, second, hfirst, hsecond, houtline⟩
  · rw [hnone, hnone']
  · obtain ⟨hname, -, hlength⟩ := ShaderLiteral.outline_eq_iff.mp houtline
    simp only [hfirst, hsecond, hname, hlength]

theorem Matches.checkCall (h : scope'.Matches scope) {first second : Call}
    (hcall : first.IsRewritten naming second) (location : Location) :
    naming.view (scope'.checkCall first location) =
      naming.view (scope.checkCall second location) := by
  obtain ⟨places, hreceiver⟩ := hcall.receiver
  have htexture : (first.receiver.any fun receiver => (scope'.texture? receiver).isNone) =
      second.receiver.any fun receiver => (scope.texture? receiver).isNone := by
    rw [hreceiver]
    cases second.receiver with
    | none => rfl
    | some receiver => simp only [Option.map_some, Option.any_some, h.texture?]
  simp only [Scope.checkCall, hcall.intrinsic_eq, htexture, h.stage, h.name]
  split
  · exact Naming.view_method hcall.method .unknownMethod location
  · split
    · exact Naming.view_method hcall.method .sampleReceiver location
    · split
      · exact Naming.view_method hcall.method (.fragmentOnly · scope.method.name) location
      · rfl

theorem Matches.checkConstruction (h : scope'.Matches scope) (type : TypeRef)
    (arguments : List Argument) (places : Places) (location : Location) :
    naming.view (scope'.checkConstruction (naming.type type)
        (changeEach (Argument.rewritten naming) places arguments) location) =
      naming.view (scope.checkConstruction type arguments location) := by
  simp only [Scope.checkConstruction, Naming.dataType_type, h.argumentTypes]
  cases type.dataType.constructedComponents? with
  | none => exact naming.view_type .construction location type
  | some expected => rfl

theorem Matches.checkAssignable (h : scope'.Matches scope) (target : Expr) (places : Places) :
    scope'.checkAssignable (target.rewritten naming places) = scope.checkAssignable target := by
  simp only [Scope.checkAssignable, Expr.rootIdentifier?_rewritten, Expr.location_rewritten, h.name]
  cases target.rootIdentifier? with
  | none => rfl
  | some root =>
      dsimp only
      rcases h.lookup? root with ⟨hnone, hnone'⟩ | ⟨first, second, hfirst, hsecond, hlike⟩
      · rw [hnone, hnone']
      · rw [hfirst, hsecond]
        cases hlike <;> rfl

theorem Matches.checkIdentifier (h : scope'.Matches scope) (name : String) (location : Location) :
    scope'.checkIdentifier name location = scope.checkIdentifier name location := by
  simp only [Scope.checkIdentifier, h.isNone_lookup?, h.name]

theorem invokedName_rewritten (callee : Expr) (places : Places) :
    invokedName (callee.rewritten naming places) = invokedName callee := by
  obtain ⟨below, -, hbelow⟩ := callee.exists_unparenthesized_rewritten naming places
  rw [invokedName, hbelow, Expr.rewrittenInside, invokedName]
  cases callee.unparenthesized.kind <;> simp only [ExprKind.rewritten]

theorem checkExpr_enclosed (scope : Scope) (e : Expr) :
    scope.checkExpr e.enclosed = scope.checkExpr e := by
  rw [Expr.enclosed, checkExpr]
  rfl

theorem checkReceiver_enclosed (scope : Scope) (e : Expr) :
    scope.checkReceiver e.enclosed = scope.checkReceiver e := by
  rw [Expr.enclosed, checkReceiver]

theorem checkArguments_rewritten_of {arguments : List Argument}
    (h : ∀ argument ∈ arguments, ∀ places,
      naming.view (scope'.checkExpr (argument.value.rewritten naming places)) =
        naming.view (scope.checkExpr argument.value)) (places : Places) :
    naming.view (scope'.checkArguments (changeEach (Argument.rewritten naming) places arguments)) =
      naming.view (scope.checkArguments arguments) := by
  induction arguments generalizing places with
  | nil => rw [changeEach, checkArguments, checkArguments]
  | cons argument rest ih =>
      obtain ⟨name, mode, value⟩ := argument
      rw [List.forall_mem_cons] at h
      simp only [changeEach, Argument.rewritten, checkArguments, Naming.view_append, h.1, ih h.2,
        Expr.location_rewritten]
      rfl

theorem checkExpr_checkReceiver_rewritten (h : scope'.Matches scope) (e : Expr)
    (places : Places) :
    naming.view (scope'.checkExpr (e.rewritten naming places)) = naming.view (scope.checkExpr e) ∧
      naming.view (scope'.checkReceiver (e.rewritten naming places)) =
        naming.view (scope.checkReceiver e) := by
  induction e using Expr.induction_parts generalizing places with
  | step e hpart hargument =>
      have hcheck (part : Expr) (hp : Node.expr part ∈ e.kind.parts) (places : Places) :
          naming.view (scope'.checkExpr (part.rewritten naming places)) =
            naming.view (scope.checkExpr part) := (hpart part hp places).1
      constructor
      · have hconstruct : Construct.ofExpr? (e.rewrittenInside naming places).kind =
            Construct.ofExpr? e.kind := Construct.ofExpr?_rewritten e.kind places
        have hlocation : (e.rewrittenInside naming places).location = e.location := rfl
        have hcall := h.call? naming e places
        rw [Expr.apply_rewritten (checkExpr_enclosed _), checkExpr.eq_def, checkExpr.eq_def scope,
          hconstruct, hlocation]
        cases Construct.ofExpr? e.kind with
        | some construct => rfl
        | none =>
            obtain ⟨kind, location, notes⟩ := e
            cases kind
            case identifier name =>
              simp only [Expr.rewrittenInside, ExprKind.rewritten, h.checkIdentifier]
            case memberAccess target member =>
              simp only [Expr.rewrittenInside, ExprKind.rewritten, h.staticReceiver?]
              cases scope.staticReceiver? target with
              | some receiver => rfl
              | none =>
                  simp only [Naming.view_append, h.checkMember,
                    hcheck target (by simp [ExprKind.parts])]
            case index target position =>
              simp only [Expr.rewrittenInside, ExprKind.rewritten, Naming.view_append,
                h.checkBounds, hcheck target (by simp [ExprKind.parts]),
                hcheck position (by simp [ExprKind.parts])]
            case invocation callee arguments =>
              have harguments := checkArguments_rewritten_of
                fun argument (ha : argument ∈ arguments) places =>
                  (hargument argument (by simp [ExprKind.parts, ha]) places).1
              have hreceiver (places : Places) := (hpart callee (by simp [ExprKind.parts]) places).2
              simp only [Expr.rewrittenInside, ExprKind.rewritten, rewrittenArguments_eq] at hcall ⊢
              rcases hcall with ⟨hnone, hnone'⟩ | ⟨first, second, hfirst, hsecond, hrewritten⟩
              · simp only [hnone, hnone', Naming.view_append, harguments, invokedName_rewritten]
              · simp only [hfirst, hsecond, Naming.view_append, harguments,
                  hrewritten.isSome_receiver, h.checkCall hrewritten]
                split
                · rw [hreceiver]
                · rfl
            case objectCreation type arguments initializer =>
              have harguments := checkArguments_rewritten_of
                fun argument (ha : argument ∈ arguments) places =>
                  (hargument argument (by simp [ExprKind.parts, ha]) places).1
              simp only [Expr.rewrittenInside, ExprKind.rewritten, rewrittenArguments_eq,
                Naming.view_append, harguments, h.checkConstruction]
            case binary op lhs rhs =>
              simp only [Expr.rewrittenInside, ExprKind.rewritten, Naming.view_append,
                hcheck lhs (by simp [ExprKind.parts]), hcheck rhs (by simp [ExprKind.parts])]
            case unary op operand =>
              simp only [Expr.rewrittenInside, ExprKind.rewritten, Naming.view_append,
                h.checkAssignable, hcheck operand (by simp [ExprKind.parts])]
            case assignment op target value =>
              simp only [Expr.rewrittenInside, ExprKind.rewritten, Naming.view_append,
                h.checkAssignable, hcheck target (by simp [ExprKind.parts]),
                hcheck value (by simp [ExprKind.parts])]
            case conditional condition thenValue elseValue =>
              simp only [Expr.rewrittenInside, ExprKind.rewritten, Naming.view_append,
                hcheck condition (by simp [ExprKind.parts]),
                hcheck thenValue (by simp [ExprKind.parts]),
                hcheck elseValue (by simp [ExprKind.parts])]
            case cast type operand =>
              simp only [Expr.rewrittenInside, ExprKind.rewritten, Naming.view_append,
                hcheck operand (by simp [ExprKind.parts]), Naming.dataType_castType]
              split
              · rfl
              · rw [naming.view_castType]
            case parenthesized inner =>
              simp only [Expr.rewrittenInside, ExprKind.rewritten,
                hcheck inner (by simp [ExprKind.parts])]
            all_goals simp only [Expr.rewrittenInside, ExprKind.rewritten]
      · rw [Expr.apply_rewritten (checkReceiver_enclosed _)]
        obtain ⟨kind, location, notes⟩ := e
        cases kind
        case memberAccess target member =>
          simp only [Expr.rewrittenInside, ExprKind.rewritten, checkReceiver,
            hcheck target (by simp [ExprKind.parts])]
        case parenthesized inner =>
          simp only [Expr.rewrittenInside, ExprKind.rewritten, checkReceiver]
          exact (hpart inner (by simp [ExprKind.parts]) _).2
        all_goals simp only [Expr.rewrittenInside, ExprKind.rewritten, checkReceiver]

theorem Matches.checkExpr (h : scope'.Matches scope) (e : Expr) (places : Places) :
    naming.view (scope'.checkExpr (e.rewritten naming places)) = naming.view (scope.checkExpr e) :=
  (checkExpr_checkReceiver_rewritten h e places).1

theorem Matches.checkOption (h : scope'.Matches scope) (e : Option Expr) (places : Places) :
    naming.view (scope'.checkOption (e.map (Expr.rewritten naming places))) =
      naming.view (scope.checkOption e) := by
  cases e with
  | none => rfl
  | some e => exact h.checkExpr e places

theorem Matches.checkExprs (h : scope'.Matches scope) (es : List Expr) (places : Places) :
    naming.view (scope'.checkExprs (changeEach (Expr.rewritten naming) places es)) =
      naming.view (scope.checkExprs es) := by
  simp only [Naming.view, Scope.checkExprs, List.map_flatMap]
  exact flatMap_changeEach (fun e _ => h.checkExpr e) places

end Scope

/-! ## Rules for statements -/

/-- The scopes after what is checked match, and the same is found. -/
structure CheckedAlike (naming : Naming) (first second : Scope × List Finding) : Prop where
  scopes : first.1.Matches second.1
  findings : naming.view first.2 = naming.view second.2

section

variable (members : List String)

variable (naming) in
theorem checkDeclarator_rewritten (h : scope'.Matches scope) (type : TypeRef) (location : Location)
    (declarator : VariableDeclarator) (places : Places) :
    CheckedAlike naming
      (checkDeclarator members (naming.type type) location scope'
        (declarator.rewritten naming places))
      (checkDeclarator members type location scope declarator) := by
  have hlocal : checkLocalName members scope'.method = checkLocalName members scope.method := by
    funext name location
    simp only [checkLocalName, h.parameter?]
  simp only [checkDeclarator, VariableDeclarator.rewritten, h.localType]
  refine ⟨h.declare _ _, ?_⟩
  simp only [Naming.view_append, h.checkOption, hlocal]
  congr 2
  split
  · rfl
  · cases naming <;> rfl

theorem checkDeclarators_rewritten (h : scope'.Matches scope) (type : TypeRef)
    (location : Location) (declarators : List VariableDeclarator) (places : Places) :
    CheckedAlike naming
      (checkDeclarators members (naming.type type) location scope'
        (changeEach (VariableDeclarator.rewritten naming) places declarators))
      (checkDeclarators members type location scope declarators) := by
  induction declarators generalizing scope scope' places with
  | nil => exact ⟨h, rfl⟩
  | cons declarator rest ih =>
      have hfirst := checkDeclarator_rewritten naming members h type location declarator
        (places.under 0)
      have hrest := ih hfirst.scopes (places.under 1)
      simp only [changeEach, checkDeclarators]
      exact ⟨hrest.scopes, by simp only [Naming.view_append, hfirst.findings, hrest.findings]⟩

theorem checkStmts_rewritten_of {stmts : List Stmt}
    (hs : ∀ stmt ∈ stmts, ∀ places, ∀ scope scope' : Scope, scope'.Matches scope →
      CheckedAlike naming (checkStmt members scope' (stmt.rewritten naming places))
        (checkStmt members scope stmt)) (h : scope'.Matches scope) (places : Places) :
    CheckedAlike naming
      (checkStmts members scope' (changeEach (Stmt.rewritten naming) places stmts))
      (checkStmts members scope stmts) := by
  induction stmts generalizing scope scope' places with
  | nil =>
      simp only [changeEach, checkStmts]
      exact ⟨h, rfl⟩
  | cons stmt rest ih =>
      rw [List.forall_mem_cons] at hs
      have hfirst := hs.1 (places.under 0) scope scope' h
      have hrest := ih hs.2 hfirst.scopes (places.under 1)
      simp only [changeEach, checkStmts]
      exact ⟨hrest.scopes, by simp only [Naming.view_append, hfirst.findings, hrest.findings]⟩

theorem checkStmt_rewritten (stmt : Stmt) (places : Places) {scope scope' : Scope}
    (h : scope'.Matches scope) :
    CheckedAlike naming (checkStmt members scope' (stmt.rewritten naming places))
      (checkStmt members scope stmt) := by
  induction stmt using Stmt.induction generalizing places scope scope' with
  | step stmt ih =>
      rw [Stmt.rewritten_eq, checkStmt.eq_def, checkStmt.eq_def members scope]
      simp only [Construct.ofStmt?_rewritten]
      cases Construct.ofStmt? stmt.kind with
      | some construct => exact ⟨h, rfl⟩
      | none =>
          obtain ⟨kind, location⟩ := stmt
          cases kind
          case block body =>
            simp only [StmtKind.rewritten, rewrittenStmts_eq]
            exact checkStmts_rewritten_of members
              (fun stmt hs places _ _ => ih stmt (by simpa [StmtKind.parts] using hs) places) h
              places
          case expression value =>
            simp only [StmtKind.rewritten]
            exact ⟨h, h.checkExpr value _⟩
          case declaration declaration =>
            obtain ⟨type, declarators⟩ := declaration
            simp only [StmtKind.rewritten, VariableDeclaration.rewritten, rewrittenDeclarators_eq]
            exact checkDeclarators_rewritten members h type location declarators places
          case ifElse condition thenBranch elseBranch =>
            have hthen := ih thenBranch (by simp [StmtKind.parts]) (places.under 1) h
            have helse {after after' : Scope} (ha : after'.Matches after) :
                CheckedAlike naming
                  (checkOptionalStmt members after'
                    (elseBranch.map (Stmt.rewritten naming (places.under 2))))
                  (checkOptionalStmt members after elseBranch) := by
              cases elseBranch with
              | none => exact ⟨ha, rfl⟩
              | some branch => exact ih branch (by simp [StmtKind.parts]) _ ha
            replace helse := helse hthen.scopes
            simp only [StmtKind.rewritten, rewrittenOptionalStmt_eq_map]
            refine ⟨helse.scopes, ?_⟩
            simp only [Naming.view_append, h.checkExpr, hthen.findings, helse.findings]
          case whileLoop condition body =>
            have hbody := ih body (by simp [StmtKind.parts]) (places.under 1) h
            simp only [StmtKind.rewritten]
            refine ⟨hbody.scopes, ?_⟩
            simp only [Naming.view_append, h.checkExpr, hbody.findings]
          case doWhileLoop body condition =>
            have hbody := ih body (by simp [StmtKind.parts]) (places.under 0) h
            simp only [StmtKind.rewritten]
            refine ⟨hbody.scopes, ?_⟩
            simp only [Naming.view_append, h.checkExpr, hbody.findings]
          case forLoop initializers condition increments body =>
            have hinitializers := checkStmts_rewritten_of members
              (fun stmt (hs : stmt ∈ initializers) places _ _ =>
                ih stmt (by simp [StmtKind.parts, hs]) places) h (places.under 0)
            have hinner := hinitializers.scopes
            have hbody := ih body (by simp [StmtKind.parts]) (places.under 3) hinner
            simp only [StmtKind.rewritten, rewrittenStmts_eq, rewrittenOption_eq_map,
              rewrittenValues_eq]
            refine ⟨hbody.scopes, ?_⟩
            simp only [Naming.view_append, hinitializers.findings, hinner.checkOption,
              hinner.checkExprs, hbody.findings]
          case returning value =>
            cases value with
            | none =>
                simp only [StmtKind.rewritten, rewrittenOption]
                exact ⟨h, rfl⟩
            | some value =>
                simp only [StmtKind.rewritten, rewrittenOption]
                refine ⟨h, ?_⟩
                rw [h.name]
                exact congrArg₂ List.cons rfl (h.checkExpr value _)
          all_goals
            simp only [StmtKind.rewritten]
            exact ⟨h, rfl⟩

theorem checkStmts_rewritten (stmts : List Stmt) (h : scope'.Matches scope) (places : Places) :
    CheckedAlike naming
      (checkStmts members scope' (changeEach (Stmt.rewritten naming) places stmts))
      (checkStmts members scope stmts) :=
  checkStmts_rewritten_of members
    (fun stmt _ places _ _ => checkStmt_rewritten members stmt places) h places

end

end ShaderEffect
