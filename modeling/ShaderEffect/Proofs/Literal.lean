import ShaderEffect.Check.Declaration
import ShaderEffect.Proofs.Writable

/-!
# Values of literals

The value of a literal has to be constant, and it is written as it stands. What is constant can mostly
be written. The rule says nothing of three things: the types of casts, expressions with an annotated
value, and what else has the name of a type in the scope of a method. They are all that is left open.
-/

namespace ShaderEffect

/-! ## Scalars -/

namespace Value

/-- Whether a value is no string. -/
def isScalar : Value → Bool
  | string _ => false
  | _ => true

theorem isScalar_of_foldUnary {op : UnaryOp} {operand value : Value}
    (h : foldUnary op operand = some value) : operand.isScalar = true := by
  cases operand with
  | string text => cases op <;> cases h
  | _ => rfl

/-- Only scalars are folded, and never by a null-coalescing operator. -/
theorem isScalar_of_foldBinary {op : BinaryOp} {lhs rhs value : Value}
    (h : foldBinary op lhs rhs = some value) :
    op ≠ .nullCoalesce ∧ lhs.isScalar = true ∧ rhs.isScalar = true := by
  cases lhs <;> cases rhs <;> simp only [foldBinary, reduceCtorEq] at h
  all_goals
    refine ⟨?_, rfl, rfl⟩
    rintro rfl
    cases h

theorem isScalar_of_convert {type : TypeRef} {operand value : Value}
    (h : convert type operand = some value) (hs : value.isScalar = true) :
    operand.isScalar = true := by
  cases operand with
  | string text =>
      unfold convert at h
      split at h <;> simp_all
  | _ => rfl

end Value

theorem isScalarConstant_iff {e : Expr} :
    isScalarConstant e = true ↔ ∃ value, e.constant? = some value ∧ value.isScalar = true := by
  unfold isScalarConstant
  cases e.constant? with
  | none => simp
  | some value => cases value <;> simp [Value.isScalar]

/-! ## Folded expressions -/

namespace Scope

variable {scope : Scope} {dialect : Dialect}

/-- What folding leaves open about a constant expression. An annotated value says nothing of the
expression, and the type of a cast may be one that no shader has. -/
def FoldCovered (dialect : Dialect) (scope : Scope) (e : Expr) : Prop :=
  match e.notes.constant with
  | some _ => scope.Writable dialect e
  | none =>
    match e with
    | ⟨.parenthesized inner, _, _⟩ => FoldCovered dialect scope inner
    | ⟨.unary _ operand, _, _⟩ => FoldCovered dialect scope operand
    | ⟨.binary _ lhs rhs, _, _⟩ => FoldCovered dialect scope lhs ∧ FoldCovered dialect scope rhs
    | ⟨.cast type operand, _, _⟩ => type.dataType ≠ .unknown ∧ FoldCovered dialect scope operand
    | _ => True

theorem writable_parenthesized {inner : Expr} {location : Location} {notes : Notes} :
    scope.Writable dialect ⟨.parenthesized inner, location, notes⟩ ↔
      scope.Writable dialect inner := by
  rw [Writable, throughout_iff]
  simp [Expressible, operands, Construct.ofExpr?]

theorem writable_unary {op : UnaryOp} {operand : Expr} {location : Location} {notes : Notes} :
    scope.Writable dialect ⟨.unary op operand, location, notes⟩ ↔
      scope.Writable dialect operand := by
  rw [Writable, throughout_iff]
  simp [Expressible, operands, Construct.ofExpr?]

theorem writable_iff_foldCovered {value : Value} (e : Expr) (h : e.constant? = some value)
    (hs : value.isScalar = true) :
    scope.Writable dialect e ↔ scope.FoldCovered dialect e := by
  induction e using Expr.induction_parts generalizing value with
  | step e ih iha =>
      clear iha
      rw [FoldCovered.eq_def]
      rw [Expr.constant?.eq_def] at h
      cases hn : e.notes.constant with
      | some annotated => rfl
      | none =>
          rw [hn] at h
          obtain ⟨kind, location, notes⟩ := e
          cases kind
          case literal literal =>
            cases h
            rw [Writable, throughout_iff]
            cases value <;> simp_all [Expressible, operands, Construct.ofExpr?, Value.isScalar]
          case parenthesized inner =>
            rw [writable_parenthesized]
            exact ih inner (by simp [ExprKind.parts]) h hs
          case unary op operand =>
            obtain ⟨folded, ho, hf⟩ := Option.bind_eq_some_iff.mp h
            rw [writable_unary]
            exact ih operand (by simp [ExprKind.parts]) ho (Value.isScalar_of_foldUnary hf)
          case binary op lhs rhs =>
            simp only at h
            split at h
            case h_2 => cases h
            case h_1 a b hl hr =>
              obtain ⟨hop, ha, hb⟩ := Value.isScalar_of_foldBinary h
              have hlhs := ih lhs (by simp [ExprKind.parts]) hl ha
              have hrhs := ih rhs (by simp [ExprKind.parts]) hr hb
              have hsupported : Construct.ofExpr? (.binary op lhs rhs) = none := by
                cases op <;> simp_all [Construct.ofExpr?]
              rw [Writable, throughout_iff]
              simp [Expressible, operands, hsupported, hlhs, hrhs]
          case cast type operand =>
            obtain ⟨folded, ho, hf⟩ := Option.bind_eq_some_iff.mp h
            have hoperand := ih operand (by simp [ExprKind.parts]) ho
              (Value.isScalar_of_convert hf hs)
            rw [Writable, throughout_iff]
            simp [Expressible, operands, Construct.ofExpr?, hoperand]
          case invocation callee arguments =>
            -- a constant invocation is a name, and names are strings
            have hname : ∃ name, value = .string name := by
              simp only at h
              split at h <;> simp_all [Option.map_eq_some_iff]
              exact h.imp fun _ hname => hname.2.symm
            obtain ⟨name, rfl⟩ := hname
            cases hs
          all_goals cases h

/-! ## Static properties -/

/-- An expression that names a type does so in the scope, too: it is annotated, or its name stands for
nothing else. -/
def KeepsType (scope : Scope) (e : Expr) : Prop :=
  e.annotatedTypeName? = none → ∀ name, e.kind = .identifier name → scope.lookup? name = none

/-- No static property is spelled like a choice of components. -/
theorem swizzle?_of_staticProperty? {type : DataType} {member : String}
    (h : (staticProperty? type member).isSome) (target : DataType) :
    swizzle? member target = none := by
  have hmember : member ∈ ["Identity", "Zero", "One", "UnitX", "UnitY", "UnitZ", "UnitW"] := by
    unfold staticProperty? at h
    split at h
    · split at h <;> simp_all
    · split at h
      · cases hc : type.componentCount with
        | none => simp [hc] at h
        | some count =>
            simp only [hc, Option.bind_eq_bind, Option.bind_some] at h
            split at h <;> simp_all
      · cases h
  simp only [List.mem_cons, List.not_mem_nil, or_false] at hmember
  rcases hmember with rfl | rfl | rfl | rfl | rfl | rfl | rfl <;> cases target <;> rfl

theorem writable_staticProperty {target : Expr} {member : String} {location : Location}
    {notes : Notes}
    (h : (namedType? target).any fun type => (staticProperty? type member).isSome) :
    scope.Writable dialect ⟨.memberAccess target member, location, notes⟩ ↔
      scope.KeepsType target := by
  obtain ⟨type, ht, hp⟩ := (Option.any_eq_true _ _).mp h
  have hswizzle := swizzle?_of_staticProperty? hp (scope.typeOf target)
  rw [Writable, throughout_iff]
  unfold namedType? at ht
  cases ha : target.annotatedTypeName? with
  | some name =>
      rw [ha] at ht
      cases ht
      simp [Expressible, operands, Construct.ofExpr?, KeepsType, staticReceiver?, ha, hp]
  | none =>
      rw [ha] at ht
      simp only at ht
      split at ht
      case h_2 => cases ht
      case h_1 name hk =>
        split at ht
        case isFalse => cases ht
        case isTrue hknown =>
          cases ht
          cases hl : scope.lookup? name with
          | none =>
              simp [Expressible, operands, Construct.ofExpr?, KeepsType, staticReceiver?, ha, hk,
                hl, hknown, hp]
          | some binding =>
              simp [Expressible, Construct.ofExpr?, KeepsType, staticReceiver?, ha, hk, hl,
                hswizzle]

/-! ## Constant values -/

mutual

/-- What the rule for literals leaves open about a constant value. -/
def ValueCovered (dialect : Dialect) (scope : Scope) (e : Expr) : Prop :=
  match e with
  | ⟨.parenthesized inner, _, _⟩ => ValueCovered dialect scope inner
  | ⟨.objectCreation _ arguments none, _, _⟩ => ArgumentsCovered dialect scope arguments
  | ⟨.memberAccess target _, _, _⟩ => scope.KeepsType target
  | ⟨.unary .neg operand, _, _⟩ =>
    if e.isConstant then scope.FoldCovered dialect e else ValueCovered dialect scope operand
  | ⟨.unary .plus operand, _, _⟩ =>
    if e.isConstant then scope.FoldCovered dialect e else ValueCovered dialect scope operand
  | e => scope.FoldCovered dialect e

/-- What the rule for literals leaves open about the arguments of a construction. -/
def ArgumentsCovered (dialect : Dialect) (scope : Scope) (arguments : List Argument) : Prop :=
  match arguments with
  | [] => True
  | ⟨_, _, value⟩ :: rest => ValueCovered dialect scope value ∧ ArgumentsCovered dialect scope rest

end

theorem argumentsCovered_iff {arguments : List Argument} :
    scope.ArgumentsCovered dialect arguments ↔
      ∀ argument ∈ arguments, scope.ValueCovered dialect argument.value := by
  induction arguments with
  | nil => simp [ArgumentsCovered]
  | cons argument rest ih =>
      obtain ⟨name, mode, value⟩ := argument
      rw [ArgumentsCovered, ih, List.forall_mem_cons]

theorem isConstantValue_of_areConstantValues {arguments : List Argument}
    (h : areConstantValues arguments = true) :
    ∀ argument ∈ arguments, isConstantValue argument.value = true := by
  induction arguments with
  | nil => simp
  | cons argument rest ih =>
      obtain ⟨name, mode, value⟩ := argument
      rw [areConstantValues, Bool.and_eq_true] at h
      rw [List.forall_mem_cons]
      exact ⟨h.1, ih h.2⟩

/-- A constant value can be written exactly if nothing is wrong that the rule leaves open. -/
theorem writable_iff_valueCovered (e : Expr) (h : isConstantValue e = true) :
    scope.Writable dialect e ↔ scope.ValueCovered dialect e := by
  induction e using Expr.induction_parts with
  | step e ih iha =>
      have hscalar (hs : isScalarConstant e = true) :
          scope.Writable dialect e ↔ scope.FoldCovered dialect e := by
        obtain ⟨value, hc, hv⟩ := isScalarConstant_iff.mp hs
        exact writable_iff_foldCovered e hc hv
      obtain ⟨kind, location, notes⟩ := e
      cases kind
      case parenthesized inner =>
        rw [isConstantValue] at h
        rw [writable_parenthesized, ValueCovered]
        exact ih inner (by simp [ExprKind.parts]) h
      case memberAccess target member =>
        rw [isConstantValue] at h
        rw [ValueCovered]
        exact writable_staticProperty h
      case unary op operand =>
        have hoperand := ih operand (by simp [ExprKind.parts])
        cases op
        case neg | plus =>
          rw [isConstantValue] at h
          rw [ValueCovered]
          split at h
          case isTrue hc => rw [if_pos hc, hscalar h]
          case isFalse hc => rw [if_neg hc, writable_unary, hoperand h]
        all_goals
          simp only [isConstantValue] at h
          simp only [ValueCovered]
          exact hscalar h
      case objectCreation type arguments initializer =>
        cases initializer with
        | some values =>
            simp only [isConstantValue] at h
            simp only [ValueCovered]
            exact hscalar h
        | none =>
            rw [isConstantValue, Bool.and_eq_true, Bool.or_eq_true] at h
            have harguments : ∀ argument ∈ arguments,
                (scope.Writable dialect argument.value ↔
                  scope.ValueCovered dialect argument.value) := by
              intro argument ha
              exact iha argument (by simp [ExprKind.parts, ha])
                (isConstantValue_of_areConstantValues h.2 argument ha)
            rw [ValueCovered, argumentsCovered_iff, Writable, throughout_iff]
            simp only [Expressible, operands, Construct.ofExpr?, h.1, true_and,
              List.forall_mem_map]
            exact forall₂_congr harguments
      all_goals
        simp only [isConstantValue] at h
        simp only [ValueCovered]
        exact hscalar h

end Scope

end ShaderEffect
