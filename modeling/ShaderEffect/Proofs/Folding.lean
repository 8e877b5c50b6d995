import ShaderEffect.Proofs.Node
import ShaderEffect.Tree.Constant

/-!
# Folding of integer constants

Integer arithmetic on literals, valued in the unbounded integers and folded in 64 bits. Folding gives
the exact value where every intermediate result fits, and nothing elsewhere: no result ever wraps.
-/

namespace ShaderEffect

/-! ## Exact values -/

/-- The integer is in the range of 64-bit constants. -/
def Fits (n : Int) : Prop :=
  -0x8000000000000000 ≤ n ∧ n ≤ 0x7fffffffffffffff

theorem fits_iff_exists_toInt (n : Int) : Fits n ↔ ∃ v : Int64, v.toInt = n := by
  constructor
  · rintro ⟨hlow, hhigh⟩
    exact ⟨Int64.ofInt n, Int64.toInt_ofInt_of_le hlow (by omega)⟩
  · rintro ⟨v, rfl⟩
    have hlow := v.le_toInt
    have hhigh := v.toInt_lt
    exact ⟨by omega, by omega⟩

/-- The operator applied to an unbounded integer. -/
def UnaryOp.number? (op : UnaryOp) (n : Int) : Option Int :=
  match op with
  | .plus => some n
  | .neg => some (-n)
  | _ => none

/-- The operator applied to unbounded integers. Quotient and remainder truncate toward zero and are
undefined for the divisor zero. -/
def BinaryOp.number? (op : BinaryOp) (a b : Int) : Option Int :=
  match op with
  | .add => some (a + b)
  | .sub => some (a - b)
  | .mul => some (a * b)
  | .div => if b = 0 then none else some (a.tdiv b)
  | .rem => if b = 0 then none else some (a.tmod b)
  | _ => none

/-- The value of integer arithmetic on literals, without bounds. -/
def Expr.number? : Expr → Option Int
  | ⟨.literal (.int value), _, _⟩ => some value.toInt
  | ⟨.parenthesized inner, _, _⟩ => inner.number?
  | ⟨.unary op operand, _, _⟩ => operand.number?.bind op.number?
  | ⟨.binary op lhs rhs, _, _⟩ => lhs.number?.bind fun a => rhs.number?.bind (op.number? a)
  | _ => none

/-- Integer arithmetic on literals, with no value annotated anywhere. -/
inductive Expr.Integral : Expr → Prop
  | literal (value : Int64) (location : Location) (notes : Notes) (hn : notes.constant = none) :
      Integral ⟨.literal (.int value), location, notes⟩
  | parenthesized {inner : Expr} (location : Location) (notes : Notes)
      (hn : notes.constant = none) (hi : inner.Integral) :
      Integral ⟨.parenthesized inner, location, notes⟩
  | unary {op : UnaryOp} {operand : Expr} (location : Location) (notes : Notes)
      (hn : notes.constant = none) (hop : op ∈ [.plus, .neg]) (hi : operand.Integral) :
      Integral ⟨.unary op operand, location, notes⟩
  | binary {op : BinaryOp} {lhs rhs : Expr} (location : Location) (notes : Notes)
      (hn : notes.constant = none) (hop : op ∈ [.add, .sub, .mul, .div, .rem])
      (hl : lhs.Integral) (hr : rhs.Integral) : Integral ⟨.binary op lhs rhs, location, notes⟩

/-- The expression has a value that fits and, if it is a remainder, so has the quotient of the same
operands. -/
def Expr.Representable (e : Expr) : Prop :=
  (∃ n, e.number? = some n ∧ Fits n) ∧
    ∀ lhs rhs, e.kind = .binary .rem lhs rhs →
      ∃ q, Expr.number? { kind := .binary .div lhs rhs } = some q ∧ Fits q

/-! ## Folding one operator -/

theorem Value.ofInt?_eq_some {n : Int} {value : Value} :
    Value.ofInt? n = some value ↔ ∃ v, value = .int v ∧ n = v.toInt := by
  rw [Value.ofInt?]
  split
  case isTrue h =>
    have hn : (Int64.ofInt n).toInt = n := Int64.toInt_ofInt_of_le h.1 h.2
    constructor
    · rintro ⟨rfl⟩
      exact ⟨_, rfl, hn.symm⟩
    · rintro ⟨v, rfl, rfl⟩
      rw [Int64.ofInt_toInt]
  case isFalse h =>
    simp only [reduceCtorEq, false_iff, not_exists, not_and]
    rintro v rfl rfl
    exact h ⟨v.le_toInt, v.toInt_lt⟩

/-- Folding a sign gives its exact value, if that is a 64-bit integer. -/
theorem Value.foldUnary_int {op : UnaryOp} (hop : op ∈ [.plus, .neg]) (a : Int64)
    (value : Value) : foldUnary op (.int a) = some value ↔
      ∃ v, value = .int v ∧ op.number? a.toInt = some v.toInt := by
  simp only [List.mem_cons, List.not_mem_nil, or_false] at hop
  obtain rfl | rfl := hop
  · simp only [foldUnary, UnaryOp.number?, Option.some.injEq, Int64.toInt_inj]
    grind
  · simp only [foldUnary, UnaryOp.number?, Option.some.injEq, ofInt?_eq_some]

/-- Folding an operator gives its exact value, if that is a 64-bit integer; a remainder moreover
needs a quotient that is one. -/
theorem Value.foldBinary_int {op : BinaryOp} (hop : op ∈ [.add, .sub, .mul, .div, .rem])
    (a b : Int64) (value : Value) : foldBinary op (.int a) (.int b) = some value ↔
      (∃ v, value = .int v ∧ op.number? a.toInt b.toInt = some v.toInt) ∧
        (op = .rem → ∃ q : Int64, BinaryOp.div.number? a.toInt b.toInt = some q.toInt) := by
  have hzero : b.toInt = 0 ↔ b = 0 := Int64.toInt_inj (y := 0)
  simp only [List.mem_cons, List.not_mem_nil, or_false] at hop
  obtain rfl | rfl | rfl | rfl | rfl := hop
  case inr.inr.inr.inl =>
    by_cases hb : b = 0 <;> simp [foldBinary, foldInt, BinaryOp.number?, hb, hzero, ofInt?_eq_some]
  case inr.inr.inr.inr =>
    by_cases hb : b = 0
    · simp [foldBinary, foldInt, BinaryOp.number?, hb]
    · simp only [foldBinary, foldInt, BinaryOp.number?, hb, hzero, if_false,
        Option.bind_eq_some_iff, ofInt?_eq_some, Option.some.injEq, forall_const]
      grind
  all_goals simp [foldBinary, foldInt, BinaryOp.number?, ofInt?_eq_some]

/-! ## Folding expressions -/

/-- Every expression in a tree is representable if the root has a 64-bit value, its operands are
representable everywhere and, for a remainder, the quotient is a 64-bit value as well. -/
theorem Expr.representable_everywhere {kind : ExprKind} {location : Location} {notes : Notes}
    {v : Int64} (hv : Expr.number? ⟨kind, location, notes⟩ = some v.toInt)
    (hparts : ∀ part ∈ kind.parts, part.Everywhere Expr.Representable)
    (hrem : ∀ lhs rhs, kind = .binary .rem lhs rhs →
      ∃ q : Int64, Expr.number? { kind := .binary .div lhs rhs } = some q.toInt) :
    (Node.expr ⟨kind, location, notes⟩).Everywhere Expr.Representable := by
  refine Node.everywhere_expr.mpr ⟨⟨⟨v.toInt, hv, ?_⟩, fun lhs rhs hk => ?_⟩, hparts⟩
  · exact (fits_iff_exists_toInt _).mpr ⟨v, rfl⟩
  · obtain ⟨q, hq⟩ := hrem lhs rhs hk
    exact ⟨q.toInt, hq, (fits_iff_exists_toInt _).mpr ⟨q, rfl⟩⟩

/-- What is folded is representable everywhere, and folds to its exact value. -/
theorem Expr.Integral.of_constant? {e : Expr} (h : e.Integral) {value : Value}
    (hc : e.constant? = some value) :
    (∃ v, value = .int v ∧ e.number? = some v.toInt) ∧
      (Node.expr e).Everywhere Expr.Representable := by
  induction h generalizing value with
  | literal a location notes hn =>
      simp only [Expr.constant?, hn, Option.some.injEq] at hc
      exact ⟨⟨a, hc.symm, rfl⟩, representable_everywhere rfl (by simp [ExprKind.parts]) (by simp)⟩
  | @parenthesized inner location notes hn _ ih =>
      simp only [Expr.constant?, hn] at hc
      obtain ⟨⟨v, hvalue, hv⟩, hinner⟩ := ih hc
      refine ⟨⟨v, hvalue, hv⟩, representable_everywhere hv ?_ (by simp)⟩
      simpa [ExprKind.parts] using hinner
  | @unary op operand location notes hn hop _ ih =>
      simp only [Expr.constant?, hn, Option.bind_eq_some_iff] at hc
      obtain ⟨_, hoperand, hfold⟩ := hc
      obtain ⟨⟨a, rfl, ha⟩, hinner⟩ := ih hoperand
      obtain ⟨v, hvalue, hv⟩ := (Value.foldUnary_int hop a value).mp hfold
      have he : Expr.number? ⟨.unary op operand, location, notes⟩ = some v.toInt := by
        rw [Expr.number?, ha, Option.bind_some, hv]
      refine ⟨⟨v, hvalue, he⟩, representable_everywhere he ?_ (by simp)⟩
      simpa [ExprKind.parts] using hinner
  | @binary op lhs rhs location notes hn hop _ _ ihl ihr =>
      simp only [Expr.constant?, hn] at hc
      cases hlhs : lhs.constant? with
      | none => simp [hlhs] at hc
      | some x =>
          cases hrhs : rhs.constant? with
          | none => simp [hlhs, hrhs] at hc
          | some y =>
              obtain ⟨⟨a, rfl, ha⟩, hleft⟩ := ihl hlhs
              obtain ⟨⟨b, rfl, hb⟩, hright⟩ := ihr hrhs
              simp only [hlhs, hrhs] at hc
              obtain ⟨⟨v, hvalue, hv⟩, hrem⟩ := (Value.foldBinary_int hop a b value).mp hc
              have he : Expr.number? ⟨.binary op lhs rhs, location, notes⟩ = some v.toInt := by
                simp only [Expr.number?, ha, hb, Option.bind_some, hv]
              refine ⟨⟨v, hvalue, he⟩, representable_everywhere he ?_ ?_⟩
              · simpa [ExprKind.parts] using ⟨hleft, hright⟩
              · rintro _ _ ⟨rfl, rfl, rfl⟩
                simpa only [Expr.number?, ha, hb, Option.bind_some] using hrem rfl

theorem Expr.Representable.exists_int64 {e : Expr} (h : e.Representable) :
    ∃ v : Int64, e.number? = some v.toInt := by
  obtain ⟨⟨n, hn, hfits⟩, -⟩ := h
  obtain ⟨v, rfl⟩ := (fits_iff_exists_toInt n).mp hfits
  exact ⟨v, hn⟩

/-- What is representable everywhere is folded, to its exact value. -/
theorem Expr.Integral.exists_constant? {e : Expr} (h : e.Integral)
    (hr : (Node.expr e).Everywhere Expr.Representable) :
    ∃ v, e.constant? = some (.int v) ∧ e.number? = some v.toInt := by
  induction h with
  | literal a location notes hn => exact ⟨a, by simp only [Expr.constant?, hn], rfl⟩
  | @parenthesized inner location notes hn _ ih =>
      obtain ⟨v, hinner, hv⟩ := ih (hr.part (by simp [Node.parts, ExprKind.parts]))
      exact ⟨v, by simpa only [Expr.constant?, hn] using hinner, hv⟩
  | @unary op operand location notes hn hop _ ih =>
      obtain ⟨a, hoperand, ha⟩ := ih (hr.part (by simp [Node.parts, ExprKind.parts]))
      obtain ⟨v, hv⟩ := (hr _ (Node.contains_self _)).exists_int64
      have hop' : op.number? a.toInt = some v.toInt := by
        simpa only [Expr.number?, ha, Option.bind_some] using hv
      refine ⟨v, ?_, hv⟩
      simp only [Expr.constant?, hn, hoperand, Option.bind_some]
      exact (Value.foldUnary_int hop a _).mpr ⟨v, rfl, hop'⟩
  | @binary op lhs rhs location notes hn hop _ _ ihl ihr =>
      obtain ⟨a, hlhs, ha⟩ := ihl (hr.part (by simp [Node.parts, ExprKind.parts]))
      obtain ⟨b, hrhs, hb⟩ := ihr (hr.part (by simp [Node.parts, ExprKind.parts]))
      obtain ⟨hself, hquotient⟩ := hr _ (Node.contains_self _)
      obtain ⟨v, hv⟩ := Representable.exists_int64 ⟨hself, hquotient⟩
      have hop' : op.number? a.toInt b.toInt = some v.toInt := by
        simpa only [Expr.number?, ha, hb, Option.bind_some] using hv
      refine ⟨v, ?_, hv⟩
      simp only [Expr.constant?, hn, hlhs, hrhs]
      refine (Value.foldBinary_int hop a b _).mpr ⟨⟨v, rfl, hop'⟩, ?_⟩
      rintro rfl
      obtain ⟨q, hq, hfits⟩ := hquotient lhs rhs rfl
      obtain ⟨q, rfl⟩ := (fits_iff_exists_toInt q).mp hfits
      exact ⟨q, by simpa only [Expr.number?, ha, hb, Option.bind_some] using hq⟩

/-- Folding of integers is exact. Arithmetic on integer literals is folded just when the value of
every expression in it is defined and fits in 64 bits, and with every remainder the quotient; what it
folds to is then its value in the unbounded integers, and in all other cases it has no constant. -/
theorem Expr.Integral.folds_exactly {e : Expr} (h : e.Integral) :
    ((∃ v, e.constant? = some (.int v)) ↔ (Node.expr e).Everywhere Expr.Representable) ∧
      (∀ v, e.constant? = some (.int v) → e.number? = some v.toInt) ∧
      (¬ (Node.expr e).Everywhere Expr.Representable → e.constant? = none) := by
  refine ⟨⟨?_, ?_⟩, ?_, ?_⟩
  · rintro ⟨v, hv⟩
    exact (h.of_constant? hv).2
  · intro hr
    obtain ⟨v, hv, -⟩ := h.exists_constant? hr
    exact ⟨v, hv⟩
  · intro v hv
    obtain ⟨⟨_, ⟨rfl⟩, he⟩, -⟩ := h.of_constant? hv
    exact he
  · intro hr
    refine Option.eq_none_iff_forall_not_mem.mpr fun value hvalue => ?_
    exact hr (h.of_constant? hvalue).2

/-- The least constant, written with a sign and a subtraction. -/
def lowestNumber : Expr :=
  { kind := .binary .sub
      { kind := .unary .neg { kind := .literal (.int 0x7fffffffffffffff) } }
      { kind := .literal (.int 1) } }

/-- The remainder of the least constant by minus one; its quotient does not fit. -/
def lowestRemainder : Expr :=
  { kind := .binary .rem { kind := .parenthesized lowestNumber }
      { kind := .unary .neg { kind := .literal (.int 1) } } }

theorem integral_lowestNumber : lowestNumber.Integral :=
  .binary _ _ rfl (by decide) (.unary _ _ rfl (by decide) (.literal _ _ _ rfl))
    (.literal _ _ _ rfl)

theorem integral_lowestRemainder : lowestRemainder.Integral :=
  .binary _ _ rfl (by decide) (.parenthesized _ _ rfl integral_lowestNumber)
    (.unary _ _ rfl (by decide) (.literal _ _ _ rfl))

/-- The least constant is reached from inside the range. Its remainder by minus one is zero and yet
no constant, since the quotient is out of range. -/
theorem folds_exactly_at_limit :
    (lowestNumber.Integral ∧ (Node.expr lowestNumber).Everywhere Expr.Representable ∧
        lowestNumber.number? = some (-0x8000000000000000)) ∧
      lowestRemainder.Integral ∧ lowestRemainder.number? = some 0 ∧
        lowestRemainder.constant? = none := by
  have hlow : lowestNumber.constant? = some (.int Int64.minValue) := rfl
  refine ⟨⟨integral_lowestNumber, integral_lowestNumber.folds_exactly.1.mp ⟨_, hlow⟩,
    integral_lowestNumber.folds_exactly.2.1 _ hlow⟩, integral_lowestRemainder, rfl,
    integral_lowestRemainder.folds_exactly.2.2 fun hr => ?_⟩
  obtain ⟨-, hquotient⟩ := hr _ (Node.contains_self _)
  obtain ⟨q, hq, -, hhigh⟩ := hquotient _ _ rfl
  have hvalue : q = 0x8000000000000000 := (Option.some.inj hq).symm
  omega

end ShaderEffect
