import ShaderEffect.Proofs.Product

/-!
# Increments and decrements in texts

How many increment and decrement operators a text has, where two equal signs in a row are one
operator. Signs that meet would be read as such an operator, so a written text has to keep them apart:
then the operators of a text are those of its pieces, whatever stands next to it.
-/

namespace ShaderEffect

/-! ## Counting -/

/-- An operator that changes its operand by one. -/
inductive Step where
  | increment
  | decrement
  deriving DecidableEq

namespace Step

/-- The sign that the operator consists of. -/
def sign : Step → Char
  | increment => '+'
  | decrement => '-'

/-- The number of operators among some characters, read from left to right. -/
def countIn (step : Step) : List Char → Nat
  | first :: second :: rest =>
    if first = step.sign ∧ second = step.sign then countIn step rest + 1
    else countIn step (second :: rest)
  | _ => 0

/-- The number of operators in a text. -/
def count (step : Step) (text : String) : Nat :=
  step.countIn text.toList

/-- The text has a number of operators, and none is made with what follows it. -/
def Spells (step : Step) (n : Nat) (text : String) : Prop :=
  ∀ rest, step.countIn (text.toList ++ rest) = n + step.countIn rest

variable {step : Step} {n m : Nat} {first second text : String}

theorem countIn_cons_of_ne {c : Char} (h : c ≠ step.sign) (rest : List Char) :
    step.countIn (c :: rest) = step.countIn rest := by
  cases rest <;> simp [countIn, h]

theorem countIn_cons_cons_of_ne {c : Char} (h : c ≠ step.sign) (before : Char)
    (rest : List Char) : step.countIn (before :: c :: rest) = step.countIn (c :: rest) := by
  simp [countIn, h]

/-- Only a sign at the end can become part of an operator with what follows. -/
theorem countIn_append {chars : List Char} (h : chars.getLast? ≠ some step.sign)
    (rest : List Char) : step.countIn (chars ++ rest) = step.countIn chars + step.countIn rest := by
  fun_induction step.countIn chars with
  | case1 first second tail hsigns ih =>
      have htail : tail.getLast? ≠ some step.sign := by
        cases tail with
        | nil => simp
        | cons c tail => simpa [List.getLast?_cons_cons] using h
      simp only [List.cons_append, countIn, hsigns, and_self, if_true, ih htail]
      omega
  | case2 first second tail hsigns ih =>
      rw [List.getLast?_cons_cons] at h
      simp only [List.cons_append, countIn, hsigns, if_false]
      exact ih h
  | case3 chars hshort =>
      obtain - | ⟨c, - | ⟨second, tail⟩⟩ := chars
      · simp
      · have hc : c ≠ step.sign := by simpa using h
        simp [countIn_cons_of_ne hc]
      · exact (hshort c second tail rfl).elim

theorem Spells.count_eq (h : step.Spells n text) : step.count text = n := by
  have hend := h []
  simpa [count, countIn] using hend

theorem spells_of_getLast? (h : text.toList.getLast? ≠ some step.sign)
    (hn : step.count text = n) : step.Spells n text := by
  intro rest
  rw [countIn_append h, ← hn, count]

theorem Spells.append (hf : step.Spells n first) (hs : step.Spells m second) :
    step.Spells (n + m) (first ++ second) := by
  intro rest
  rw [String.toList_append, List.append_assoc, hf, hs, Nat.add_assoc]

/-- A text without signs. -/
def Neutral (text : String) : Prop :=
  ∀ c ∈ text.toList, c ≠ '+' ∧ c ≠ '-'

instance (text : String) : Decidable (Neutral text) :=
  decidable_of_iff (text.toList.all fun c => c != '+' && c != '-') (by simp [Neutral])

theorem Neutral.append (hf : Neutral first) (hs : Neutral second) : Neutral (first ++ second) := by
  intro c hc
  rw [String.toList_append, List.mem_append] at hc
  exact hc.elim (hf c) (hs c)

theorem Neutral.spells (h : Neutral text) : step.Spells 0 text := by
  intro rest
  rw [Nat.zero_add]
  unfold Neutral at h
  generalize text.toList = chars at h
  induction chars with
  | nil => rfl
  | cons c chars ih =>
      have hc : c ≠ step.sign := by
        cases step
        exacts [(h c (by simp)).1, (h c (by simp)).2]
      rw [List.cons_append, countIn_cons_of_ne hc]
      exact ih fun c hc => h c (by simp [hc])

/-- A text that starts with something else than a sign. -/
def Unsigned (text : String) : Prop :=
  ∃ c rest, text.toList = c :: rest ∧ c ≠ '+' ∧ c ≠ '-'

theorem Neutral.unsigned (h : Neutral text) (hne : text ≠ "") : Unsigned text := by
  cases ht : text.toList with
  | nil => exact absurd (String.toList_eq_nil_iff.mp ht) hne
  | cons c rest => exact ⟨c, rest, ht, h c (by simp [ht])⟩

theorem Unsigned.ne_empty (h : Unsigned text) : text ≠ "" := by
  rintro rfl
  obtain ⟨c, rest, ht, -⟩ := h
  cases ht

theorem Unsigned.append (h : Unsigned first) : Unsigned (first ++ second) := by
  obtain ⟨c, rest, hfirst, hc⟩ := h
  exact ⟨c, rest ++ second.toList, by simp [hfirst], hc⟩

/-- One character is no operator in front of a text that does not start with a sign. -/
theorem Spells.after_char (h : step.Spells n text) (hu : Unsigned text) (c : Char) :
    step.Spells n (String.singleton c ++ text) := by
  intro rest
  obtain ⟨next, tail, ht, hplus, hminus⟩ := hu
  have hnext : next ≠ step.sign := by cases step <;> assumption
  have hrest := h rest
  rw [ht, List.cons_append] at hrest
  simp only [String.toList_append, String.toList_singleton, List.cons_append, List.nil_append, ht]
  exact (countIn_cons_cons_of_ne hnext c _).trans hrest

end Step

/-! ## Operators -/

/-- What an operator changes its operand by. -/
def UnaryOp.step? : UnaryOp → Option Step
  | .preIncrement | .postIncrement => some .increment
  | .preDecrement | .postDecrement => some .decrement
  | _ => none

/-- The number of steps of one kind that an operator is: one or none. -/
def UnaryOp.steps (op : UnaryOp) (step : Step) : Nat :=
  if op.step? = some step then 1 else 0

section

variable {step : Step} {n m : Nat} {text : String}

theorem UnaryOp.spells_token {op : UnaryOp} (h : op.step?.isSome) :
    step.Spells (op.steps step) op.token := by
  by_cases hs : op.step? = some step
  · have htoken : op.token.toList = [step.sign, step.sign] := by
      cases op <;> cases hs <;> rfl
    intro rest
    simp only [htoken, steps, hs, if_true, List.cons_append, List.nil_append, Step.countIn,
      and_self]
    omega
  · rw [steps, if_neg hs]
    cases op <;> cases step <;> simp_all [step?]
    all_goals exact Step.spells_of_getLast? (by decide) (by decide)

theorem UnaryOp.isSome_step?_of_isTrailing {op : UnaryOp} (h : op.isTrailing) :
    op.step?.isSome := by
  cases op <;> simp_all [isTrailing, step?]

/-- An operator in front of a text keeps its own steps and those of the text. -/
theorem Step.Spells.after_unary (h : step.Spells n text) (hu : Unsigned text) (op : UnaryOp) :
    step.Spells (op.steps step + n) (op.token ++ text) := by
  by_cases hop : op.step?.isSome
  · exact (UnaryOp.spells_token hop).append h
  · have hsteps : op.steps step = 0 := by
      simp_all [UnaryOp.steps]
    obtain ⟨c, hc⟩ : ∃ c, op.token = String.singleton c := by
      cases op <;> simp [UnaryOp.step?] at hop
      exacts [⟨'+', by decide⟩, ⟨'-', by decide⟩, ⟨'!', by decide⟩, ⟨'~', by decide⟩]
    rw [hsteps, Nat.zero_add, hc]
    exact h.after_char hu c

theorem BinaryOp.spells_token (op : BinaryOp) : step.Spells 0 (op.token ++ " ") := by
  cases op <;> cases step <;> exact Step.spells_of_getLast? (by decide) (by decide)

theorem AssignOp.spells_token (op : AssignOp) : step.Spells 0 (op.token ++ " ") := by
  cases op <;> cases step <;> exact Step.spells_of_getLast? (by decide) (by decide)

end

/-! ## Numbers -/

theorem IsWord.neutral {text : String} (h : IsWord text) : Step.Neutral text := by
  intro c hc
  have hword := h.2 c hc
  constructor <;> rintro rfl <;> revert hword <;> decide

section

variable {step : Step} {text : String}

/-- Digits, perhaps with points. -/
def IsNumeral (text : String) : Prop :=
  ∀ c ∈ text.toList, c.isDigit ∨ c = '.'

theorem isNumeral_ofList {chars : List Char} (h : ∀ c ∈ chars, c.isDigit ∨ c = '.') :
    IsNumeral (String.ofList chars) := by
  rwa [IsNumeral, String.toList_ofList]

theorem IsNumeral.append {first second : String} (hf : IsNumeral first) (hs : IsNumeral second) :
    IsNumeral (first ++ second) := by
  intro c hc
  rw [String.toList_append, List.mem_append] at hc
  exact hc.elim (hf c) (hs c)

theorem IsNumeral.neutral (h : IsNumeral text) : Step.Neutral text := by
  intro c hc
  rcases h c hc with hdigit | rfl
  · constructor <;> rintro rfl <;> revert hdigit <;> decide
  · decide

theorem isDigit_of_mem_digits {n : Nat} {c : Char} (h : c ∈ Nat.toDigits 10 n) : c.isDigit :=
  Nat.isDigit_of_mem_toDigits (by omega) (by omega) h

theorem isNumeral_repr (n : Nat) : IsNumeral n.repr := by
  rw [Nat.repr_eq_ofList_toDigits]
  exact isNumeral_ofList fun c hc => .inl (isDigit_of_mem_digits hc)

/-- A number or its negative. -/
theorem Step.Spells.signed {n : Nat} (h : step.Spells n text) (hu : Unsigned text)
    (negative : Bool) : step.Spells n ((if negative then "-" else "") ++ text) := by
  cases negative with
  | false => simpa using h
  | true => exact h.after_char hu '-'

theorem Step.spells_int (n : Int) : step.Spells 0 (toString n) := by
  cases n with
  | ofNat n => exact (isNumeral_repr n).neutral.spells
  | negSucc n =>
      have hneutral := (isNumeral_repr (n + 1)).neutral
      exact hneutral.spells.signed (hneutral.unsigned Nat.repr_ne_empty) true

end

namespace Decimal

variable {digits : List Char}

theorem isNumeral_positional (hd : ∀ c ∈ digits, c.isDigit) (leading : Int) :
    IsNumeral (literal.positional digits leading) := by
  have hzeros (k : Nat) : ∀ c ∈ List.replicate k '0', c.isDigit := by
    intro c hc
    rw [List.eq_of_mem_replicate hc]
    decide
  have hpoint : IsNumeral "0." ∧ IsNumeral ".0" := by simp [IsNumeral]
  unfold Notation.positional
  split
  · refine hpoint.1.append (isNumeral_ofList fun c hc => .inl ?_)
    rcases List.mem_append.mp hc with hc | hc
    · exact hzeros _ c hc
    · exact hd c hc
  · dsimp only
    split
    · refine .append (isNumeral_ofList fun c hc => .inl ?_) hpoint.2
      rcases List.mem_append.mp hc with hc | hc
      · exact hd c hc
      · exact hzeros _ c hc
    · refine isNumeral_ofList fun c hc => ?_
      rcases List.mem_append.mp hc with hc | hc
      · exact .inl (hd c (List.mem_of_mem_take hc))
      · rcases List.mem_cons.mp hc with rfl | hc
        · exact .inr rfl
        · exact .inl (hd c (List.mem_of_mem_drop hc))

theorem positional_ne_empty (hne : digits ≠ []) (leading : Int) :
    literal.positional digits leading ≠ "" := by
  unfold Notation.positional
  split
  · simp
  · dsimp only
    split <;> simp [hne]

/-- Digits, perhaps with a point after the first one. -/
theorem exists_mantissa (hd : ∀ c ∈ digits, c.isDigit) (hne : digits ≠ []) (leading : Int) :
    ∃ mantissa, IsNumeral mantissa ∧ mantissa ≠ "" ∧
      literal.scientific digits leading = mantissa ++ "e" ++ toString leading := by
  obtain ⟨d, rest, rfl⟩ := List.exists_cons_of_ne_nil hne
  cases rest with
  | nil =>
      refine ⟨String.ofList [d], isNumeral_ofList ?_, by simp, rfl⟩
      exact fun c hc => .inl (hd c hc)
  | cons c rest =>
      refine ⟨String.ofList (d :: '.' :: c :: rest), isNumeral_ofList ?_, by simp, rfl⟩
      grind

/-- An exponent may have a sign, but stands behind its mark. -/
theorem spells_decimal (d : Decimal) :
    Step.Unsigned (literal.decimal d) ∧ ∀ step : Step, step.Spells 0 (literal.decimal d) := by
  have hd : ∀ c ∈ Nat.toDigits 10 d.digits, c.isDigit := fun c hc => isDigit_of_mem_digits hc
  have hne : Nat.toDigits 10 d.digits ≠ [] := Nat.toDigits_ne_nil
  unfold Notation.decimal
  dsimp only
  generalize d.exponent + ((Nat.toDigits 10 d.digits).length : Int) - 1 = leading
  split
  · have hneutral := (isNumeral_positional hd leading).neutral
    exact ⟨hneutral.unsigned (positional_ne_empty hne leading), fun step => hneutral.spells⟩
  · obtain ⟨mantissa, hnumeral, hm, hmantissa⟩ := exists_mantissa hd hne leading
    have hmark : Step.Neutral (mantissa ++ "e") := hnumeral.neutral.append (by decide)
    rw [hmantissa]
    exact ⟨((hnumeral.neutral.unsigned hm).append).append,
      fun step => hmark.spells.append (Step.spells_int leading)⟩

end Decimal

/-! ## Operands -/

/-- A text with a number of steps that is not empty. -/
structure Step.Writes (step : Step) (n : Nat) (text : String) : Prop where
  spells : step.Spells n text
  ne_empty : text ≠ ""

section

variable {step : Step} {n m : Nat} {text : String} {operand lhs rhs : Operand}

theorem Step.Neutral.writes (h : Neutral text) (hne : text ≠ "") : step.Writes 0 text :=
  ⟨h.spells, hne⟩

/-- Signs on either side of a piece without signs stay apart. -/
theorem Step.Spells.between (h : step.Spells n text) (before after : String)
    (hb : Neutral before) (ha : Neutral after) : step.Spells n (before ++ text ++ after) := by
  have hall := (hb.spells.append h).append ha.spells
  rwa [Nat.zero_add, Nat.add_zero] at hall

theorem Step.writes_int (n : Int) : step.Writes 0 (toString n) := by
  refine ⟨spells_int n, ?_⟩
  cases n with
  | ofNat n => exact Nat.repr_ne_empty
  | negSucc n => simp [toString, Int.repr]

theorem Step.writes_float (x : Float) : step.Writes 0 (Decimal.literal.float x) := by
  have hsigned {text : String} (h : step.Spells 0 text) (hu : Unsigned text) :
      step.Writes 0 ((if Decimal.isNegative x then "-" else "") ++ text) :=
    ⟨h.signed hu _, by simp [hu.ne_empty]⟩
  have hneutral {text : String} (h : Neutral text) (hne : text ≠ "") :=
    hsigned h.spells (h.unsigned hne)
  unfold Decimal.Notation.float
  dsimp only
  split
  · exact Neutral.writes (by decide) (by decide)
  · exact hneutral (by decide) (by decide)
  · rw [String.append_assoc]
    exact hneutral (by decide) (by decide)
  · exact hsigned ((Decimal.spells_decimal _).2 step) (Decimal.spells_decimal _).1

theorem Value.writes_render {value : Value} (h : value.render = .ok text) :
    step.Writes 0 text := by
  cases value with
  | bool value =>
      cases h
      cases value <;> exact Step.Neutral.writes (by decide) (by decide)
  | int value =>
      cases h
      exact Step.writes_int _
  | float value =>
      cases h
      exact Step.writes_float _
  | string value => cases h

theorem Operand.writes_wrapped (h : step.Writes n operand.text) :
    step.Writes n operand.wrapped := by
  unfold wrapped
  split
  · exact ⟨h.spells.between "(" ")" (by decide) (by decide), by simp [toString]⟩
  · exact h

theorem Step.unsigned_of_startsWith (hne : text ≠ "") (hminus : text.startsWith "-" = false)
    (hplus : text.startsWith "+" = false) : Step.Unsigned text := by
  cases ht : text.toList with
  | nil => exact absurd (String.toList_eq_nil_iff.mp ht) hne
  | cons c rest =>
      rw [String.startsWith_string_eq_false_iff, ht] at hminus hplus
      refine ⟨c, rest, ht, ?_, ?_⟩
      · rintro rfl
        exact hplus ⟨rest, rfl⟩
      · rintro rfl
        exact hminus ⟨rest, rfl⟩

/-- The steps of an operand and of the operator on it. A sign would join a sign in front of it, but
for the parentheses. -/
theorem UnaryOp.writes_render (op : UnaryOp) (h : step.Writes n operand.text) :
    step.Writes (op.steps step + n) (op.render operand) := by
  have hwrapped := Operand.writes_wrapped h
  have hparens : step.Spells n ("(" ++ operand.text ++ ")") :=
    h.spells.between "(" ")" (by decide) (by decide)
  have hunsigned : Step.Unsigned ("(" ++ operand.text ++ ")") :=
    ((Step.Neutral.unsigned (by decide) (by decide)).append).append
  unfold render
  split
  case isTrue ht =>
    refine ⟨?_, by simp [hwrapped.ne_empty]⟩
    rw [Nat.add_comm]
    exact hwrapped.spells.append (spells_token (isSome_step?_of_isTrailing ht))
  case isFalse =>
    split
    case isTrue =>
      refine ⟨?_, by simp [toString]⟩
      simpa [toString, String.append_assoc] using hparens.after_unary hunsigned op
    case isFalse hsign =>
      rw [Bool.or_eq_true, not_or, Bool.not_eq_true, Bool.not_eq_true] at hsign
      refine ⟨hwrapped.spells.after_unary ?_ op, by simp [hwrapped.ne_empty]⟩
      unfold Operand.wrapped
      split
      · exact hunsigned
      · exact Step.unsigned_of_startsWith h.ne_empty hsign.1 hsign.2

/-- Two texts with something between them that keeps their signs apart. -/
theorem Step.Writes.join {first second separator : String} (hf : step.Writes n first)
    (ht : step.Spells 0 separator) (hs : step.Writes m second) :
    step.Writes (n + m) (first ++ separator ++ second) := by
  have hall := (hf.spells.append ht).append hs.spells
  rw [Nat.add_zero] at hall
  exact ⟨hall, by simp [hf.ne_empty]⟩

theorem Step.Writes.around {first second token : String} (hf : step.Writes n first)
    (ht : step.Spells 0 (token ++ " ")) (hs : step.Writes m second) :
    step.Writes (n + m) s!"{first} {token} {second}" := by
  have hblank : step.Spells 0 " " := Neutral.spells (by decide)
  have hall := hf.join (hblank.append ht) hs
  simpa [toString, String.append_assoc] using hall

end

/-- Texts between commas. -/
theorem Step.spells_commaSeparated {step : Step} {ns : List Nat} {texts : List String}
    (h : List.Forall₂ step.Writes ns texts) : step.Spells ns.sum (commaSeparated texts) := by
  induction h with
  | nil => exact Neutral.spells (by decide)
  | @cons n text ns texts hw hrest ih =>
      cases hrest with
      | nil => simpa [commaSeparated] using hw.spells
      | cons hsecond hmore =>
          have hcomma : step.Spells 0 ", " := Neutral.spells (by decide)
          have hall := (hw.spells.append hcomma).append ih
          simpa [commaSeparated] using hall

/-- The application of a function to texts. -/
theorem Step.writes_application {step : Step} {ns : List Nat} {texts : List String}
    (function : String) (hf : Neutral function) (h : List.Forall₂ step.Writes ns texts) :
    step.Writes ns.sum s!"{function}({commaSeparated texts})" := by
  refine ⟨?_, by simp [toString]⟩
  have hopen : Neutral (function ++ "(") := hf.append (by decide)
  exact (spells_commaSeparated h).between (function ++ "(") ")" hopen (by decide)

namespace Dialect

variable {step : Step} {n m : Nat} {text : String} {operand lhs rhs : Operand} {dialect : Dialect}

/-! ## Expressions -/

theorem writes_product (hl : step.Writes n lhs.text) (hr : step.Writes m rhs.text) :
    step.Writes (n + m) (dialect.product lhs rhs).text := by
  cases dialect with
  | hlsl =>
      have hall := Step.writes_application "mul" (by decide)
        (.cons hl (.cons hr .nil))
      simpa [product, Operand.atom, commaSeparated, toString, String.append_assoc] using hall
  | glsl version =>
      rw [Nat.add_comm]
      have hstar : step.Spells 0 " * " := Step.Neutral.spells (by decide)
      exact (Operand.writes_wrapped hr).join hstar (Operand.writes_wrapped hl)

theorem writes_remainder (hl : step.Writes n lhs.text) (hr : step.Writes m rhs.text) :
    step.Writes (n + m) (dialect.remainder lhs rhs).text := by
  cases dialect with
  | hlsl =>
      have hpercent : step.Spells 0 " % " := Step.Neutral.spells (by decide)
      exact (Operand.writes_wrapped hl).join hpercent (Operand.writes_wrapped hr)
  | glsl version =>
      have hall := Step.writes_application "mod" (by decide)
        (.cons hl (.cons hr .nil))
      simpa [remainder, Operand.atom, commaSeparated, toString, String.append_assoc] using hall

theorem writes_binary {op : BinaryOp} {left right : DataType} (hl : step.Writes n lhs.text)
    (hr : step.Writes m rhs.text) :
    step.Writes (n + m) (dialect.binary op left right lhs rhs).text := by
  unfold binary
  split
  · split
    · exact writes_product hl hr
    · exact writes_remainder hl hr
  · exact (Operand.writes_wrapped hl).around op.spells_token (Operand.writes_wrapped hr)

end Dialect

/-- Whether an assignment is written with its target on both sides: a compound one with a special
operator. -/
def AssignOp.repeatsTarget (op : AssignOp) (target value : DataType) : Bool :=
  op.binary?.any (·.isSpecial target value)

namespace Dialect

variable {step : Step} {n m : Nat} {text : String} {operand target value : Operand}
  {dialect : Dialect} {type left right : DataType}

theorem writes_assignment {op : AssignOp} (ht : step.Writes n target.text)
    (hv : step.Writes m value.text) :
    step.Writes (n + m + if op.repeatsTarget left right then n else 0)
      (dialect.assignment op left right target value).text := by
  have hplain : step.Writes (n + m) s!"{target.text} {op.token} {value.text}" :=
    ht.around op.spells_token hv
  have hequals : step.Spells 0 " = " := Step.Neutral.spells (by decide)
  unfold assignment AssignOp.repeatsTarget
  cases op.binary? with
  | none => simpa [Operand.ofOperator] using hplain
  | some binaryOp =>
      by_cases hs : binaryOp.isSpecial left right
      · simp only [Option.any_some, hs, if_true]
        rw [Nat.add_comm]
        exact ht.join hequals (writes_binary ht hv)
      · simpa [hs, Operand.ofOperator] using hplain

theorem isWord_typeName (h : dialect.typeName type = .ok text) : IsWord text := by
  cases dialect <;> cases type <;> cases h <;> decide

theorem writes_construction {ns : List Nat} {texts : List String}
    (h : List.Forall₂ step.Writes ns texts) (hc : dialect.construction type texts = .ok text) :
    step.Writes ns.sum text := by
  obtain ⟨name, hname, hc⟩ := bind_eq_ok.mp hc
  have hneutral := (isWord_typeName hname).neutral
  have happlied := Step.writes_application name hneutral h
  cases h with
  | nil =>
      have hcast : Step.Neutral ("((" ++ name ++ ")0)") :=
        .append (.append (by decide) hneutral) (by decide)
      have hzero : Step.Neutral (name ++ "(0.0)") := hneutral.append (by decide)
      cases dialect <;> cases hc
      · exact hcast.writes (by simp)
      · exact hzero.writes (by simp)
  | @cons n first ns texts hfirst hrest =>
      cases hrest with
      | nil =>
          have hcast : Step.Neutral ("((" ++ name ++ ")(") :=
            .append (.append (by decide) hneutral) (by decide)
          cases dialect <;> cases hc
          · split
            · refine ⟨?_, by simp [toString]⟩
              exact hfirst.spells.between _ "))" hcast (by decide)
            · exact happlied
          · exact happlied
      | cons hsecond hmore => cases dialect <;> cases hc <;> exact happlied

theorem writes_cast (h : step.Writes n operand.text)
    (hc : dialect.cast type operand = .ok text) : step.Writes n text := by
  obtain ⟨name, hname, hc⟩ := bind_eq_ok.mp hc
  have hneutral := (isWord_typeName hname).neutral
  cases dialect with
  | hlsl =>
      cases hc
      have hcast : Step.Neutral ("((" ++ name ++ ")") :=
        .append (.append (by decide) hneutral) (by decide)
      refine ⟨?_, by simp [toString]⟩
      exact (Operand.writes_wrapped h).spells.between _ ")" hcast (by decide)
  | glsl version =>
      cases hc
      refine ⟨?_, by simp [toString]⟩
      exact h.spells.between _ ")" (hneutral.append (by decide)) (by decide)

theorem neutral_intrinsicName (dialect : Dialect) (intrinsic : Intrinsic) :
    Step.Neutral (dialect.intrinsicName intrinsic) := by
  cases dialect with
  | hlsl => cases intrinsic <;> decide
  | glsl version =>
      rw [intrinsicName]
      cases intrinsic <;> decide

/-- A sample has the steps of its coordinates; the name of the texture has none. -/
theorem writes_sample {stage : Stage} {texture coordinates : String}
    (ht : Step.Neutral texture) (h : step.Writes n coordinates) :
    step.Writes n (dialect.sample stage texture coordinates) := by
  have hsampler : Step.Neutral (hlslSamplerName texture) := .append (by decide) ht
  have hmember {member : String} (hm : Step.Neutral member) :
      Step.Neutral (texture ++ member ++ hlslSamplerName texture ++ ", ") :=
    .append (.append (ht.append hm) hsampler) (by decide)
  have hfunction {function : String} (hf : Step.Neutral function) :
      Step.Neutral (function ++ texture ++ ", ") := .append (hf.append ht) (by decide)
  cases dialect <;> cases stage
  all_goals refine ⟨?_, by simp [sample.eq_def, toString]⟩
  · exact h.spells.between _ ", 0)" (hmember (by decide)) (by decide)
  · exact h.spells.between _ ")" (hmember (by decide)) (by decide)
  · exact h.spells.between _ ", 0.0)" (hfunction (by decide)) (by decide)
  · exact h.spells.between _ ")" (hfunction (by decide)) (by decide)

theorem writes_intrinsicCall {stage : Stage} {intrinsic : Intrinsic} {operands : List Operand}
    {ns : List Nat} (h : List.Forall₂ step.Writes ns (operands.map (·.text)))
    (hs : intrinsic = .sampleTexture → ∀ texture ∈ operands.head?, Step.Neutral texture.text)
    (hc : dialect.intrinsicCall stage intrinsic operands = .ok text) :
    step.Writes ns.sum text := by
  have hplain := Step.writes_application (dialect.intrinsicName intrinsic)
    (dialect.neutral_intrinsicName intrinsic) h
  simp only [intrinsicCall] at hc
  split at hc
  · cases hc
  · split at hc
    · rename_i texture coordinates htexts
      cases hc
      have hlength : operands.length = 2 := by simpa using congrArg List.length htexts
      obtain ⟨first, second, rfl⟩ := List.length_eq_two.mp hlength
      obtain ⟨rfl, rfl⟩ : first.text = texture ∧ second.text = coordinates := by simpa using htexts
      obtain - | ⟨hfirst, - | ⟨hsecond, - | _⟩⟩ := h
      have hneutral : Step.Neutral first.text := hs rfl first rfl
      rw [List.sum_cons, List.sum_singleton, ← hfirst.spells.count_eq, hneutral.spells.count_eq,
        Nat.zero_add]
      exact writes_sample hneutral hsecond
    · cases hc
      exact hplain
    · cases hc
  · split at hc
    · rename_i value htexts
      cases hc
      rw [htexts] at h
      obtain - | ⟨hvalue, - | _⟩ := h
      refine ⟨?_, by simp [toString]⟩
      simpa [toString] using hvalue.spells.between "clamp(" ", 0.0, 1.0)" (by decide) (by decide)
    · cases hc
      exact hplain
  · split at hc
    · cases hc
    · cases hc
      exact hplain

theorem writes_staticMember {receiver member : String}
    (h : dialect.staticMember receiver member = .ok text) : step.Writes 0 text := by
  unfold staticMember at h
  dsimp only at h
  split at h
  · rename_i values _
    have hvalues : List.Forall₂ step.Writes (values.map fun _ => 0)
        (values.map Decimal.literal.float) := by
      rw [List.forall₂_map_left_iff, List.forall₂_map_right_iff, List.forall₂_same]
      exact fun value _ => Step.writes_float value
    simpa using writes_construction hvalues h
  · cases h

end Dialect

/-! ## Swizzles -/

theorem exists_of_mem_mapM {α β : Type} {f : α → Option β} {xs : List α} {ys : List β} {y : β}
    (h : xs.mapM f = some ys) (hy : y ∈ ys) : ∃ x ∈ xs, f x = some y := by
  induction xs generalizing ys with
  | nil =>
      cases h
      cases hy
  | cons x xs ih =>
      simp only [List.mapM_cons, Option.bind_eq_bind, Option.pure_def, Option.bind_eq_some_iff,
        Option.some.injEq] at h
      obtain ⟨first, hx, rest, hrest, rfl⟩ := h
      rcases List.mem_cons.mp hy with rfl | hy
      · exact ⟨x, by simp, hx⟩
      · obtain ⟨other, ho, hf⟩ := ih hrest hy
        exact ⟨other, by simp [ho], hf⟩

theorem isWordChar_of_componentIndex? {c : Char} (h : (componentIndex? c).isSome) :
    isWordChar c.toLower := by
  unfold componentIndex? at h
  split at h
  case h_5 => cases h
  all_goals decide

theorem swizzleChar?_isWordChar {count : Nat} {c component : Char}
    (h : swizzleChar? count c = some component) : isWordChar component := by
  obtain ⟨index, hindex, h⟩ := Option.bind_eq_some_iff.mp h
  split at h
  · cases h
    exact isWordChar_of_componentIndex? (by simp [hindex])
  · cases h

theorem isWord_swizzle {member components : String} {type : DataType}
    (h : swizzle? member type = some components) : IsWord components := by
  unfold swizzle? at h
  split at h
  · obtain ⟨count, -, h⟩ := Option.bind_eq_some_iff.mp h
    split at h
    · cases h
    · rename_i hlength
      obtain ⟨chars, hchars, h⟩ := Option.bind_eq_some_iff.mp h
      cases h
      constructor
      · intro hempty
        rw [String.ofList_eq_empty_iff] at hempty
        cases hm : member.toList with
        | nil => simp [String.toList_eq_nil_iff.mp hm] at hlength
        | cons c rest => simp [hm, hempty, List.mapM_cons, Option.bind_eq_some_iff] at hchars
      · intro c hc
        rw [String.toList_ofList] at hc
        obtain ⟨spelled, -, hs⟩ := exists_of_mem_mapM hchars hc
        exact swizzleChar?_isWordChar hs
  · cases h

end ShaderEffect
