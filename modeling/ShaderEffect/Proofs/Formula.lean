import Mathlib.Data.Matrix.Mul
import ShaderEffect.Shader.Expression

/-!
# Formulas

How a shading language reads the text of a formula over vectors and matrices, and what the formula
is worth. A text is cut into words and symbols and read by the usual rules: products bind closer
than sums, operators of one level group to the left, and a word in front of a parenthesis is a
function.

The languages differ in what products mean. In HLSL the function `mul` is the product of linear
algebra and `*` works on the components; in GLSL `*` is the product of linear algebra, unless both
operands are vectors. In both, a vector is a row on the left of a matrix and a column on its right.
-/

namespace ShaderEffect

/-! ## Words and symbols -/

/-- The smallest units of a text. -/
inductive Token where
  | word (text : String)
  | symbol (char : Char)
  deriving DecidableEq

/-- The characters of names. A dot joins a variable and its member. -/
def isWordChar (c : Char) : Bool :=
  c.isAlphanum || c == '_' || c == '.' || 0x7F < c.toNat

/-- The word that some characters make, if there are any. -/
def Token.ofPending (pending : List Char) : List Token :=
  if pending.isEmpty then [] else [.word (String.ofList pending)]

/-- The token of a character that is no part of a word. -/
def Token.ofChar (c : Char) : List Token :=
  if c = ' ' then [] else [.symbol c]

/-- The tokens of some characters after those of an unfinished word. -/
def scanTokens (pending : List Char) : List Char → List Token
  | [] => Token.ofPending pending
  | c :: rest =>
    if isWordChar c then scanTokens (pending ++ [c]) rest
    else Token.ofPending pending ++ Token.ofChar c ++ scanTokens [] rest

/-- The tokens of a text. -/
def tokens (text : String) : List Token :=
  scanTokens [] text.toList

/-- A text that is one word. -/
def IsWord (text : String) : Prop :=
  text ≠ "" ∧ ∀ c ∈ text.toList, isWordChar c

instance (text : String) : Decidable (IsWord text) :=
  decidable_of_iff (text ≠ "" ∧ text.toList.all isWordChar)
    (by simp only [IsWord, List.all_eq_true])

/-! ## Reading -/

/-- A formula over vectors and matrices. -/
inductive Formula where
  | name (text : String)
  | call (function : String) (first second : Formula)
  | operation (symbol : Char) (lhs rhs : Formula)
  deriving DecidableEq

/-- How close the parts of a formula are bound. -/
inductive Level where
  | sum
  | product
  | factor
  deriving DecidableEq

namespace Level

/-- The operators between formulas of the next level. -/
def operators : Level → List Char
  | sum => ['+', '-']
  | product => ['*']
  | factor => []

/-- The level of operands. -/
def operand : Level → Level
  | sum => product
  | product | factor => factor

end Level

/-- What follows a symbol, if some tokens start with it. -/
def expectSymbol (c : Char) : List Token → Option (List Token)
  | [] => none
  | token :: rest => if token = .symbol c then some rest else none

namespace Formula

mutual

/-- The formula of a level at the start of some tokens, and the rest. Every call takes one unit of
fuel. -/
def read : Nat → Level → List Token → Option (Formula × List Token)
  | 0, _, _ => none
  | _ + 1, .factor, [] => none
  | fuel + 1, .factor, .word text :: rest =>
    match expectSymbol '(' rest with
    | none => some (.name text, rest)
    | some rest => do
      let (first, rest) ← read fuel .sum rest
      let (second, rest) ← read fuel .sum (← expectSymbol ',' rest)
      return (.call text first second, ← expectSymbol ')' rest)
  | fuel + 1, .factor, .symbol c :: rest =>
    if c = '(' then do
      let (inner, rest) ← read fuel .sum rest
      return (inner, ← expectSymbol ')' rest)
    else none
  | fuel + 1, level, tokens => do
    let (lhs, rest) ← read fuel level.operand tokens
    extend fuel level lhs rest

/-- The formula that operators of a level make of their first operand and what follows it, and the
rest. -/
def extend : Nat → Level → Formula → List Token → Option (Formula × List Token)
  | 0, _, _, _ => none
  | _ + 1, _, lhs, [] => some (lhs, [])
  | _ + 1, _, lhs, .word text :: rest => some (lhs, .word text :: rest)
  | fuel + 1, level, lhs, .symbol c :: rest =>
    if c ∈ level.operators then do
      let (rhs, rest) ← read fuel level.operand rest
      extend fuel level (.operation c lhs rhs) rest
    else some (lhs, .symbol c :: rest)

end

/-- The formula that a text is, if it is one as a whole. -/
def ofText? (text : String) : Option Formula :=
  let tokens := tokens text
  -- three levels for every token, and three for the text
  match read (3 * tokens.length + 3) .sum tokens with
  | some (formula, []) => some formula
  | _ => none

example : ofText? "a + b * mul(c, d - e) - f" =
    some (.operation '-' (.operation '+' (.name "a") (.operation '*' (.name "b")
      (.call "mul" (.name "c") (.operation '-' (.name "d") (.name "e"))))) (.name "f")) := by
  decide +kernel

end Formula

/-! ## Values -/

/-- A vector or a matrix over the rational numbers. -/
inductive Quantity where
  | vector (components : Fin 4 → ℚ)
  | matrix (entries : Matrix (Fin 4) (Fin 4) ℚ)

namespace Quantity

open Matrix

/-- The product of linear algebra. That of two vectors is a number, and not a quantity. -/
def linear? : Quantity → Quantity → Option Quantity
  | vector v, matrix m => some (vector (v ᵥ* m))
  | matrix m, vector v => some (vector (m *ᵥ v))
  | matrix m, matrix n => some (matrix (m * n))
  | vector _, vector _ => none

/-- An operation on the components of quantities of one kind. -/
def zip? (op : ℚ → ℚ → ℚ) : Quantity → Quantity → Option Quantity
  | vector v, vector w => some (vector fun i => op (v i) (w i))
  | matrix m, matrix n => some (matrix (Matrix.of fun i j => op (m i j) (n i j)))
  | vector _, matrix _ | matrix _, vector _ => none

end Quantity

namespace Dialect

/-- What an operator of a language does. -/
def operation? (dialect : Dialect) (symbol : Char) (x y : Quantity) : Option Quantity :=
  match symbol with
  | '+' => x.zip? (· + ·) y
  | '-' => x.zip? (· - ·) y
  | '*' =>
    match dialect, x, y with
    | glsl _, .matrix _, _ | glsl _, _, .matrix _ => x.linear? y
    | _, _, _ => x.zip? (· * ·) y
  | _ => none

/-- What a function of a language does. -/
def function? (dialect : Dialect) (name : String) (x y : Quantity) : Option Quantity :=
  match dialect with
  | hlsl => if name = "mul" then x.linear? y else none
  | glsl _ => none

end Dialect

/-- The value of a formula where the names have values. -/
def Formula.value? (dialect : Dialect) (names : String → Quantity) : Formula → Option Quantity
  | name text => some (names text)
  | call function first second => do
    dialect.function? function (← first.value? dialect names) (← second.value? dialect names)
  | operation symbol lhs rhs => do
    dialect.operation? symbol (← lhs.value? dialect names) (← rhs.value? dialect names)

/-- The value of a text that is a formula of a language. -/
def Dialect.valueOf? (dialect : Dialect) (names : String → Quantity) (text : String) :
    Option Quantity := do
  (← Formula.ofText? text).value? dialect names

/-! ## Tokens of composed texts -/

theorem scanTokens_append {c : Char} (hc : isWordChar c = false) (pending chars rest : List Char) :
    scanTokens pending (chars ++ c :: rest) =
      scanTokens pending chars ++ Token.ofChar c ++ scanTokens [] rest := by
  induction chars generalizing pending with
  | nil => simp [scanTokens, hc]
  | cons d chars ih =>
      by_cases hd : isWordChar d
      · simp [scanTokens, hd, ih]
      · simp [scanTokens, hd, ih]

theorem scanTokens_word (pending chars : List Char) (h : ∀ c ∈ chars, isWordChar c) :
    scanTokens pending chars = Token.ofPending (pending ++ chars) := by
  induction chars generalizing pending with
  | nil => simp [scanTokens]
  | cons c chars ih =>
      simp only [List.forall_mem_cons] at h
      simp [scanTokens, h.1, ih _ h.2]

theorem tokens_word {text : String} (h : IsWord text) : tokens text = [.word text] := by
  obtain ⟨hne, hchars⟩ := h
  have hlist : text.toList ≠ [] := by simpa using hne
  simp [tokens, scanTokens_word [] _ hchars, Token.ofPending, hlist]

theorem tokens_group (text : String) :
    tokens s!"({text})" = .symbol '(' :: (tokens text ++ [.symbol ')']) := by
  have hchars : s!"({text})".toList = '(' :: (text.toList ++ [')']) := by simp [toString]
  rw [tokens, hchars]
  simp [tokens, scanTokens, scanTokens_append, isWordChar, Token.ofPending, Token.ofChar]

theorem isWordChar_operator {c : Char} (hc : c ∈ ['+', '-', '*']) :
    isWordChar c = false ∧ c ≠ ' ' := by
  simp only [List.mem_cons, List.not_mem_nil, or_false] at hc
  rcases hc with rfl | rfl | rfl <;> decide

theorem tokens_operation {c : Char} (hc : c ∈ ['+', '-', '*']) {symbol : String}
    (hs : symbol.toList = [c]) (lhs rhs : String) :
    tokens s!"{lhs} {symbol} {rhs}" = tokens lhs ++ .symbol c :: tokens rhs := by
  have hchars : s!"{lhs} {symbol} {rhs}".toList = lhs.toList ++ ' ' :: c :: ' ' :: rhs.toList := by
    simp [toString, hs]
  rw [tokens, hchars]
  simp [tokens, scanTokens, scanTokens_append, isWordChar_operator hc, Token.ofPending,
    Token.ofChar, show isWordChar ' ' = false from rfl]

theorem tokens_mul (lhs rhs : String) :
    tokens s!"mul({lhs}, {rhs})" =
      .word "mul" :: .symbol '(' ::
        (tokens lhs ++ .symbol ',' :: (tokens rhs ++ [.symbol ')'])) := by
  have hchars : s!"mul({lhs}, {rhs})".toList =
      'm' :: 'u' :: 'l' :: '(' :: (lhs.toList ++ ',' :: ' ' :: (rhs.toList ++ [')'])) := by
    simp [toString]
  rw [tokens, hchars]
  simp [tokens, scanTokens, scanTokens_append, isWordChar, Token.ofPending, Token.ofChar]

/-! ## Formulas of composed texts -/

/-- The fuel that a level takes by itself. -/
def Level.steps : Level → Nat
  | sum => 3
  | product => 2
  | factor => 1

/-- The symbols that would go on with a formula of a level. -/
def Level.continuations : Level → List Char
  | sum => ['(', '*', '+', '-']
  | product => ['(', '*']
  | factor => ['(']

/-- No formula of a level goes on with some tokens. -/
def Level.Ends (level : Level) (rest : List Token) : Prop :=
  ∀ c ∈ level.continuations, rest.head? ≠ some (.symbol c)

/-- Tokens are a formula of a level, whatever follows that does not go on with it. -/
def ReadsAs (level : Level) (ts : List Token) (formula : Formula) : Prop :=
  ∀ fuel rest, 3 * ts.length + level.steps ≤ fuel → level.Ends rest →
    Formula.read fuel level (ts ++ rest) = some (formula, rest)

theorem Level.Ends.expectSymbol {level : Level} {rest : List Token} (h : level.Ends rest) :
    expectSymbol '(' rest = none := by
  have hc := h '(' (by cases level <;> simp [continuations])
  cases rest with
  | nil => rfl
  | cons token rest => simpa [ShaderEffect.expectSymbol] using hc

@[simp]
theorem expectSymbol_self (c : Char) (rest : List Token) :
    expectSymbol c (.symbol c :: rest) = some rest := by
  simp [expectSymbol]

theorem Level.ends_close (level : Level) (rest : List Token) :
    level.Ends (.symbol ')' :: rest) := by
  cases level <;> simp [Ends, continuations]

theorem Level.ends_comma (level : Level) (rest : List Token) :
    level.Ends (.symbol ',' :: rest) := by
  cases level <;> simp [Ends, continuations]

theorem Level.ends_nil (level : Level) : level.Ends [] := by
  simp [Ends]

/-- An operator does not go on with its own operands. -/
theorem Level.ends_operator {level : Level} {c : Char} (hc : c ∈ level.operators)
    (rest : List Token) : level.operand.Ends (.symbol c :: rest) := by
  cases level <;> simp_all [Ends, continuations, operators, operand]
  grind

/-- What ends a formula also ends its operands. -/
theorem Level.Ends.operand {level : Level} {rest : List Token} (h : level.Ends rest) :
    level.operand.Ends rest := by
  cases level <;> simp_all [Ends, continuations, Level.operand]

theorem Formula.extend_eq_self {level : Level} {rest : List Token} (h : level.Ends rest)
    (lhs : Formula) (fuel : Nat) : extend (fuel + 1) level lhs rest = some (lhs, rest) := by
  rcases rest with - | ⟨_ | c, rest⟩
  · rfl
  · rfl
  · have hc : c ∉ level.operators := by
      intro hc
      refine h c ?_ rfl
      cases level <;> simp_all [Level.continuations, Level.operators]
    simp [extend, hc]

theorem readsAs_word (text : String) : ReadsAs .factor [.word text] (.name text) := by
  intro fuel rest hf he
  simp only [List.length_singleton, Level.steps] at hf
  obtain ⟨fuel, rfl⟩ := Nat.exists_eq_add_one_of_ne_zero (show fuel ≠ 0 by omega)
  simp [Formula.read, he.expectSymbol]

theorem readsAs_group {ts : List Token} {formula : Formula} (h : ReadsAs .sum ts formula) :
    ReadsAs .factor (.symbol '(' :: (ts ++ [.symbol ')'])) formula := by
  intro fuel rest hf he
  simp only [List.length_cons, List.length_append, List.length_nil, Level.steps] at hf
  obtain ⟨fuel, rfl⟩ := Nat.exists_eq_add_one_of_ne_zero (show fuel ≠ 0 by omega)
  have hinner := h fuel (.symbol ')' :: rest) (by simp [Level.steps]; omega) (Level.ends_close _ _)
  simp [Formula.read, hinner]

theorem readsAs_call {function : String} {ts us : List Token} {first second : Formula}
    (ht : ReadsAs .sum ts first) (hu : ReadsAs .sum us second) :
    ReadsAs .factor
      (.word function :: .symbol '(' :: (ts ++ .symbol ',' :: (us ++ [.symbol ')'])))
      (.call function first second) := by
  intro fuel rest hf he
  simp only [List.length_cons, List.length_append, List.length_nil, Level.steps] at hf
  obtain ⟨fuel, rfl⟩ := Nat.exists_eq_add_one_of_ne_zero (show fuel ≠ 0 by omega)
  have hfirst := ht fuel (.symbol ',' :: (us ++ .symbol ')' :: rest))
    (by simp [Level.steps]; omega) (Level.ends_comma _ _)
  have hsecond := hu fuel (.symbol ')' :: rest) (by simp [Level.steps]; omega)
    (Level.ends_close _ _)
  simp [Formula.read, hfirst, hsecond]

/-- A level reads an operand, and then what its operators add to it. -/
theorem Formula.read_succ {level : Level} (hl : level ≠ .factor) (fuel : Nat)
    (ts : List Token) :
    read (fuel + 1) level ts =
      (read fuel level.operand ts).bind fun (lhs, rest) => extend fuel level lhs rest := by
  cases level with
  | factor => exact absurd rfl hl
  | sum | product => rfl

theorem ReadsAs.ofOperand {level : Level} (hl : level ≠ .factor) {ts : List Token}
    {formula : Formula} (h : ReadsAs level.operand ts formula) : ReadsAs level ts formula := by
  intro fuel rest hf he
  have hsteps : level.operand.steps < level.steps := by
    cases level <;> simp_all [Level.steps, Level.operand]
  obtain ⟨fuel, rfl⟩ := Nat.exists_eq_add_one_of_ne_zero (show fuel ≠ 0 by omega)
  rw [Formula.read_succ hl, h fuel rest (by omega) he.operand]
  obtain ⟨fuel, rfl⟩ := Nat.exists_eq_add_one_of_ne_zero (show fuel ≠ 0 by
    cases level <;> simp_all [Level.steps, Level.operand] <;> omega)
  exact Formula.extend_eq_self he formula fuel

theorem readsAs_operation {level : Level} {c : Char} (hc : c ∈ level.operators)
    {ts us : List Token} {lhs rhs : Formula} (ht : ReadsAs level.operand ts lhs)
    (hu : ReadsAs level.operand us rhs) :
    ReadsAs level (ts ++ .symbol c :: us) (.operation c lhs rhs) := by
  have hl : level ≠ .factor := by
    rintro rfl
    simp [Level.operators] at hc
  have hsteps : level.operand.steps < level.steps := by
    cases level <;> simp_all [Level.steps, Level.operand]
  intro fuel rest hf he
  simp only [List.length_cons, List.length_append] at hf
  obtain ⟨fuel, rfl⟩ := Nat.exists_eq_add_one_of_ne_zero (show fuel ≠ 0 by omega)
  rw [Formula.read_succ hl, List.append_assoc, List.cons_append,
    ht fuel _ (by omega) (Level.ends_operator hc _)]
  obtain ⟨fuel, rfl⟩ := Nat.exists_eq_add_one_of_ne_zero (show fuel ≠ 0 by omega)
  simp only [Option.bind_some, Formula.extend, hc, if_true]
  rw [hu fuel rest (by omega) he.operand]
  obtain ⟨fuel, rfl⟩ := Nat.exists_eq_add_one_of_ne_zero (show fuel ≠ 0 by omega)
  exact Formula.extend_eq_self he _ fuel

end ShaderEffect
