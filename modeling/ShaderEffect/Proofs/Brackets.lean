import Mathlib.Tactic.Common

/-!
# Brackets in texts

Which brackets are open after a text, and what stands outside of all brackets. A text is balanced if
it closes what it opens, in the order that nesting asks for, and nothing else. Spaces outside of all
brackets divide a text into words.
-/

namespace ShaderEffect

/-- Opening brackets, each with the one that closes it. -/
abbrev Brackets := List (Char × Char)

namespace Brackets

/-- The brackets in expressions. -/
def inExpressions : Brackets := [('(', ')'), ('[', ']')]

/-- The brackets around blocks. -/
def aroundBlocks : Brackets := [('\x7b', '\x7d')]

variable (brackets : Brackets)

/-! ## Reading -/

/-- What a character does to the brackets that are open. These are given by what closes them, the
innermost first; the state is lost with a bracket that closes another one than the innermost. -/
def step (state : Option (List Char)) (c : Char) : Option (List Char) :=
  match state with
  | none => none
  | some pending =>
    match brackets.lookup c with
    | some closing => some (closing :: pending)
    | none =>
      if brackets.any (·.2 == c) then
        if pending.head? = some c then some pending.tail else none
      else some pending

/-- The brackets that are open after some characters. -/
def read (state : Option (List Char)) (chars : List Char) : Option (List Char) :=
  chars.foldl brackets.step state

/-- Every bracket in the text is closed in it, and none is closed that it has not opened. -/
def Balanced (text : String) : Prop :=
  brackets.read (some []) text.toList = some []

instance (text : String) : Decidable (brackets.Balanced text) :=
  inferInstanceAs (Decidable (_ = _))

/-- The text has no bracket. -/
def Free (text : String) : Prop :=
  ∀ c ∈ text.toList, ∀ pair ∈ brackets, c ≠ pair.1 ∧ c ≠ pair.2

variable {brackets} {state : Option (List Char)} {pending outer : List Char} {c : Char}
  {chars more : List Char} {text first second : String}

@[simp]
theorem read_nil : brackets.read state [] = state := rfl

@[simp]
theorem read_cons : brackets.read state (c :: chars) =
    brackets.read (brackets.step state c) chars := rfl

theorem read_append : brackets.read state (chars ++ more) =
    brackets.read (brackets.read state chars) more :=
  List.foldl_append

theorem read_none (chars : List Char) : brackets.read none chars = none := by
  induction chars with
  | nil => rfl
  | cons c chars ih => exact ih

/-- What is open further out does not matter. -/
theorem step_append {inner : List Char} (h : brackets.step (some pending) c = some inner) :
    brackets.step (some (pending ++ outer)) c = some (inner ++ outer) := by
  simp only [step] at h ⊢
  split
  · rename_i hl
    rw [hl] at h
    cases h
    rfl
  · rename_i hl
    simp only [hl] at h
    by_cases hc : brackets.any (·.2 == c)
    · simp only [hc, if_true] at h ⊢
      cases pending with
      | nil => simp at h
      | cons closing pending =>
          by_cases heq : closing = c
          · simp_all
          · simp [heq] at h
    · simp_all

theorem read_append_outer {inner : List Char} (h : brackets.read (some pending) chars = some inner) :
    brackets.read (some (pending ++ outer)) chars = some (inner ++ outer) := by
  induction chars generalizing pending with
  | nil =>
      cases h
      rfl
  | cons c chars ih =>
      rw [read_cons] at h ⊢
      cases hs : brackets.step (some pending) c with
      | none =>
          rw [hs, read_none] at h
          cases h
      | some next =>
          rw [hs] at h
          rw [step_append hs]
          exact ih h

theorem Balanced.read_eq (h : brackets.Balanced text) (pending : List Char) :
    brackets.read (some pending) text.toList = some pending :=
  read_append_outer h

theorem Balanced.append (hf : brackets.Balanced first) (hs : brackets.Balanced second) :
    brackets.Balanced (first ++ second) := by
  rw [Balanced, String.toList_append, read_append, hf.read_eq, hs.read_eq]

/-- A bracket and what closes it. -/
def Pair (brackets : Brackets) (opening closing : Char) : Prop :=
  brackets.lookup opening = some closing ∧ brackets.lookup closing = none ∧
    brackets.any (·.2 == closing)

theorem Pair.step_opening {opening closing : Char} (h : brackets.Pair opening closing) :
    brackets.step (some pending) opening = some (closing :: pending) := by
  simp [step, h.1]

theorem Pair.step_closing {opening closing : Char} (h : brackets.Pair opening closing) :
    brackets.step (some (closing :: pending)) closing = some pending := by
  have hany := h.2.2
  simp only [step, h.2.1, hany, if_true, List.head?_cons, List.tail_cons]

theorem pair_round : inExpressions.Pair '(' ')' := ⟨rfl, rfl, rfl⟩

theorem pair_square : inExpressions.Pair '[' ']' := ⟨rfl, rfl, rfl⟩

theorem pair_brace : aroundBlocks.Pair '\x7b' '\x7d' := ⟨rfl, rfl, rfl⟩

/-- A text in brackets. -/
def enclosed (opening closing : Char) (text : String) : String :=
  String.singleton opening ++ text ++ String.singleton closing

theorem Balanced.enclosed {opening closing : Char} (h : brackets.Balanced text)
    (hp : brackets.Pair opening closing) :
    brackets.Balanced (Brackets.enclosed opening closing text) := by
  simp only [Balanced, Brackets.enclosed, String.toList_append, String.toList_singleton,
    List.cons_append, List.nil_append, read_cons, read_append, hp.step_opening, h.read_eq,
    hp.step_closing, read_nil]

theorem Free.step_eq (h : brackets.Free text) (hc : c ∈ text.toList) :
    brackets.step state c = state := by
  have hopening : brackets.lookup c = none := by
    simpa [List.lookup_eq_none_iff] using fun opening closing hp => (h c hc _ hp).1
  have hclosing : brackets.any (·.2 == c) = false := by
    simpa using fun opening closing hp => (h c hc _ hp).2.symm
  cases state <;> simp [step, hopening, hclosing]

theorem Free.read_eq (h : brackets.Free text) (state : Option (List Char)) :
    brackets.read state text.toList = state := by
  have hstep : ∀ c ∈ text.toList, ∀ state, brackets.step state c = state :=
    fun c hc state => h.step_eq hc
  generalize text.toList = chars at hstep
  induction chars with
  | nil => rfl
  | cons c chars ih =>
      rw [read_cons, hstep c (by simp)]
      exact ih fun c hc => hstep c (by simp [hc])

theorem Free.balanced (h : brackets.Free text) : brackets.Balanced text :=
  h.read_eq _

/-- The text never closes a bracket that was open before it. -/
theorem Balanced.read_beginning (h : brackets.Balanced text) (ht : text = first ++ second) :
    ∃ inner, brackets.read (some []) first.toList = some inner := by
  rw [Balanced, ht, String.toList_append, read_append] at h
  cases hs : brackets.read (some []) first.toList with
  | none =>
      rw [hs, read_none] at h
      cases h
  | some inner => exact ⟨inner, rfl⟩

/-! ## Words -/

variable (brackets) in
/-- The words among some characters: what stands between the spaces outside of all brackets. -/
def split (state : Option (List Char)) : List Char → List (List Char)
  | [] => [[]]
  | c :: rest =>
    if c = ' ' ∧ state = some [] then [] :: split state rest
    else (split (brackets.step state c) rest).modifyHead (c :: ·)

variable (brackets) in
/-- The words of a text. -/
def words (text : String) : List String :=
  (brackets.split (some []) text.toList).map String.ofList

variable (brackets) in
/-- A text without spaces outside of its brackets. -/
def Tight (text : String) : Prop :=
  ∀ before after, text = before ++ " " ++ after → ¬brackets.Balanced before

variable (brackets) in
/-- No space comes after characters that leave no bracket open. -/
def SolidFrom (state : Option (List Char)) : List Char → Prop
  | [] => True
  | c :: rest => (c = ' ' → state ≠ some []) ∧ SolidFrom (brackets.step state c) rest

variable (brackets) in
/-- A text that closes its brackets and is one word. -/
structure IsOneWord (text : String) : Prop where
  balanced : brackets.Balanced text
  solid : brackets.SolidFrom (some []) text.toList

theorem solidFrom_append : brackets.SolidFrom state (chars ++ more) ↔
    brackets.SolidFrom state chars ∧ brackets.SolidFrom (brackets.read state chars) more := by
  induction chars generalizing state with
  | nil => simp [SolidFrom]
  | cons c chars ih => simp [SolidFrom, ih, and_assoc]

theorem IsOneWord.tight (h : brackets.IsOneWord text) : brackets.Tight text := by
  rintro before after rfl hb
  have hsolid := h.solid
  simp only [String.toList_append, List.append_assoc, solidFrom_append] at hsolid
  exact hsolid.2.1.1 rfl hb

theorem IsOneWord.append (hf : brackets.IsOneWord first) (hs : brackets.IsOneWord second) :
    brackets.IsOneWord (first ++ second) := by
  refine ⟨hf.balanced.append hs.balanced, ?_⟩
  rw [String.toList_append, solidFrom_append, hf.balanced.read_eq]
  exact ⟨hf.solid, hs.solid⟩

/-- Inside of a bracket there may be spaces. -/
theorem solidFrom_outer {closing : Char} {inner : List Char}
    (h : brackets.read (some pending) chars = some inner) :
    brackets.SolidFrom (some (pending ++ closing :: outer)) chars := by
  induction chars generalizing pending with
  | nil => trivial
  | cons c chars ih =>
      -- the bracket further out stays open, so that no state before a character is empty
      refine ⟨fun _ => by simp, ?_⟩
      rw [read_cons] at h
      cases hs : brackets.step (some pending) c with
      | none =>
          rw [hs, read_none] at h
          cases h
      | some next =>
          rw [hs] at h
          rw [step_append hs]
          exact ih h

theorem Balanced.isOneWord_enclosed {opening closing : Char} (h : brackets.Balanced text)
    (hp : brackets.Pair opening closing) (ho : opening ≠ ' ') (hc : closing ≠ ' ') :
    brackets.IsOneWord (Brackets.enclosed opening closing text) := by
  refine ⟨h.enclosed hp, ?_⟩
  simp only [Brackets.enclosed, String.toList_append, String.toList_singleton, List.cons_append,
    List.nil_append, SolidFrom, ho, solidFrom_append, hp.step_opening, hc, false_implies, true_and,
    and_true]
  exact solidFrom_outer h

theorem Free.isOneWord (h : brackets.Free text) (hs : ∀ c ∈ text.toList, c ≠ ' ') :
    brackets.IsOneWord text := by
  refine ⟨h.balanced, ?_⟩
  generalize some [] = state
  generalize text.toList = chars at hs
  induction chars generalizing state with
  | nil => trivial
  | cons c chars ih =>
      exact ⟨fun hc => absurd hc (hs c (by simp)), ih _ fun c hc => hs c (by simp [hc])⟩

theorem split_of_solidFrom (h : brackets.SolidFrom state chars) :
    brackets.split state chars = [chars] := by
  induction chars generalizing state with
  | nil => rfl
  | cons c chars ih =>
      obtain ⟨hc, hrest⟩ := h
      rw [split, if_neg (by simpa using hc), ih hrest, List.modifyHead_cons]

theorem split_append_space (h : brackets.SolidFrom state chars)
    (hr : brackets.read state chars = some []) :
    brackets.split state (chars ++ ' ' :: more) = chars :: brackets.split (some []) more := by
  induction chars generalizing state with
  | nil =>
      cases hr
      simp [split]
  | cons c chars ih =>
      obtain ⟨hc, hrest⟩ := h
      rw [List.cons_append, split, if_neg (by simpa using hc), ih hrest hr, List.modifyHead_cons]

theorem IsOneWord.words_eq (h : brackets.IsOneWord text) : brackets.words text = [text] := by
  simp [words, split_of_solidFrom h.solid]

/-- A word ends at the first space outside of all brackets. -/
theorem IsOneWord.words_append (h : brackets.IsOneWord first) :
    brackets.words (first ++ " " ++ second) = first :: brackets.words second := by
  simp [words, List.append_assoc, split_append_space h.solid h.balanced]

end Brackets

end ShaderEffect
