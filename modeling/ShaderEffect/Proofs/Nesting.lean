import ShaderEffect.Proofs.Brackets
import ShaderEffect.Proofs.Spelling

/-!
# Nesting of statements

The lines that are written for statements. Each line stands at the level of the braces that are open
before it, every branch and every loop body is in braces of its own, and a statement closes the braces
that it opens. The levels can be read off the lines alone, and are the same as those in the text.
-/

namespace ShaderEffect

open Brackets (aroundBlocks)

/-! ## Plain texts -/

/-- A character that is no brace and does not end a line. -/
def IsPlainChar (c : Char) : Prop :=
  c ∉ ['\x7b', '\x7d', '\n']

instance : DecidablePred IsPlainChar :=
  fun c => inferInstanceAs (Decidable (c ∉ _))

/-- A text without braces that is a line or a piece of a line. -/
abbrev IsPlain (text : String) : Prop :=
  MadeOf IsPlainChar text

theorem spellsWords_isPlainChar : SpellsWords IsPlainChar where
  word c hc := by
    simp only [IsPlainChar, List.mem_cons, List.not_mem_nil, or_false]
    rintro (rfl | rfl | rfl) <;> revert hc <;> decide
  minus := by decide

section

variable {text : String} {operand : Operand}

theorem IsWord.isPlain (h : IsWord text) : IsPlain text :=
  h.madeOf spellsWords_isPlainChar

theorem notMem_of_isPlain (h : IsPlain text) : '\n' ∉ text.toList :=
  fun hc => h _ hc (by decide)

theorem balanced_of_isPlain (h : IsPlain text) : aroundBlocks.Balanced text := by
  refine Brackets.Free.balanced fun c hc => ?_
  have hplain := h c hc
  simp only [IsPlainChar, List.mem_cons, List.not_mem_nil, or_false, not_or] at hplain
  simp [aroundBlocks, hplain]

theorem isPlain_between (h : IsPlain text) (before after : String) (hb : IsPlain before)
    (ha : IsPlain after) : IsPlain (before ++ text ++ after) :=
  (hb.append h).append ha

theorem isPlain_wrapped (h : IsPlain operand.text) : IsPlain operand.wrapped := by
  unfold Operand.wrapped
  split
  · exact isPlain_between h "(" ")" (by decide) (by decide)
  · exact h

theorem isPlain_commaSeparated {texts : List String} (h : ∀ text ∈ texts, IsPlain text) :
    IsPlain (commaSeparated texts) :=
  commaSeparated_induction (by decide) (by decide) .append h

theorem isPlain_around {first token second : String} (hf : IsPlain first) (ht : IsPlain token)
    (hs : IsPlain second) : IsPlain s!"{first} {token} {second}" := by
  have hspace : IsPlain " " := by decide
  exact (((hf.append hspace).append ht).append hspace).append hs

theorem Dialect.isPlain_returnStatement (dialect : Dialect) : IsPlain dialect.returnStatement := by
  cases dialect with
  | hlsl => decide
  | glsl version =>
      rw [returnStatement]
      decide

/-- No form of an expression has braces or ends of lines. -/
theorem Spelled.isPlain (h : Spelled IsPlainChar operand) : IsPlain operand.text := by
  induction h with
  | word h => exact h
  | member _ hc iht => exact ((isPlain_wrapped iht).append (by decide)).append hc
  | element _ _ iht ihp =>
      exact (((isPlain_wrapped iht).append (by decide)).append ihp).append (by decide)
  | application function operands hf _ iho =>
      have harguments : IsPlain (commaSeparated (operands.map (·.text))) :=
        isPlain_commaSeparated (by simpa using iho)
      exact ((hf.append (by decide)).append harguments).append (by decide)
  | conversion ht _ iho =>
      exact (((MadeOf.append (by decide) ht).append (by decide)).append
        (isPlain_wrapped iho)).append (by decide)
  | parenthesized _ ih => exact isPlain_between ih "(" ")" (by decide) (by decide)
  | leading op _ ih => exact .append (by cases op <;> decide) (isPlain_wrapped ih)
  | trailing op _ ih => exact (isPlain_wrapped ih).append (by cases op <;> decide)
  | operation op _ _ ihl ihr =>
      exact isPlain_around (isPlain_wrapped ihl) (by cases op <;> decide) (isPlain_wrapped ihr)
  | assignment op _ _ iht ihv => exact isPlain_around iht (by cases op <;> decide) ihv
  | choice _ _ _ ihc iht ihe =>
      exact ((((isPlain_wrapped ihc).append (by decide)).append (isPlain_wrapped iht)).append
        (by decide)).append (isPlain_wrapped ihe)

end

/-! ## Levels of lines -/

namespace Line

/-- Whether the line opens braces. -/
def isOpening (line : Line) : Bool :=
  line.text = "\x7b"

/-- Whether the line closes braces. -/
def isClosing (line : Line) : Bool :=
  line.text = "\x7d" || line.text = "\x7d;"

/-- The level after a line, if the line stands at the level of the braces that are open. A brace
stands at the level outside of it. -/
def nextLevel (level : Nat) (line : Line) : Option Nat :=
  if line.isOpening then if line.depth = level then some (level + 1) else none
  else if line.isClosing then if line.depth + 1 = level then some line.depth else none
  else if line.depth = level then some level else none

/-- The level after some lines. -/
def levelAfter (level : Nat) (lines : List Line) : Option Nat :=
  lines.foldlM nextLevel level

/-- A line with an end of its own, that is a brace or has only braces that it closes. -/
structure IsTidy (line : Line) : Prop where
  whole : '\n' ∉ line.text.toList
  braces : line.isOpening ∨ line.isClosing ∨ aroundBlocks.Balanced line.text

/-- Tidy lines at the level of their braces, from one level to another. -/
structure Leads (level : Nat) (lines : List Line) (after : Nat) : Prop where
  tidy : ∀ line ∈ lines, line.IsTidy
  level : levelAfter level lines = some after

variable {level middle after depth : Nat} {lines more : List Line} {text : String}

theorem levelAfter_singleton (level : Nat) (line : Line) :
    levelAfter level [line] = line.nextLevel level := by
  simp [levelAfter]

theorem Leads.nil (level : Nat) : Leads level [] level :=
  ⟨by simp, rfl⟩

theorem Leads.append (hl : Leads level lines middle) (hm : Leads middle more after) :
    Leads level (lines ++ more) after := by
  refine ⟨List.forall_mem_append.mpr ⟨hl.tidy, hm.tidy⟩, ?_⟩
  have hlevel := hl.level
  have hmore := hm.level
  simp only [levelAfter, List.foldlM_append] at hlevel hmore ⊢
  simp [hlevel, hmore]

theorem Leads.single (hn : '\n' ∉ text.toList) (hb : aroundBlocks.Balanced text) (depth : Nat) :
    Leads depth [⟨depth, text⟩] depth := by
  have hopening : text ≠ "\x7b" := by
    rintro rfl
    revert hb
    decide
  have hclosing : text ≠ "\x7d" ∧ text ≠ "\x7d;" := by
    constructor <;> rintro rfl <;> revert hb <;> decide
  refine ⟨?_, by simp [levelAfter_singleton, nextLevel, isOpening, isClosing, hopening, hclosing]⟩
  simpa using ⟨hn, .inr (.inr hb)⟩

theorem Leads.plain (h : IsPlain text) (depth : Nat) : Leads depth [⟨depth, text⟩] depth :=
  .single (notMem_of_isPlain h) (balanced_of_isPlain h) depth

/-- Braces that are opened and closed in one line. -/
theorem Leads.withinLine {before after : String} (hb : IsPlain before) (ht : IsPlain text)
    (ha : IsPlain after) (depth : Nat) :
    Leads depth [⟨depth, before ++ Brackets.enclosed '\x7b' '\x7d' text ++ after⟩] depth := by
  refine .single ?_ ?_ depth
  · simp [Brackets.enclosed, notMem_of_isPlain hb, notMem_of_isPlain ht, notMem_of_isPlain ha]
  · exact ((balanced_of_isPlain hb).append
      ((balanced_of_isPlain ht).enclosed Brackets.pair_brace)).append (balanced_of_isPlain ha)

/-- Several lines at one level. -/
theorem Leads.of_forall (h : ∀ line ∈ lines, Leads depth [line] depth) :
    Leads depth lines depth := by
  induction lines with
  | nil => exact .nil depth
  | cons line lines ih =>
      exact (h line (by simp)).append (ih fun line hl => h line (by simp [hl]))

theorem Leads.plains {texts : List String} (h : ∀ text ∈ texts, IsPlain text) (depth : Nat) :
    Leads depth (texts.map fun text => ⟨depth, text⟩) depth :=
  .of_forall (by simpa using fun text ht => Leads.plain (h text ht) depth)

theorem Leads.opening (depth : Nat) : Leads depth [⟨depth, "\x7b"⟩] (depth + 1) := by
  refine ⟨?_, by simp [levelAfter_singleton, nextLevel, isOpening]⟩
  simpa using ⟨by simp, .inl rfl⟩

theorem Leads.closing (h : text = "\x7d" ∨ text = "\x7d;") (depth : Nat) :
    Leads (depth + 1) [⟨depth, text⟩] depth := by
  rcases h with rfl | rfl
  all_goals
    refine ⟨?_, by simp [levelAfter_singleton, nextLevel, isOpening, isClosing]⟩
    simpa using ⟨by simp, .inr (.inl rfl)⟩

theorem Leads.braced (h : Leads (depth + 1) lines (depth + 1)) :
    Leads depth (Line.braced depth lines) depth := by
  have hall := ((Leads.opening depth).append h).append (Leads.closing (.inl rfl) depth)
  simpa [Line.braced] using hall

/-- Braces with a plain line before them. -/
theorem Leads.headed (ht : IsPlain text) (h : Leads (depth + 1) lines (depth + 1)) :
    Leads depth (⟨depth, text⟩ :: Line.braced depth lines) depth :=
  (Leads.plain ht depth).append h.braced

/-! ## Levels of texts -/

theorem renderAll_cons (line : Line) (lines : List Line) :
    renderAll (line :: lines) = line.render ++ renderAll lines := by
  simp [renderAll]

theorem renderAll_append (lines more : List Line) :
    renderAll (lines ++ more) = renderAll lines ++ renderAll more := by
  simp [renderAll]

theorem isPlain_indentation (depth : Nat) :
    IsPlain (String.join (List.replicate depth indentation)) := by
  induction depth with
  | zero => decide
  | succ depth ih =>
      rw [List.replicate_succ, String.join_cons]
      exact .append (by decide) ih

theorem read_render (line : Line) (pending : List Char) :
    aroundBlocks.read (some pending) line.render.toList =
      aroundBlocks.read (some pending) line.text.toList := by
  have hindent := balanced_of_isPlain (isPlain_indentation line.depth)
  simp only [render, String.toList_append, Brackets.read_append, hindent.read_eq]
  cases aroundBlocks.read (some pending) line.text.toList with
  | none => rfl
  | some inner => exact Brackets.Balanced.read_eq (by decide) inner

/-- The braces of a line lead from one level to the next, where the levels are counted from a level
that the line does not leave. -/
theorem IsTidy.read_render {line : Line} {base opened : Nat} (h : line.IsTidy)
    (hn : base ≤ line.depth) (hl : line.nextLevel (base + opened) = some after) :
    ∃ more, after = base + more ∧
      aroundBlocks.read (some (List.replicate opened '\x7d')) line.render.toList =
        some (List.replicate more '\x7d') := by
  rw [Line.read_render]
  unfold nextLevel at hl
  split at hl
  case isTrue ho =>
    simp only [isOpening, decide_eq_true_eq] at ho
    split at hl
    · cases hl
      exact ⟨opened + 1, rfl, by rw [ho]; rfl⟩
    · cases hl
  case isFalse ho =>
    split at hl
    case isTrue hc =>
      simp only [isClosing, Bool.or_eq_true, decide_eq_true_eq] at hc
      split at hl
      · rename_i hdepth
        cases hl
        -- the line is not left of the base, so that the brace it closes was opened behind the base
        obtain ⟨k, rfl⟩ : ∃ k, opened = k + 1 := ⟨opened - 1, by omega⟩
        exact ⟨k, by omega, by rcases hc with hc | hc <;> rw [hc] <;> rfl⟩
      · cases hl
    case isFalse hc =>
      split at hl
      · cases hl
        have hbalanced : aroundBlocks.Balanced line.text := by simpa [ho, hc] using h.braces
        exact ⟨opened, rfl, hbalanced.read_eq _⟩
      · cases hl

/-- The braces that are open in the text are those of the levels of the lines. -/
theorem Leads.read_renderAll {base opened : Nat} (h : Leads (base + opened) lines after)
    (hn : Nested base lines) : ∃ more, after = base + more ∧
      aroundBlocks.read (some (List.replicate opened '\x7d')) (renderAll lines).toList =
        some (List.replicate more '\x7d') := by
  obtain ⟨htidy, hlevel⟩ := h
  induction lines generalizing opened with
  | nil =>
      cases hlevel
      exact ⟨opened, rfl, rfl⟩
  | cons line lines ih =>
      rw [nested_cons] at hn
      rw [levelAfter, List.foldlM_cons] at hlevel
      obtain ⟨next, hnext, hrest⟩ := Option.bind_eq_some_iff.mp hlevel
      obtain ⟨inner, rfl, hread⟩ := (htidy line (by simp)).read_render hn.1 hnext
      obtain ⟨more, hafter, hmore⟩ := ih hn.2 (fun line hl => htidy line (by simp [hl])) hrest
      refine ⟨more, hafter, ?_⟩
      rw [renderAll_cons, String.toList_append, Brackets.read_append, hread, hmore]

theorem Leads.balanced (h : Leads depth lines depth) (hn : Nested depth lines) :
    aroundBlocks.Balanced (renderAll lines) := by
  have hstart : Leads (depth + 0) lines depth := h
  obtain ⟨more, hmore, hread⟩ := hstart.read_renderAll hn
  obtain rfl : more = 0 := by omega
  exact hread

end Line

/-! ## Layout of statements -/

/-- The statements of a branch or of the body of a loop. -/
def Stmt.contents (stmt : Stmt) : List Stmt :=
  match stmt.kind with
  | .block body => body
  | _ => [stmt]

/-- A statement without statements in it, other than a return. -/
def StmtKind.isSimple : StmtKind → Bool
  | .empty | .expression _ | .declaration _ | .breakLoop | .continueLoop => true
  | _ => false

/-- How statements are laid out at a level. Blocks, branches and the bodies of loops have braces of
their own, with what they contain one level deeper; all other lines are plain and stand at the level
of the statements. -/
inductive Laid (dialect : Dialect) : Nat → List Stmt → List Line → Prop where
  | nil (depth : Nat) : Laid dialect depth [] []
  | simple {depth : Nat} {kind : StmtKind} {location : Location} {rest : List Stmt}
      {lines : List Line} (texts : List String) (hk : kind.isSimple)
      (ht : ∀ text ∈ texts, IsPlain text) (hr : Laid dialect depth rest lines) :
      Laid dialect depth (⟨kind, location⟩ :: rest)
        (texts.map (fun text => ⟨depth, text⟩) ++ lines)
  | returning {depth : Nat} {location : Location} {rest : List Stmt} {lines : List Line}
      (hr : Laid dialect depth rest lines) :
      Laid dialect depth (⟨.returning none, location⟩ :: rest)
        (⟨depth, dialect.returnStatement⟩ :: lines)
  | block {depth : Nat} {body rest : List Stmt} {location : Location} {inner lines : List Line}
      (hb : Laid dialect (depth + 1) body inner) (hr : Laid dialect depth rest lines) :
      Laid dialect depth (⟨.block body, location⟩ :: rest) (Line.braced depth inner ++ lines)
  | ifThen {depth : Nat} {condition : Expr} {branch : Stmt} {location : Location}
      {rest : List Stmt} {text : String} {inner lines : List Line} (ht : IsPlain text)
      (hb : Laid dialect (depth + 1) branch.contents inner) (hr : Laid dialect depth rest lines) :
      Laid dialect depth (⟨.ifElse condition branch none, location⟩ :: rest)
        (⟨depth, s!"if ({text})"⟩ :: Line.braced depth inner ++ lines)
  | ifElse {depth : Nat} {condition : Expr} {thenBranch elseBranch : Stmt} {location : Location}
      {rest : List Stmt} {text : String} {thenInner elseInner lines : List Line}
      (ht : IsPlain text) (hthen : Laid dialect (depth + 1) thenBranch.contents thenInner)
      (helse : Laid dialect (depth + 1) elseBranch.contents elseInner)
      (hr : Laid dialect depth rest lines) :
      Laid dialect depth (⟨.ifElse condition thenBranch (some elseBranch), location⟩ :: rest)
        (⟨depth, s!"if ({text})"⟩ :: Line.braced depth thenInner ++
          ⟨depth, "else"⟩ :: Line.braced depth elseInner ++ lines)
  | whileLoop {depth : Nat} {condition : Expr} {body : Stmt} {location : Location}
      {rest : List Stmt} {text : String} {inner lines : List Line} (ht : IsPlain text)
      (hb : Laid dialect (depth + 1) body.contents inner) (hr : Laid dialect depth rest lines) :
      Laid dialect depth (⟨.whileLoop condition body, location⟩ :: rest)
        (⟨depth, s!"while ({text})"⟩ :: Line.braced depth inner ++ lines)
  | doWhileLoop {depth : Nat} {condition : Expr} {body : Stmt} {location : Location}
      {rest : List Stmt} {text : String} {inner lines : List Line} (ht : IsPlain text)
      (hb : Laid dialect (depth + 1) body.contents inner) (hr : Laid dialect depth rest lines) :
      Laid dialect depth (⟨.doWhileLoop body condition, location⟩ :: rest)
        (⟨depth, "do"⟩ :: Line.braced depth inner ++ ⟨depth, s!"while ({text});"⟩ :: lines)
  | forLoop {depth : Nat} {initializers : List Stmt} {condition : Option Expr}
      {increments : List Expr} {body : Stmt} {location : Location} {rest : List Stmt}
      {text : String} {inner lines : List Line} (ht : IsPlain text)
      (hb : Laid dialect (depth + 1) body.contents inner) (hr : Laid dialect depth rest lines) :
      Laid dialect depth (⟨.forLoop initializers condition increments body, location⟩ :: rest)
        (⟨depth, s!"for ({text})"⟩ :: Line.braced depth inner ++ lines)

namespace Laid

variable {dialect : Dialect} {depth : Nat} {stmts rest : List Stmt} {lines more : List Line}

theorem append (h : Laid dialect depth stmts lines) (hm : Laid dialect depth rest more) :
    Laid dialect depth (stmts ++ rest) (lines ++ more) := by
  induction h with
  | nil => exact hm
  | simple texts hk ht _ ih => simpa using Laid.simple texts hk ht (ih hm)
  | returning _ ih => exact .returning (ih hm)
  | block hb _ _ ih => simpa using Laid.block hb (ih hm)
  | ifThen ht hb _ _ ih => simpa using Laid.ifThen ht hb (ih hm)
  | ifElse ht hthen helse _ _ _ ih => simpa using Laid.ifElse ht hthen helse (ih hm)
  | whileLoop ht hb _ _ ih => simpa using Laid.whileLoop ht hb (ih hm)
  | doWhileLoop ht hb _ _ ih => simpa using Laid.doWhileLoop ht hb (ih hm)
  | forLoop ht hb _ _ ih => simpa using Laid.forLoop ht hb (ih hm)

/-- Statements that are laid out return to the level where they start. -/
theorem leads (h : Laid dialect depth stmts lines) : Line.Leads depth lines depth := by
  induction h with
  | nil depth => exact .nil depth
  | simple texts _ ht _ ih => exact (Line.Leads.plains ht _).append ih
  | returning _ ih => exact (Line.Leads.plain dialect.isPlain_returnStatement _).append ih
  | block _ _ ihb ih => exact ihb.braced.append ih
  | ifThen ht _ _ ihb ih =>
      have hheader := isPlain_between ht "if (" ")" (by decide) (by decide)
      exact (Line.Leads.headed hheader ihb).append ih
  | ifElse ht _ _ _ ihthen ihelse ih =>
      have hheader := isPlain_between ht "if (" ")" (by decide) (by decide)
      have helse : IsPlain "else" := by decide
      exact ((Line.Leads.headed hheader ihthen).append (Line.Leads.headed helse ihelse)).append ih
  | whileLoop ht _ _ ihb ih =>
      have hheader := isPlain_between ht "while (" ")" (by decide) (by decide)
      exact (Line.Leads.headed hheader ihb).append ih
  | doWhileLoop ht _ _ ihb ih =>
      have hdo : IsPlain "do" := by decide
      have hcondition := isPlain_between ht "while (" ");" (by decide) (by decide)
      exact (Line.Leads.headed hdo ihb).append ((Line.Leads.plain hcondition _).append ih)
  | forLoop ht _ _ ihb ih =>
      have hheader := isPlain_between ht "for (" ")" (by decide) (by decide)
      exact (Line.Leads.headed hheader ihb).append ih

/-- A branch or the body of a loop is laid out in braces of its own. -/
theorem encloseBranch {branch : Stmt}
    (h : Laid dialect (branch.branchDepth depth) [branch] lines) :
    ∃ inner, branch.encloseBranch depth lines = Line.braced depth inner ∧
      Laid dialect (depth + 1) branch.contents inner := by
  obtain ⟨kind, location⟩ := branch
  cases kind
  case block body =>
    -- a block has its braces already, everything else gets them here
    cases h with
    | simple texts hk => cases hk
    | block hb hr =>
        cases hr
        exact ⟨_, List.append_nil _, hb⟩
  all_goals exact ⟨lines, rfl, h⟩

/-- The lines of statements are those of the first one and those of the others. -/
theorem uncons {stmt : Stmt} (h : Laid dialect depth (stmt :: rest) lines) :
    ∃ first others, lines = first ++ others ∧ Laid dialect depth [stmt] first ∧
      Laid dialect depth rest others := by
  cases h with
  | simple texts hk ht hr =>
      exact ⟨_, _, rfl, by simpa using Laid.simple texts hk ht (.nil depth), hr⟩
  | returning hr => exact ⟨[_], _, rfl, .returning (.nil depth), hr⟩
  | block hb hr => exact ⟨_, _, rfl, by simpa using Laid.block hb (.nil depth), hr⟩
  | ifThen ht hb hr => exact ⟨_, _, rfl, by simpa using Laid.ifThen ht hb (.nil depth), hr⟩
  | ifElse ht hthen helse hr =>
      exact ⟨_, _, rfl, by simpa using Laid.ifElse ht hthen helse (.nil depth), hr⟩
  | whileLoop ht hb hr => exact ⟨_, _, rfl, by simpa using Laid.whileLoop ht hb (.nil depth), hr⟩
  | @doWhileLoop depth condition body location rest text inner lines ht hb hr =>
      refine ⟨⟨depth, "do"⟩ :: Line.braced depth inner ++ [⟨depth, s!"while ({text});"⟩], lines,
        by simp, ?_, hr⟩
      exact .doWhileLoop ht hb (.nil depth)
  | forLoop ht hb hr => exact ⟨_, _, rfl, by simpa using Laid.forLoop ht hb (.nil depth), hr⟩

theorem of_append (h : Laid dialect depth (stmts ++ rest) lines) :
    ∃ first others, lines = first ++ others ∧ Laid dialect depth stmts first ∧
      Laid dialect depth rest others := by
  induction stmts generalizing lines with
  | nil => exact ⟨[], lines, rfl, .nil depth, h⟩
  | cons stmt stmts ih =>
      obtain ⟨first, tail, rfl, hfirst, htail⟩ := h.uncons
      obtain ⟨middle, others, rfl, hmiddle, hothers⟩ := ih htail
      exact ⟨first ++ middle, others, by simp, hfirst.append hmiddle, hothers⟩

theorem eq_of_returning {value : Option Expr} {location : Location}
    (h : Laid dialect depth [⟨.returning value, location⟩] lines) :
    lines = [⟨depth, dialect.returnStatement⟩] := by
  cases h with
  | simple texts hk => cases hk
  | returning hr =>
      cases hr
      rfl

/-- Statements that end with a return are laid out with the return at their end. -/
theorem exists_return (h : Laid dialect depth stmts lines) (he : Dialect.endsWithReturn stmts) :
    ∃ front, lines = front ++ [⟨depth, dialect.returnStatement⟩] := by
  unfold Dialect.endsWithReturn at he
  split at he
  · rename_i value location hlast
    obtain ⟨before, rfl⟩ := List.getLast?_eq_some_iff.mp hlast
    obtain ⟨front, others, rfl, -, hothers⟩ := h.of_append
    exact ⟨front, by rw [hothers.eq_of_returning]⟩
  · cases he

end Laid

/-! ## Writing statements -/

/-- The names and the declared variables in a node are words of an alphabet. -/
structure Node.SpelledIn (alphabet : Char → Prop) (node : Node) : Prop where
  named : node.NamedIn alphabet
  declared : ∀ declaration location, node.Contains (.stmt ⟨.declaration declaration, location⟩) →
    ∀ declarator ∈ declaration.declarators, MadeOf alphabet declarator.name

section

variable {alphabet : Char → Prop} {location : Location}

theorem Node.SpelledIn.contains {whole node : Node} (h : whole.SpelledIn alphabet)
    (hn : whole.Contains node) : node.SpelledIn alphabet :=
  ⟨h.named.contains hn, fun declaration location hd => h.declared declaration location (hn.trans hd)⟩

theorem Node.SpelledIn.part {whole part : Node} (h : whole.SpelledIn alphabet)
    (hp : part ∈ whole.parts) : part.SpelledIn alphabet :=
  h.contains (.single hp)

theorem Node.spelledIn_stmt {kind : StmtKind} : (Node.stmt ⟨kind, location⟩).SpelledIn alphabet ↔
    (∀ declaration, kind = .declaration declaration →
      ∀ declarator ∈ declaration.declarators, MadeOf alphabet declarator.name) ∧
    ∀ part ∈ kind.parts, part.SpelledIn alphabet := by
  constructor
  · intro h
    refine ⟨?_, fun part hp => h.part hp⟩
    rintro declaration rfl
    exact h.declared _ _ (contains_self _)
  · rintro ⟨hown, hparts⟩
    refine ⟨everywhere_stmt.mpr fun part hp => (hparts part hp).named, ?_⟩
    intro declaration inner hc
    rcases Relation.ReflTransGen.cases_head hc with heq | ⟨part, hp, hc⟩
    · cases heq
      exact hown _ rfl
    · exact (hparts part hp).declared _ _ hc

theorem Node.spelledIn_expr {kind : ExprKind} {notes : Notes} :
    (Node.expr ⟨kind, location, notes⟩).SpelledIn alphabet ↔
      (∀ name, kind = .identifier name → MadeOf alphabet name) ∧
        ∀ part ∈ kind.parts, part.SpelledIn alphabet := by
  constructor
  · exact fun h => ⟨h.named _ (contains_self _), fun part hp => h.part hp⟩
  · rintro ⟨hown, hparts⟩
    refine ⟨everywhere_expr.mpr ⟨hown, fun part hp => (hparts part hp).named⟩, ?_⟩
    intro declaration inner hc
    rcases Relation.ReflTransGen.cases_head hc with heq | ⟨part, hp, hc⟩
    · cases heq
    · exact (hparts part hp).declared _ _ hc

end

namespace Dialect

variable {dialect : Dialect} {scope : Scope} {depth : Nat}

theorem isPlain_renderText {e : Expr} (hn : (Node.expr e).NamedIn IsPlainChar) :
    Yields (dialect.renderText scope e) IsPlain :=
  (spelled_render spellsWords_isPlainChar dialect scope e hn).bind
    fun _ h => .pure h.isPlain

theorem isPlain_renderTexts {es : List Expr}
    (hn : ∀ e ∈ es, (Node.expr e).NamedIn IsPlainChar) :
    Yields (dialect.renderTexts scope es) fun texts => ∀ text ∈ texts, IsPlain text :=
  .forall_mapM fun e he => isPlain_renderText (hn e he)

theorem isPlain_typeName {type : DataType} : Yields (dialect.typeName type) IsPlain :=
  fun _ h => (isWord_typeName h).isPlain

theorem isPlain_declarator {declarator : VariableDeclarator} (hd : IsPlain declarator.name)
    (hn : ∀ value ∈ declarator.initializer, (Node.expr value).NamedIn IsPlainChar) :
    Yields (dialect.declarator scope declarator) IsPlain := by
  unfold Dialect.declarator
  cases hv : declarator.initializer with
  | none => exact .pure hd
  | some value =>
      refine (isPlain_renderText (hn value hv)).bind fun text ht => .pure ?_
      exact (hd.append (by decide)).append ht

/-- The declarators of a declaration have plain names and initializers. -/
theorem plain_declarators {declaration : VariableDeclaration} {location : Location}
    (h : (Node.stmt ⟨.declaration declaration, location⟩).SpelledIn IsPlainChar) :
    ∀ declarator ∈ declaration.declarators, IsPlain declarator.name ∧
      ∀ value ∈ declarator.initializer, (Node.expr value).NamedIn IsPlainChar := by
  intro declarator hd
  refine ⟨h.declared _ _ (Node.contains_self _) declarator hd, fun value hv => ?_⟩
  refine h.named.part ?_
  simp only [Node.parts, StmtKind.parts, VariableDeclaration.parts, List.mem_map,
    List.mem_filterMap]
  exact ⟨value, ⟨declarator, hd, hv⟩, rfl⟩

theorem laid_writeDeclarators {type : TypeRef} {declarators : List VariableDeclarator}
    (h : ∀ declarator ∈ declarators, IsPlain declarator.name ∧
      ∀ value ∈ declarator.initializer, (Node.expr value).NamedIn IsPlainChar) :
    Yields (dialect.writeDeclarators depth type scope declarators) fun written =>
      ∃ texts : List String, written.2 = texts.map (fun text => ⟨depth, text⟩) ∧
        ∀ text ∈ texts, IsPlain text := by
  induction declarators generalizing scope with
  | nil => exact .pure ⟨[], rfl, by simp⟩
  | cons declarator rest ih =>
      simp only [writeDeclarators]
      obtain ⟨hname, hvalue⟩ := h declarator (by simp)
      refine isPlain_typeName.bind fun typeName htype => ?_
      refine (isPlain_declarator hname hvalue).bind fun text htext => ?_
      refine (ih fun other ho => h other (by simp [ho])).bind fun written hw => .pure ?_
      obtain ⟨texts, hlines, hplain⟩ := hw
      have hline : IsPlain s!"{typeName} {text};" :=
        ((htype.append (by decide)).append htext).append (by decide)
      exact ⟨_ :: texts, by rw [List.map_cons, hlines], by simpa [hline] using hplain⟩

theorem isPlain_headerDeclarators {type : DataType} {declarators : List VariableDeclarator}
    (h : ∀ declarator ∈ declarators, IsPlain declarator.name ∧
      ∀ value ∈ declarator.initializer, (Node.expr value).NamedIn IsPlainChar) :
    Yields (dialect.headerDeclarators type scope declarators) fun written =>
      ∀ text ∈ written.2, IsPlain text := by
  induction declarators generalizing scope with
  | nil => exact .pure (by simp)
  | cons declarator rest ih =>
      simp only [headerDeclarators]
      obtain ⟨hname, hvalue⟩ := h declarator (by simp)
      refine (isPlain_declarator hname hvalue).bind fun text htext => ?_
      refine (ih fun other ho => h other (by simp [ho])).bind fun written hw => .pure ?_
      simpa [htext] using hw

theorem isPlain_headerInitializer {initializer : Stmt}
    (h : (Node.stmt initializer).SpelledIn IsPlainChar) :
    Yields (dialect.headerInitializer scope initializer) fun written => IsPlain written.2 := by
  obtain ⟨kind, location⟩ := initializer
  cases kind
  case declaration declaration =>
    refine isPlain_typeName.bind fun typeName htype => ?_
    refine (isPlain_headerDeclarators (plain_declarators h)).bind fun written hw => .pure ?_
    exact (htype.append (by decide)).append (isPlain_commaSeparated hw)
  case expression value =>
    have hvalue : (Node.expr value).NamedIn IsPlainChar :=
      h.named.part (by simp [Node.parts, StmtKind.parts])
    exact (isPlain_renderText hvalue).bind fun text ht => .pure ht
  all_goals exact .throw _ _

theorem isPlain_headerInitializers {initializers : List Stmt}
    (h : ∀ initializer ∈ initializers, (Node.stmt initializer).SpelledIn IsPlainChar) :
    Yields (dialect.headerInitializers scope initializers) fun written =>
      ∀ text ∈ written.2, IsPlain text := by
  induction initializers generalizing scope with
  | nil => exact .pure (by simp)
  | cons initializer rest ih =>
      rw [headerInitializers_cons]
      refine (isPlain_headerInitializer (h initializer (by simp))).bind fun written hw => ?_
      refine (ih fun other ho => h other (by simp [ho])).bind fun others ho => .pure ?_
      simpa [hw] using ho

theorem laid_writeStmts {stmts : List Stmt}
    (h : ∀ stmt ∈ stmts, ∀ depth scope,
      Yields (dialect.writeStmt depth scope stmt)
        fun written => Laid dialect depth [stmt] written.2) :
    Yields (dialect.writeStmts depth scope stmts)
      fun written => Laid dialect depth stmts written.2 := by
  induction stmts generalizing scope with
  | nil =>
      simp only [writeStmts]
      exact .pure (.nil depth)
  | cons stmt rest ih =>
      simp only [writeStmts]
      refine (h stmt (by simp) depth scope).bind fun first hf => ?_
      refine (ih fun other ho => h other (by simp [ho])).bind fun more hm => ?_
      exact .pure (hf.append hm)

/-- The three parts of the header of a loop. -/
theorem isPlain_loopHeader {initializers conditions increments : List String}
    (hi : ∀ text ∈ initializers, IsPlain text) (hc : ∀ text ∈ conditions, IsPlain text)
    (hn : ∀ text ∈ increments, IsPlain text) :
    IsPlain ("; ".intercalate [commaSeparated initializers, commaSeparated conditions,
      commaSeparated increments]) := by
  have hsemicolon : IsPlain "; " := by decide
  have hall := (((isPlain_commaSeparated hi).append hsemicolon).append
    (isPlain_commaSeparated hc)).append (hsemicolon.append (isPlain_commaSeparated hn))
  simpa [String.append_assoc] using hall

/-- A branch or the body of a loop in braces of its own. -/
theorem laid_encloseBranch {branch : Stmt}
    (h : Yields (dialect.writeStmt (branch.branchDepth depth) scope branch)
      fun written => Laid dialect (branch.branchDepth depth) [branch] written.2) :
    Yields (dialect.writeStmt (branch.branchDepth depth) scope branch) fun written =>
      ∃ inner, branch.encloseBranch depth written.2 = Line.braced depth inner ∧
        Laid dialect (depth + 1) branch.contents inner :=
  h.mono fun _ hw => hw.encloseBranch

/-- A statement is laid out at the level where it is written. -/
theorem laid_writeStmt (stmt : Stmt) (hs : (Node.stmt stmt).SpelledIn IsPlainChar) (depth : Nat)
    (scope : Scope) :
    Yields (dialect.writeStmt depth scope stmt) fun written =>
      Laid dialect depth [stmt] written.2 := by
  induction stmt using Stmt.induction generalizing depth scope with
  | step stmt ih =>
      have hpart : ∀ part, Node.stmt part ∈ stmt.kind.parts → ∀ depth scope,
          Yields (dialect.writeStmt depth scope part) fun written =>
            Laid dialect depth [part] written.2 :=
        fun part hp => ih part hp (hs.part hp)
      have hvalue : ∀ value, Node.expr value ∈ stmt.kind.parts →
          (Node.expr value).NamedIn IsPlainChar := fun value hp => (hs.part hp).named
      clear ih
      obtain ⟨kind, location⟩ := stmt
      cases kind
      case block body =>
        simp only [writeStmt, Construct.ofStmt?]
        have hbody : Yields (dialect.writeStmts (depth + 1) scope body)
            fun written => Laid dialect (depth + 1) body written.2 :=
          laid_writeStmts fun part hp => hpart part (by simp [StmtKind.parts, hp])
        refine hbody.bind fun written hw => .pure ?_
        simpa using Laid.block hw (.nil depth)
      case expression value =>
        simp only [writeStmt, Construct.ofStmt?]
        refine (isPlain_renderText (hvalue value (by simp [StmtKind.parts]))).bind
          fun text ht => .pure ?_
        have hline : IsPlain s!"{text};" := ht.append (by decide)
        exact .simple [_] rfl (by simpa using hline) (.nil depth)
      case declaration declaration =>
        simp only [writeStmt, Construct.ofStmt?]
        refine (laid_writeDeclarators (plain_declarators hs)).mono fun written hw => ?_
        obtain ⟨texts, hlines, hplain⟩ := hw
        rw [hlines]
        simpa using Laid.simple texts rfl hplain (.nil depth)
      case ifElse condition thenBranch elseBranch =>
        simp only [writeStmt, Construct.ofStmt?]
        refine (isPlain_renderText (hvalue condition (by simp [StmtKind.parts]))).bind
          fun text ht => ?_
        refine (laid_encloseBranch (hpart thenBranch (by simp [StmtKind.parts]) _ scope)).bind
          fun first hf => ?_
        obtain ⟨thenInner, hthen, hthenLaid⟩ := hf
        cases elseBranch with
        | none =>
            simp only [writeElse]
            refine .pure ?_
            simpa [hthen] using Laid.ifThen ht hthenLaid (.nil depth)
        | some elseBranch =>
            simp only [writeElse, bind_assoc]
            refine (laid_encloseBranch (hpart elseBranch (by simp [StmtKind.parts]) _ _)).bind
              fun second hs => .pure ?_
            obtain ⟨elseInner, helse, helseLaid⟩ := hs
            simpa [hthen, helse] using Laid.ifElse ht hthenLaid helseLaid (.nil depth)
      case whileLoop condition body =>
        simp only [writeStmt, Construct.ofStmt?]
        refine (isPlain_renderText (hvalue condition (by simp [StmtKind.parts]))).bind
          fun text ht => ?_
        refine (laid_encloseBranch (hpart body (by simp [StmtKind.parts]) _ scope)).bind
          fun written hw => .pure ?_
        obtain ⟨inner, henclosed, hinner⟩ := hw
        simpa [henclosed] using Laid.whileLoop ht hinner (.nil depth)
      case doWhileLoop body condition =>
        simp only [writeStmt, Construct.ofStmt?]
        refine (laid_encloseBranch (hpart body (by simp [StmtKind.parts]) _ scope)).bind
          fun written hw => ?_
        obtain ⟨inner, henclosed, hinner⟩ := hw
        refine (isPlain_renderText (hvalue condition (by simp [StmtKind.parts]))).bind
          fun text ht => .pure ?_
        simpa [henclosed] using Laid.doWhileLoop ht hinner (.nil depth)
      case forLoop initializers condition increments body =>
        simp only [writeStmt, Construct.ofStmt?]
        refine (isPlain_headerInitializers fun initializer hi => hs.part ?_).bind
          fun header hh => ?_
        · simp [Node.parts, StmtKind.parts, hi]
        refine (isPlain_renderTexts fun value hv => hvalue value ?_).bind fun conditions hc => ?_
        · simp_all [StmtKind.parts]
        refine (isPlain_renderTexts fun value hv => hvalue value ?_).bind fun texts ht => ?_
        · simp [StmtKind.parts, hv]
        refine (laid_encloseBranch (hpart body (by simp [StmtKind.parts]) _ _)).bind
          fun written hw => .pure ?_
        obtain ⟨inner, henclosed, hinner⟩ := hw
        have hheader := isPlain_loopHeader hh hc ht
        simpa [henclosed] using Laid.forLoop hheader hinner (.nil depth)
      case returning value =>
        cases value with
        | none =>
            simp only [writeStmt, Construct.ofStmt?]
            exact .pure (.returning (.nil depth))
        | some value =>
            simp only [writeStmt, Construct.ofStmt?]
            exact .throw _ _
      case empty =>
        simp only [writeStmt, Construct.ofStmt?]
        exact .pure (.simple [] rfl (by simp) (.nil depth))
      case breakLoop | continueLoop =>
        simp only [writeStmt, Construct.ofStmt?]
        exact .pure (.simple [_] rfl (by simpa using by decide) (.nil depth))
      all_goals
        simp only [writeStmt, Construct.ofStmt?]
        exact .throw _ _

end Dialect

end ShaderEffect
