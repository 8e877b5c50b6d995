import ShaderEffect.Proofs.Dialect

/-!
# Lines of source text

What can be said about lines that are written: how deep they are nested, and how they begin. A line
outside of all braces shows by its first words what it declares, and everything that is written for
a body stands in braces.
-/

namespace ShaderEffect

/-! ## Results of writing -/

/-- What is written has a property, if anything is written. -/
def Yields {α : Type} (result : Except CompileError α) (P : α → Prop) : Prop :=
  ∀ value, result = .ok value → P value

namespace Yields

variable {α β : Type} {result : Except CompileError α} {P Q : α → Prop}

protected theorem pure {value : α} (h : P value) : Yields (pure value) P := by
  intro value' hv
  cases hv
  exact h

protected theorem throw (error : CompileError) (P : α → Prop) : Yields (throw error) P := by
  intro value hv
  cases hv

theorem refl (result : Except CompileError α) : Yields result fun value => result = .ok value :=
  fun _ hv => hv

theorem mono (h : Yields result P) (hPQ : ∀ value, P value → Q value) : Yields result Q :=
  fun value hv => hPQ value (h value hv)

protected theorem bind {next : α → Except CompileError β} {R : β → Prop} (h : Yields result P)
    (hn : ∀ value, P value → Yields (next value) R) : Yields (result >>= next) R := by
  intro value hv
  cases hr : result with
  | error error =>
      rw [hr] at hv
      cases hv
  | ok first =>
      rw [hr] at hv
      exact hn first (h first hr) value hv

protected theorem mapM {xs : List α} {f : α → Except CompileError β} {R : α → β → Prop}
    (h : ∀ x ∈ xs, Yields (f x) (R x)) : Yields (xs.mapM f) (List.Forall₂ R xs) := by
  induction xs with
  | nil => exact .pure .nil
  | cons x xs ih =>
      rw [List.mapM_cons]
      refine (h x (by simp)).bind fun y hy => ?_
      refine (ih fun other ho => h other (by simp [ho])).bind fun ys hys => ?_
      exact .pure (.cons hy hys)

theorem forall_mapM {xs : List α} {f : α → Except CompileError β} {R : β → Prop}
    (h : ∀ x ∈ xs, Yields (f x) R) : Yields (xs.mapM f) fun ys => ∀ y ∈ ys, R y := by
  induction xs with
  | nil => exact .pure (by simp)
  | cons x xs ih =>
      rw [List.mapM_cons]
      refine (h x (by simp)).bind fun y hy => ?_
      refine (ih fun other ho => h other (by simp [ho])).bind fun ys hys => ?_
      exact .pure (by simpa [hy] using hys)

end Yields

theorem exists_map_of_forall₂ {α β γ : Type} {f : β → γ} {R : α → β → Prop} {xs : List α}
    {zs : List γ} (h : List.Forall₂ (fun x z => ∃ y, z = f y ∧ R x y) xs zs) :
    ∃ ys, zs = ys.map f ∧ List.Forall₂ R xs ys := by
  induction h with
  | nil => exact ⟨[], rfl, .nil⟩
  | cons hx _ ih =>
      obtain ⟨y, rfl, hy⟩ := hx
      obtain ⟨ys, rfl, hys⟩ := ih
      exact ⟨y :: ys, rfl, .cons hy hys⟩

/-! ## Nesting -/

namespace Line

/-- All lines are at a depth of nesting or deeper. -/
def Nested (depth : Nat) (lines : List Line) : Prop :=
  ∀ line ∈ lines, depth ≤ line.depth

@[simp]
theorem nested_nil (depth : Nat) : Nested depth [] := by
  simp [Nested]

@[simp]
theorem nested_cons {depth : Nat} {line : Line} {lines : List Line} :
    Nested depth (line :: lines) ↔ depth ≤ line.depth ∧ Nested depth lines := by
  simp [Nested]

@[simp]
theorem nested_append {depth : Nat} {first second : List Line} :
    Nested depth (first ++ second) ↔ Nested depth first ∧ Nested depth second := by
  simp [Nested, or_imp, forall_and]

theorem Nested.le {depth inner : Nat} {lines : List Line} (h : Nested inner lines)
    (hd : depth ≤ inner) : Nested depth lines :=
  fun line hl => Nat.le_trans hd (h line hl)

theorem nested_encloseBranch {depth : Nat} {branch : Stmt} {lines : List Line}
    (h : Nested (branch.branchDepth depth) lines) :
    Nested depth (branch.encloseBranch depth lines) := by
  by_cases hb : branch.isBlock
  · simpa [Stmt.branchDepth, Stmt.encloseBranch, hb] using h
  · have hi : Nested (depth + 1) lines := by simpa [Stmt.branchDepth, hb] using h
    have hle := hi.le (Nat.le_succ depth)
    simpa [Stmt.encloseBranch, hb, braced] using hle

end Line

namespace Dialect

open Line (Nested nested_encloseBranch)

variable {dialect : Dialect} {scope : Scope}

theorem nested_writeDeclarators {depth : Nat} {type : TypeRef}
    {declarators : List VariableDeclarator} :
    Yields (dialect.writeDeclarators depth type scope declarators)
      fun written => Nested depth written.2 := by
  induction declarators generalizing scope with
  | nil => exact .pure (Line.nested_nil depth)
  | cons declarator rest ih =>
      simp only [writeDeclarators]
      refine (Yields.refl _).bind fun typeName _ => ?_
      refine (Yields.refl _).bind fun text _ => ?_
      refine ih.bind fun written hw => ?_
      exact .pure (by simpa using hw)

theorem nested_writeStmts {depth : Nat} {stmts : List Stmt}
    (h : ∀ stmt ∈ stmts, ∀ depth scope,
      Yields (dialect.writeStmt depth scope stmt) fun written => Nested depth written.2) :
    Yields (dialect.writeStmts depth scope stmts) fun written => Nested depth written.2 := by
  induction stmts generalizing scope with
  | nil =>
      simp only [writeStmts]
      exact .pure (Line.nested_nil depth)
  | cons stmt rest ih =>
      simp only [writeStmts]
      refine (h stmt (by simp) depth scope).bind fun first hf => ?_
      refine (ih fun other ho => h other (by simp [ho])).bind fun more hm => ?_
      exact .pure (by simpa using ⟨hf, hm⟩)

/-- The lines of a statement are never less deep than the statement. -/
theorem nested_writeStmt (stmt : Stmt) (depth : Nat) (scope : Scope) :
    Yields (dialect.writeStmt depth scope stmt) fun written => Nested depth written.2 := by
  induction stmt using Stmt.induction generalizing depth scope with
  | step stmt ih =>
      obtain ⟨kind, location⟩ := stmt
      cases kind
      case block body =>
        simp only [writeStmt, Construct.ofStmt?]
        have hbody : Yields (dialect.writeStmts (depth + 1) scope body)
            fun written => Nested (depth + 1) written.2 :=
          nested_writeStmts fun part hp => ih part (by simp [StmtKind.parts, hp])
        refine hbody.bind fun written hw => .pure ?_
        simpa [Line.braced] using hw.le (Nat.le_succ depth)
      case expression value =>
        simp only [writeStmt, Construct.ofStmt?]
        exact (Yields.refl _).bind fun text _ => .pure (by simp)
      case declaration locals =>
        simp only [writeStmt, Construct.ofStmt?]
        exact nested_writeDeclarators
      case ifElse condition thenBranch elseBranch =>
        simp only [writeStmt, Construct.ofStmt?]
        refine (Yields.refl _).bind fun text _ => ?_
        refine (ih thenBranch (by simp [StmtKind.parts]) _ scope).bind fun first hf => ?_
        have hthen := nested_encloseBranch hf
        cases elseBranch with
        | none =>
            simp only [writeElse]
            exact .pure (by simpa using hthen)
        | some elseBranch =>
            simp only [writeElse, bind_assoc]
            refine (ih elseBranch (by simp [StmtKind.parts]) _ _).bind fun second hs => ?_
            exact .pure (by simpa using ⟨hthen, nested_encloseBranch hs⟩)
      case whileLoop condition body =>
        simp only [writeStmt, Construct.ofStmt?]
        refine (Yields.refl _).bind fun text _ => ?_
        refine (ih body (by simp [StmtKind.parts]) _ scope).bind fun written hw => ?_
        exact .pure (by simpa using nested_encloseBranch hw)
      case doWhileLoop body condition =>
        simp only [writeStmt, Construct.ofStmt?]
        refine (ih body (by simp [StmtKind.parts]) _ scope).bind fun written hw => ?_
        refine (Yields.refl _).bind fun text _ => ?_
        exact .pure (by simpa using nested_encloseBranch hw)
      case forLoop initializers condition increments body =>
        simp only [writeStmt, Construct.ofStmt?]
        refine (Yields.refl _).bind fun header _ => ?_
        refine (Yields.refl _).bind fun conditions _ => ?_
        refine (Yields.refl _).bind fun texts _ => ?_
        refine (ih body (by simp [StmtKind.parts]) _ _).bind fun written hw => ?_
        exact .pure (by simpa using nested_encloseBranch hw)
      case returning value =>
        cases value with
        | none =>
            simp only [writeStmt, Construct.ofStmt?]
            exact .pure (by simp)
        | some value =>
            simp only [writeStmt, Construct.ofStmt?]
            exact .throw _ _
      case empty | breakLoop | continueLoop =>
        simp only [writeStmt, Construct.ofStmt?]
        exact .pure (by simp)
      all_goals
        simp only [writeStmt, Construct.ofStmt?]
        exact .throw _ _

end Dialect

/-! ## How lines begin -/

namespace Line

/-- Whether a line outside of all braces begins with one of some texts. -/
def opens (starts : List String) (line : Line) : Bool :=
  line.depth == 0 && starts.any fun start => start.toList.isPrefixOf line.text.toList

/-- All lines begin with one of some texts, apart from blank lines and lines in braces. -/
def Within (starts : List String) (lines : List Line) : Prop :=
  ∀ line ∈ lines, line.text = "" ∨ 0 < line.depth ∨ line.opens starts

/-- Nothing that begins with one of the first texts begins with one of the second texts. -/
def apart (first second : List String) : Bool :=
  first.all fun start => start != "" && second.all fun other =>
    !start.toList.isPrefixOf other.toList && !other.toList.isPrefixOf start.toList

@[simp]
theorem text_blank : blank.text = "" := rfl

@[simp]
theorem within_nil (starts : List String) : Within starts [] := by
  simp [Within]

@[simp]
theorem within_append {starts : List String} {first second : List Line} :
    Within starts (first ++ second) ↔ Within starts first ∧ Within starts second := by
  simp [Within, or_imp, forall_and]

@[simp]
theorem within_blank (starts : List String) : Within starts [.blank] := by
  simp [Within]

theorem within_cons {starts : List String} {line : Line} {lines : List Line} :
    Within starts (line :: lines) ↔
      (line.text = "" ∨ 0 < line.depth ∨ line.opens starts) ∧ Within starts lines := by
  simp [Within]

theorem apart_append {keywords first second : List String} :
    apart keywords (first ++ second) = (apart keywords first && apart keywords second) := by
  rw [Bool.eq_iff_iff]
  simp only [apart, List.all_append, Bool.and_eq_true, List.all_eq_true]
  grind

theorem Nested.within {starts : List String} {depth : Nat} {lines : List Line}
    (h : Nested depth lines) (hd : 0 < depth) : Within starts lines :=
  fun line hl => .inr (.inl (Nat.lt_of_lt_of_le hd (h line hl)))

theorem within_flatMap {α β : Type} {starts : List String} {xs : List α} {lines : β → List Line}
    {f : α → Except CompileError β}
    (h : ∀ x ∈ xs, Yields (f x) fun part => Within starts (lines part)) :
    Yields (xs.mapM f) fun parts => Within starts (parts.flatMap lines) := by
  refine (Yields.mapM h).mono fun parts hparts => ?_
  clear h
  induction hparts with
  | nil => exact within_nil starts
  | cons hx _ ih => simpa using ⟨hx, ih⟩

/-- Lines that begin otherwise are none of those that are looked for. -/
theorem Within.filter_eq_nil {starts keywords : List String} {lines : List Line}
    (h : Within starts lines) (ha : apart keywords starts) :
    lines.filter (opens keywords) = [] := by
  rw [List.filter_eq_nil_iff]
  intro line hl ho
  simp only [opens, Bool.and_eq_true, beq_iff_eq, List.any_eq_true] at ho
  obtain ⟨hdepth, keyword, hk, hprefix⟩ := ho
  simp only [apart, List.all_eq_true, Bool.and_eq_true, bne_iff_ne, Bool.not_eq_true'] at ha
  obtain ⟨hne, hapart⟩ := ha keyword hk
  rcases h line hl with hblank | hnested | hstart
  · rw [hblank] at hprefix
    simp at hprefix
    exact hne hprefix
  · omega
  · simp only [opens, Bool.and_eq_true, List.any_eq_true] at hstart
    obtain ⟨-, start, hs, hstart⟩ := hstart
    obtain ⟨hfirst, hsecond⟩ := hapart start hs
    -- both are beginnings of the line, so one is a beginning of the other
    rw [List.isPrefixOf_iff_prefix] at hprefix hstart
    rcases List.prefix_or_prefix_of_prefix hprefix hstart with hp | hp
    · rw [List.isPrefixOf_iff_prefix.mpr hp] at hfirst
      cases hfirst
    · rw [List.isPrefixOf_iff_prefix.mpr hp] at hsecond
      cases hsecond

end Line

end ShaderEffect
