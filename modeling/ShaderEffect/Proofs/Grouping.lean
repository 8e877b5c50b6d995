import ShaderEffect.Proofs.Brackets
import ShaderEffect.Proofs.Spelling

/-!
# Operators and their operands

Whoever reads the text of an expression finds the operands of its operator again: brackets are closed
where they have to be, and between the spaces outside of all brackets there are the operator of the
expression and its operands, and no other operator.
-/

namespace ShaderEffect

open Brackets (inExpressions)

/-- A character that neither ends a word nor is a bracket. -/
def IsNameChar (c : Char) : Prop :=
  c ∉ [' ', '(', ')', '[', ']']

instance : DecidablePred IsNameChar :=
  fun c => inferInstanceAs (Decidable (c ∉ _))

theorem spellsWords_isNameChar : SpellsWords IsNameChar where
  word c hc := by
    simp only [IsNameChar, List.mem_cons, List.not_mem_nil, or_false]
    rintro (rfl | rfl | rfl | rfl | rfl) <;> revert hc <;> decide
  minus := by decide

/-! ## Brackets of the forms -/

/-- The text closes its brackets and is one word, unless it needs parentheses to be an operand. -/
structure Operand.IsGrouped (operand : Operand) : Prop where
  balanced : inExpressions.Balanced operand.text
  oneWord : operand.compound = false → inExpressions.IsOneWord operand.text

section

variable {text first second : String} {operand : Operand}

theorem MadeOf.isOneWord (h : MadeOf IsNameChar text) : inExpressions.IsOneWord text := by
  have hfree : inExpressions.Free text := by
    intro c hc
    have hname := h c hc
    simp only [IsNameChar, List.mem_cons, List.not_mem_nil, or_false, not_or] at hname
    simp [inExpressions, hname]
  refine hfree.isOneWord fun c hc => ?_
  rintro rfl
  exact h _ hc (by decide)

theorem isOneWord_parenthesized (h : inExpressions.Balanced text) :
    inExpressions.IsOneWord ("(" ++ text ++ ")") := by
  have henclosed := h.isOneWord_enclosed Brackets.pair_round (by decide) (by decide)
  simpa [Brackets.enclosed] using henclosed

theorem isOneWord_bracketed (h : inExpressions.Balanced text) :
    inExpressions.IsOneWord ("[" ++ text ++ "]") := by
  have henclosed := h.isOneWord_enclosed Brackets.pair_square (by decide) (by decide)
  simpa [Brackets.enclosed] using henclosed

theorem Brackets.IsOneWord.isGrouped (h : inExpressions.IsOneWord text) :
    (Operand.atom text).IsGrouped :=
  ⟨h.balanced, fun _ => h⟩

theorem Operand.IsGrouped.wrapped (h : operand.IsGrouped) :
    inExpressions.IsOneWord operand.wrapped := by
  unfold Operand.wrapped
  split
  · exact isOneWord_parenthesized h.balanced
  · rename_i hc
    exact h.oneWord (Bool.eq_false_of_not_eq_true hc)

theorem BinaryOp.isOneWord_token (op : BinaryOp) : inExpressions.IsOneWord op.token :=
  MadeOf.isOneWord (by cases op <;> decide)

theorem AssignOp.isOneWord_token (op : AssignOp) : inExpressions.IsOneWord op.token :=
  MadeOf.isOneWord (by cases op <;> decide)

theorem UnaryOp.isOneWord_token (op : UnaryOp) : inExpressions.IsOneWord op.token :=
  MadeOf.isOneWord (by cases op <;> decide)

/-- Balanced texts with spaces around a token. -/
theorem balanced_around {token : String} (hf : inExpressions.Balanced first)
    (ht : inExpressions.IsOneWord token) (hs : inExpressions.Balanced second) :
    inExpressions.Balanced s!"{first} {token} {second}" := by
  have hspace : inExpressions.Balanced " " := by decide
  exact (((hf.append hspace).append ht.balanced).append hspace).append hs

/-- The words of an operation. -/
theorem words_around {token : String} (hf : inExpressions.IsOneWord first)
    (ht : inExpressions.IsOneWord token) (hs : inExpressions.IsOneWord second) :
    inExpressions.words s!"{first} {token} {second}" = [first, token, second] := by
  have htext : s!"{first} {token} {second}" = first ++ " " ++ (token ++ " " ++ second) := by
    simp [toString, String.append_assoc]
  rw [htext, hf.words_append, ht.words_append, hs.words_eq]

theorem words_choice {third : String} (hf : inExpressions.IsOneWord first)
    (hs : inExpressions.IsOneWord second) (ht : inExpressions.IsOneWord third) :
    inExpressions.words s!"{first} ? {second} : {third}" = [first, "?", second, ":", third] := by
  have hmark : inExpressions.IsOneWord "?" := MadeOf.isOneWord (by decide)
  have hcolon : inExpressions.IsOneWord ":" := MadeOf.isOneWord (by decide)
  have htext : s!"{first} ? {second} : {third}" =
      first ++ " " ++ ("?" ++ " " ++ (second ++ " " ++ (":" ++ " " ++ third))) := by
    simp [← String.toList_inj, toString]
  rw [htext, hf.words_append, hmark.words_append, hs.words_append, hcolon.words_append,
    ht.words_eq]

end

/-- Every form closes its brackets, and has no space outside of them unless it is compound. -/
theorem Spelled.isGrouped {operand : Operand} (h : Spelled IsNameChar operand) :
    operand.IsGrouped := by
  induction h with
  | word h => exact h.isOneWord.isGrouped
  | member _ hc iht =>
      have hpoint : inExpressions.IsOneWord "." := MadeOf.isOneWord (by decide)
      exact ((iht.wrapped.append hpoint).append hc.isOneWord).isGrouped
  | @element target position _ _ iht ihp =>
      have helement := iht.wrapped.append (isOneWord_bracketed ihp.balanced)
      simpa [toString, String.append_assoc] using helement.isGrouped
  | application function operands hf _ iho =>
      have harguments : inExpressions.Balanced (commaSeparated (operands.map (·.text))) := by
        refine commaSeparated_induction (by decide) (by decide) .append ?_
        simpa using fun operand ho => (iho operand ho).balanced
      have hcall := hf.isOneWord.append (isOneWord_parenthesized harguments)
      simpa [toString, String.append_assoc] using hcall.isGrouped
  | @conversion type operand ht _ iho =>
      have htype := isOneWord_parenthesized ht.isOneWord.balanced
      have hcast := isOneWord_parenthesized (htype.append iho.wrapped).balanced
      have htext : "(" ++ ("(" ++ type ++ ")" ++ operand.wrapped) ++ ")" =
          s!"(({type}){operand.wrapped})" := by
        simp [← String.toList_inj, toString]
      exact htext ▸ hcast.isGrouped
  | parenthesized _ ih => exact (isOneWord_parenthesized ih.balanced).isGrouped
  | leading op _ ih => exact (op.isOneWord_token.append ih.wrapped).isGrouped
  | trailing op _ ih => exact (ih.wrapped.append op.isOneWord_token).isGrouped
  | operation op _ _ ihl ihr =>
      refine ⟨balanced_around ihl.wrapped.balanced op.isOneWord_token ihr.wrapped.balanced, ?_⟩
      rintro ⟨⟩
  | assignment op _ _ iht ihv =>
      refine ⟨balanced_around iht.balanced op.isOneWord_token ihv.balanced, ?_⟩
      rintro ⟨⟩
  | @choice condition thenValue elseValue _ _ _ ihc iht ihe =>
      refine ⟨?_, by rintro ⟨⟩⟩
      have hmark : inExpressions.Balanced " ? " := by decide
      have hcolon : inExpressions.Balanced " : " := by decide
      exact (((ihc.wrapped.balanced.append hmark).append iht.wrapped.balanced).append
        hcolon).append ihe.wrapped.balanced

/-! ## Words of operations -/

namespace Dialect

variable {dialect : Dialect} {scope : Scope} {e : Expr} {operand : Operand}

theorem isGrouped_render (hn : (Node.expr e).NamedIn IsNameChar)
    (h : dialect.render scope e = .ok operand) : operand.IsGrouped :=
  (spelled_render spellsWords_isNameChar dialect scope e hn operand h).isGrouped

theorem render_binary_eq_ok {op : BinaryOp} {lhs rhs : Expr} {location : Location} {notes : Notes}
    (h : dialect.render scope ⟨.binary op lhs rhs, location, notes⟩ = .ok operand) :
    ∃ left right, dialect.render scope lhs = .ok left ∧ dialect.render scope rhs = .ok right ∧
      operand = dialect.binary op (scope.typeOf lhs) (scope.typeOf rhs) left right := by
  simp only [render] at h
  split at h
  · cases h
  · obtain ⟨left, hleft, h⟩ := bind_eq_ok.mp h
    obtain ⟨right, hright, h⟩ := bind_eq_ok.mp h
    cases h
    exact ⟨left, right, hleft, hright, rfl⟩

theorem render_conditional_eq_ok {condition thenValue elseValue : Expr} {location : Location}
    {notes : Notes}
    (h : dialect.render scope ⟨.conditional condition thenValue elseValue, location, notes⟩ =
      .ok operand) :
    ∃ first second third, dialect.render scope condition = .ok first ∧
      dialect.render scope thenValue = .ok second ∧ dialect.render scope elseValue = .ok third ∧
      operand = .ofOperator s!"{first.wrapped} ? {second.wrapped} : {third.wrapped}" := by
  simp only [render, Construct.ofExpr?] at h
  obtain ⟨first, hfirst, h⟩ := bind_eq_ok.mp h
  obtain ⟨second, hsecond, h⟩ := bind_eq_ok.mp h
  obtain ⟨third, hthird, h⟩ := bind_eq_ok.mp h
  cases h
  exact ⟨first, second, third, hfirst, hsecond, hthird, rfl⟩

theorem words_binary {op : BinaryOp} {lhsType rhsType : DataType} {left right : Operand}
    (hl : left.IsGrouped) (hr : right.IsGrouped) (hs : op.isSpecial lhsType rhsType = false) :
    inExpressions.words (dialect.binary op lhsType rhsType left right).text =
      [left.wrapped, op.token, right.wrapped] := by
  simp only [binary, hs, Bool.false_eq_true, if_false, Operand.ofOperator]
  exact words_around hl.wrapped op.isOneWord_token hr.wrapped

theorem words_product {lhsType rhsType : DataType} {left right : Operand} (hl : left.IsGrouped)
    (hr : right.IsGrouped) (hs : BinaryOp.mul.isSpecial lhsType rhsType) (hd : dialect ≠ .hlsl) :
    inExpressions.words (dialect.binary .mul lhsType rhsType left right).text =
      [right.wrapped, "*", left.wrapped] := by
  cases dialect with
  | hlsl => exact absurd rfl hd
  | glsl version =>
      have htext : s!"{right.wrapped} * {left.wrapped}" =
          s!"{right.wrapped} {BinaryOp.mul.token} {left.wrapped}" := by
        simp [← String.toList_inj, BinaryOp.token, toString]
      simp only [binary, hs, if_true, product, Operand.ofOperator, htext]
      exact words_around hr.wrapped BinaryOp.mul.isOneWord_token hl.wrapped

theorem words_remainder {lhsType rhsType : DataType} {left right : Operand} (hl : left.IsGrouped)
    (hr : right.IsGrouped) (hs : BinaryOp.rem.isSpecial lhsType rhsType) :
    inExpressions.words (hlsl.binary .rem lhsType rhsType left right).text =
      [left.wrapped, "%", right.wrapped] := by
  have htext : s!"{left.wrapped} % {right.wrapped}" =
      s!"{left.wrapped} {BinaryOp.rem.token} {right.wrapped}" := by
    simp [← String.toList_inj, BinaryOp.token, toString]
  simp only [binary, hs, if_true, remainder, Operand.ofOperator, htext]
  exact words_around hl.wrapped BinaryOp.rem.isOneWord_token hr.wrapped

end Dialect

/-- Operators do not escape their operands. Every text of an expression closes its brackets, in order,
and is one word if it is used as an operand without parentheses. An operation that is not spelled as a
function has three words, the operands and the operator, so that no other operator stands between
spaces outside of the brackets; GLSL writes the operands of a product with a matrix the other way
around. A choice has its two marks and the three operands. -/
theorem Dialect.operators_inside_operands {dialect : Dialect} {scope : Scope} {e : Expr}
    {operand : Operand} (hn : (Node.expr e).NamedIn IsNameChar)
    (h : dialect.render scope e = .ok operand) :
    inExpressions.Balanced operand.text ∧
      (operand.compound = false → inExpressions.Tight operand.text) ∧
      (∀ op lhs rhs, e.kind = .binary op lhs rhs → ∃ left right,
        dialect.render scope lhs = .ok left ∧ dialect.render scope rhs = .ok right ∧
          (op.isSpecial (scope.typeOf lhs) (scope.typeOf rhs) = false →
            inExpressions.words operand.text = [left.wrapped, op.token, right.wrapped]) ∧
          (op.isSpecial (scope.typeOf lhs) (scope.typeOf rhs) = true →
            (op = .mul → dialect ≠ .hlsl →
              inExpressions.words operand.text = [right.wrapped, "*", left.wrapped]) ∧
            (op = .rem → dialect = .hlsl →
              inExpressions.words operand.text = [left.wrapped, "%", right.wrapped]))) ∧
      (∀ condition thenValue elseValue, e.kind = .conditional condition thenValue elseValue →
        ∃ first second third, dialect.render scope condition = .ok first ∧
          dialect.render scope thenValue = .ok second ∧
          dialect.render scope elseValue = .ok third ∧
          inExpressions.words operand.text =
            [first.wrapped, "?", second.wrapped, ":", third.wrapped]) := by
  have hgrouped := isGrouped_render hn h
  obtain ⟨kind, location, notes⟩ := e
  have hparts := (Node.everywhere_expr.mp hn).2
  refine ⟨hgrouped.balanced, fun hc => (hgrouped.oneWord hc).tight, ?_, ?_⟩
  · rintro op lhs rhs rfl
    obtain ⟨left, right, hleft, hright, rfl⟩ := render_binary_eq_ok h
    have hl := isGrouped_render (hparts (.expr lhs) (by simp [ExprKind.parts])) hleft
    have hr := isGrouped_render (hparts (.expr rhs) (by simp [ExprKind.parts])) hright
    refine ⟨left, right, hleft, hright, words_binary hl hr, fun hs => ⟨?_, ?_⟩⟩
    · rintro rfl hd
      exact words_product hl hr hs hd
    · rintro rfl rfl
      exact words_remainder hl hr hs
  · rintro condition thenValue elseValue rfl
    obtain ⟨first, second, third, hfirst, hsecond, hthird, rfl⟩ := render_conditional_eq_ok h
    have hc := isGrouped_render (hparts (.expr condition) (by simp [ExprKind.parts])) hfirst
    have ht := isGrouped_render (hparts (.expr thenValue) (by simp [ExprKind.parts])) hsecond
    have he := isGrouped_render (hparts (.expr elseValue) (by simp [ExprKind.parts])) hthird
    exact ⟨first, second, third, hfirst, hsecond, hthird,
      words_choice hc.wrapped ht.wrapped he.wrapped⟩

/-- The difference of a sum, `Tint + Image.Sample(uv)`, and a choice, `Rounds < 1 ? Tint : shade`. -/
def mixedDifference : Expr :=
  let last : Expr := ⟨.binary .less (.named "Rounds") ⟨.literal (.int 1), {}, {}⟩, {}, {}⟩
  ⟨.binary .sub ⟨.binary .add (.named "Tint") imageSample, {}, {}⟩
    ⟨.conditional last (.named "Tint") (.named "shade"), {}, {}⟩, {}, {}⟩

/-- The names in the fragment shader. -/
def shadeScope : Scope :=
  { effect := tintingEffect [], method := tintingShade [], locals := [] }

/-- The text of the difference has three words; the operators of the operands are in parentheses. -/
theorem mixedDifference_operators_inside :
    (Node.expr mixedDifference).NamedIn IsNameChar ∧
      ∃ operand, Dialect.hlsl.render shadeScope mixedDifference = .ok operand ∧
        inExpressions.words operand.text =
          ["(Tint + Image.Sample(fx_sampler_Image, fx_input.uv))", "-",
            "((Rounds < 1) ? Tint : fx_output.shade)"] := by
  have hnamed : (Node.expr mixedDifference).NamedIn IsNameChar := by
    have hnames : MadeOf IsNameChar "Rounds" ∧ MadeOf IsNameChar "Tint" ∧
        MadeOf IsNameChar "Image" ∧ MadeOf IsNameChar "uv" ∧ MadeOf IsNameChar "shade" := by decide
    simp [mixedDifference, imageSample, imageSampleAt, Node.everywhere_expr,
      Node.everywhere_argument, ExprKind.parts, Expr.named, hnames]
  have hrender : ∃ operand, Dialect.hlsl.render shadeScope mixedDifference = .ok operand :=
    ⟨_, rfl⟩
  obtain ⟨operand, hoperand⟩ := hrender
  obtain ⟨-, -, hbinary, -⟩ := Dialect.operators_inside_operands hnamed hoperand
  obtain ⟨left, right, hleft, hright, hwords, -⟩ := hbinary _ _ _ rfl
  cases hleft
  cases hright
  exact ⟨hnamed, operand, hoperand, hwords rfl⟩

end ShaderEffect
