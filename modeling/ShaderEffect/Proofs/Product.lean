import ShaderEffect.Proofs.Formula
import ShaderEffect.Proofs.Model
import ShaderEffect.Proofs.Names

/-!
# Products of matrices

Both languages compute the same with vectors and matrices. A matrix in GLSL is the transpose of the
one in HLSL, and GLSL texts have the operands of products swapped; the two make up for each other at
any depth of nesting.
-/

namespace ShaderEffect

/-! ## Written operands and their values -/

/-- A written expression has a value, both by itself and as an operand. -/
def Operand.Denotes (operand : Operand) (dialect : Dialect) (names : String → Quantity)
    (value : Quantity) : Prop :=
  ∃ formula, ReadsAs .sum (tokens operand.text) formula ∧
    ReadsAs .factor (tokens operand.wrapped) formula ∧ formula.value? dialect names = some value

section

variable {dialect : Dialect} {names : String → Quantity} {x y z : Quantity} {lhs rhs : Operand}
  {text : String}

theorem readsAs_sum_of_factor {ts : List Token} {formula : Formula}
    (h : ReadsAs .factor ts formula) : ReadsAs .sum ts formula :=
  .ofOperand (by decide) (.ofOperand (by decide) h)

theorem Operand.denotes_atom (formula : Formula) (h : ReadsAs .factor (tokens text) formula)
    (hv : formula.value? dialect names = some x) :
    (Operand.atom text).Denotes dialect names x :=
  ⟨formula, readsAs_sum_of_factor h, h, hv⟩

theorem Operand.denotes_ofOperator (formula : Formula) (h : ReadsAs .sum (tokens text) formula)
    (hv : formula.value? dialect names = some x) :
    (Operand.ofOperator text).Denotes dialect names x := by
  refine ⟨formula, h, ?_, hv⟩
  rw [wrapped, ofOperator, if_pos rfl, tokens_group]
  exact readsAs_group h

namespace Operand.Denotes

theorem parenthesized (h : lhs.Denotes dialect names x) :
    (Operand.atom s!"({lhs.text})").Denotes dialect names x := by
  obtain ⟨formula, htext, -, hv⟩ := h
  refine denotes_atom formula ?_ hv
  rw [tokens_group]
  exact readsAs_group htext

theorem mul (hl : lhs.Denotes .hlsl names x) (hr : rhs.Denotes .hlsl names y)
    (hz : x.linear? y = some z) :
    (Operand.atom s!"mul({lhs.text}, {rhs.text})").Denotes .hlsl names z := by
  obtain ⟨first, hfirst, -, hx⟩ := hl
  obtain ⟨second, hsecond, -, hy⟩ := hr
  refine denotes_atom (.call "mul" first second) ?_ ?_
  · rw [tokens_mul]
    exact readsAs_call hfirst hsecond
  · simp [Formula.value?, hx, hy, Dialect.function?, hz]

/-- Operands of an operator are factors, so that it does not matter how close it binds. -/
theorem operation (hl : lhs.Denotes dialect names x) (hr : rhs.Denotes dialect names y) {c : Char}
    (hc : c ∈ ['+', '-', '*']) {symbol : String} (hs : symbol.toList = [c])
    (hz : dialect.operation? c x y = some z) :
    (Operand.ofOperator s!"{lhs.wrapped} {symbol} {rhs.wrapped}").Denotes dialect names z := by
  obtain ⟨left, -, hleft, hx⟩ := hl
  obtain ⟨right, -, hright, hy⟩ := hr
  refine denotes_ofOperator (.operation c left right) ?_ ?_
  · rw [tokens_operation hc hs]
    by_cases hproduct : c = '*'
    · subst hproduct
      have hproduct : ReadsAs .product _ (.operation '*' left right) :=
        readsAs_operation (by decide) hleft hright
      exact .ofOperand (by decide) hproduct
    · refine readsAs_operation ?_ ?_ ?_
      · simp_all [Level.operators]
      · exact .ofOperand (by decide) hleft
      · exact .ofOperand (by decide) hright
  · simp [Formula.value?, hx, hy, hz]

end Operand.Denotes

theorem Operand.Denotes.valueOf? (h : lhs.Denotes dialect names x) :
    dialect.valueOf? names lhs.text = some x := by
  obtain ⟨formula, htext, -, hv⟩ := h
  have hread := htext (3 * (tokens lhs.text).length + 3) [] (by simp [Level.steps])
    (Level.ends_nil _)
  rw [List.append_nil] at hread
  simp [Dialect.valueOf?, Formula.ofText?, hread, hv]

end

/-! ## References -/

/-- What a name that is bound in a scope is written as. -/
def Dialect.reference (dialect : Dialect) (scope : Scope) (name : String) : String :=
  match scope.lookup? name with
  | some (.parameter declared) => dialect.parameter scope.method declared
  | _ => name

theorem Dialect.identifier_eq {dialect : Dialect} {scope : Scope} {name : String}
    {binding : Binding} (h : scope.lookup? name = some binding) :
    dialect.identifier scope name = .ok (dialect.reference scope name) := by
  simp only [identifier, reference, h]
  cases binding <;> rfl

theorem IsWord.append {first second : String} (hf : IsWord first) (hs : IsWord second) :
    IsWord (first ++ second) := by
  refine ⟨by simp [hf.1], ?_⟩
  intro c hc
  rw [String.toList_append, List.mem_append] at hc
  exact hc.elim (hf.2 c) (hs.2 c)

theorem isWord_glslName (semantics : Semantics) : IsWord semantics.glslName := by
  cases semantics with
  | position | normal => decide
  | color index | texCoord index =>
      revert index
      decide

theorem Scope.name_of_lookup?_parameter {scope : Scope} {name : String}
    {declared : ShaderParameter} (h : scope.lookup? name = some (.parameter declared)) :
    declared.name = name := by
  unfold lookup? at h
  split at h
  · cases h
  · split at h
    · rename_i hp
      cases h
      simpa using List.find?_some hp
    · split at h
      · cases h
      · split at h
        · cases h
        · simp at h

theorem isWord_glslPosition (stage : Stage) : IsWord (glslPosition stage) := by
  cases stage <;> decide

/-- A reference to a parameter is a word of its own, or the name behind a word. -/
theorem Dialect.parameter_cases (dialect : Dialect) (method : ShaderMethod)
    (declared : ShaderParameter) : IsWord (dialect.parameter method declared) ∨
      ∃ stem, IsWord stem ∧ dialect.parameter method declared = stem ++ declared.name := by
  cases dialect with
  | hlsl =>
      cases hd : declared.direction with
      | input => exact .inr ⟨hlslInputVariable ++ ".", by decide, by simp [parameter, hd, toString]⟩
      | output =>
          exact .inr ⟨hlslOutputVariable ++ ".", by decide, by simp [parameter, hd, toString]⟩
  | glsl version =>
      have hname := isWord_glslName declared.semantics
      have hin : IsWord ("a_" ++ declared.semantics.glslName) := .append (by decide) hname
      have hout : IsWord ("o_" ++ declared.semantics.glslName) := .append (by decide) hname
      have hbetween : IsWord ("v_" ++ declared.semantics.glslName) := .append (by decide) hname
      have hposition := isWord_glslPosition method.stage
      left
      simp only [parameter, glslVariable?]
      split
      · simpa [toString] using hin
      · simpa [toString] using hout
      · split
        · simpa using hposition
        · simpa [toString] using hbetween

theorem Dialect.isWord_parameter (dialect : Dialect) (method : ShaderMethod)
    {declared : ShaderParameter} (h : IsWord declared.name) :
    IsWord (dialect.parameter method declared) := by
  obtain hword | ⟨stem, hstem, htext⟩ := dialect.parameter_cases method declared
  · exact hword
  · exact htext ▸ hstem.append h

theorem Dialect.isWord_reference {dialect : Dialect} {scope : Scope} {name : String}
    (h : IsWord name) : IsWord (dialect.reference scope name) := by
  unfold reference
  split
  · rename_i declared hlookup
    have hname := Scope.name_of_lookup?_parameter hlookup
    exact dialect.isWord_parameter scope.method (hname ▸ h)
  · exact h

/-! ## Expressions -/

/-- The type of a product of vectors and matrices. -/
def productType (lhs rhs : DataType) : DataType :=
  if lhs = .matrix ∧ rhs = .matrix then .matrix else .vector4

/-- A vector or a matrix. -/
def DataType.IsAlgebraic (type : DataType) : Prop :=
  type = .vector4 ∨ type = .matrix

/-- Expressions without notes that compute with the vectors and the matrices of a scope, and their
types. Names are single words, as all identifiers are. -/
inductive Scope.Algebraic (scope : Scope) : DataType → Expr → Prop where
  | identifier {type : DataType} {name : String} {binding : Binding} (location : Location)
      (hname : IsWord name) (hbound : scope.lookup? name = some binding)
      (htype : binding.type = type) (halgebraic : type.IsAlgebraic) :
      Algebraic scope type ⟨.identifier name, location, {}⟩
  | product {left right : DataType} {lhs rhs : Expr} (location : Location)
      (hl : Algebraic scope left lhs) (hr : Algebraic scope right rhs) :
      Algebraic scope (productType left right) ⟨.binary .mul lhs rhs, location, {}⟩
  | sum {type : DataType} {lhs rhs : Expr} (location : Location)
      (hl : Algebraic scope type lhs) (hr : Algebraic scope type rhs) :
      Algebraic scope type ⟨.binary .add lhs rhs, location, {}⟩
  | difference {type : DataType} {lhs rhs : Expr} (location : Location)
      (hl : Algebraic scope type lhs) (hr : Algebraic scope type rhs) :
      Algebraic scope type ⟨.binary .sub lhs rhs, location, {}⟩
  | parenthesized {type : DataType} {inner : Expr} (location : Location)
      (h : Algebraic scope type inner) :
      Algebraic scope type ⟨.parenthesized inner, location, {}⟩

theorem Scope.Algebraic.isAlgebraic {scope : Scope} {type : DataType} {e : Expr}
    (h : scope.Algebraic type e) : type.IsAlgebraic := by
  induction h with
  | identifier _ _ _ _ halgebraic => exact halgebraic
  | product =>
      unfold productType
      split
      · exact .inr rfl
      · exact .inl rfl
  | sum _ _ _ ih | difference _ _ _ ih | parenthesized _ _ ih => exact ih

theorem BinaryOp.resultType_mul {left right : DataType} (hl : left.IsAlgebraic)
    (hr : right.IsAlgebraic) : BinaryOp.mul.resultType left right = productType left right := by
  rcases hl with rfl | rfl <;> rcases hr with rfl | rfl <;> rfl

theorem BinaryOp.resultType_self {op : BinaryOp} (hop : op = .add ∨ op = .sub) {type : DataType}
    (h : type.IsAlgebraic) : op.resultType type type = type := by
  rcases hop with rfl | rfl <;> rcases h with rfl | rfl <;> rfl

theorem Scope.Algebraic.resolvedType? {scope : Scope} {type : DataType} {e : Expr}
    (h : scope.Algebraic type e) : e.resolvedType? = none := by
  induction h with
  | identifier | product | sum | difference => rfl
  | parenthesized _ _ ih =>
      rw [Expr.resolvedType?]
      exact ih

theorem Scope.Algebraic.typeOf_eq {scope : Scope} {type : DataType} {e : Expr}
    (h : scope.Algebraic type e) : scope.typeOf e = type := by
  have hnone : ∀ {type e}, scope.Algebraic type e → e.annotatedDataType? = none := by
    intro type e h
    rw [Expr.annotatedDataType?, h.resolvedType?]
  have hself := hnone h
  induction h with
  | identifier location hname hbound htype halgebraic =>
      rw [typeOf, hself]
      simp only [hbound, htype]
  | product location hl hr ihl ihr =>
      rw [typeOf, hself]
      simp only
      rw [ihl (hnone hl), ihr (hnone hr), BinaryOp.resultType_mul hl.isAlgebraic hr.isAlgebraic]
  | sum location hl hr ihl ihr =>
      rw [typeOf, hself]
      simp only
      rw [ihl (hnone hl), ihr (hnone hr), BinaryOp.resultType_self (.inl rfl) hl.isAlgebraic]
  | difference location hl hr ihl ihr =>
      rw [typeOf, hself]
      simp only
      rw [ihl (hnone hl), ihr (hnone hr), BinaryOp.resultType_self (.inr rfl) hl.isAlgebraic]
  | parenthesized location h ih =>
      rw [typeOf, hself]
      exact ih (hnone h)

/-! ## Values in the two languages -/

open Matrix in
/-- How the value of an expression of a type in HLSL and that in GLSL go together: vectors are the
same, and matrices are transposed. -/
inductive Corresponds : DataType → Quantity → Quantity → Prop where
  | vector (v : Fin 4 → ℚ) : Corresponds .vector4 (.vector v) (.vector v)
  | matrix (m : Matrix (Fin 4) (Fin 4) ℚ) : Corresponds .matrix (.matrix m) (.matrix mᵀ)

/-- The operands are swapped in GLSL, where products with a matrix are transposed. -/
theorem Corresponds.linear {left right : DataType} {x y x' y' : Quantity}
    (hl : Corresponds left x x') (hr : Corresponds right y y')
    (hm : left = .matrix ∨ right = .matrix) :
    ∃ z z', x.linear? y = some z ∧ y'.linear? x' = some z' ∧
      Corresponds (productType left right) z z' := by
  cases hl with
  | vector v =>
      cases hr with
      | vector w => simp at hm
      | matrix n =>
          refine ⟨_, _, rfl, rfl, ?_⟩
          rw [Matrix.mulVec_transpose]
          exact .vector _
  | matrix m =>
      cases hr with
      | vector w =>
          refine ⟨_, _, rfl, rfl, ?_⟩
          rw [Matrix.vecMul_transpose]
          exact .vector _
      | matrix n =>
          refine ⟨_, _, rfl, rfl, ?_⟩
          rw [← Matrix.transpose_mul]
          exact .matrix _

/-- An operation on components does the same in both languages. -/
theorem Corresponds.zip {type : DataType} {x y x' y' : Quantity} (hl : Corresponds type x x')
    (hr : Corresponds type y y') (op : ℚ → ℚ → ℚ) :
    ∃ z z', x.zip? op y = some z ∧ x'.zip? op y' = some z' ∧ Corresponds type z z' := by
  cases hl with
  | vector v =>
      cases hr with
      | vector w => exact ⟨_, _, rfl, rfl, .vector _⟩
  | matrix m =>
      cases hr with
      | matrix n => exact ⟨_, _, rfl, rfl, .matrix _⟩

/-! ## Written expressions -/

/-- A language writes an expression as a text that has a value. -/
def Dialect.Writes (dialect : Dialect) (scope : Scope) (names : String → Quantity) (e : Expr)
    (value : Quantity) : Prop :=
  ∃ operand, dialect.render scope e = .ok operand ∧ operand.Denotes dialect names value

namespace Dialect.Writes

variable {dialect : Dialect} {scope : Scope} {names : String → Quantity} {x y z : Quantity}
  {lhs rhs : Expr} {location : Location} {notes : Notes}

theorem identifier {name : String} {binding : Binding} (hname : IsWord name)
    (hbound : scope.lookup? name = some binding) :
    dialect.Writes scope names ⟨.identifier name, location, notes⟩
      (names (dialect.reference scope name)) := by
  refine ⟨.atom (dialect.reference scope name), ?_, ?_⟩
  · simp only [render, Construct.ofExpr?, identifier_eq hbound]
    rfl
  · refine Operand.denotes_atom (.name (dialect.reference scope name)) ?_ rfl
    rw [tokens_word (isWord_reference hname)]
    exact readsAs_word _

theorem parenthesized (h : dialect.Writes scope names lhs x) :
    dialect.Writes scope names ⟨.parenthesized lhs, location, notes⟩ x := by
  obtain ⟨operand, hrender, hdenotes⟩ := h
  refine ⟨.atom s!"({operand.text})", ?_, hdenotes.parenthesized⟩
  simp only [render, Construct.ofExpr?, hrender]
  rfl

theorem render_binary {left right : Operand} {op : BinaryOp}
    (hop : Construct.ofExpr? (.binary op lhs rhs) = none)
    (hl : dialect.render scope lhs = .ok left) (hr : dialect.render scope rhs = .ok right) :
    dialect.render scope ⟨.binary op lhs rhs, location, notes⟩ =
      .ok (dialect.binary op (scope.typeOf lhs) (scope.typeOf rhs) left right) := by
  simp only [render, hop, hl, hr]
  rfl

/-- Sums, differences and products of vectors are written with the operator itself. -/
theorem plain (hl : dialect.Writes scope names lhs x) (hr : dialect.Writes scope names rhs y)
    {op : BinaryOp} (c : Char) (hop : (op, c) ∈ [(.add, '+'), (.sub, '-'), (.mul, '*')])
    (hplain : op.isSpecial (scope.typeOf lhs) (scope.typeOf rhs) = false)
    (hz : dialect.operation? c x y = some z) :
    dialect.Writes scope names ⟨.binary op lhs rhs, location, notes⟩ z := by
  obtain ⟨left, hleft, hx⟩ := hl
  obtain ⟨right, hright, hy⟩ := hr
  have hwritten : Construct.ofExpr? (.binary op lhs rhs) = none := by
    rcases (by simpa using hop : _ ∨ _ ∨ _) with ⟨rfl, -⟩ | ⟨rfl, -⟩ | ⟨rfl, -⟩ <;> rfl
  refine ⟨_, render_binary hwritten hleft hright, ?_⟩
  simp only [binary, hplain, Bool.false_eq_true, if_false]
  refine hx.operation hy ?_ ?_ hz
  · grind
  · rcases (by simpa using hop : _ ∨ _ ∨ _) with ⟨rfl, rfl⟩ | ⟨rfl, rfl⟩ | ⟨rfl, rfl⟩ <;> rfl

theorem product_hlsl (hl : hlsl.Writes scope names lhs x) (hr : hlsl.Writes scope names rhs y)
    (hspecial : BinaryOp.mul.isSpecial (scope.typeOf lhs) (scope.typeOf rhs))
    (hz : x.linear? y = some z) :
    hlsl.Writes scope names ⟨.binary .mul lhs rhs, location, notes⟩ z := by
  obtain ⟨left, hleft, hx⟩ := hl
  obtain ⟨right, hright, hy⟩ := hr
  refine ⟨_, render_binary rfl hleft hright, ?_⟩
  rw [binary, if_pos hspecial]
  exact hx.mul hy hz

theorem product_glsl {version : GlslVersion} (hl : (glsl version).Writes scope names lhs x)
    (hr : (glsl version).Writes scope names rhs y)
    (hspecial : BinaryOp.mul.isSpecial (scope.typeOf lhs) (scope.typeOf rhs))
    (hz : (glsl version).operation? '*' y x = some z) :
    (glsl version).Writes scope names ⟨.binary .mul lhs rhs, location, notes⟩ z := by
  obtain ⟨left, hleft, hx⟩ := hl
  obtain ⟨right, hright, hy⟩ := hr
  refine ⟨_, render_binary rfl hleft hright, ?_⟩
  rw [binary, if_pos hspecial]
  have hswapped := hy.operation hx (c := '*') (by simp) (show "*".toList = ['*'] from rfl) hz
  have hspaced : " * " = " " ++ "*" ++ " " := rfl
  simpa [product, hspaced, toString, String.append_assoc] using hswapped

theorem valueOf? (h : dialect.Writes scope names lhs x) :
    ∃ text, dialect.renderText scope lhs = .ok text ∧ dialect.valueOf? names text = some x := by
  obtain ⟨operand, hrender, hdenotes⟩ := h
  refine ⟨operand.text, ?_, hdenotes.valueOf?⟩
  rw [renderText, hrender]
  rfl

end Dialect.Writes

section

variable {scope : Scope} {version : GlslVersion} {first second : String → Quantity}
  {lhs rhs : Expr} {left right type : DataType} {location : Location}

/-- Both languages write an expression, with values that correspond. -/
def Scope.WrittenAlike (scope : Scope) (version : GlslVersion) (first second : String → Quantity)
    (type : DataType) (e : Expr) : Prop :=
  ∃ x y, Dialect.hlsl.Writes scope first e x ∧ (Dialect.glsl version).Writes scope second e y ∧
    Corresponds type x y

theorem Scope.WrittenAlike.product
    (hl : scope.WrittenAlike version first second left lhs)
    (hr : scope.WrittenAlike version first second right rhs)
    (htl : scope.typeOf lhs = left) (htr : scope.typeOf rhs = right) :
    scope.WrittenAlike version first second (productType left right)
      ⟨.binary .mul lhs rhs, location, {}⟩ := by
  obtain ⟨x, x', hx, hx', hleft⟩ := hl
  obtain ⟨y, y', hy, hy', hright⟩ := hr
  by_cases hmatrix : left = .matrix ∨ right = .matrix
  · obtain ⟨z, z', hz, hz', htype⟩ := hleft.linear hright hmatrix
    have hspecial : BinaryOp.mul.isSpecial (scope.typeOf lhs) (scope.typeOf rhs) := by
      rcases hmatrix with rfl | rfl <;> simp [htl, htr, BinaryOp.isSpecial, DataType.isMatrix]
    refine ⟨z, z', hx.product_hlsl hy hspecial hz, hx'.product_glsl hy' hspecial ?_, htype⟩
    -- the operator of GLSL is the product of linear algebra here, because one operand is a matrix
    cases hleft <;> cases hright
    · simp at hmatrix
    all_goals exact hz'
  · cases hleft with
    | matrix m => simp at hmatrix
    | vector v =>
        cases hright with
        | matrix n => simp at hmatrix
        | vector w =>
            have hplain : BinaryOp.mul.isSpecial (scope.typeOf lhs) (scope.typeOf rhs) = false := by
              simp [htl, htr, BinaryOp.isSpecial, DataType.isMatrix]
            exact ⟨_, _, hx.plain hy '*' (by simp) hplain rfl,
              hx'.plain hy' '*' (by simp) hplain rfl, .vector _⟩

theorem Scope.WrittenAlike.componentwise {op : BinaryOp} {c : Char} {f : ℚ → ℚ → ℚ}
    (hl : scope.WrittenAlike version first second type lhs)
    (hr : scope.WrittenAlike version first second type rhs)
    (hop : (op, c) ∈ [(.add, '+'), (.sub, '-'), (.mul, '*')])
    (hplain : ∀ left right, op.isSpecial left right = false)
    (hf : ∀ (dialect : Dialect) x y, dialect.operation? c x y = x.zip? f y) :
    scope.WrittenAlike version first second type ⟨.binary op lhs rhs, location, {}⟩ := by
  obtain ⟨x, x', hx, hx', hleft⟩ := hl
  obtain ⟨y, y', hy, hy', hright⟩ := hr
  obtain ⟨z, z', hz, hz', htype⟩ := hleft.zip hright f
  rw [← hf] at hz hz'
  exact ⟨z, z', hx.plain hy c hop (hplain _ _) hz, hx'.plain hy' c hop (hplain _ _) hz', htype⟩

theorem Scope.WrittenAlike.parenthesized
    (h : scope.WrittenAlike version first second type lhs) :
    scope.WrittenAlike version first second type ⟨.parenthesized lhs, location, {}⟩ := by
  obtain ⟨x, y, hx, hy, htype⟩ := h
  exact ⟨x, y, hx.parenthesized, hy.parenthesized, htype⟩

/-- The names of an expression have corresponding values in the two languages. -/
def Scope.NamesCorrespond (scope : Scope) (version : GlslVersion)
    (first second : String → Quantity) (e : Expr) : Prop :=
  (Node.expr e).Everywhere fun part =>
    ∀ name, part.kind = .identifier name →
      Corresponds (scope.typeOf part) (first (Dialect.hlsl.reference scope name))
        (second ((Dialect.glsl version).reference scope name))

theorem Scope.Algebraic.writtenAlike {e : Expr} (h : scope.Algebraic type e)
    (hnames : scope.NamesCorrespond version first second e) :
    scope.WrittenAlike version first second type e := by
  induction h with
  | identifier location hname hbound htype halgebraic =>
      have hvalue := hnames _ (Node.contains_self _) _ rfl
      rw [(Algebraic.identifier location hname hbound htype halgebraic).typeOf_eq] at hvalue
      exact ⟨_, _, .identifier hname hbound, .identifier hname hbound, hvalue⟩
  | product location hl hr ihl ihr =>
      have hleft := ihl (hnames.part (by simp [Node.parts, ExprKind.parts]))
      have hright := ihr (hnames.part (by simp [Node.parts, ExprKind.parts]))
      exact hleft.product hright hl.typeOf_eq hr.typeOf_eq
  | sum location hl hr ihl ihr =>
      have hleft := ihl (hnames.part (by simp [Node.parts, ExprKind.parts]))
      have hright := ihr (hnames.part (by simp [Node.parts, ExprKind.parts]))
      exact hleft.componentwise hright (c := '+') (by simp) (fun _ _ => rfl) (fun _ _ _ => rfl)
  | difference location hl hr ihl ihr =>
      have hleft := ihl (hnames.part (by simp [Node.parts, ExprKind.parts]))
      have hright := ihr (hnames.part (by simp [Node.parts, ExprKind.parts]))
      exact hleft.componentwise hright (c := '-') (by simp) (fun _ _ => rfl) (fun _ _ _ => rfl)
  | parenthesized location h ih =>
      exact (ih (hnames.part (by simp [Node.parts, ExprKind.parts]))).parenthesized

end

/-- Matrix products mean the same in both languages. An expression over vectors and matrices is
written in both of them, the texts have values by each language's own rules, and where the names
have corresponding values the texts have too: the same vector, or a matrix and its transpose. -/
theorem products_mean_the_same {scope : Scope} {type : DataType} {e : Expr}
    (he : scope.Algebraic type e) (version : GlslVersion) (first second : String → Quantity)
    (hnames : scope.NamesCorrespond version first second e) :
    scope.typeOf e = type ∧
      ∃ hlslText glslText x y,
        Dialect.hlsl.renderText scope e = .ok hlslText ∧
        (Dialect.glsl version).renderText scope e = .ok glslText ∧
        Dialect.hlsl.valueOf? first hlslText = some x ∧
        (Dialect.glsl version).valueOf? second glslText = some y ∧
        Corresponds type x y := by
  obtain ⟨x, y, hx, hy, htype⟩ := he.writtenAlike hnames
  obtain ⟨hlslText, hhlsl, hxvalue⟩ := hx.valueOf?
  obtain ⟨glslText, hglsl, hyvalue⟩ := hy.valueOf?
  exact ⟨he.typeOf_eq, hlslText, glslText, x, y, hhlsl, hglsl, hxvalue, hyvalue, htype⟩

/-- The way of a corner under the camera. -/
def cornerMove : Expr :=
  let camera : Expr := ⟨.binary .mul (.named "View") (.named "Projection"), {}, {}⟩
  let seen : Expr := ⟨.binary .mul (.named "corner") ⟨.parenthesized camera, {}, {}⟩, {}, {}⟩
  ⟨.binary .sub seen (.named "corner"), {}, {}⟩

theorem methods_tintingEffect_ne_nil : (tintingEffect []).methods ≠ [] :=
  List.cons_ne_nil _ _

/-- The names in the vertex shader of the effect. -/
def projectScope : Scope :=
  { effect := tintingEffect []
    method := (tintingEffect []).methods.head methods_tintingEffect_ne_nil }

theorem algebraic_cornerMove : projectScope.Algebraic .vector4 cornerMove := by
  have hcorner : projectScope.Algebraic .vector4 (.named "corner") :=
    .identifier {} (by decide) rfl rfl (.inl rfl)
  have hview : projectScope.Algebraic .matrix (.named "View") :=
    .identifier {} (by decide) rfl rfl (.inr rfl)
  have hprojection : projectScope.Algebraic .matrix (.named "Projection") :=
    .identifier {} (by decide) rfl rfl (.inr rfl)
  exact .difference {} (.product {} hcorner (.parenthesized {} (.product {} hview hprojection)))
    hcorner

/-- A corner, and a camera that is not its own transpose, in HLSL. -/
def cameraValues (name : String) : Quantity :=
  if name = "fx_input.corner" then .vector fun i => (i.val : ℚ)
  else if name = "View" then .matrix (.of fun i j => if i ≤ j then 1 else 0)
  else .matrix (.of fun i j => (i.val : ℚ) - 2 * (j.val : ℚ))

/-- The same corner and camera in GLSL. -/
def cameraTransposes (name : String) : Quantity :=
  if name = "a_position" then cameraValues "fx_input.corner"
  else
    match cameraValues name with
    | .vector v => .vector v
    | .matrix m => .matrix m.transpose

theorem namesCorrespond_named {scope : Scope} {version : GlslVersion}
    {first second : String → Quantity} {name : String}
    (h : Corresponds (scope.typeOf (.named name)) (first (Dialect.hlsl.reference scope name))
      (second ((Dialect.glsl version).reference scope name))) :
    scope.NamesCorrespond version first second (.named name) := by
  refine Node.everywhere_expr.mpr ⟨?_, by simp [ExprKind.parts]⟩
  rintro _ ⟨⟩
  exact h

theorem namesCorrespond_cornerMove (version : GlslVersion) :
    projectScope.NamesCorrespond version cameraValues cameraTransposes cornerMove := by
  have hcorner : projectScope.NamesCorrespond version cameraValues cameraTransposes
      (.named "corner") := namesCorrespond_named (.vector _)
  have hview : projectScope.NamesCorrespond version cameraValues cameraTransposes
      (.named "View") := namesCorrespond_named (.matrix _)
  have hprojection : projectScope.NamesCorrespond version cameraValues cameraTransposes
      (.named "Projection") := namesCorrespond_named (.matrix _)
  simp only [Scope.NamesCorrespond] at hcorner hview hprojection ⊢
  simp [cornerMove, Node.everywhere_expr, ExprKind.parts, hcorner, hview, hprojection]

theorem cornerMove_means_the_same :
    projectScope.Algebraic .vector4 cornerMove ∧
      projectScope.NamesCorrespond .v330 cameraValues cameraTransposes cornerMove ∧
      projectScope.typeOf cornerMove = .vector4 ∧
      ∃ hlslText glslText x y,
        Dialect.hlsl.renderText projectScope cornerMove = .ok hlslText ∧
        (Dialect.glsl .v330).renderText projectScope cornerMove = .ok glslText ∧
        Dialect.hlsl.valueOf? cameraValues hlslText = some x ∧
        (Dialect.glsl .v330).valueOf? cameraTransposes glslText = some y ∧
        Corresponds .vector4 x y :=
  ⟨algebraic_cornerMove, namesCorrespond_cornerMove .v330,
    products_mean_the_same algebraic_cornerMove .v330 _ _ (namesCorrespond_cornerMove .v330)⟩

end ShaderEffect
