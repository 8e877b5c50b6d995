import ShaderEffect.Proofs.Lines
import ShaderEffect.Proofs.SideEffect

/-!
# The spelling of expressions

The forms that texts of expressions have, as a grammar over the words of an alphabet. Both languages
write an expression in one of these forms if the names in it are words. What is true of all forms is
then true of all written expressions.
-/

namespace ShaderEffect

/-! ## Words of an alphabet -/

/-- All characters of a text are in an alphabet. -/
def MadeOf (alphabet : Char → Prop) (text : String) : Prop :=
  ∀ c ∈ text.toList, alphabet c

/-- An alphabet that names and numbers can be written in. -/
structure SpellsWords (alphabet : Char → Prop) : Prop where
  word : ∀ c, isWordChar c → alphabet c
  minus : alphabet '-'

section

variable {alphabet : Char → Prop} {text first second : String}

instance [DecidablePred alphabet] : Decidable (MadeOf alphabet text) :=
  decidable_of_iff (text.toList.all fun c => alphabet c) (by simp [MadeOf])

theorem madeOf_append :
    MadeOf alphabet (first ++ second) ↔ MadeOf alphabet first ∧ MadeOf alphabet second := by
  simp [MadeOf, or_imp, forall_and]

theorem MadeOf.append (hf : MadeOf alphabet first) (hs : MadeOf alphabet second) :
    MadeOf alphabet (first ++ second) :=
  madeOf_append.mpr ⟨hf, hs⟩

theorem IsWord.madeOf (h : IsWord text) (ha : SpellsWords alphabet) : MadeOf alphabet text :=
  fun c hc => ha.word c (h.2 c hc)

theorem IsNumeral.madeOf (h : IsNumeral text) (ha : SpellsWords alphabet) : MadeOf alphabet text := by
  intro c hc
  refine ha.word c ?_
  rcases h c hc with hdigit | rfl
  · simp [isWordChar, Char.isAlphanum, hdigit]
  · decide

theorem MadeOf.signed (h : MadeOf alphabet text) (ha : SpellsWords alphabet) (negative : Bool) :
    MadeOf alphabet ((if negative then "-" else "") ++ text) := by
  refine .append ?_ h
  cases negative <;> simp [MadeOf, ha.minus]

theorem madeOf_int (ha : SpellsWords alphabet) (n : Int) : MadeOf alphabet (toString n) := by
  cases n with
  | ofNat n => exact (isNumeral_repr n).madeOf ha
  | negSucc n => exact ((isNumeral_repr (n + 1)).madeOf ha).signed ha true

theorem Decimal.madeOf_decimal (ha : SpellsWords alphabet) (d : Decimal) :
    MadeOf alphabet (literal.decimal d) := by
  have hd : ∀ c ∈ Nat.toDigits 10 d.digits, c.isDigit := fun c hc => isDigit_of_mem_digits hc
  have hmark : MadeOf alphabet "e" := IsWord.madeOf (by decide) ha
  unfold Notation.decimal
  dsimp only
  generalize d.exponent + ((Nat.toDigits 10 d.digits).length : Int) - 1 = leading
  split
  · exact (isNumeral_positional hd leading).madeOf ha
  · obtain ⟨mantissa, hnumeral, -, hmantissa⟩ := exists_mantissa hd Nat.toDigits_ne_nil leading
    rw [hmantissa]
    exact ((hnumeral.madeOf ha).append hmark).append (madeOf_int ha leading)

theorem madeOf_float (ha : SpellsWords alphabet) (x : Float) :
    MadeOf alphabet (Decimal.literal.float x) := by
  unfold Decimal.Notation.float
  dsimp only
  split
  · exact IsWord.madeOf (by decide) ha
  · exact MadeOf.signed (IsWord.madeOf (by decide) ha) ha _
  · rw [String.append_assoc]
    exact MadeOf.signed (IsWord.madeOf (by decide) ha) ha _
  · exact (Decimal.madeOf_decimal ha _).signed ha _

theorem Value.madeOf_render {value : Value} (ha : SpellsWords alphabet)
    (h : value.render = .ok text) : MadeOf alphabet text := by
  cases value with
  | bool value =>
      cases h
      cases value <;> exact IsWord.madeOf (by decide) ha
  | int value =>
      cases h
      exact madeOf_int ha _
  | float value =>
      cases h
      exact madeOf_float ha _
  | string value => cases h

end

/-! ## Forms -/

namespace Operand

variable {text : String}

@[simp]
theorem text_atom : (atom text).text = text := rfl

@[simp]
theorem wrapped_atom : (atom text).wrapped = text := rfl

end Operand

/-- What is true of the texts and of commas is true of the texts with commas between them. -/
theorem commaSeparated_induction {P : String → Prop} (hempty : P "") (hcomma : P ", ")
    (happend : ∀ {first second}, P first → P second → P (first ++ second)) {texts : List String}
    (h : ∀ text ∈ texts, P text) : P (commaSeparated texts) := by
  induction texts with
  | nil => exact hempty
  | cons text texts ih =>
      have htext := h text (by simp)
      have hrest := ih fun text ht => h text (by simp [ht])
      cases texts with
      | nil => simpa [commaSeparated] using htext
      | cons second texts =>
          simpa [commaSeparated] using happend (happend htext hcomma) hrest

/-- The forms of written expressions. Only operations, assignments and choices have spaces that are
not in brackets, and these are compound: they are put in parentheses to be operands. -/
inductive Spelled (alphabet : Char → Prop) : Operand → Prop where
  | word {text : String} (h : MadeOf alphabet text) : Spelled alphabet (.atom text)
  | member {target : Operand} {components : String} (ht : Spelled alphabet target)
      (hc : MadeOf alphabet components) :
      Spelled alphabet (.atom s!"{target.wrapped}.{components}")
  | element {target position : Operand} (ht : Spelled alphabet target)
      (hp : Spelled alphabet position) :
      Spelled alphabet (.atom s!"{target.wrapped}[{position.text}]")
  | application (function : String) (operands : List Operand) (hf : MadeOf alphabet function)
      (ho : ∀ operand ∈ operands, Spelled alphabet operand) :
      Spelled alphabet (.atom s!"{function}({commaSeparated (operands.map (·.text))})")
  | conversion {type : String} {operand : Operand} (ht : MadeOf alphabet type)
      (ho : Spelled alphabet operand) :
      Spelled alphabet (.atom s!"(({type}){operand.wrapped})")
  | parenthesized {operand : Operand} (h : Spelled alphabet operand) :
      Spelled alphabet (.atom s!"({operand.text})")
  | leading (op : UnaryOp) {operand : Operand} (h : Spelled alphabet operand) :
      Spelled alphabet (.atom (op.token ++ operand.wrapped))
  | trailing (op : UnaryOp) {operand : Operand} (h : Spelled alphabet operand) :
      Spelled alphabet (.atom (operand.wrapped ++ op.token))
  | operation (op : BinaryOp) {lhs rhs : Operand} (hl : Spelled alphabet lhs)
      (hr : Spelled alphabet rhs) :
      Spelled alphabet (.ofOperator s!"{lhs.wrapped} {op.token} {rhs.wrapped}")
  | assignment (op : AssignOp) {target value : Operand} (ht : Spelled alphabet target)
      (hv : Spelled alphabet value) :
      Spelled alphabet (.ofOperator s!"{target.text} {op.token} {value.text}")
  | choice {condition thenValue elseValue : Operand} (hc : Spelled alphabet condition)
      (ht : Spelled alphabet thenValue) (he : Spelled alphabet elseValue) :
      Spelled alphabet
        (.ofOperator s!"{condition.wrapped} ? {thenValue.wrapped} : {elseValue.wrapped}")

/-- The names in a node are words of an alphabet. -/
abbrev Node.NamedIn (alphabet : Char → Prop) (node : Node) : Prop :=
  node.Everywhere fun e => ∀ name, e.kind = .identifier name → MadeOf alphabet name

theorem Spelled.atom_eq {alphabet : Char → Prop} {text written : String}
    (h : Spelled alphabet (.atom written)) (ht : written = text) : Spelled alphabet (.atom text) :=
  ht ▸ h

theorem UnaryOp.spelled_render {alphabet : Char → Prop} {operand : Operand}
    (h : Spelled alphabet operand) (op : UnaryOp) :
    Spelled alphabet (.atom (op.render operand)) := by
  unfold UnaryOp.render
  split
  · exact .trailing op h
  · split
    · have hparens := Spelled.leading op (.parenthesized h)
      simpa [toString, String.append_assoc] using hparens
    · exact .leading op h

namespace Dialect

section

attribute [local simp] commaSeparated toString

variable {alphabet : Char → Prop} {dialect : Dialect} {scope : Scope} {text : String}
  {operand lhs rhs target value : Operand} {operands : List Operand} {type : DataType}

theorem isWord_intrinsicName {intrinsic : Intrinsic} (h : intrinsic ≠ .unknown) :
    IsWord (dialect.intrinsicName intrinsic) := by
  cases dialect with
  | hlsl => cases intrinsic <;> first | decide | exact absurd rfl h
  | glsl version =>
      rw [intrinsicName]
      cases intrinsic <;> first | decide | exact absurd rfl h

theorem spelled_product (ha : SpellsWords alphabet) (hl : Spelled alphabet lhs)
    (hr : Spelled alphabet rhs) : Spelled alphabet (dialect.product lhs rhs) := by
  cases dialect with
  | hlsl =>
      refine (Spelled.application "mul" [lhs, rhs] (IsWord.madeOf (by decide) ha) ?_).atom_eq ?_
      · simp [hl, hr]
      · simp [← String.toList_inj]
  | glsl version =>
      have htext : s!"{rhs.wrapped} {BinaryOp.mul.token} {lhs.wrapped}" =
          s!"{rhs.wrapped} * {lhs.wrapped}" := by
        simp [← String.toList_inj, BinaryOp.token]
      rw [product, ← htext]
      exact .operation .mul hr hl

theorem spelled_remainder (ha : SpellsWords alphabet) (hl : Spelled alphabet lhs)
    (hr : Spelled alphabet rhs) : Spelled alphabet (dialect.remainder lhs rhs) := by
  cases dialect with
  | hlsl =>
      have htext : s!"{lhs.wrapped} {BinaryOp.rem.token} {rhs.wrapped}" =
          s!"{lhs.wrapped} % {rhs.wrapped}" := by
        simp [← String.toList_inj, BinaryOp.token]
      rw [remainder, ← htext]
      exact .operation .rem hl hr
  | glsl version =>
      refine (Spelled.application "mod" [lhs, rhs] (IsWord.madeOf (by decide) ha) ?_).atom_eq ?_
      · simp [hl, hr]
      · simp [← String.toList_inj]

theorem spelled_binary {op : BinaryOp} {left right : DataType} (ha : SpellsWords alphabet)
    (hl : Spelled alphabet lhs) (hr : Spelled alphabet rhs) :
    Spelled alphabet (dialect.binary op left right lhs rhs) := by
  unfold binary
  split
  · split
    · exact spelled_product ha hl hr
    · exact spelled_remainder ha hl hr
  · exact .operation op hl hr

theorem spelled_assignment {op : AssignOp} {left right : DataType} (ha : SpellsWords alphabet)
    (ht : Spelled alphabet target) (hv : Spelled alphabet value) :
    Spelled alphabet (dialect.assignment op left right target value) := by
  have hplain := Spelled.assignment op ht hv
  unfold assignment
  cases op.binary? with
  | none => exact hplain
  | some binaryOp =>
      by_cases hs : binaryOp.isSpecial left right
      · have hresult : Spelled alphabet (dialect.binary binaryOp left right target value) :=
          spelled_binary ha ht hv
        simp only [hs, if_true]
        generalize dialect.binary binaryOp left right target value = result at hresult
        have htext : s!"{target.text} {AssignOp.assign.token} {result.text}" =
            s!"{target.text} = {result.text}" := by
          simp [← String.toList_inj, AssignOp.token, AssignOp.binary?]
        rw [← htext]
        exact .assignment .assign ht hresult
      · simpa [hs] using hplain

theorem spelled_construction (ha : SpellsWords alphabet)
    (ho : ∀ operand ∈ operands, Spelled alphabet operand)
    (h : dialect.construction type (operands.map (·.text)) = .ok text) :
    Spelled alphabet (.atom text) := by
  obtain ⟨name, hname, h⟩ := bind_eq_ok.mp h
  have hword := (isWord_typeName hname).madeOf ha
  have happlied := Spelled.application name operands hword ho
  match operands with
  | [] =>
      have hzero : Spelled alphabet (.atom "0") := .word (IsWord.madeOf (by decide) ha)
      have hpoint : Spelled alphabet (.atom "0.0") := .word (IsWord.madeOf (by decide) ha)
      cases dialect <;> cases h
      · exact (Spelled.conversion hword hzero).atom_eq (by simp [← String.toList_inj])
      · refine (Spelled.application name [.atom "0.0"] hword (by simpa using hpoint)).atom_eq ?_
        simp [← String.toList_inj]
  | [operand] =>
      have hvalue := Spelled.conversion hword (.parenthesized (ho operand (by simp)))
      cases dialect <;> cases h
      · split
        · exact hvalue.atom_eq (by simp [← String.toList_inj])
        · exact happlied
      · exact happlied
  | first :: second :: rest => cases dialect <;> cases h <;> exact happlied

theorem spelled_cast (ha : SpellsWords alphabet) (ho : Spelled alphabet operand)
    (h : dialect.cast type operand = .ok text) : Spelled alphabet (.atom text) := by
  obtain ⟨name, hname, h⟩ := bind_eq_ok.mp h
  have hword := (isWord_typeName hname).madeOf ha
  cases dialect with
  | hlsl =>
      cases h
      exact .conversion hword ho
  | glsl version =>
      cases h
      exact .application name [operand] hword (by simpa using ho)

/-- A sample is the application of a function or of a member of the texture. -/
theorem spelled_sample {stage : Stage} {texture : String} (ha : SpellsWords alphabet)
    (ht : MadeOf alphabet texture) (ho : Spelled alphabet operand) :
    Spelled alphabet (.atom (dialect.sample stage texture operand.text)) := by
  have hword {text : String} (h : IsWord text) : MadeOf alphabet text := h.madeOf ha
  have hsampler : MadeOf alphabet (hlslSamplerName texture) :=
    (hword (by decide : IsWord "fx_sampler_")).append ht
  have hlevel : Spelled alphabet (.atom "0") ∧ Spelled alphabet (.atom "0.0") :=
    ⟨.word (hword (by decide)), .word (hword (by decide))⟩
  cases dialect <;> cases stage
  · refine (Spelled.application (texture ++ ".SampleLevel")
      [.atom (hlslSamplerName texture), operand, .atom "0"] (ht.append (hword (by decide)))
      ?_).atom_eq ?_
    · simp [Spelled.word hsampler, ho, hlevel]
    · simp [← String.toList_inj, sample]
  · refine (Spelled.application (texture ++ ".Sample") [.atom (hlslSamplerName texture), operand]
      (ht.append (hword (by decide))) ?_).atom_eq ?_
    · simp [Spelled.word hsampler, ho]
    · simp [← String.toList_inj, sample]
  · refine (Spelled.application "textureLod" [.atom texture, operand, .atom "0.0"]
      (hword (by decide)) ?_).atom_eq ?_
    · simp [Spelled.word ht, ho, hlevel]
    · simp [← String.toList_inj, sample]
  · refine (Spelled.application "texture" [.atom texture, operand] (hword (by decide))
      ?_).atom_eq ?_
    · simp [Spelled.word ht, ho]
    · simp [← String.toList_inj, sample]

theorem spelled_intrinsicCall {stage : Stage} {intrinsic : Intrinsic} (ha : SpellsWords alphabet)
    (ho : ∀ operand ∈ operands, Spelled alphabet operand)
    (ht : intrinsic = .sampleTexture →
      ∀ texture ∈ operands.head?, MadeOf alphabet texture.text)
    (h : dialect.intrinsicCall stage intrinsic operands = .ok text) :
    Spelled alphabet (.atom text) := by
  have hplain (hu : intrinsic ≠ .unknown) :=
    Spelled.application (dialect.intrinsicName intrinsic) operands
      ((isWord_intrinsicName hu).madeOf ha) ho
  simp only [intrinsicCall] at h
  split at h
  · cases h
  · split at h
    · rename_i texture coordinates htexts
      cases h
      have hlength : operands.length = 2 := by simpa using congrArg List.length htexts
      obtain ⟨first, second, rfl⟩ := List.length_eq_two.mp hlength
      obtain ⟨rfl, rfl⟩ : first.text = texture ∧ second.text = coordinates := by simpa using htexts
      exact spelled_sample ha (ht rfl first rfl) (ho second (by simp))
    · cases h
      exact hplain (by decide)
    · cases h
  · split at h
    · rename_i value htexts
      cases h
      have hlength : operands.length = 1 := by simpa using congrArg List.length htexts
      obtain ⟨operand, rfl⟩ := List.length_eq_one_iff.mp hlength
      obtain rfl : operand.text = value := by simpa using htexts
      have hzero : Spelled alphabet (.atom "0.0") := .word (IsWord.madeOf (by decide) ha)
      have hone : Spelled alphabet (.atom "1.0") := .word (IsWord.madeOf (by decide) ha)
      refine (Spelled.application "clamp" [operand, .atom "0.0", .atom "1.0"]
        (IsWord.madeOf (by decide) ha) ?_).atom_eq ?_
      · simpa [hzero, hone] using ho
      · simp [← String.toList_inj]
    · cases h
      exact hplain (by decide)
  · rename_i hunknown _ _
    split at h
    · cases h
    · cases h
      exact hplain hunknown

theorem spelled_staticMember {receiver member : String} (ha : SpellsWords alphabet)
    (h : dialect.staticMember receiver member = .ok text) : Spelled alphabet (.atom text) := by
  unfold staticMember at h
  dsimp only at h
  split at h
  · rename_i values _
    have hvalues : values.map Decimal.literal.float =
        (values.map fun value => Operand.atom (Decimal.literal.float value)).map (·.text) := by
      simp
    rw [hvalues] at h
    refine spelled_construction ha ?_ h
    simpa using fun value _ => Spelled.word (madeOf_float ha value)
  · cases h

end

/-! ## Expressions -/

section

variable {alphabet : Char → Prop} {dialect : Dialect} {scope : Scope} {location : Location}
  {notes : Notes} {text : String}

theorem madeOf_reference {name : String} (ha : SpellsWords alphabet) (h : MadeOf alphabet name) :
    MadeOf alphabet (dialect.reference scope name) := by
  unfold reference
  split
  · rename_i declared hlookup
    obtain hword | ⟨stem, hstem, htext⟩ := dialect.parameter_cases scope.method declared
    · exact hword.madeOf ha
    · rw [htext, Scope.name_of_lookup?_parameter hlookup]
      exact (hstem.madeOf ha).append h
  · exact h

theorem madeOf_identifier {name : String} (ha : SpellsWords alphabet) (hn : MadeOf alphabet name) :
    Yields (dialect.identifier scope name) (MadeOf alphabet) := by
  cases hlookup : scope.lookup? name with
  | none =>
      simp only [identifier, hlookup]
      exact .throw _ _
  | some binding =>
      rw [identifier_eq hlookup]
      exact .pure (madeOf_reference ha hn)

theorem spelled_renderArguments {arguments : List Argument}
    (h : ∀ argument ∈ arguments, Yields (dialect.render scope argument.value) (Spelled alphabet)) :
    Yields (dialect.renderArguments scope arguments)
      fun operands => ∀ operand ∈ operands, Spelled alphabet operand := by
  induction arguments with
  | nil =>
      rw [renderArguments]
      exact .pure (by simp)
  | cons argument rest ih =>
      obtain ⟨name, mode, value⟩ := argument
      rw [renderArguments]
      refine (h ⟨name, mode, value⟩ (by simp)).bind fun first hfirst => ?_
      refine (ih fun argument ha => h argument (by simp [ha])).bind fun others hothers => ?_
      exact .pure (by simpa [hfirst] using hothers)

theorem spelled_receiverOperands {call : Call} (hs : call.intrinsic ≠ .sampleTexture)
    (hr : ∀ receiver ∈ call.receiver, Yields (dialect.render scope receiver) (Spelled alphabet)) :
    Yields (dialect.receiverOperands scope call)
      fun operands => ∀ operand ∈ operands, Spelled alphabet operand := by
  unfold receiverOperands
  cases hc : call.receiver with
  | none => exact .pure (by simp)
  | some receiver =>
      simp only [hs, if_false]
      exact (hr receiver hc).bind fun operand h => .pure (by simpa using h)

theorem spelled_invocation {callee : Expr} {arguments : List Argument} (ha : SpellsWords alphabet)
    (hn : (Node.expr ⟨.invocation callee arguments, location, notes⟩).NamedIn alphabet)
    (ho : ∀ operand ∈ scope.operands ⟨.invocation callee arguments, location, notes⟩,
      Yields (dialect.render scope operand) (Spelled alphabet)) :
    Yields (dialect.render scope ⟨.invocation callee arguments, location, notes⟩)
      (Spelled alphabet) := by
  cases hc : scope.call? ⟨.invocation callee arguments, location, notes⟩ with
  | none =>
      simp only [render, Construct.ofExpr?, hc]
      exact .throw _ _
  | some call =>
      by_cases hu : call.intrinsic = .unknown
      · simp only [render, Construct.ofExpr?, hc, hu, if_true]
        exact .throw _ _
      · obtain ⟨callee', target, member, hk, -⟩ := Scope.call?_eq_some hc
        obtain ⟨rfl, rfl⟩ : callee = callee' ∧ arguments = call.arguments := by simpa using hk
        rw [Scope.operands_invocation hc, List.forall_mem_append, List.forall_mem_map] at ho
        rw [render_invocation hc hu]
        by_cases hs : call.intrinsic = .sampleTexture
        · -- the receiver of a sample is the name of a texture, and no operand
          refine (Yields.refl _).bind fun receivers hreceivers => ?_
          obtain ⟨name, inner, rfl, hk, hinner⟩ :=
            exists_texture_of_receiverOperands hc hs hreceivers
          have hword : MadeOf alphabet name := hn _ hinner name hk
          refine (spelled_renderArguments ho.2).bind fun operands hoperands => ?_
          refine (Yields.refl _).bind fun text ht => .pure ?_
          exact spelled_intrinsicCall ha (by simpa [Spelled.word hword] using hoperands)
            (by simpa using fun _ => hword) ht
        · simp only [hs, if_false] at ho
          refine (spelled_receiverOperands hs (by simpa using ho.1)).bind
            fun receivers hreceivers => ?_
          refine (spelled_renderArguments ho.2).bind fun operands hoperands => ?_
          refine (Yields.refl _).bind fun text ht => .pure ?_
          exact spelled_intrinsicCall ha (List.forall_mem_append.mpr ⟨hreceivers, hoperands⟩)
            (fun hs' => absurd hs' hs) ht

end

/-- Both languages write an expression in one of the forms. -/
theorem spelled_render {alphabet : Char → Prop} (ha : SpellsWords alphabet) (dialect : Dialect)
    (scope : Scope) (e : Expr) (hn : (Node.expr e).NamedIn alphabet) :
    Yields (dialect.render scope e) (Spelled alphabet) := by
  induction e using Expr.induction with
  | step e ih =>
      have hoperand : ∀ operand ∈ scope.operands e,
          Yields (dialect.render scope operand) (Spelled alphabet) := by
        intro operand ho
        obtain ⟨part, hp, hcontains⟩ := Scope.contains_operand ho
        exact ih part hp operand hcontains ((hn.part hp).contains hcontains)
      clear ih
      obtain ⟨kind, location, notes⟩ := e
      cases kind
      case literal value =>
        cases value
        case string => exact .throw _ _
        all_goals
          simp only [render, Construct.ofExpr?]
          exact (Yields.refl _).bind fun text ht => .pure (.word (Value.madeOf_render ha ht))
      case identifier name =>
        have hname := hn _ (Node.contains_self _) name rfl
        simp only [render, Construct.ofExpr?]
        exact (madeOf_identifier ha hname).bind fun text ht => .pure (.word ht)
      case memberAccess target member =>
        simp only [render, Construct.ofExpr?]
        cases hr : scope.staticReceiver? target with
        | some receiver =>
            exact (Yields.refl _).bind fun text ht => .pure (spelled_staticMember ha ht)
        | none =>
            cases hs : swizzle? member (scope.typeOf target) with
            | none => exact .throw _ _
            | some components =>
                have hword := (isWord_swizzle hs).madeOf ha
                refine (hoperand target (by simp [Scope.operands, hr])).bind fun operand h => ?_
                exact .pure (.member h hword)
      case invocation callee arguments => exact spelled_invocation ha hn hoperand
      case objectCreation type arguments initializer =>
        simp only [render]
        split
        · exact .throw _ _
        · split
          · refine (spelled_renderArguments fun argument hmem => hoperand _ ?_).bind
              fun operands ho => ?_
            · exact List.mem_map_of_mem hmem
            · exact (Yields.refl _).bind fun text ht => .pure (spelled_construction ha ho ht)
          · exact .throw _ _
      case index target position =>
        simp only [render, Construct.ofExpr?]
        refine (hoperand target (by simp [Scope.operands])).bind fun left hl => ?_
        refine (hoperand position (by simp [Scope.operands])).bind fun right hr => ?_
        exact .pure (.element hl hr)
      case binary op lhs rhs =>
        simp only [render]
        split
        · exact .throw _ _
        · refine (hoperand lhs (by simp [Scope.operands])).bind fun left hl => ?_
          refine (hoperand rhs (by simp [Scope.operands])).bind fun right hr => ?_
          exact .pure (spelled_binary ha hl hr)
      case unary op inner =>
        simp only [render, Construct.ofExpr?]
        refine (hoperand inner (by simp [Scope.operands])).bind fun operand h => ?_
        exact .pure (op.spelled_render h)
      case assignment op target value =>
        simp only [render]
        split
        · exact .throw _ _
        · refine (hoperand target (by simp [Scope.operands])).bind fun left hl => ?_
          refine (hoperand value (by simp [Scope.operands])).bind fun right hr => ?_
          exact .pure (spelled_assignment ha hl hr)
      case conditional condition thenValue elseValue =>
        simp only [render, Construct.ofExpr?]
        refine (hoperand condition (by simp [Scope.operands])).bind fun first hf => ?_
        refine (hoperand thenValue (by simp [Scope.operands])).bind fun second hs => ?_
        refine (hoperand elseValue (by simp [Scope.operands])).bind fun third ht => ?_
        exact .pure (.choice hf hs ht)
      case cast type inner =>
        simp only [render, Construct.ofExpr?]
        refine (hoperand inner (by simp [Scope.operands])).bind fun operand h => ?_
        exact (Yields.refl _).bind fun text ht => .pure (spelled_cast ha h ht)
      case parenthesized inner =>
        simp only [render, Construct.ofExpr?]
        refine (hoperand inner (by simp [Scope.operands])).bind fun operand h => ?_
        exact .pure (.parenthesized h)
      all_goals exact .throw _ _

end Dialect

end ShaderEffect
