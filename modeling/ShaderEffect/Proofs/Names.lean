import ShaderEffect.Proofs.Walk

/-!
# Names decide

What an expression means in a scope depends only on what its names refer to there. Two scopes that
agree on the names in an expression give it the same type, resolve the same calls in it and allow it
to be written in the same languages, as the same text. Only the names on the walk over the
expression count.
-/

namespace ShaderEffect

namespace Scope

/-- Two scopes agree on what the names in an expression refer to. -/
abbrev SameNames (s t : Scope) (e : Expr) : Prop :=
  (Node.expr e).Everywhere fun part =>
    ∀ name, part.kind = .identifier name → s.lookup? name = t.lookup? name

/-- Two scopes agree on what the names on the walk over an expression refer to. -/
def SameReferences (s t : Scope) (e : Expr) : Prop :=
  ∀ part ∈ e.walk, ∀ name, part.kind = .identifier name → s.lookup? name = t.lookup? name

variable {s t : Scope}

theorem SameNames.references {e : Expr} (h : s.SameNames t e) : s.SameReferences t e :=
  fun part hp => h part (Expr.contains_of_mem_walk hp)

theorem SameReferences.mono {e part : Expr} (h : s.SameReferences t e) (hp : part.walk ⊆ e.walk) :
    s.SameReferences t part :=
  fun inner hi => h inner (hp hi)

theorem SameReferences.part {e part : Expr} (h : s.SameReferences t e)
    (hp : part ∈ e.kind.walked) : s.SameReferences t part :=
  h.mono (Expr.walk_subset hp)

theorem SameReferences.lookup? {e : Expr} {name : String} (h : s.SameReferences t e)
    (hk : e.kind = .identifier name) : s.lookup? name = t.lookup? name :=
  h e e.mem_walk_self name hk

/-! ## Types -/

theorem staticReceiver?_congr {e : Expr} (h : s.SameReferences t e) :
    s.staticReceiver? e = t.staticReceiver? e := by
  unfold staticReceiver?
  split
  · rfl
  · split
    · rw [h.lookup? ‹_›]
    · rfl

theorem arrayLiteral?_congr {e : Expr} (h : s.SameReferences t e) :
    s.arrayLiteral? e = t.arrayLiteral? e := by
  have hinner : s.SameReferences t e.unparenthesized := h.mono e.walk_unparenthesized_subset
  unfold arrayLiteral?
  split
  · rw [hinner.lookup? ‹_›]
  · rfl

theorem texture?_congr {e : Expr} (h : s.SameReferences t e) : s.texture? e = t.texture? e := by
  have hinner : s.SameReferences t e.unparenthesized := h.mono e.walk_unparenthesized_subset
  unfold texture?
  split
  · rw [hinner.lookup? ‹_›]
  · rfl

theorem calleeType?_eq (scope : Scope) (callee : Expr) :
    scope.calleeType? callee =
      match callee.unparenthesized.kind with
      | .memberAccess target member =>
        some (scope.staticReceiver? target, scope.typeOf target, member)
      | _ => none := by
  fun_induction Expr.unparenthesized callee with
  | case1 location notes inner ih =>
      rw [calleeType?]
      exact ih
  | case2 e hp =>
      obtain ⟨kind, location, notes⟩ := e
      cases kind <;> simp [calleeType?]
      exact (hp _ _ _ rfl).elim

theorem argumentTypes_congr {arguments : List Argument}
    (h : ∀ argument ∈ arguments, s.typeOf argument.value = t.typeOf argument.value) :
    s.argumentTypes arguments = t.argumentTypes arguments := by
  rw [argumentTypes_eq_map, argumentTypes_eq_map]
  exact List.map_congr_left h

theorem typeOf_congr (e : Expr) (h : s.SameReferences t e) : s.typeOf e = t.typeOf e := by
  induction e using Expr.induction with
  | step e ih =>
      have hpart : ∀ part ∈ e.kind.walked, s.typeOf part = t.typeOf part := by
        intro part hp
        obtain ⟨node, hnode, hi⟩ := Expr.contains_of_mem_walked hp
        exact ih node hnode part hi (h.part hp)
      obtain ⟨kind, location, notes⟩ := e
      rw [typeOf.eq_def, typeOf.eq_def]
      cases Expr.annotatedDataType? ⟨kind, location, notes⟩ with
      | some type => rfl
      | none =>
          cases kind
          case identifier name => simp only [h.lookup? rfl]
          case memberAccess target member =>
            have ht : target ∈ (ExprKind.memberAccess target member).walked := by
              simp [ExprKind.walked]
            simp only [staticReceiver?_congr (h.part ht), hpart target ht]
          case index target position =>
            have ht : target ∈ (ExprKind.index target position).walked := by
              simp [ExprKind.walked]
            simp only [arrayLiteral?_congr (h.part ht), hpart target ht]
          case invocation callee arguments =>
            have hcallee : s.calleeType? callee = t.calleeType? callee := by
              have hc : Node.expr callee ∈ (ExprKind.invocation callee arguments).parts := by
                simp [ExprKind.parts]
              rw [calleeType?_eq, calleeType?_eq]
              split
              · rename_i target member hm
                have ht : (Node.expr callee).Contains (.expr target) :=
                  callee.contains_unparenthesized.tail (by simp [Node.parts, hm, ExprKind.parts])
                have hsame : s.SameReferences t target := h.mono (walk_target_subset rfl hm)
                rw [staticReceiver?_congr hsame, ih _ hc target ht hsame]
              · rfl
            have harguments : s.argumentTypes arguments = t.argumentTypes arguments :=
              argumentTypes_congr fun argument ha =>
                hpart _ (List.mem_cons_of_mem _ (List.mem_map_of_mem ha))
            simp only [hcallee, harguments]
          case binary op lhs rhs =>
            simp only [hpart lhs (by simp [ExprKind.walked]), hpart rhs (by simp [ExprKind.walked])]
          case conditional condition thenValue elseValue =>
            simp only [hpart thenValue (by simp [ExprKind.walked])]
          case assignment op target value =>
            simp only [hpart target (by simp [ExprKind.walked])]
          case unary op operand => simp only [hpart operand (by simp [ExprKind.walked])]
          case parenthesized inner => simp only [hpart inner (by simp [ExprKind.walked])]
          all_goals rfl

/-! ## Calls and operands -/

theorem call?_congr {e : Expr} (h : s.SameReferences t e) : s.call? e = t.call? e := by
  unfold call?
  split
  · rename_i callee arguments hk
    split
    · rename_i target member hm
      have htarget : s.SameReferences t target := h.mono (walk_target_subset hk hm)
      have harguments : s.argumentTypes arguments = t.argumentTypes arguments := by
        refine argumentTypes_congr fun argument ha => typeOf_congr _ (h.part ?_)
        rw [hk]
        exact List.mem_cons_of_mem _ (List.mem_map_of_mem ha)
      rw [staticReceiver?_congr htarget, typeOf_congr target htarget, harguments]
    · rfl
  · rfl

theorem operands_congr {e : Expr} (h : s.SameReferences t e) : s.operands e = t.operands e := by
  unfold operands
  split
  · rw [staticReceiver?_congr (h.part (by simp [*, ExprKind.walked]))]
  · rfl
  · rw [call?_congr h]
  all_goals rfl

/-- Properties that depend only on names hold throughout an expression in both scopes or in
neither. -/
theorem throughout_congr {P Q : Expr → Prop} (hPQ : ∀ e, s.SameReferences t e → (P e ↔ Q e))
    (e : Expr) (h : s.SameReferences t e) : s.Throughout P e ↔ t.Throughout Q e := by
  induction e using Expr.induction with
  | step e ih =>
      rw [throughout_iff, throughout_iff, hPQ e h, operands_congr h]
      refine and_congr_right fun _ => forall₂_congr fun operand ho => ?_
      obtain ⟨part, hp, hi⟩ := contains_operand ho
      exact ih part hp operand hi (h.mono (walk_operand_subset ho))

theorem expressible_congr {dialect : Dialect} (hm : s.method.stage = t.method.stage) (e : Expr)
    (h : s.SameReferences t e) : Expressible dialect s e ↔ Expressible dialect t e := by
  unfold Expressible
  refine and_congr_right fun _ => ?_
  split
  · rw [h.lookup? ‹_›]
  · rename_i target member hk
    have htarget : s.SameReferences t target := h.part (by simp [hk, ExprKind.walked])
    rw [staticReceiver?_congr htarget, typeOf_congr _ htarget]
  · rw [call?_congr h, hm]
    refine exists_congr fun call => and_congr_right fun hc => and_congr_right fun _ =>
      and_congr_left fun _ => imp_congr_right fun _ => and_congr_left fun _ =>
        forall₂_congr fun receiver hr => ?_
    rw [texture?_congr (h.mono (walk_receiver_subset hc hr))]
  all_goals rfl

theorem covered_congr {dialect : Dialect} (e : Expr) (h : s.SameReferences t e) :
    Covered dialect s e ↔ Covered dialect t e := by
  unfold Covered
  split
  · rw [h.lookup? ‹_›]
  · rw [call?_congr h]
  · rfl

end Scope

/-! ## Texts -/

namespace Dialect

variable {dialect : Dialect} {s t : Scope}

theorem identifier_congr {e : Expr} {name : String} (hm : s.method = t.method)
    (h : s.SameReferences t e) (hk : e.kind = .identifier name) :
    dialect.identifier s name = dialect.identifier t name := by
  unfold identifier
  rw [h.lookup? hk, hm]

theorem renderArguments_congr {arguments : List Argument}
    (h : ∀ argument ∈ arguments,
      dialect.render s argument.value = dialect.render t argument.value) :
    dialect.renderArguments s arguments = dialect.renderArguments t arguments := by
  induction arguments with
  | nil => rw [renderArguments, renderArguments]
  | cons argument rest ih =>
      obtain ⟨name, mode, value⟩ := argument
      rw [List.forall_mem_cons] at h
      rw [renderArguments, renderArguments, h.1, ih h.2]

/-- The receiver of a sample is named, any other receiver is written as an expression. -/
theorem receiverOperands_congr {e : Expr} {call : Call} (h : s.SameReferences t e)
    (hc : s.call? e = some call)
    (hr : ∀ receiver ∈ call.receiver, dialect.render s receiver = dialect.render t receiver) :
    dialect.receiverOperands s call = dialect.receiverOperands t call := by
  unfold receiverOperands
  cases hreceiver : call.receiver with
  | none => rfl
  | some receiver =>
      simp only [Scope.texture?_congr (h.mono (Scope.walk_receiver_subset hc hreceiver)),
        hr receiver hreceiver]

theorem render_invocation_congr {callee : Expr} {arguments : List Argument} {location : Location}
    {notes : Notes} (hm : s.method = t.method)
    (h : s.SameReferences t ⟨.invocation callee arguments, location, notes⟩)
    (ho : ∀ call, s.call? ⟨.invocation callee arguments, location, notes⟩ = some call →
      ∀ operand, operand ∈ call.receiver.toList ++ arguments.map (·.value) →
        dialect.render s operand = dialect.render t operand) :
    dialect.render s ⟨.invocation callee arguments, location, notes⟩ =
      dialect.render t ⟨.invocation callee arguments, location, notes⟩ := by
  have hcall := Scope.call?_congr h
  cases hc : s.call? ⟨.invocation callee arguments, location, notes⟩ with
  | none =>
      have hc' := hcall.symm.trans hc
      simp only [render, Construct.ofExpr?, hc, hc']
  | some call =>
      have hc' := hcall.symm.trans hc
      obtain ⟨callee', target, member, hk, -⟩ := Scope.call?_eq_some hc
      obtain ⟨rfl, rfl⟩ : callee = callee' ∧ arguments = call.arguments := by simpa using hk
      by_cases hu : call.intrinsic = .unknown
      · simp only [render, Construct.ofExpr?, hc, hc', hu, if_true]
      · have hreceiver : dialect.receiverOperands s call = dialect.receiverOperands t call :=
          receiverOperands_congr h hc fun receiver hr => ho call hc receiver (by simp_all)
        have harguments : dialect.renderArguments s call.arguments =
            dialect.renderArguments t call.arguments :=
          renderArguments_congr fun argument ha =>
            ho call hc argument.value (List.mem_append_right _ (List.mem_map_of_mem ha))
        rw [render_invocation hc hu, render_invocation hc' hu, hreceiver, harguments, hm]

/-- Scopes of one method that agree on the names in an expression give it the same text. -/
theorem render_congr (hm : s.method = t.method) (e : Expr) (h : s.SameReferences t e) :
    dialect.render s e = dialect.render t e := by
  induction e using Expr.induction with
  | step e ih =>
      have hpart : ∀ part ∈ e.kind.walked, dialect.render s part = dialect.render t part := by
        intro part hp
        obtain ⟨node, hnode, hi⟩ := Expr.contains_of_mem_walked hp
        exact ih node hnode part hi (h.part hp)
      have htype : ∀ part ∈ e.kind.walked, s.typeOf part = t.typeOf part :=
        fun part hp => Scope.typeOf_congr part (h.part hp)
      obtain ⟨kind, location, notes⟩ := e
      cases kind
      case identifier name => simp only [render, identifier_congr hm h rfl]
      case memberAccess target member =>
        have ht : target ∈ (ExprKind.memberAccess target member).walked := by
          simp [ExprKind.walked]
        simp only [render, Scope.staticReceiver?_congr (h.part ht), htype target ht,
          hpart target ht]
      case invocation callee arguments =>
        refine render_invocation_congr hm h fun call hc operand ho => ?_
        rcases List.mem_append.mp ho with hr | ha
        · have hreceiver : call.receiver = some operand := by simpa using hr
          obtain ⟨node, hnode, hi⟩ := Scope.contains_receiver hc hreceiver
          exact ih node hnode operand hi (h.mono (Scope.walk_receiver_subset hc hreceiver))
        · exact hpart operand (List.mem_cons_of_mem _ ha)
      case objectCreation type arguments initializer =>
        have harguments : dialect.renderArguments s arguments =
            dialect.renderArguments t arguments :=
          renderArguments_congr fun argument ha => hpart _ (List.mem_map_of_mem ha)
        simp only [render, harguments]
      case index target position =>
        simp only [render, hpart target (by simp [ExprKind.walked]),
          hpart position (by simp [ExprKind.walked])]
      case binary op lhs rhs =>
        have hl : lhs ∈ (ExprKind.binary op lhs rhs).walked := by simp [ExprKind.walked]
        have hr : rhs ∈ (ExprKind.binary op lhs rhs).walked := by simp [ExprKind.walked]
        simp only [render, hpart lhs hl, hpart rhs hr, htype lhs hl, htype rhs hr]
      case assignment op target value =>
        have ht : target ∈ (ExprKind.assignment op target value).walked := by
          simp [ExprKind.walked]
        have hv : value ∈ (ExprKind.assignment op target value).walked := by
          simp [ExprKind.walked]
        simp only [render, hpart target ht, hpart value hv, htype target ht, htype value hv]
      case conditional condition thenValue elseValue =>
        simp only [render, hpart condition (by simp [ExprKind.walked]),
          hpart thenValue (by simp [ExprKind.walked]), hpart elseValue (by simp [ExprKind.walked])]
      case unary op operand => simp only [render, hpart operand (by simp [ExprKind.walked])]
      case cast type operand => simp only [render, hpart operand (by simp [ExprKind.walked])]
      case parenthesized inner => simp only [render, hpart inner (by simp [ExprKind.walked])]
      all_goals simp only [render]

theorem renderText_congr (hm : s.method = t.method) (e : Expr) (h : s.SameReferences t e) :
    dialect.renderText s e = dialect.renderText t e := by
  rw [renderText, renderText, render_congr hm e h]

end Dialect

end ShaderEffect
