import ShaderEffect.Proofs.Build

/-!
# Fields and slots

Where the fields of a built effect end up. A field is of one kind only, and each kind is collected
in declaration order. Constants are grouped by the buffer that their attribute names; buffers and
textures are numbered without gaps.
-/

namespace ShaderEffect

/-- What a field of an effect can be. -/
inductive FieldKind where
  | constant
  | technique
  | texture
  | literal
  | plain
  deriving DecidableEq

namespace FieldDecl

/-- Whether an attribute or the type says what the field is. -/
def isMarked (field : FieldDecl) : Bool :=
  field.isConstant || field.isTechnique || field.type.dataType.isTexture

/-- Whether a field is of a kind. A field that is not marked is a literal if it has a value. -/
def hasKind (field : FieldDecl) : FieldKind → Bool
  | .constant => field.isConstant
  | .technique => field.isTechnique
  | .texture => field.type.dataType.isTexture
  | .literal => !field.isMarked && field.initializer.isSome
  | .plain => !field.isMarked && field.initializer.isNone

/-- Whether the constant attribute of a field names a buffer: by the argument `Buffer`, else by its
first positional argument, and by no argument the buffer `Constants`. -/
def namesBuffer (field : FieldDecl) (name : String) : Bool :=
  match findAttribute? field.attributes "Constant" with
  | none => false
  | some attr =>
    match attr.named? "Buffer", attr.positional? 0 with
    | some argument, _ => argument.value.bind Value.string? == some name
    | none, some argument => argument.value.bind Value.string? == some name
    | none, none => name == "Constants"

/-- A constant that keeps the field it stands for. -/
structure BecomesConstant (field : FieldDecl) (constant : ShaderConstant) : Prop where
  name_eq : constant.name = field.name
  type_eq : constant.type = field.type.dataType
  documentation_eq : constant.documentation = field.documentation
  location_eq : constant.location = field.location

/-- A texture that keeps the field it stands for. -/
structure BecomesTexture (field : FieldDecl) (texture : ShaderTexture) : Prop where
  name_eq : texture.name = field.name
  type_eq : texture.type = field.type.dataType
  location_eq : texture.location = field.location

/-- A literal that keeps the field it stands for. -/
structure BecomesLiteral (field : FieldDecl) (literal : ShaderLiteral) : Prop where
  name_eq : literal.name = field.name
  type_eq : literal.type = field.elementDataType
  value_eq : field.initializer = some literal.value
  location_eq : literal.location = field.location

/-! ## Kinds -/

theorem isConstant_of_namesBuffer {field : FieldDecl} {name : String}
    (h : field.namesBuffer name) : field.isConstant := by
  unfold namesBuffer at h
  unfold isConstant hasAttribute
  cases hattr : findAttribute? field.attributes "Constant" with
  | none => simp [hattr] at h
  | some attr => simp [constantAttributeName, hattr]

theorem dataType_of_isTechnique {field : FieldDecl} (h : field.isTechnique) :
    field.type.dataType = .unknown := by
  unfold isTechnique TypeRef.hasShortName at h
  unfold TypeRef.dataType
  cases hname : field.type.name? with
  | none => rfl
  | some name =>
      have hshort : unqualified name = techniqueTypeName := by simpa [hname] using h
      simp only [DataType.ofHostName, hshort]
      rfl

theorem isTexture_eq (field : FieldDecl) :
    field.isTexture =
      (!field.isConstant && !field.isTechnique && field.type.dataType.isTexture) := by
  unfold isTexture elementDataType
  cases htype : field.type
  case array element => simp [TypeRef.isArray, TypeRef.dataType, TypeRef.name?, DataType.isTexture]
  all_goals simp [TypeRef.isArray]

theorem elementDataType_of_isTexture {field : FieldDecl} (h : field.isTexture) :
    field.elementDataType = field.type.dataType := by
  unfold elementDataType
  split
  · rename_i element htype
    simp [isTexture, htype, TypeRef.isArray] at h
  · rfl

end FieldDecl

/-! ## Constants -/

/-- A constant with the name of its buffer, as the attribute and the type of a field declare it. -/
structure FieldDecl.Declares (field : FieldDecl) (constant : String × ShaderConstant) : Prop where
  namesBuffer_eq : ∀ name, field.namesBuffer name = (constant.1 == name)
  becomes : field.BecomesConstant constant.2
  isValueType : field.type.dataType.isValueType

theorem declares_of_scanConstant {field : FieldDecl} {attr : ResolvedAttribute}
    {constant : String × ShaderConstant}
    (ha : findAttribute? field.attributes constantAttributeName = some attr)
    (h : scanConstant field attr = .ok constant) : field.Declares constant := by
  unfold scanConstant at h
  cases hbuffer : attr.bufferName? with
  | none => simp [hbuffer] at h
  | some buffer =>
      simp only [hbuffer] at h
      split at h
      · rename_i htype
        cases h
        refine ⟨?_, ⟨rfl, rfl, rfl, rfl⟩, htype⟩
        intro name
        have ha : findAttribute? field.attributes "Constant" = some attr := ha
        simp only [FieldDecl.namesBuffer, ha]
        unfold ResolvedAttribute.bufferName? at hbuffer
        cases hnamed : attr.named? "Buffer" with
        | some argument =>
            simp only [hnamed, Option.some_or] at hbuffer
            simp [hbuffer]
        | none =>
            cases hfirst : attr.positional? 0 with
            | some argument =>
                simp only [hnamed, hfirst, Option.none_or] at hbuffer
                simp [hbuffer]
            | none =>
                simp only [hnamed, hfirst, Option.none_or, Option.some.injEq] at hbuffer
                subst hbuffer
                exact Bool.beq_comm
      · cases h

/-- Without faults, every field with a constant attribute becomes a constant. -/
theorem scanConstants_forall₂ (fields : List FieldDecl) (h : (scanConstants fields).2 = []) :
    List.Forall₂ FieldDecl.Declares (fields.filter FieldDecl.isConstant)
      (scanConstants fields).1 := by
  induction fields with
  | nil => exact .nil
  | cons field rest ih =>
      simp only [scanConstants] at h ⊢
      cases ha : findAttribute? field.attributes constantAttributeName with
      | none =>
          simp only [ha] at h ⊢
          rw [List.filter_cons_of_neg (by simp [FieldDecl.isConstant, hasAttribute, ha])]
          exact ih h
      | some attr =>
          simp only [ha] at h ⊢
          rw [List.filter_cons_of_pos (by simp [FieldDecl.isConstant, hasAttribute, ha])]
          cases hs : scanConstant field attr with
          | error fault => simp [hs] at h
          | ok constant =>
              simp only [hs] at h ⊢
              exact .cons (declares_of_scanConstant ha hs) (ih h)

/-! ## Buffers -/

/-- Names that a field does not give keep their order when the field is put in front. -/
theorem pairwise_findIdx_cons {field : FieldDecl} {rest : List FieldDecl} {names : List String}
    (hfresh : ∀ name ∈ names, field.namesBuffer name = false)
    (h : names.Pairwise fun a b =>
      rest.findIdx (·.namesBuffer a) < rest.findIdx (·.namesBuffer b)) :
    names.Pairwise fun a b =>
      (field :: rest).findIdx (·.namesBuffer a) < (field :: rest).findIdx (·.namesBuffer b) := by
  apply h.imp_of_mem
  intro a b ha hb hab
  simp only [List.findIdx_cons, hfresh a ha, hfresh b hb, cond_false]
  omega

/-- The names that are not taken stand in the order of the fields that name them first. -/
theorem pairwise_eraseDups {fields : List FieldDecl} {constants : List (String × ShaderConstant)}
    (taken : List String)
    (h : List.Forall₂ FieldDecl.Declares (fields.filter FieldDecl.isConstant) constants) :
    ((constants.map (·.1)).filter (· ∉ taken)).eraseDups.Pairwise fun a b =>
      fields.findIdx (·.namesBuffer a) < fields.findIdx (·.namesBuffer b) := by
  induction fields generalizing taken constants with
  | nil =>
      rw [List.filter_nil, List.forall₂_nil_left_iff] at h
      simp [h]
  | cons field rest ih =>
      by_cases hc : field.isConstant = true
      · rw [List.filter_cons_of_pos hc, List.forall₂_cons_left_iff] at h
        obtain ⟨constant, others, hfield, hrest, rfl⟩ := h
        have hfresh : ∀ taken : List String, constant.1 ∈ taken →
            ∀ name ∈ ((others.map (·.1)).filter (· ∉ taken)).eraseDups,
              field.namesBuffer name = false := by
          intro taken htaken name hname
          rw [List.mem_eraseDups, List.mem_filter, decide_eq_true_eq] at hname
          rw [hfield.namesBuffer_eq, beq_eq_false_iff_ne]
          intro heq
          exact hname.2 (heq ▸ htaken)
        rw [List.map_cons]
        by_cases htaken : constant.1 ∈ taken
        · rw [List.filter_cons_of_neg (by simpa using htaken)]
          exact pairwise_findIdx_cons (hfresh taken htaken) (ih taken hrest)
        · have hothers : ((others.map (·.1)).filter (· ∉ taken)).filter (!· == constant.1) =
              (others.map (·.1)).filter (· ∉ constant.1 :: taken) := by
            rw [List.filter_filter]
            apply List.filter_congr
            intro name _
            by_cases hname : name = constant.1 <;> simp [hname]
          have hlater := hfresh (constant.1 :: taken) List.mem_cons_self
          rw [List.filter_cons_of_pos (by simpa using htaken), List.eraseDups_cons, hothers,
            List.pairwise_cons]
          refine ⟨?_, pairwise_findIdx_cons hlater (ih (constant.1 :: taken) hrest)⟩
          intro name hname
          simp [List.findIdx_cons, hfield.namesBuffer_eq constant.1, hlater name hname]
      · rw [List.filter_cons_of_neg hc] at h
        apply pairwise_findIdx_cons _ (ih taken h)
        intro name _
        by_contra hname
        exact hc (FieldDecl.isConstant_of_namesBuffer (by simpa using hname))

theorem map_name_groupConstants (constants : List (String × ShaderConstant)) :
    (groupConstants constants).map (·.name) = (constants.map (·.1)).eraseDups := by
  simp [groupConstants_eq, constantGroup, List.mapIdx_eq_zipIdx_map, Function.comp_def]

/-! ## Textures and literals -/

theorem forall₂_mapIdx {α β : Type} {R : α → β → Prop} (f : Nat → α → β) (xs : List α)
    (h : ∀ i, ∀ x ∈ xs, R x (f i x)) : List.Forall₂ R xs (xs.mapIdx f) := by
  induction xs generalizing f with
  | nil => exact .nil
  | cons x rest ih =>
      rw [List.mapIdx_cons]
      refine .cons (h 0 x (by simp)) (ih _ ?_)
      intro i y hy
      exact h (i + 1) y (by simp [hy])

theorem scanLiterals_forall₂ (fields : List FieldDecl) :
    List.Forall₂ FieldDecl.BecomesLiteral (fields.filter (·.hasKind .literal))
      (scanLiterals fields) := by
  induction fields with
  | nil => exact .nil
  | cons field rest ih =>
      have hmarked : (field.isConstant || field.isTechnique || field.isTexture) =
          field.isMarked := by
        rw [field.isTexture_eq, FieldDecl.isMarked]
        cases field.isConstant <;> cases field.isTechnique <;> rfl
      have hcons : scanLiterals (field :: rest) = field.literal?.toList ++ scanLiterals rest := by
        unfold scanLiterals
        cases hl : field.literal? <;> simp [hl]
      rw [hcons, FieldDecl.literal?, hmarked]
      by_cases hm : field.isMarked = true
      · rw [if_pos hm, List.filter_cons_of_neg (by simp [FieldDecl.hasKind, hm])]
        exact ih
      · rw [if_neg hm]
        cases hi : field.initializer with
        | none =>
            rw [List.filter_cons_of_neg (by simp [FieldDecl.hasKind, hi])]
            exact ih
        | some value =>
            rw [List.filter_cons_of_pos (by simp [FieldDecl.hasKind, hi, hm])]
            exact .cons ⟨rfl, rfl, hi, rfl⟩ ih

/-! ## Effects -/

/-- The position of the first field that names a buffer. -/
def TypeDecl.firstUse (decl : TypeDecl) (buffer : ConstantBuffer) : Nat :=
  decl.fields.findIdx (·.namesBuffer buffer.name)

/-- Buffers at slots that count from zero: those of the engine, then those of the effect in the order
of their first use. -/
structure Effect.Numbered (decl : TypeDecl) (effect : Effect) : Prop where
  first_use : effect.userBuffers.Pairwise fun a b => decl.firstUse a < decl.firstUse b
  system_buffers : ∃ camera viewport, effect.buffers = camera :: viewport :: effect.userBuffers ∧
    camera.name = "Camera" ∧ camera.shared ∧ viewport.name = "Viewport" ∧ viewport.shared
  unshared : ∀ buffer ∈ effect.buffers.drop 2, buffer.shared = false
  buffer_slots : ∀ (i : Nat) (buffer : ConstantBuffer), effect.buffers[i]? = some buffer →
    buffer.slot.toNat = i

/-- An effect that holds each field of its declaration in one place. With more buffers than slots,
slots would be given out again, so only up to then each buffer has its own. -/
structure Effect.Arranges (decl : TypeDecl) (effect : Effect) : Prop where
  one_kind : ∀ field ∈ decl.fields, ∃! kind, field.hasKind kind = true
  one_buffer : ∀ field ∈ decl.fields, field.hasKind .constant →
    ∃! buffer, buffer ∈ effect.userBuffers ∧ field.namesBuffer buffer.name = true
  constants : ∀ buffer ∈ effect.userBuffers, buffer.constants ≠ [] ∧
    List.Forall₂ FieldDecl.BecomesConstant (decl.fields.filter (·.namesBuffer buffer.name))
      buffer.constants
  nodup_names : (effect.userBuffers.map (·.name)).Nodup
  user_slots : ∀ buffer ∈ effect.userBuffers, buffer.slot =
    .ofNat (2 + effect.userBuffers.countP (decl.firstUse · < decl.firstUse buffer))
  slot_order : effect.buffers.Pairwise (·.slot ≤ ·.slot)
  numbered : effect.buffers.length ≤ UInt32.size → effect.Numbered decl
  textures : List.Forall₂ FieldDecl.BecomesTexture (decl.fields.filter (·.hasKind .texture))
    effect.textures
  texture_slots : ∀ (i : Nat) (texture : ShaderTexture), effect.textures[i]? = some texture →
    texture.slot = .ofNat i
  literals : List.Forall₂ FieldDecl.BecomesLiteral (decl.fields.filter (·.hasKind .literal))
    effect.literals
  techniques : List.Forall₂ (FieldDecl.BecomesTechnique effect.methods)
    (decl.fields.filter (·.hasKind .technique)) effect.techniques

/-- The buffers that the fields name, in the order of their first use. -/
def TypeDecl.groupedBuffers (decl : TypeDecl) (methods : List ShaderMethod) :
    List ConstantBuffer :=
  (groupConstants (scanConstants decl.fields).1).map fun buffer =>
    { buffer with stages := referringStages methods (buffer.constants.map (·.name)) }

theorem TypeDecl.map_name_groupedBuffers (decl : TypeDecl) (methods : List ShaderMethod) :
    (decl.groupedBuffers methods).map (·.name) =
      ((scanConstants decl.fields).1.map (·.1)).eraseDups := by
  rw [groupedBuffers, List.map_map, ← map_name_groupConstants]
  rfl

/-- In increasing order, an element comes after as many as are smaller. -/
theorem countP_of_pairwise {α : Type} {f : α → Nat} {xs : List α}
    (h : xs.Pairwise fun a b => f a < f b) {i : Nat} {x : α} (hi : xs[i]? = some x) :
    xs.countP (f · < f x) = i := by
  induction xs generalizing i with
  | nil => simp at hi
  | cons first rest ih =>
      obtain ⟨hfirst, hrest⟩ := List.pairwise_cons.mp h
      cases i with
      | zero =>
          obtain rfl : first = x := by simpa using hi
          rw [List.countP_eq_zero]
          intro other ho
          rcases List.mem_cons.mp ho with rfl | ho
          · simp
          · have hlater := hfirst other ho
            simp
            omega
      | succ i =>
          have hx : rest[i]? = some x := by simpa using hi
          have hless := hfirst x (List.mem_of_getElem? hx)
          rw [List.countP_cons_of_pos (by simpa using hless), ih hrest hx]

namespace Built

variable {decl : TypeDecl} {effect : Effect}

theorem constants (h : Built decl effect) :
    List.Forall₂ FieldDecl.Declares (decl.fields.filter FieldDecl.isConstant)
      (scanConstants decl.fields).1 :=
  scanConstants_forall₂ decl.fields h.constants_eq

theorem exists_declares (h : Built decl effect) {field : FieldDecl} (hf : field ∈ decl.fields)
    (hc : field.isConstant) :
    ∃ constant ∈ (scanConstants decl.fields).1, field.Declares constant :=
  forall₂_mem_left h.constants (List.mem_filter.mpr ⟨hf, hc⟩)

/-- The type of a field tells whether it is a constant, a technique or a texture. -/
theorem exclusive_marks (h : Built decl effect) {field : FieldDecl} (hf : field ∈ decl.fields) :
    (field.isConstant → ¬ field.isTechnique ∧ ¬ field.type.dataType.isTexture) ∧
      (field.isTechnique → ¬ field.type.dataType.isTexture) := by
  have htechnique : field.isTechnique → ¬ field.type.dataType.isTexture := by
    intro ht
    simp [field.dataType_of_isTechnique ht, DataType.isTexture]
  refine ⟨?_, htechnique⟩
  intro hc
  obtain ⟨constant, -, hdeclares⟩ := h.exists_declares hf hc
  have hvalue := hdeclares.isValueType
  constructor
  · intro ht
    simp [field.dataType_of_isTechnique ht, DataType.isValueType] at hvalue
  · intro hx
    cases htype : field.type.dataType <;> simp_all [DataType.isValueType, DataType.isTexture]

theorem one_kind (h : Built decl effect) {field : FieldDecl} (hf : field ∈ decl.fields) :
    ∃! kind, field.hasKind kind = true := by
  obtain ⟨hconstant, htechnique⟩ := h.exclusive_marks hf
  by_cases hc : field.isConstant = true
  · refine ⟨.constant, hc, ?_⟩
    intro kind hk
    cases kind <;> simp_all [FieldDecl.hasKind, FieldDecl.isMarked]
  · by_cases ht : field.isTechnique = true
    · refine ⟨.technique, ht, ?_⟩
      intro kind hk
      cases kind <;> simp_all [FieldDecl.hasKind, FieldDecl.isMarked]
    · by_cases hx : field.type.dataType.isTexture = true
      · refine ⟨.texture, hx, ?_⟩
        intro kind hk
        cases kind <;> simp_all [FieldDecl.hasKind, FieldDecl.isMarked]
      · have hm : field.isMarked = false := by simp [FieldDecl.isMarked, hc, ht, hx]
        cases hi : field.initializer with
        | some value =>
            refine ⟨.literal, by simp [FieldDecl.hasKind, hm, hi], ?_⟩
            intro kind hk
            cases kind <;> simp_all [FieldDecl.hasKind]
        | none =>
            refine ⟨.plain, by simp [FieldDecl.hasKind, hm, hi], ?_⟩
            intro kind hk
            cases kind <;> simp_all [FieldDecl.hasKind]

theorem mem_buffers (h : Built decl effect) {buffer : ConstantBuffer} (hb : buffer ∈ effect.buffers) :
    (∃ plain ∈ systemBuffers, buffer.name = plain.name ∧ buffer.constants = plain.constants) ∨
      buffer ∈ decl.groupedBuffers effect.methods := by
  rw [h.buffers_eq] at hb
  obtain ⟨plain, hp, rfl⟩ := List.mem_map.mp hb
  rcases mem_mergeBuffers.mp hp with hsystem | huser
  · exact .inl ⟨plain, hsystem, rfl, rfl⟩
  · exact .inr (List.mem_map_of_mem huser)

/-- The buffers of an effect are those that are not shared: its own, in some order. -/
theorem userBuffers_perm (h : Built decl effect) :
    effect.userBuffers.Perm (decl.groupedBuffers effect.methods) := by
  have hsystem : systemBuffers.filter (!·.shared) = [] :=
    List.filter_eq_nil_iff.mpr fun buffer hb => by simp [(mem_systemBuffers hb).1]
  have huser : (groupConstants (scanConstants decl.fields).1).filter (!·.shared) =
      groupConstants (scanConstants decl.fields).1 := by
    apply List.filter_eq_self.mpr
    intro buffer hb
    obtain ⟨slot, heq⟩ := eq_constantGroup_of_mem hb
    rw [heq]
    rfl
  have hperm := (mergeBuffers_perm systemBuffers
    (groupConstants (scanConstants decl.fields).1)).filter (!·.shared)
  rw [List.filter_append, hsystem, huser, List.nil_append] at hperm
  rw [Effect.userBuffers, h.buffers_eq, List.filter_map]
  exact hperm.map _

theorem mem_userBuffers (h : Built decl effect) {buffer : ConstantBuffer} :
    buffer ∈ effect.userBuffers ↔ buffer ∈ decl.groupedBuffers effect.methods :=
  h.userBuffers_perm.mem_iff

theorem map_name_userBuffers (h : Built decl effect) :
    (effect.userBuffers.map (·.name)).Perm ((scanConstants decl.fields).1.map (·.1)).eraseDups := by
  rw [← decl.map_name_groupedBuffers effect.methods]
  exact h.userBuffers_perm.map _

theorem mem_map_name_userBuffers (h : Built decl effect) {name : String} :
    name ∈ effect.userBuffers.map (·.name) ↔ name ∈ (scanConstants decl.fields).1.map (·.1) := by
  rw [h.map_name_userBuffers.mem_iff, List.mem_eraseDups]

theorem nodup_userBuffers (h : Built decl effect) : (effect.userBuffers.map (·.name)).Nodup :=
  h.map_name_userBuffers.nodup_iff.mpr (nodup_eraseDups _)

theorem firstUse_groupedBuffers (h : Built decl effect) (methods : List ShaderMethod) :
    (decl.groupedBuffers methods).Pairwise fun a b => decl.firstUse a < decl.firstUse b := by
  have hpairwise := pairwise_eraseDups [] h.constants
  rw [List.filter_eq_self.mpr (by simp), ← decl.map_name_groupedBuffers methods,
    List.pairwise_map] at hpairwise
  exact hpairwise

/-- A buffer is numbered by how many buffers are used before it. -/
theorem user_slots (h : Built decl effect) {buffer : ConstantBuffer}
    (hb : buffer ∈ effect.userBuffers) :
    buffer.slot =
      .ofNat (2 + effect.userBuffers.countP (decl.firstUse · < decl.firstUse buffer)) := by
  obtain ⟨i, hi⟩ := List.getElem?_of_mem (h.mem_userBuffers.mp hb)
  rw [h.userBuffers_perm.countP_eq,
    countP_of_pairwise (h.firstUse_groupedBuffers effect.methods) hi]
  rw [TypeDecl.groupedBuffers, List.getElem?_map, Option.map_eq_some_iff] at hi
  obtain ⟨plain, hp, rfl⟩ := hi
  have hshifted : (systemBuffers ++ groupConstants (scanConstants decl.fields).1)[2 + i]? =
      some plain := by
    rw [Nat.add_comm]
    exact hp
  show plain.slot = _
  exact slot_of_getElem? hshifted

theorem slot_order (h : Built decl effect) : effect.buffers.Pairwise (·.slot ≤ ·.slot) := by
  rw [h.buffers_eq, List.pairwise_map]
  exact pairwise_mergeBuffers _ _

/-- With a slot for each buffer, sorting by slot leaves the buffers in their order. -/
theorem buffers_eq_append (h : Built decl effect) (hslots : effect.buffers.length ≤ UInt32.size) :
    effect.buffers =
      (systemBuffers ++ groupConstants (scanConstants decl.fields).1).map fun buffer =>
        { buffer with stages := referringStages effect.methods (buffer.constants.map (·.name)) } := by
  rw [h.buffers_eq, List.length_map, (mergeBuffers_perm _ _).length_eq] at hslots
  rw [h.buffers_eq, mergeBuffers_eq_append hslots]

theorem userBuffers_eq (h : Built decl effect) (hslots : effect.buffers.length ≤ UInt32.size) :
    effect.userBuffers = decl.groupedBuffers effect.methods := by
  have hsublist : (decl.groupedBuffers effect.methods).Sublist effect.buffers := by
    rw [h.buffers_eq_append hslots, List.map_append]
    exact List.sublist_append_right _ _
  have hfiltered := hsublist.filter (!·.shared)
  rw [List.filter_eq_self.mpr] at hfiltered
  · exact (hfiltered.eq_of_length h.userBuffers_perm.length_eq.symm).symm
  · intro buffer hb
    exact (List.mem_filter.mp (h.mem_userBuffers.mpr hb)).2

theorem system_buffers (h : Built decl effect) (hslots : effect.buffers.length ≤ UInt32.size) :
    ∃ camera viewport, effect.buffers = camera :: viewport :: effect.userBuffers ∧
      camera.name = "Camera" ∧ camera.shared ∧ viewport.name = "Viewport" ∧ viewport.shared := by
  rw [h.userBuffers_eq hslots, h.buffers_eq_append hslots]
  exact ⟨_, _, rfl, rfl, rfl, rfl, rfl⟩

theorem slot_eq (h : Built decl effect) (hslots : effect.buffers.length ≤ UInt32.size) {i : Nat}
    {buffer : ConstantBuffer} (hi : effect.buffers[i]? = some buffer) : buffer.slot.toNat = i := by
  obtain ⟨hlength, -⟩ := List.getElem?_eq_some_iff.mp hi
  rw [h.buffers_eq_append hslots, List.getElem?_map, Option.map_eq_some_iff] at hi
  obtain ⟨plain, hp, rfl⟩ := hi
  show plain.slot.toNat = i
  rw [slot_of_getElem? hp, UInt32.toNat_ofNat_of_lt' (by omega)]

theorem numbered (h : Built decl effect) (hslots : effect.buffers.length ≤ UInt32.size) :
    effect.Numbered decl := by
  obtain ⟨camera, viewport, hbuffers, hsystem⟩ := h.system_buffers hslots
  exact {
    first_use := by
      rw [h.userBuffers_eq hslots]
      exact h.firstUse_groupedBuffers effect.methods
    system_buffers := ⟨camera, viewport, hbuffers, hsystem⟩
    unshared := by
      rw [hbuffers]
      intro buffer hb
      simpa using (List.mem_filter.mp hb).2
    buffer_slots := fun _ _ hi => h.slot_eq hslots hi }

theorem userBuffer_constants (h : Built decl effect) {buffer : ConstantBuffer}
    (hb : buffer ∈ effect.userBuffers) :
    List.Forall₂ FieldDecl.BecomesConstant (decl.fields.filter (·.namesBuffer buffer.name))
      buffer.constants := by
  obtain ⟨plain, hp, rfl⟩ := List.mem_map.mp (h.mem_userBuffers.mp hb)
  obtain ⟨slot, hplain⟩ := eq_constantGroup_of_mem hp
  have hconstants : plain.constants = constantsNamed (scanConstants decl.fields).1 plain.name :=
    congrArg ConstantBuffer.constants hplain
  have hfiltered : List.Forall₂ FieldDecl.Declares
      ((decl.fields.filter FieldDecl.isConstant).filter (·.namesBuffer plain.name))
      ((scanConstants decl.fields).1.filter (·.1 == plain.name)) := by
    refine List.rel_filter ?_ h.constants
    intro field constant hdeclares
    simp [hdeclares.namesBuffer_eq]
  have hfields : (decl.fields.filter FieldDecl.isConstant).filter (·.namesBuffer plain.name) =
      decl.fields.filter (·.namesBuffer plain.name) := by
    rw [List.filter_filter]
    apply List.filter_congr
    intro field _
    rw [Bool.and_eq_left_iff_imp]
    exact FieldDecl.isConstant_of_namesBuffer
  rw [hfields] at hfiltered
  show List.Forall₂ _ _ plain.constants
  rw [hconstants, constantsNamed, List.forall₂_map_right_iff]
  exact hfiltered.imp fun _ _ hdeclares => hdeclares.becomes

theorem one_buffer (h : Built decl effect) {field : FieldDecl} (hf : field ∈ decl.fields)
    (hc : field.isConstant) :
    ∃! buffer, buffer ∈ effect.userBuffers ∧ field.namesBuffer buffer.name = true := by
  obtain ⟨constant, hmem, hdeclares⟩ := h.exists_declares hf hc
  have hname : constant.1 ∈ effect.userBuffers.map (·.name) := by
    rw [h.mem_map_name_userBuffers]
    exact List.mem_map_of_mem hmem
  obtain ⟨buffer, hb, heq⟩ := List.mem_map.mp hname
  refine ⟨buffer, ⟨hb, by simp [hdeclares.namesBuffer_eq, heq]⟩, ?_⟩
  rintro other ⟨ho, hnames⟩
  have hother : constant.1 = other.name := by simpa [hdeclares.namesBuffer_eq] using hnames
  exact List.inj_on_of_nodup_map h.nodup_userBuffers ho hb (by rw [heq, hother])

theorem userBuffer_ne_nil (h : Built decl effect) {buffer : ConstantBuffer}
    (hb : buffer ∈ effect.userBuffers) : buffer.constants ≠ [] := by
  have hname : buffer.name ∈ effect.userBuffers.map (·.name) := List.mem_map_of_mem hb
  rw [h.mem_map_name_userBuffers] at hname
  obtain ⟨constant, hc, heq⟩ := List.mem_map.mp hname
  obtain ⟨field, hf, hdeclares⟩ := forall₂_mem_right h.constants hc
  have hforall := h.userBuffer_constants hb
  intro hempty
  rw [hempty, List.forall₂_nil_right_iff, List.filter_eq_nil_iff] at hforall
  exact hforall field (List.mem_filter.mp hf).1 (by simp [hdeclares.namesBuffer_eq, heq])

theorem textures (h : Built decl effect) :
    List.Forall₂ FieldDecl.BecomesTexture (decl.fields.filter (·.hasKind .texture))
      effect.textures := by
  have hfields : decl.fields.filter (·.hasKind .texture) =
      decl.fields.filter FieldDecl.isTexture := by
    apply List.filter_congr
    intro field hf
    obtain ⟨hconstant, htechnique⟩ := h.exclusive_marks hf
    rw [field.isTexture_eq, FieldDecl.hasKind]
    by_cases hx : field.type.dataType.isTexture = true
    · have hc : field.isConstant = false := by
        by_contra hc
        exact (hconstant (by simpa using hc)).2 hx
      have ht : field.isTechnique = false := by
        by_contra ht
        exact htechnique (by simpa using ht) hx
      simp [hc, ht]
    · simp [hx]
  rw [hfields, h.textures_eq, List.forall₂_map_right_iff, scanTextures_eq]
  apply forall₂_mapIdx
  intro slot field hf
  have htype := field.elementDataType_of_isTexture (List.mem_filter.mp hf).2
  exact ⟨rfl, htype, rfl⟩

theorem texture_slot_eq (h : Built decl effect) {i : Nat} {texture : ShaderTexture}
    (hi : effect.textures[i]? = some texture) : texture.slot = .ofNat i := by
  rw [h.textures_eq, scanTextures_eq, List.getElem?_map, List.getElem?_mapIdx, Option.map_map,
    Option.map_eq_some_iff] at hi
  obtain ⟨field, -, rfl⟩ := hi
  rfl

end Built

/-- The fields of a built effect are sorted without loss: each is of one kind, each constant is in
the one buffer that it names, everything stands in declaration order, and slots count from zero, as
long as there is one for each buffer. -/
theorem fields_arranged {decl : TypeDecl} {effect : Effect}
    (hb : decl.build.result = .ok effect) : effect.Arranges decl := by
  have h := built_of_build hb
  exact {
    one_kind := fun _ hf => h.one_kind hf
    one_buffer := fun _ hf hc => h.one_buffer hf hc
    constants := fun _ hb => ⟨h.userBuffer_ne_nil hb, h.userBuffer_constants hb⟩
    nodup_names := h.nodup_userBuffers
    user_slots := fun _ hb => h.user_slots hb
    slot_order := h.slot_order
    numbered := h.numbered
    textures := h.textures
    texture_slots := fun _ _ hi => h.texture_slot_eq hi
    literals := by
      rw [h.literals_eq]
      exact scanLiterals_forall₂ decl.fields
    techniques := h.techniques }

/-- An effect whose constants name three buffers in turn, with a texture, an array of textures and
a field without a value between them. -/
def interleaved : TypeDecl :=
  let constant (name buffer : String) : Member :=
    .field {
      name
      type := .named "float"
      attributes := [{
        name := "Constant"
        arguments := [{ value := ⟨.literal (.string buffer), {}, {}⟩ }] }] }
  { tinting [] with
    members := [
      constant "Gloss" "Second",
      .field { name := "Layers", type := .array (.named "Texture2D") },
      constant "Fade" "First",
      .field { name := "Mask", type := .named "Texture2D" },
      constant "Bias" "Second",
      .field { name := "Unset", type := .named "float" }] ++ (tinting []).members }

theorem interleaved_arranged :
    interleaved.build.result = .ok interleaved.scan.1 ∧
      (interleaved.scan.1.userBuffers.map fun buffer => (buffer.slot, buffer.name)) =
        [(2, "Second"), (3, "First"), (4, "Constants")] ∧
      interleaved.scan.1.Arranges interleaved ∧ interleaved.scan.1.Numbered interleaved :=
  ⟨rfl, rfl, fields_arranged rfl, (fields_arranged rfl).numbered (by decide)⟩

end ShaderEffect
