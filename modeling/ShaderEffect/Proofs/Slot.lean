import Mathlib.Data.List.Induction
import Mathlib.Data.List.Sort
import ShaderEffect.Effect.Build

/-!
# Slots

What the steps that give out slots add up to. Textures are numbered in declaration order. Constants
are grouped by the names of their buffers, in the order of the first appearance of these. The buffers
are numbered after those of the engine, and sorting them by slot changes nothing as long as there are
enough slots.
-/

namespace ShaderEffect

/-! ## Textures -/

theorem foldl_addTexture (textures : List ShaderTexture) (fields : List FieldDecl) :
    fields.foldl addTexture textures =
      textures ++ (fields.filter FieldDecl.isTexture).mapIdx fun i field =>
        field.textureAt (.ofNat (textures.length + i)) := by
  induction fields generalizing textures with
  | nil => simp
  | cons field rest ih =>
      rw [List.foldl_cons, ih, addTexture]
      by_cases ht : field.isTexture = true
      · rw [if_pos ht, List.filter_cons_of_pos ht, List.mapIdx_cons, List.append_assoc]
        simp [Nat.add_assoc, Nat.add_comm 1]
      · rw [if_neg ht, List.filter_cons_of_neg ht]

/-- Textures are numbered in declaration order. -/
theorem scanTextures_eq (fields : List FieldDecl) :
    scanTextures fields = (fields.filter FieldDecl.isTexture).mapIdx fun i field =>
      field.textureAt (.ofNat i) := by
  simp [scanTextures, foldl_addTexture]

/-! ## Groups of constants -/

/-- The constants of the buffer with a name, in declaration order. -/
def constantsNamed (constants : List (String × ShaderConstant)) (name : String) :
    List ShaderConstant :=
  (constants.filter (·.1 == name)).map (·.2)

theorem constantsNamed_append (first second : List (String × ShaderConstant)) (name : String) :
    constantsNamed (first ++ second) name =
      constantsNamed first name ++ constantsNamed second name := by
  simp [constantsNamed]

theorem constantsNamed_of_notMem {constants : List (String × ShaderConstant)} {name : String}
    (h : name ∉ constants.map (·.1)) : constantsNamed constants name = [] := by
  rw [constantsNamed, List.map_eq_nil_iff, List.filter_eq_nil_iff]
  intro constant hc hname
  obtain rfl : constant.1 = name := by simpa using hname
  exact h (List.mem_map_of_mem hc)

theorem addConstant_of_notMem {name : String} {constant : ShaderConstant}
    {buffers : List ConstantBuffer} (h : name ∉ buffers.map (·.name)) :
    addConstant name constant buffers =
      buffers ++ [{ name, slot := 0, shared := false, constants := [constant] }] := by
  induction buffers with
  | nil => rfl
  | cons buffer rest ih =>
      rw [List.map_cons, List.mem_cons, not_or] at h
      have hother : (buffer.name == name) = false := by simpa using Ne.symm h.1
      rw [addConstant, hother, ih h.2]
      rfl

/-- The one buffer with the name gets the constant. -/
theorem addConstant_of_mem {name : String} {constant : ShaderConstant}
    {buffers : List ConstantBuffer} (hn : (buffers.map (·.name)).Nodup)
    (h : name ∈ buffers.map (·.name)) :
    addConstant name constant buffers = buffers.map fun buffer =>
      { buffer with
        constants := buffer.constants ++ constantsNamed [(name, constant)] buffer.name } := by
  induction buffers with
  | nil => simp at h
  | cons buffer rest ih =>
      rw [List.map_cons, List.nodup_cons] at hn
      rw [addConstant, List.map_cons]
      by_cases hname : buffer.name = name
      · subst hname
        have hrest : ∀ other ∈ rest,
            constantsNamed [(buffer.name, constant)] other.name = [] := by
          intro other ho
          apply constantsNamed_of_notMem
          intro hsame
          obtain hsame : other.name = buffer.name := by simpa using hsame
          exact hn.1 (hsame ▸ List.mem_map_of_mem ho)
        rw [if_pos (beq_self_eq_true _)]
        congr 1
        · simp [constantsNamed]
        · conv_lhs => rw [← List.map_id rest]
          apply List.map_congr_left
          intro other ho
          simp [hrest other ho]
      · have hmem : name ∈ rest.map (·.name) := by
          rcases List.mem_cons.mp h with rfl | hmem
          · exact absurd rfl hname
          · exact hmem
        rw [if_neg (by simpa using hname), ih hn.2 hmem]
        simp [constantsNamed, Ne.symm hname]

theorem eraseDups_concat (names : List String) (name : String) :
    (names ++ [name]).eraseDups =
      if name ∈ names then names.eraseDups else names.eraseDups ++ [name] := by
  rw [List.eraseDups_append]
  split
  · rename_i hmem
    simp [List.removeAll, hmem]
  · rename_i hmem
    simp [List.removeAll, hmem, List.eraseDups_cons]

theorem nodup_eraseDups (names : List String) : names.eraseDups.Nodup := by
  induction names using List.reverseRecOn with
  | nil => exact List.nodup_nil
  | append_singleton names name ih =>
      rw [eraseDups_concat]
      split
      · exact ih
      · rename_i hmem
        rw [← List.concat_eq_append]
        exact ih.concat (mt List.mem_eraseDups.mp hmem)

/-- The buffer of the constants that name it, at a slot. -/
def constantGroup (constants : List (String × ShaderConstant)) (slot : UInt32) (name : String) :
    ConstantBuffer :=
  { name, slot, shared := false, constants := constantsNamed constants name }

/-- The constants are grouped by buffer, in the order in which the names first appear. -/
theorem foldl_addConstant (constants : List (String × ShaderConstant)) :
    constants.foldl (fun buffers constant => addConstant constant.1 constant.2 buffers) [] =
      (constants.map (·.1)).eraseDups.map (constantGroup constants 0) := by
  induction constants using List.reverseRecOn with
  | nil => rfl
  | append_singleton constants last ih =>
      obtain ⟨name, constant⟩ := last
      have hnames : ((constants.map (·.1)).eraseDups.map (constantGroup constants 0)).map (·.name) =
          (constants.map (·.1)).eraseDups := by
        simp [constantGroup, Function.comp_def]
      rw [List.foldl_append, List.foldl_cons, List.foldl_nil, ih, List.map_append, List.map_cons,
        List.map_nil, eraseDups_concat]
      by_cases hmem : name ∈ constants.map (·.1)
      · rw [if_pos hmem, addConstant_of_mem, List.map_map]
        · apply List.map_congr_left
          intro other _
          simp only [Function.comp_apply, constantGroup, constantsNamed_append]
        · rw [hnames]
          exact nodup_eraseDups _
        · rw [hnames]
          exact List.mem_eraseDups.mpr hmem
      · rw [if_neg hmem, addConstant_of_notMem, List.map_append]
        · congr 1
          · apply List.map_congr_left
            intro other ho
            have hother : other ≠ name := by
              rintro rfl
              exact hmem (List.mem_eraseDups.mp ho)
            have hnone : constantsNamed [(name, constant)] other = [] :=
              constantsNamed_of_notMem (by simpa using hother)
            rw [constantGroup, constantGroup, constantsNamed_append, hnone, List.append_nil]
          · rw [List.map_cons, List.map_nil, constantGroup, constantsNamed_append,
              constantsNamed_of_notMem hmem]
            simp [constantsNamed]
        · rw [hnames]
          exact mt List.mem_eraseDups.mp hmem

/-! ## Slots of buffers -/

theorem numberBuffers_eq (slot : UInt32) (buffers : List ConstantBuffer) :
    numberBuffers slot buffers =
      buffers.mapIdx fun i buffer => { buffer with slot := slot + .ofNat i } := by
  induction buffers generalizing slot with
  | nil => rfl
  | cons buffer rest ih =>
      have hnext (i : Nat) : slot + 1 + .ofNat i = slot + .ofNat (i + 1) := by
        rw [UInt32.ofNat_add, UInt32.add_comm (.ofNat i), UInt32.add_assoc]
        rfl
      rw [numberBuffers, ih, List.mapIdx_cons]
      simp only [hnext]
      simp

/-- The buffers of the constants, at slots in the order in which their names first appear. -/
theorem groupConstants_eq (constants : List (String × ShaderConstant)) :
    groupConstants constants = (constants.map (·.1)).eraseDups.mapIdx fun i name =>
      constantGroup constants (firstUserSlot + .ofNat i) name := by
  rw [groupConstants, foldl_addConstant, numberBuffers_eq]
  apply List.ext_getElem?
  intro i
  simp only [List.getElem?_mapIdx, List.getElem?_map, Option.map_map]
  rfl

theorem eq_constantGroup_of_mem {constants : List (String × ShaderConstant)}
    {buffer : ConstantBuffer} (h : buffer ∈ groupConstants constants) :
    ∃ slot, buffer = constantGroup constants slot buffer.name := by
  rw [groupConstants_eq] at h
  obtain ⟨i, hi, rfl⟩ := List.mem_mapIdx.mp h
  exact ⟨_, rfl⟩

/-- The buffers are numbered without gaps, after those of the engine. -/
theorem slot_of_getElem? {constants : List (String × ShaderConstant)} {i : Nat}
    {buffer : ConstantBuffer} (h : (systemBuffers ++ groupConstants constants)[i]? = some buffer) :
    buffer.slot = .ofNat i := by
  rcases i with - | - | i
  · cases h
    rfl
  · cases h
    rfl
  · have hgroup : (groupConstants constants)[i]? = some buffer := h
    rw [groupConstants_eq, List.getElem?_mapIdx, Option.map_eq_some_iff] at hgroup
    obtain ⟨name, -, rfl⟩ := hgroup
    rw [UInt32.ofNat_add, UInt32.ofNat_add, UInt32.add_assoc]
    exact UInt32.add_comm _ _

/-! ## The order of buffers -/

theorem insertBySlot_eq (buffer : ConstantBuffer) (buffers : List ConstantBuffer) :
    insertBySlot buffer buffers = buffers.orderedInsert (·.slot ≤ ·.slot) buffer := by
  induction buffers with
  | nil => rfl
  | cons first rest ih => rw [insertBySlot, List.orderedInsert_cons, ih]

theorem sortBySlot_eq (buffers : List ConstantBuffer) :
    sortBySlot buffers = buffers.insertionSort (·.slot ≤ ·.slot) := by
  induction buffers with
  | nil => rfl
  | cons first rest ih => rw [sortBySlot, List.insertionSort_cons, ih, insertBySlot_eq]

theorem mergeBuffers_perm (system user : List ConstantBuffer) :
    (mergeBuffers system user).Perm (system ++ user) := by
  rw [mergeBuffers, sortBySlot_eq]
  exact List.perm_insertionSort _ _

theorem mem_mergeBuffers {system user : List ConstantBuffer} {buffer : ConstantBuffer} :
    buffer ∈ mergeBuffers system user ↔ buffer ∈ system ∨ buffer ∈ user := by
  rw [(mergeBuffers_perm system user).mem_iff, List.mem_append]

theorem pairwise_mergeBuffers (system user : List ConstantBuffer) :
    (mergeBuffers system user).Pairwise (·.slot ≤ ·.slot) := by
  have htotal : Std.Total fun a b : ConstantBuffer => a.slot ≤ b.slot :=
    ⟨fun a b => UInt32.le_total a.slot b.slot⟩
  have htrans : IsTrans ConstantBuffer fun a b => a.slot ≤ b.slot :=
    ⟨fun a b c => UInt32.le_trans⟩
  rw [mergeBuffers, sortBySlot_eq]
  exact List.pairwise_insertionSort _ _

/-- As long as there is a slot for each buffer, those of the engine come first, and those of the
effect follow in the order in which their names first appear. -/
theorem mergeBuffers_eq_append {constants : List (String × ShaderConstant)}
    (h : (systemBuffers ++ groupConstants constants).length ≤ UInt32.size) :
    mergeBuffers systemBuffers (groupConstants constants) =
      systemBuffers ++ groupConstants constants := by
  rw [mergeBuffers, sortBySlot_eq]
  apply List.Pairwise.insertionSort_eq
  rw [List.pairwise_iff_getElem]
  intro i j hi hj hij
  have hfirst := slot_of_getElem? (List.getElem?_eq_getElem hi)
  have hsecond := slot_of_getElem? (List.getElem?_eq_getElem hj)
  rw [hfirst, hsecond, UInt32.le_iff_toNat_le, UInt32.toNat_ofNat_of_lt' (by omega),
    UInt32.toNat_ofNat_of_lt' (by omega)]
  omega

end ShaderEffect
