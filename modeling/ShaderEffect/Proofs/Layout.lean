import Mathlib.Algebra.Group.Nat.Defs
import Mathlib.Data.List.Forall2
import Mathlib.Order.Bounds.Basic
import ShaderEffect.Effect.Basic

/-!
# Layouts of constant buffers

The members of a buffer are placed one after the other, each at the least offset that its packing
admits after the end of the member before it. The layout of a buffer is therefore the tightest one
that keeps the order of its constants. Offsets are numbers of 32 bits, but no operation on them wraps
for any buffer that could be declared.

Every offset that the standard uniform block layout admits is also admitted in HLSL. So a member is
never placed later in HLSL, and a buffer is never larger.
-/

namespace ShaderEffect

/-! ## Rules of the packings -/

/-- A range of bytes that goes on in the register after the one it starts in. -/
def CrossesRegister (offset size : Nat) : Prop :=
  ∃ boundary, 16 ∣ boundary ∧ offset < boundary ∧ boundary < offset + size

/-- The offsets at which a member of a type may start. -/
def Packing.Admits (packing : Packing) (type : DataType) (offset : Nat) : Prop :=
  match packing with
  | .hlsl =>
    if type.isMatrix then 16 ∣ offset else ¬ CrossesRegister offset type.size.toNat
  | .std140 =>
    match type with
    | .bool | .int | .float => 4 ∣ offset
    | .vector2 => 8 ∣ offset
    | .vector3 | .vector4 | .matrix => 16 ∣ offset
    | .unknown | .texture2D | .textureCube => True

theorem crossesRegister_iff {offset size : Nat} (h : size ≤ 16) :
    CrossesRegister offset size ↔ 16 < offset % 16 + size := by
  constructor
  · rintro ⟨boundary, ⟨register, rfl⟩, hstart, hstop⟩
    omega
  · intro hcross
    exact ⟨16 * (offset / 16 + 1), Nat.dvd_mul_right _ _, by omega, by omega⟩

namespace DataType

theorem size_le (type : DataType) : type.size.toNat ≤ 64 := by
  cases type <;> decide

theorem size_le_register {type : DataType} (h : type.isMatrix = false) :
    type.size.toNat ≤ 16 := by
  cases type <;> first | decide | cases h

theorem four_dvd_size (type : DataType) : 4 ∣ type.size.toNat := by
  cases type <;> decide

end DataType

/-- An offset of the standard uniform block layout is one of HLSL, too. -/
theorem Packing.admits_hlsl_of_std140 {type : DataType} {offset : Nat}
    (h : Packing.std140.Admits type offset) : Packing.hlsl.Admits type offset := by
  unfold Admits at h ⊢
  cases hm : type.isMatrix with
  | true =>
      obtain rfl : type = .matrix := by cases type <;> first | rfl | cases hm
      exact h
  | false =>
      rw [if_neg Bool.false_ne_true, crossesRegister_iff (DataType.size_le_register hm)]
      cases type <;> simp [DataType.size, DataType.isMatrix] at h hm ⊢ <;> omega

/-! ## Operations that do not wrap -/

/-- A sum, unless it needs more than 32 bits. -/
def checkedAdd? (a b : UInt32) : Option UInt32 :=
  if a.toNat + b.toNat < UInt32.size then some (a + b) else none

/-- A difference, unless it is negative. -/
def checkedSub? (a b : UInt32) : Option UInt32 :=
  if b.toNat ≤ a.toNat then some (a - b) else none

/-- A product, unless it needs more than 32 bits. -/
def checkedMul? (a b : UInt32) : Option UInt32 :=
  if a.toNat * b.toNat < UInt32.size then some (a * b) else none

/-- The next multiple of 16, unless the computation wraps. -/
def alignToRegister? (size : UInt32) : Option UInt32 := do
  return (← checkedAdd? size 15) &&& ~~~15

namespace Packing

/-- The offset of a member, unless the computation wraps. -/
def place? (packing : Packing) (offset : UInt32) (type : DataType) : Option UInt32 :=
  match packing with
  | hlsl => do
    let stop ← checkedAdd? (offset % 16) type.size
    if type.isMatrix || stop > 16 then alignToRegister? offset else return offset
  | std140 => do
    let alignment := std140Alignment type
    let raised ← checkedSub? (← checkedAdd? offset alignment) 1
    checkedMul? (raised / alignment) alignment

/-- The members placed one after the other, unless the computation wraps. -/
def placeAll? (packing : Packing) (offset : UInt32) :
    List (String × DataType) → Option (List MemberLayout × UInt32)
  | [] => some ([], offset)
  | (name, type) :: rest => do
    let start ← packing.place? offset type
    let (members, stop) ← packing.placeAll? (← checkedAdd? start type.size) rest
    return ({ name, type, offset := start, size := type.size } :: members, stop)

/-- The layout of a buffer, unless its computation wraps. -/
def layout? (packing : Packing) (members : List (String × DataType)) : Option BufferLayout := do
  let (placed, stop) ← packing.placeAll? 0 members
  return { members := placed, size := ← alignToRegister? stop }

end Packing

section

variable {a b : UInt32}

theorem checkedAdd?_eq (h : a.toNat + b.toNat < UInt32.size) : checkedAdd? a b = some (a + b) :=
  if_pos h

theorem checkedSub?_eq (h : b.toNat ≤ a.toNat) : checkedSub? a b = some (a - b) :=
  if_pos h

theorem checkedMul?_eq (h : a.toNat * b.toNat < UInt32.size) : checkedMul? a b = some (a * b) :=
  if_pos h

theorem toNat_add_of_lt (h : a.toNat + b.toNat < UInt32.size) :
    (a + b).toNat = a.toNat + b.toNat := by
  rw [UInt32.toNat_add]
  exact Nat.mod_eq_of_lt h

end

/-! ## Rounding up -/

theorem isLeast_multiple (offset : Nat) {alignment : Nat} (h : 0 < alignment) :
    IsLeast {start | offset ≤ start ∧ alignment ∣ start}
      ((offset + alignment - 1) / alignment * alignment) := by
  have hdiv := Nat.div_add_mod (offset + alignment - 1) alignment
  have hmod := Nat.mod_lt (offset + alignment - 1) h
  rw [Nat.mul_comm] at hdiv
  refine ⟨⟨by omega, Nat.dvd_mul_left _ _⟩, ?_⟩
  rintro start ⟨hstart, multiple, rfl⟩
  rw [Nat.mul_comm alignment]
  apply Nat.mul_le_mul_right
  apply Nat.le_of_lt_succ
  rw [Nat.div_lt_iff_lt_mul h, Nat.succ_mul, Nat.mul_comm]
  omega

/-- Clearing the last four bits of a number rounds it down to a multiple of 16. -/
theorem toNat_and_not_fifteen (n : UInt32) : (n &&& ~~~15).toNat = n.toNat / 16 * 16 := by
  have hmask : (~~~15 : UInt32).toNat = (2 ^ 28 - 1) * 2 ^ 4 := by decide
  rw [UInt32.toNat_and, hmask, show 16 = 2 ^ 4 from rfl]
  apply Nat.eq_of_testBit_eq
  intro i
  rw [Nat.testBit_and, Nat.testBit_mul_two_pow, Nat.testBit_mul_two_pow,
    Nat.testBit_two_pow_sub_one, Nat.testBit_div_two_pow]
  by_cases hlow : 4 ≤ i
  · rw [Nat.sub_add_cancel hlow]
    by_cases hhigh : i - 4 < 28
    · simp [hlow, hhigh]
    · have hbits : n.toNat < 2 ^ i :=
        Nat.lt_of_lt_of_le n.toNat_lt (Nat.pow_le_pow_right (by decide) (by omega))
      simp [Nat.testBit_lt_two_pow hbits]
  · simp [hlow]

section

variable {size : UInt32}

theorem toNat_alignToRegister (h : size.toNat + 15 < UInt32.size) :
    (alignToRegister size).toNat = (size.toNat + 15) / 16 * 16 := by
  rw [alignToRegister, toNat_and_not_fifteen, toNat_add_of_lt h]
  rfl

theorem alignToRegister?_eq (h : size.toNat + 15 < UInt32.size) :
    alignToRegister? size = some (alignToRegister size) := by
  rw [alignToRegister?, checkedAdd?_eq h]
  rfl

theorem isLeast_alignToRegister (h : size.toNat + 15 < UInt32.size) :
    IsLeast {stop | size.toNat ≤ stop ∧ 16 ∣ stop} (alignToRegister size).toNat := by
  rw [toNat_alignToRegister h]
  exact isLeast_multiple size.toNat (by decide)

end

/-! ## One member -/

namespace Packing

variable {packing : Packing} {offset : UInt32} {type : DataType}

theorem std140Alignment_bounds (type : DataType) :
    0 < (std140Alignment type).toNat ∧ (std140Alignment type).toNat ≤ 16 := by
  cases type <;> decide

theorem four_dvd_std140Alignment (type : DataType) : 4 ∣ (std140Alignment type).toNat := by
  cases type <;> decide

/-- In the standard uniform block layout a member is placed at the next multiple of its alignment,
and nothing wraps on the way. -/
theorem place?_std140 (h : offset.toNat + 80 ≤ UInt32.size) :
    std140.place? offset type = some (std140.place offset type) ∧
      (std140.place offset type).toNat =
        (offset.toNat + (std140Alignment type).toNat - 1) / (std140Alignment type).toNat *
          (std140Alignment type).toNat := by
  obtain ⟨hpositive, hbound⟩ := std140Alignment_bounds type
  have hsum : offset.toNat + (std140Alignment type).toNat < UInt32.size := by omega
  have hone : (1 : UInt32).toNat = 1 := rfl
  have hsub : (1 : UInt32).toNat ≤ (offset + std140Alignment type).toNat := by
    rw [toNat_add_of_lt hsum, hone]
    omega
  have hraised : (offset + std140Alignment type - 1).toNat =
      offset.toNat + (std140Alignment type).toNat - 1 := by
    rw [UInt32.toNat_sub_of_le _ _ hsub, toNat_add_of_lt hsum, hone]
  have hproduct : ((offset + std140Alignment type - 1) / std140Alignment type).toNat *
      (std140Alignment type).toNat < UInt32.size := by
    rw [UInt32.toNat_div, hraised]
    have hle := Nat.div_mul_le_self (offset.toNat + (std140Alignment type).toNat - 1)
      (std140Alignment type).toNat
    omega
  constructor
  · simp only [place?, place, checkedAdd?_eq hsum, checkedSub?_eq hsub, Option.bind_eq_bind,
      Option.bind_some, checkedMul?_eq hproduct]
  · rw [place, UInt32.toNat_mul, Nat.mod_eq_of_lt hproduct, UInt32.toNat_div, hraised]

theorem toNat_mod_add (offset : UInt32) (type : DataType) :
    (offset % 16).toNat + type.size.toNat < UInt32.size ∧
      (offset % 16 + type.size > 16 ↔ 16 < offset.toNat % 16 + type.size.toNat) := by
  have hmod : (offset % 16).toNat = offset.toNat % 16 := UInt32.toNat_mod _ _
  have hsize := type.size_le
  have hlt : (offset % 16).toNat + type.size.toNat < UInt32.size := by
    rw [hmod, UInt32.size]
    omega
  refine ⟨hlt, ?_⟩
  rw [gt_iff_lt, UInt32.lt_iff_toNat_lt, toNat_add_of_lt hlt, hmod]
  rfl

/-- In HLSL nothing wraps when a member is placed. -/
theorem place?_hlsl (h : offset.toNat + 80 ≤ UInt32.size) :
    hlsl.place? offset type = some (hlsl.place offset type) := by
  simp only [place?, place, checkedAdd?_eq (toNat_mod_add offset type).1, Option.bind_eq_bind,
    Option.bind_some, alignToRegister?_eq (show offset.toNat + 15 < UInt32.size by omega)]
  split <;> rfl

theorem isLeast_place_hlsl (h : offset.toNat + 80 ≤ UInt32.size) :
    IsLeast {start | offset.toNat ≤ start ∧ hlsl.Admits type start}
      (hlsl.place offset type).toNat := by
  have hnext := isLeast_alignToRegister (show offset.toNat + 15 < UInt32.size by omega)
  simp only [place, Admits]
  cases hm : type.isMatrix with
  | true => simpa using hnext
  | false =>
      have hsize := DataType.size_le_register hm
      simp only [Bool.false_or, decide_eq_true_eq, (toNat_mod_add offset type).2,
        Bool.false_eq_true, if_false, crossesRegister_iff hsize]
      by_cases hcross : 16 < offset.toNat % 16 + type.size.toNat
      · -- every offset before the next register crosses into it as well
        rw [if_pos hcross]
        obtain ⟨⟨hle, hdvd⟩, hleast⟩ := hnext
        refine ⟨⟨hle, by omega⟩, ?_⟩
        rintro start ⟨hstart, hfits⟩
        have hregister : offset.toNat ≤ 16 * (start / 16) := by omega
        exact (hleast ⟨hregister, Nat.dvd_mul_right _ _⟩).trans (Nat.mul_div_le start 16)
      · rw [if_neg hcross]
        exact ⟨⟨le_rfl, hcross⟩, fun start hstart => hstart.1⟩

theorem isLeast_place_std140 (h : offset.toNat + 80 ≤ UInt32.size) (hd : 4 ∣ offset.toNat) :
    IsLeast {start | offset.toNat ≤ start ∧ std140.Admits type start}
      (std140.place offset type).toNat := by
  rw [(place?_std140 h).2]
  have hnext := isLeast_multiple offset.toNat (std140Alignment_bounds type).1
  cases type
  case unknown | texture2D | textureCube =>
    -- there is no rule, and the offset is a multiple of the alignment already
    have hstay : (offset.toNat + 4 - 1) / 4 * 4 = offset.toNat := by omega
    exact ⟨⟨hstay.ge, trivial⟩, fun start hstart => hstay.le.trans hstart.1⟩
  all_goals exact hnext

theorem four_dvd_place (h : offset.toNat + 80 ≤ UInt32.size) (hd : 4 ∣ offset.toNat) :
    4 ∣ (packing.place offset type).toNat := by
  cases packing with
  | hlsl =>
      have hnext := toNat_alignToRegister (show offset.toNat + 15 < UInt32.size by omega)
      simp only [place]
      split
      · omega
      · exact hd
  | std140 =>
      rw [(place?_std140 h).2]
      exact Nat.dvd_mul_left_of_dvd (four_dvd_std140Alignment type) _

/-- The start of a register is admitted for every member. -/
theorem admits_of_register {start : Nat} (h : 16 ∣ start) : packing.Admits type start := by
  have hstd140 : std140.Admits type start := by
    cases type <;> simp only [Admits] <;> omega
  cases packing with
  | hlsl => exact admits_hlsl_of_std140 hstd140
  | std140 => exact hstd140

/-- What placing one member does: nothing wraps, the member starts at the least offset that is
admitted, which is at most 15 bytes further on, and all offsets stay multiples of 4. -/
structure Steps (packing : Packing) (offset : UInt32) (type : DataType) : Prop where
  place_eq : packing.place? offset type = some (packing.place offset type)
  least : IsLeast {start | offset.toNat ≤ start ∧ packing.Admits type start}
    (packing.place offset type).toNat
  aligned : 4 ∣ (packing.place offset type).toNat
  near : (packing.place offset type).toNat ≤ offset.toNat + 15

theorem steps (h : offset.toNat + 80 ≤ UInt32.size) (hd : 4 ∣ offset.toNat) :
    packing.Steps offset type := by
  have hplace : packing.place? offset type = some (packing.place offset type) := by
    cases packing with
    | hlsl => exact place?_hlsl h
    | std140 => exact (place?_std140 h).1
  have hleast : IsLeast {start | offset.toNat ≤ start ∧ packing.Admits type start}
      (packing.place offset type).toNat := by
    cases packing with
    | hlsl => exact isLeast_place_hlsl h
    | std140 => exact isLeast_place_std140 h hd
  have hnext : (packing.place offset type).toNat ≤ (offset.toNat + 15) / 16 * 16 :=
    hleast.2 ⟨by omega, admits_of_register (Nat.dvd_mul_left _ _)⟩
  exact ⟨hplace, hleast, four_dvd_place h hd, by omega⟩

end Packing

/-! ## All members -/

/-- The first byte after a member. -/
def MemberLayout.stop (member : MemberLayout) : Nat :=
  member.offset.toNat + member.size.toNat

/-- The end of the last of some members that were placed from an offset on. -/
def endFrom (start : Nat) (members : List MemberLayout) : Nat :=
  (members.getLast?.map MemberLayout.stop).getD start

theorem endFrom_cons (start : Nat) (member : MemberLayout) (rest : List MemberLayout) :
    endFrom start (member :: rest) = endFrom member.stop rest := by
  cases rest with
  | nil => rfl
  | cons next rest => simp [endFrom, List.getLast?_cons]

/-- Members placed one after the other between two offsets, each with the size of its type and at
the least offset that is admitted after the member before it. -/
inductive Packing.Placed (packing : Packing) : Nat → List MemberLayout → Nat → Prop where
  | nil (start : Nat) : Placed packing start [] start
  | cons {start stop : Nat} {member : MemberLayout} {rest : List MemberLayout}
      (size_eq : member.size = member.type.size)
      (least : IsLeast {offset | start ≤ offset ∧ packing.Admits member.type offset}
        member.offset.toNat)
      (aligned : 4 ∣ member.offset.toNat) (placed : Placed packing member.stop rest stop) :
      Placed packing start (member :: rest) stop

namespace Packing

variable {packing : Packing}

/-- The members of a list are placed without wrapping, as long as there are 80 bytes for each. -/
theorem placed_placeAll (packing : Packing) (offset : UInt32) (members : List (String × DataType))
    (h : offset.toNat + 80 * members.length ≤ UInt32.size) (hd : 4 ∣ offset.toNat) :
    packing.placeAll? offset members = some (packing.placeAll offset members) ∧
      packing.Placed offset.toNat (packing.placeAll offset members).1
        (packing.placeAll offset members).2.toNat ∧
      (packing.placeAll offset members).2.toNat ≤ offset.toNat + 79 * members.length := by
  induction members generalizing offset with
  | nil => exact ⟨rfl, .nil _, by simp [placeAll]⟩
  | cons head rest ih =>
      obtain ⟨name, type⟩ := head
      rw [List.length_cons] at h ⊢
      have hstep : packing.Steps offset type := steps (by omega) hd
      have hsize := type.size_le
      have hnear := hstep.near
      have hfits : (packing.place offset type).toNat + type.size.toNat < UInt32.size := by omega
      have hstop := toNat_add_of_lt hfits
      obtain ⟨hchecked, hplaced, hbound⟩ := ih (packing.place offset type + type.size)
        (by omega) (by rw [hstop]; exact Nat.dvd_add hstep.aligned type.four_dvd_size)
      refine ⟨?_, ?_, ?_⟩
      · simp only [placeAll?, placeAll, hstep.place_eq, checkedAdd?_eq hfits, hchecked,
          Option.bind_eq_bind, Option.bind_some, Option.pure_def]
      · rw [hstop] at hplaced
        exact .cons rfl hstep.least hstep.aligned hplaced
      · simp only [placeAll]
        omega

theorem map_placeAll (offset : UInt32) (members : List (String × DataType)) :
    (packing.placeAll offset members).1.map (fun member => (member.name, member.type)) =
      members := by
  induction members generalizing offset with
  | nil => rfl
  | cons head rest ih =>
      obtain ⟨name, type⟩ := head
      simp only [placeAll, List.map_cons, ih]

namespace Placed

variable {start stop : Nat} {members : List MemberLayout}

theorem endFrom_eq (h : packing.Placed start members stop) : endFrom start members = stop := by
  induction h with
  | nil start => rfl
  | cons _ _ _ _ ih => rw [endFrom_cons, ih]

/-- A member among others is at the least offset that is admitted after the one before it. -/
theorem at_member {front rear : List MemberLayout} {member : MemberLayout}
    (h : packing.Placed start (front ++ member :: rear) stop) :
    member.size = member.type.size ∧ 4 ∣ member.offset.toNat ∧
      IsLeast {offset | endFrom start front ≤ offset ∧ packing.Admits member.type offset}
        member.offset.toNat := by
  induction front generalizing start with
  | nil =>
      cases h with
      | cons size_eq least aligned _ => exact ⟨size_eq, aligned, least⟩
  | cons first front ih =>
      cases h with
      | cons _ _ _ placed =>
          rw [endFrom_cons]
          exact ih placed

theorem start_le (h : packing.Placed start members stop) :
    ∀ member ∈ members, start ≤ member.offset.toNat := by
  induction h with
  | nil start => simp
  | cons _ least _ _ ih =>
      intro member hm
      rcases List.mem_cons.mp hm with rfl | hm
      · exact least.1.1
      · exact (least.1.1.trans (Nat.le_add_right _ _)).trans (ih member hm)

theorem pairwise (h : packing.Placed start members stop) :
    members.Pairwise fun first second => first.stop ≤ second.offset.toNat := by
  induction h with
  | nil start => exact .nil
  | cons _ _ _ placed ih => exact .cons placed.start_le ih

/-- Of two runs over the same types, the one that starts earlier and may use all offsets of the other
is nowhere behind it. -/
theorem le_of_admits {other : Packing} {start' stop' : Nat} {members' : List MemberLayout}
    (hadmits : ∀ type offset, other.Admits type offset → packing.Admits type offset)
    (h : packing.Placed start members stop) (h' : other.Placed start' members' stop')
    (htypes : members.map (·.type) = members'.map (·.type)) (hstart : start ≤ start') :
    List.Forall₂ (fun member member' => member.offset ≤ member'.offset) members members' ∧
      stop ≤ stop' := by
  induction h generalizing start' members' with
  | nil start =>
      cases h' with
      | nil => exact ⟨.nil, hstart⟩
      | cons => cases htypes
  | @cons start stop member rest size_eq least _ placed ih =>
      cases h' with
      | nil => cases htypes
      | @cons _ _ member' rest' size_eq' least' _ placed' =>
          rw [List.map_cons, List.map_cons, List.cons.injEq] at htypes
          have hoffset : member.offset.toNat ≤ member'.offset.toNat := by
            refine least.2 ⟨hstart.trans least'.1.1, hadmits _ _ ?_⟩
            rw [htypes.1]
            exact least'.1.2
          have hstop : member.stop ≤ member'.stop := by
            unfold MemberLayout.stop
            rw [size_eq, size_eq', htypes.1]
            omega
          obtain ⟨hrest, hend⟩ := ih placed' htypes.2 hstop
          exact ⟨.cons (UInt32.le_iff_toNat_le.mpr hoffset) hrest, hend⟩

end Placed

end Packing

/-! ## Layouts -/

/-- The layout that a packing prescribes for the constants of a buffer. -/
structure Packing.Tight (packing : Packing) (constants : List ShaderConstant)
    (layout : BufferLayout) : Prop where
  /-- No operation wraps while the layout is computed. -/
  exact : packing.layout? (constants.map fun constant => (constant.name, constant.type)) =
    some layout
  /-- Names, types and order are kept. -/
  members_eq : layout.members.map (fun member => (member.name, member.type)) =
    constants.map fun constant => (constant.name, constant.type)
  /-- Every member has the size of its type and is at the least offset that is admitted after the
  member before it. -/
  least : ∀ front member rear, layout.members = front ++ member :: rear →
    member.size = member.type.size ∧
      IsLeast {offset | endFrom 0 front ≤ offset ∧ packing.Admits member.type offset}
        member.offset.toNat
  /-- Members do not overlap. -/
  apart : layout.members.Pairwise fun first second => first.stop ≤ second.offset.toNat
  aligned : ∀ member ∈ layout.members, 4 ∣ member.offset.toNat
  /-- The size is the least multiple of 16 that all members fit in. -/
  size_least : IsLeast {size | endFrom 0 layout.members ≤ size ∧ 16 ∣ size} layout.size.toNat

section

variable {buffer : ConstantBuffer}

theorem ConstantBuffer.map_layout (buffer : ConstantBuffer) (packing : Packing) :
    (buffer.layout packing).members.map (fun member => (member.name, member.type)) =
      buffer.constants.map fun constant => (constant.name, constant.type) :=
  Packing.map_placeAll 0 _

theorem ConstantBuffer.type_layout (buffer : ConstantBuffer) (packing : Packing) :
    (buffer.layout packing).members.map (·.type) = buffer.constants.map (·.type) := by
  simpa [Function.comp_def] using congrArg (List.map Prod.snd) (buffer.map_layout packing)

/-- The members of a buffer are placed from its start on, and its size follows from their end. -/
theorem placed_layout (packing : Packing) (h : buffer.constants.length ≤ 2 ^ 25) :
    packing.layout? (buffer.constants.map fun constant => (constant.name, constant.type)) =
        some (buffer.layout packing) ∧
      ∃ stop, packing.Placed 0 (buffer.layout packing).members stop ∧
        IsLeast {size | stop ≤ size ∧ 16 ∣ size} (buffer.layout packing).size.toNat := by
  have hsize : UInt32.size = 2 ^ 32 := rfl
  have hlength : (buffer.constants.map fun constant =>
      (constant.name, constant.type)).length ≤ 2 ^ 25 := by
    rwa [List.length_map]
  -- the layout depends on names and types alone
  rw [ConstantBuffer.layout]
  generalize buffer.constants.map (fun constant => (constant.name, constant.type)) = members
    at hlength ⊢
  obtain ⟨hchecked, hplaced, hstop⟩ := packing.placed_placeAll 0 members
    (by rw [hsize, UInt32.toNat_zero]; omega) ⟨0, rfl⟩
  rw [UInt32.toNat_zero] at hstop
  have hroom : (packing.placeAll 0 members).2.toNat + 15 < UInt32.size := by
    rw [hsize]
    omega
  refine ⟨?_, _, hplaced, isLeast_alignToRegister hroom⟩
  simp only [Packing.layout?, hchecked, alignToRegister?_eq hroom, Option.bind_eq_bind,
    Option.bind_some, Option.pure_def]
  rfl

/-- For every buffer of up to 2^25 constants and each packing, the layout is the tightest one that
keeps the order of the constants, and it is computed without wrapping. -/
theorem layouts_are_tight (packing : Packing) (h : buffer.constants.length ≤ 2 ^ 25) :
    packing.Tight buffer.constants (buffer.layout packing) := by
  obtain ⟨hexact, stop, hplaced, hsize⟩ := placed_layout packing h
  refine {
    exact := hexact
    members_eq := buffer.map_layout packing
    least := ?_
    apart := hplaced.pairwise
    aligned := ?_
    size_least := ?_ }
  · intro front member rear hsplit
    obtain ⟨hsize, -, hleast⟩ := (hsplit ▸ hplaced).at_member
    exact ⟨hsize, hleast⟩
  · intro member hm
    obtain ⟨front, rear, hsplit⟩ := List.append_of_mem hm
    exact (hsplit ▸ hplaced).at_member.2.1
  · rw [hplaced.endFrom_eq]
    exact hsize

/-- No constant has a larger offset in HLSL than in the standard uniform block layout, and no buffer
is larger. -/
theorem hlsl_never_looser (h : buffer.constants.length ≤ 2 ^ 25) :
    List.Forall₂ (fun member member' => member.offset ≤ member'.offset)
        (buffer.layout .hlsl).members (buffer.layout .std140).members ∧
      (buffer.layout .hlsl).size ≤ (buffer.layout .std140).size := by
  obtain ⟨-, stop, hplaced, hsize⟩ := placed_layout .hlsl h
  obtain ⟨-, stop', hplaced', hsize'⟩ := placed_layout .std140 h
  have htypes := (buffer.type_layout .hlsl).trans (buffer.type_layout .std140).symm
  obtain ⟨hoffsets, hstop⟩ := hplaced.le_of_admits
    (fun _ _ => Packing.admits_hlsl_of_std140) hplaced' htypes le_rfl
  refine ⟨hoffsets, UInt32.le_iff_toNat_le.mpr (hsize.2 ⟨?_, hsize'.1.2⟩)⟩
  exact hstop.trans hsize'.1.1

end

/-! ## A buffer with gaps -/

/-- A buffer of constants that each packing places in a way of its own. -/
def lightBuffer : ConstantBuffer :=
  { name := "Light"
    slot := 2
    shared := false
    constants := [
      { name := "Reach", type := .float },
      { name := "Origin", type := .vector3 },
      { name := "Spot", type := .vector2 },
      { name := "Tone", type := .vector4 },
      { name := "Count", type := .int },
      { name := "World", type := .matrix },
      { name := "Fades", type := .bool }] }

example : (lightBuffer.layout .hlsl).members.map (·.offset) = [0, 4, 16, 32, 48, 64, 128] ∧
    (lightBuffer.layout .std140).members.map (·.offset) = [0, 16, 32, 48, 64, 80, 144] := by
  decide

theorem lightBuffer_tight : lightBuffer.constants.length ≤ 2 ^ 25 ∧
    ∀ packing : Packing, packing.Tight lightBuffer.constants (lightBuffer.layout packing) :=
  ⟨by decide, fun packing => layouts_are_tight packing (by decide)⟩

theorem lightBuffer_never_looser : lightBuffer.constants.length ≤ 2 ^ 25 ∧
    List.Forall₂ (fun member member' => member.offset ≤ member'.offset)
        (lightBuffer.layout .hlsl).members (lightBuffer.layout .std140).members ∧
      (lightBuffer.layout .hlsl).size ≤ (lightBuffer.layout .std140).size :=
  ⟨by decide, hlsl_never_looser (by decide)⟩

end ShaderEffect
