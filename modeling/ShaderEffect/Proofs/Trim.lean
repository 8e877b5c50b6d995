import Mathlib.Data.List.Nodup
import ShaderEffect.Tree.Decode
import ShaderEffect.Tree.Encode

/-!
# Members that may be left out

An object of the interchange format may leave out the members that have their default. `Json.Trims`
says which values come from a complete one in this way, at any depth. A decoder reads a complete
value as some data if it finds this data in all that is left of it.
-/

namespace ShaderEffect

/-! ## Defaults -/

/-- The members of an object; other values have none. -/
def Json.members : Json → List (String × Json)
  | object members => members
  | _ => []

/-- The objects with members that may be left out, by their keys, and the defaults of these members.
The keys of a complete object tell what it describes. -/
def objectDefaults : List (List String × List (String × Json)) :=
  let location := ("location", Location.toJson {})
  let mode := ("modifier", Json.string PassMode.byValue.tag)
  [(["ty", "symbol", "constant"], (Notes.toJson {}).members),
    (["kind", "location", "annotation"], [location, ("annotation", Notes.toJson {})]),
    (["name", "modifier", "value"], [("name", .null), mode]),
    (["ty", "arguments", "initializer"], [("initializer", .null)]),
    (["element", "size", "initializer"], [("size", .null), ("initializer", .null)]),
    (["kind", "location"], [location]),
    (["condition", "then_branch", "else_branch"], [("else_branch", .null)]),
    (["initializers", "condition", "increments", "body"], [("condition", .null)]),
    (["body", "catches", "finally"], [("finally", .null)]),
    (["name", "initializer", "location"], [("initializer", .null), location]),
    (["ty", "body"], [("ty", .null)]),
    (["name", "value"], [("name", .null)]),
    (["name", "arguments", "location"], [("arguments", .array []), location]),
    (["kind", "name", "location"], [location]),
    (["name", "ty", "modifiers", "attributes", "initializer", "documentation", "location"],
      (FieldDecl.toJson {}).members),
    (["name", "ty", "modifier", "attributes", "location"],
      [mode, ("attributes", .array []), location]),
    (["name", "modifiers", "attributes", "type_parameters", "parameters", "return_type", "body",
      "documentation", "location"], (MethodDecl.toJson {}).members),
    (["name", "namespace", "documentation", "modifiers", "base_types", "attributes",
      "type_parameters", "members", "location"], (TypeDecl.toJson {}).members)]

/-- The members that may be left out of an object with some keys. -/
def defaultsOf (keys : List String) : List (String × Json) :=
  (objectDefaults.lookup keys).getD []

namespace Json

mutual

/-- A JSON value, and what is left of it when members of the objects in it are left out, each of
which has its default. -/
inductive Trims : Json → Json → Prop where
  | refl (json : Json) : Trims json json
  | array {items rest : List Json} (h : TrimsItems items rest) : Trims (.array items) (.array rest)
  | object {members rest : List (String × Json)}
      (h : TrimsMembers (defaultsOf (members.map Prod.fst)) members rest) :
      Trims (.object members) (.object rest)

/-- What is left of the items of an array. -/
inductive TrimsItems : List Json → List Json → Prop where
  | nil : TrimsItems [] []
  | cons {item left : Json} {items rest : List Json} (h : Trims item left)
      (hs : TrimsItems items rest) : TrimsItems (item :: items) (left :: rest)

/-- What is left of the members of an object, of which those with the given defaults may go. -/
inductive TrimsMembers : List (String × Json) → List (String × Json) → List (String × Json) → Prop
    where
  | nil (defaults : List (String × Json)) : TrimsMembers defaults [] []
  | keep {defaults members rest : List (String × Json)} (key : String) {value left : Json}
      (h : Trims value left) (hs : TrimsMembers defaults members rest) :
      TrimsMembers defaults ((key, value) :: members) ((key, left) :: rest)
  | drop {defaults members rest : List (String × Json)} {key : String} {value : Json}
      (h : (key, value) ∈ defaults) (hs : TrimsMembers defaults members rest) :
      TrimsMembers defaults ((key, value) :: members) rest

end

/-! ## What is left of a value -/

theorem trimsItems_self (items : List Json) : TrimsItems items items := by
  induction items with
  | nil => exact .nil
  | cons item items ih => exact .cons (.refl item) ih

theorem trimsMembers_self (defaults members : List (String × Json)) :
    TrimsMembers defaults members members := by
  induction members with
  | nil => exact .nil defaults
  | cons entry members ih => exact .keep entry.1 (.refl entry.2) ih

theorem Trims.array_inv {items : List Json} {json : Json} (h : Trims (.array items) json) :
    ∃ rest, json = .array rest ∧ TrimsItems items rest := by
  cases h with
  | refl => exact ⟨items, rfl, trimsItems_self items⟩
  | array h => exact ⟨_, rfl, h⟩

theorem Trims.object_inv {members : List (String × Json)} {json : Json}
    (h : Trims (.object members) json) :
    ∃ rest, json = .object rest ∧
      TrimsMembers (defaultsOf (members.map Prod.fst)) members rest := by
  cases h with
  | refl => exact ⟨members, rfl, trimsMembers_self _ members⟩
  | object h => exact ⟨_, rfl, h⟩

theorem defaultsOf_singleton (key : String) : defaultsOf [key] = [] := by
  simp [defaultsOf, objectDefaults, List.lookup_cons]

/-- The name of an alternative is never left out. -/
theorem Trims.variant_inv {name : String} {content json : Json}
    (h : Trims (ofVariant name content) json) :
    ∃ left, json = ofVariant name left ∧ Trims content left := by
  obtain ⟨rest, rfl, hrest⟩ := h.object_inv
  cases hrest with
  | drop hdefault =>
      rw [List.map_singleton, defaultsOf_singleton] at hdefault
      simp at hdefault
  | keep _ hcontent hs =>
      cases hs
      exact ⟨_, rfl, hcontent⟩

/-- Only null becomes null. -/
theorem Trims.eq_null {json : Json} (h : Trims json .null) : json = .null := by
  cases h
  rfl

theorem depth_le_of_lookup? {members : List (String × Json)} {key : String} {value : Json}
    (h : lookup? members key = some value) : value.depth ≤ depthOfMembers members := by
  induction members with
  | nil => simp [lookup?] at h
  | cons entry members ih =>
      simp only [lookup?] at h
      simp only [depthOfMembers]
      split at h
      · cases h
        exact Nat.le_max_left _ _
      · exact Nat.le_trans (ih h) (Nat.le_max_right _ _)

theorem lookup?_eq_none {members : List (String × Json)} {key : String}
    (h : key ∉ members.map Prod.fst) : lookup? members key = none := by
  induction members with
  | nil => rfl
  | cons entry members ih =>
      simp only [List.map_cons, List.mem_cons, not_or] at h
      simp only [lookup?]
      rw [if_neg (Ne.symm h.1), ih h.2]

theorem TrimsMembers.keys_subset {defaults members rest : List (String × Json)}
    (h : TrimsMembers defaults members rest) : rest.map Prod.fst ⊆ members.map Prod.fst := by
  induction members generalizing rest with
  | nil =>
      cases h
      simp
  | cons entry members ih =>
      cases h with
      | keep key _ hs => exact List.cons_subset_cons key (ih hs)
      | drop _ hs => exact List.Subset.trans (ih hs) (List.subset_cons_self _ _)

/-- A member is found under its key, trimmed, unless it was left out. -/
theorem TrimsMembers.lookup? {defaults members rest : List (String × Json)}
    (h : TrimsMembers defaults members rest) (hkeys : (members.map Prod.fst).Nodup)
    {key : String} {value : Json} (hm : (key, value) ∈ members) :
    (∃ left, Json.lookup? rest key = some left ∧ Trims value left) ∨
      (Json.lookup? rest key = none ∧ (key, value) ∈ defaults) := by
  induction members generalizing rest with
  | nil => simp at hm
  | cons entry members ih =>
      have hfresh := (List.nodup_cons.mp hkeys).1
      have hrest := (List.nodup_cons.mp hkeys).2
      rcases List.mem_cons.mp hm with rfl | hmem
      · cases h with
        | keep _ h _ => exact .inl ⟨_, by simp [Json.lookup?], h⟩
        | drop hdefault hs =>
            exact .inr ⟨lookup?_eq_none fun hkey => hfresh (hs.keys_subset hkey), hdefault⟩
      · have hkey : key ∈ members.map Prod.fst := List.mem_map.mpr ⟨_, hmem, rfl⟩
        cases h with
        | keep other _ hs =>
            have hne : other ≠ key := by
              rintro rfl
              exact hfresh hkey
            simpa [Json.lookup?, hne] using ih hs hrest hmem
        | drop _ hs => exact ih hs hrest hmem

/-! ## Reading what is left -/

/-- A decoder finds some data in all that is left of a complete value, if it is at most `n` deep. -/
def Reads {α : Type} (n : Nat) (decoder : Decoder α) (full : Json) (x : α) : Prop :=
  ∀ json, Trims full json → json.depth ≤ n → decoder { json } = some x

namespace Reads

variable {α β : Type} {n : Nat} {decoder : Decoder α} {x : α} {content : Json}

theorem mono {m : Nat} (h : Reads n decoder content x) (hm : m ≤ n) :
    Reads m decoder content x :=
  fun json htrims hdepth => h json htrims (Nat.le_trans hdepth hm)

theorem string (text : String) : Reads n Input.string? (.string text) text := by
  rintro json ⟨⟩ -
  rfl

theorem bool (value : Bool) : Reads n Input.bool? (.bool value) value := by
  rintro json ⟨⟩ -
  rfl

theorem float (value : Float) : Reads n Input.float? (.float value) value := by
  rintro json ⟨⟩ -
  rfl

theorem int64 (value : Int64) : Reads n Input.int64? (.int value.toInt) value := by
  rintro json ⟨⟩ -
  have hlow := value.le_toInt
  have hhigh := value.toInt_lt
  simp only [Input.int64?]
  rw [if_pos (by constructor <;> omega), Int64.ofInt_toInt]

theorem uint32 (value : UInt32) : Reads n Input.uint32? (.ofNat value.toNat) value := by
  rintro json ⟨⟩ -
  have hhigh := value.toNat_lt_size
  simp only [Input.uint32?, Input.natBelow?, ofNat]
  rw [if_pos (by constructor <;> omega)]
  simp

/-- An alternative that is only a name. -/
theorem oneOf {all : List α} {tag : α → String} (h : all.find? (tag · == tag x) = some x) :
    Reads n (Input.oneOf? all tag) (.string (tag x)) x := by
  rintro json ⟨⟩ -
  exact h

theorem list {values : List α} {encode : α → Json}
    (h : ∀ value ∈ values, Reads n decoder (encode value) value) :
    Reads n (Input.list? decoder) (.array (values.map encode)) values := by
  intro json htrims hdepth
  obtain ⟨rest, rfl, hrest⟩ := htrims.array_inv
  have hitems : depthOfItems rest ≤ n := by
    simp only [depth] at hdepth
    omega
  clear htrims hdepth
  change rest.mapM (fun item => decoder { json := item }) = some values
  induction values generalizing rest with
  | nil =>
      cases hrest
      rfl
  | cons value values ih =>
      cases hrest with
      | cons hvalue hs =>
          simp only [depthOfItems, Nat.max_le] at hitems
          have hhead := h value (by simp) _ hvalue hitems.1
          have htail := ih (fun value hv => h value (by simp [hv])) _ hs hitems.2
          simp [List.mapM_cons, hhead, htail]

theorem option {value : Option α} {encode : α → Json} (hnull : ∀ x, encode x ≠ .null)
    (h : ∀ x, value = some x → Reads n decoder (encode x) x) :
    Reads n (Input.option? decoder) (ofOption encode value) value := by
  intro json htrims hdepth
  cases value with
  | none =>
      cases htrims
      rfl
  | some x =>
      have hread := h x rfl json htrims hdepth
      have hjson : json ≠ .null := by
        rintro rfl
        exact hnull x htrims.eq_null
      cases json with
      | null => exact absurd rfl hjson
      | bool | int | float | string | array | object =>
          simp [Input.option?, hread]

theorem pair {second : Decoder β} {y : β} {first : Json} (hx : Reads n decoder first x)
    (hy : Reads n second content y) :
    Reads n (Input.pair? decoder second) (.array [first, content]) (x, y) := by
  intro json htrims hdepth
  obtain ⟨rest, rfl, hrest⟩ := htrims.array_inv
  obtain - | ⟨hfirst, hrest⟩ := hrest
  obtain - | ⟨hsecond, hrest⟩ := hrest
  cases hrest
  simp only [depth, depthOfItems, Nat.max_def] at hdepth
  have hread := hx _ hfirst (by grind)
  have hread' := hy _ hsecond (by grind)
  simp [Input.pair?, Input.inside?, hread, hread']

/-- The content of an alternative is one level less deep. -/
theorem variant_succ {name : String}
    (h : Reads n (fun input => decoder { json := ofVariant name input.json }) content x) :
    Reads (n + 1) decoder (ofVariant name content) x := by
  intro json htrims hdepth
  obtain ⟨left, rfl, hleft⟩ := htrims.variant_inv
  refine h left hleft ?_
  simp only [ofVariant, depth, depthOfMembers, Nat.max_def] at hdepth
  grind

theorem variant {name : String}
    (h : Reads n (fun input => decoder { json := ofVariant name input.json }) content x) :
    Reads n decoder (ofVariant name content) x :=
  (variant_succ h).mono (Nat.le_succ n)

/-- An alternative whose content is all there is to read. -/
theorem alternative {inner : Decoder β} {f : β → α} {y : β} {name : String}
    (h : Reads n inner content y)
    (hdecoder : ∀ json, decoder { json := ofVariant name json } = (inner { json }).map f) :
    Reads n decoder (ofVariant name content) (f y) := by
  refine variant fun json htrims hdepth => ?_
  change decoder { json := ofVariant name json } = some (f y)
  rw [hdecoder, h json htrims hdepth]
  rfl

theorem alternative_pair {γ : Type} {inner : Decoder (β × γ)} {f : β → γ → α} {y : β} {z : γ}
    {name : String} (h : Reads n inner content (y, z))
    (hdecoder : ∀ json, decoder { json := ofVariant name json } =
      (inner { json }).bind fun found => some (f found.1 found.2)) :
    Reads n decoder (ofVariant name content) (f y z) := by
  refine variant fun json htrims hdepth => ?_
  change decoder { json := ofVariant name json } = some (f y z)
  rw [hdecoder, h json htrims hdepth]
  rfl

/-- A decoder of trees may be given the depth of what it reads. -/
theorem ofDepth {decoder : Nat → Decoder α} (h : ∀ n, Reads n (decoder n) content x) :
    Reads n (fun input => decoder input.json.depth input) content x :=
  fun json htrims _ => h json.depth json htrims (Nat.le_refl _)

end Reads

/-! ## Reading structures -/

@[simp]
theorem Input.string?_string (text : String) : Input.string? { json := .string text } = some text :=
  rfl

@[simp]
theorem Input.list?_nil {α : Type} (decoder : Decoder α) :
    Input.list? decoder { json := .array [] } = some [] :=
  rfl

@[simp]
theorem Input.option?_null {α : Type} (decoder : Decoder α) :
    Input.option? decoder { json := .null } = some none :=
  rfl

/-- The fields of a structure that is written as an object. -/
def Input.Record.ofObject (members : List (String × Json)) : Input.Record :=
  { members, byPosition := false, inside := fun json => { json } }

/-- Members of an object are found in what is left of them, at most `n` deep, or were left out. -/
def Leaves (n : Nat) (defaults members rest : List (String × Json)) : Prop :=
  ∀ key value, (key, value) ∈ members →
    (∃ left, lookup? rest key = some left ∧ Trims value left ∧ left.depth ≤ n) ∨
      (lookup? rest key = none ∧ (key, value) ∈ defaults)

namespace Leaves

variable {α β : Type} {n : Nat} {defaults members rest : List (String × Json)} {key : String}
  {value : Json} {decoder : Decoder α} {f : α → Option β} {x : α} {y : β}

theorem tail (h : Leaves n defaults ((key, value) :: members) rest) :
    Leaves n defaults members rest :=
  fun key value hm => h key value (List.mem_cons_of_mem _ hm)

theorem required (h : Leaves n defaults ((key, value) :: members) rest)
    (hkey : key ∉ defaults.map Prod.fst) (hread : Reads n decoder value x)
    (hf : Leaves n defaults members rest → f x = some y) :
    ((Input.Record.ofObject rest).required key decoder).bind f = some y := by
  obtain ⟨left, hlookup, htrims, hdepth⟩ | ⟨-, hdefault⟩ := h key value List.mem_cons_self
  · have hvalue : (Input.Record.ofObject rest).required key decoder = some x := by
      simp only [Input.Record.required, Input.Record.ofObject, hlookup, Option.bind_some]
      exact hread left htrims hdepth
    rw [hvalue]
    exact hf h.tail
  · exact absurd (List.mem_map.mpr ⟨_, hdefault, rfl⟩) hkey

theorem optional {o : Option α} {f : Option α → Option β}
    (h : Leaves n defaults ((key, value) :: members) rest)
    (hnull : ∀ value, (key, value) ∈ defaults → value = .null)
    (hread : Reads n (Input.option? decoder) value o)
    (hf : Leaves n defaults members rest → f o = some y) :
    ((Input.Record.ofObject rest).optional key decoder).bind f = some y := by
  have hvalue : (Input.Record.ofObject rest).optional key decoder = some o := by
    obtain ⟨left, hlookup, htrims, hdepth⟩ | ⟨hlookup, hdefault⟩ := h key value List.mem_cons_self
    · simp only [Input.Record.optional, Input.Record.ofObject, hlookup]
      exact hread left htrims hdepth
    · obtain rfl := hnull value hdefault
      simp only [Input.Record.optional, Input.Record.ofObject, hlookup]
      exact hread .null (.refl _) (Nat.zero_le n)
  rw [hvalue]
  exact hf h.tail

/-- A field that was left out has the default, because both are read from the same text. -/
theorem defaulted {default : α} (h : Leaves n defaults ((key, value) :: members) rest)
    (hdefault : ∀ value, (key, value) ∈ defaults → decoder { json := value } = some default)
    (hread : ∀ n, Reads n decoder value x)
    (hf : Leaves n defaults members rest → f x = some y) :
    ((Input.Record.ofObject rest).defaulted key default decoder).bind f = some y := by
  have hvalue : (Input.Record.ofObject rest).defaulted key default decoder = some x := by
    obtain ⟨left, hlookup, htrims, hdepth⟩ | ⟨hlookup, hleft⟩ := h key value List.mem_cons_self
    · simp only [Input.Record.defaulted, Input.Record.ofObject, hlookup]
      exact hread n left htrims hdepth
    · simp only [Input.Record.defaulted, Input.Record.ofObject, hlookup]
      rw [← hdefault value hleft]
      exact hread _ value (.refl _) (Nat.le_refl _)
  rw [hvalue]
  exact hf h.tail

end Leaves

/-- The members of an object are one level less deep. -/
theorem Reads.object_succ {α : Type} {n : Nat} {decoder : Decoder α} {x : α}
    {members : List (String × Json)} (defaults : List (String × Json))
    (hkeys : (members.map Prod.fst).Nodup)
    (hdefaults : defaultsOf (members.map Prod.fst) = defaults)
    (h : ∀ rest, Leaves n defaults members rest → decoder { json := .object rest } = some x) :
    Reads (n + 1) decoder (.object members) x := by
  subst hdefaults
  intro json htrims hdepth
  obtain ⟨rest, rfl, hrest⟩ := htrims.object_inv
  have hmembers : depthOfMembers rest ≤ n := by
    simp only [depth] at hdepth
    omega
  refine h rest ?_
  intro key value hm
  obtain ⟨left, hlookup, hleft⟩ | hdropped := hrest.lookup? hkeys hm
  · exact .inl ⟨left, hlookup, hleft, Nat.le_trans (depth_le_of_lookup? hlookup) hmembers⟩
  · exact .inr hdropped

theorem Reads.object_zero {α : Type} {decoder : Decoder α} {x : α}
    {members : List (String × Json)} : Reads 0 decoder (.object members) x := by
  intro json htrims hdepth
  obtain ⟨rest, rfl, -⟩ := htrims.object_inv
  simp [depth] at hdepth

theorem Reads.object {α : Type} {n : Nat} {decoder : Decoder α} {x : α}
    {members : List (String × Json)} (defaults : List (String × Json))
    (hkeys : (members.map Prod.fst).Nodup)
    (hdefaults : defaultsOf (members.map Prod.fst) = defaults)
    (h : ∀ rest, Leaves n defaults members rest → decoder { json := .object rest } = some x) :
    Reads n decoder (.object members) x :=
  (object_succ defaults hkeys hdefaults h).mono (Nat.le_succ n)

end Json

end ShaderEffect
