import Mathlib.Data.List.Infix
import Mathlib.Tactic.Common
import ShaderEffect.Package.Asset
import ShaderEffect.Proofs.Result

/-!
# Reading assets back

The asset format is exact and free of prefixes. Reading gives back what was written whatever
follows it, accepts nothing but written assets, and on a written asset that is cut short it runs out
of bytes before it finds any other fault.

Each piece of the format has these three properties, and they are kept when one piece follows
another.
-/

namespace ShaderEffect

theorem ElementFormat.ofByte?_eq_some {byte : UInt8} {format : ElementFormat} :
    ofByte? byte = some format ↔ format.toByte = byte := by
  constructor
  · intro h
    simpa using List.find?_some h
  · rintro rfl
    cases format <;> rfl

theorem Semantics.ofByte?_eq_some {byte : UInt8} {semantics : Semantics} :
    ofByte? byte = some semantics ↔ semantics.toByte = byte := by
  constructor
  · intro h
    simpa using List.find?_some h
  · rintro rfl
    cases semantics with
    | position | normal => rfl
    | color index | texCoord index =>
        revert index
        decide

namespace Asset

/-! ## Pieces of the format -/

/-- A reader takes the written form of a value off the front of some bytes. -/
structure Frames {α : Type} (Written : α → List UInt8 → Prop)
    (read : List UInt8 → Except AssetError (α × List UInt8)) : Prop where
  append : ∀ {value bytes}, Written value bytes → ∀ rest, read (bytes ++ rest) = .ok (value, rest)
  of_ok : ∀ {value bytes rest}, read bytes = .ok (value, rest) →
    ∃ front, Written value front ∧ bytes = front ++ rest
  truncated : ∀ {value bytes front}, Written value bytes → front <+: bytes → front ≠ bytes →
    read front = .error .unexpectedEnd

/-- A cut inside two pieces is inside the first one, or it leaves the first one whole. -/
theorem cut_append {cut first second : List UInt8} (hp : cut <+: first ++ second)
    (hne : cut ≠ first ++ second) :
    (cut <+: first ∧ cut ≠ first) ∨
      ∃ rest, cut = first ++ rest ∧ rest <+: second ∧ rest ≠ second := by
  rcases le_or_gt first.length cut.length with hl | hl
  · obtain ⟨rest, rfl⟩ := List.prefix_of_prefix_length_le (List.prefix_append _ _) hp hl
    rw [List.prefix_append_right_inj] at hp
    exact .inr ⟨rest, rfl, hp, fun h => hne (by rw [h])⟩
  · refine .inl ⟨List.prefix_of_prefix_length_le hp (List.prefix_append _ _) hl.le, ?_⟩
    rintro rfl
    exact lt_irrefl _ hl

section

variable {α β γ : Type} {F : α → List UInt8 → Prop} {G : α → β → List UInt8 → Prop}
  {read : List UInt8 → Except AssetError (α × List UInt8)}
  {next : α → List UInt8 → Except AssetError (β × List UInt8)}

/-- What is written for a value that is put together from two pieces. -/
def Joined (F : α → List UInt8 → Prop) (G : α → β → List UInt8 → Prop) (join : α → β → γ)
    (value : γ) (bytes : List UInt8) : Prop :=
  ∃ a b front back, F a front ∧ G a b back ∧ value = join a b ∧ bytes = front ++ back

/-- One piece after another, where the second may depend on the first. -/
theorem Frames.bind (hread : Frames F read) (hnext : ∀ a, Frames (G a) (next a))
    (join : α → β → γ) :
    Frames (Joined F G join) fun bytes => do
      let (a, bytes) ← read bytes
      let (b, bytes) ← next a bytes
      return (join a b, bytes) := by
  constructor
  · rintro value bytes ⟨a, b, front, back, hfront, hback, rfl, rfl⟩ rest
    rw [List.append_assoc]
    exact bind_eq_ok.mpr ⟨_, hread.append hfront _,
      bind_eq_ok.mpr ⟨_, (hnext a).append hback rest, rfl⟩⟩
  · intro value bytes rest h
    obtain ⟨⟨a, middle⟩, hr, h⟩ := bind_eq_ok.mp h
    obtain ⟨⟨b, rest'⟩, hn, h⟩ := bind_eq_ok.mp h
    cases h
    obtain ⟨front, hfront, rfl⟩ := hread.of_ok hr
    obtain ⟨back, hback, rfl⟩ := (hnext a).of_ok hn
    exact ⟨front ++ back, ⟨a, b, front, back, hfront, hback, rfl, rfl⟩, by simp⟩
  · rintro value bytes cut ⟨a, b, front, back, hfront, hback, rfl, rfl⟩ hp hne
    rcases cut_append hp hne with ⟨hp, hne⟩ | ⟨rest, rfl, hp, hne⟩
    · rw [hread.truncated hfront hp hne]
      rfl
    · rw [hread.append hfront]
      change next a rest >>= _ = _
      rw [(hnext a).truncated hback hp hne]
      rfl

theorem Frames.congr {F' : α → List UInt8 → Prop}
    {read' : List UInt8 → Except AssetError (α × List UInt8)} (h : Frames F read)
    (hF : ∀ value bytes, F' value bytes ↔ F value bytes)
    (hread : ∀ bytes, read' bytes = read bytes) : Frames F' read' := by
  obtain rfl : F' = F := by
    funext value bytes
    exact propext (hF value bytes)
  obtain rfl : read' = read := funext hread
  exact h

end

/-! ## Sources -/

theorem frames_takeBytes (count : Nat) :
    Frames (fun bytes front => front = bytes ∧ bytes.length = count) (takeBytes count) := by
  constructor
  · rintro value bytes ⟨rfl, rfl⟩ rest
    simp [takeBytes, pure, Except.pure]
  · intro value bytes rest h
    unfold takeBytes at h
    split at h
    · cases h
    · cases h
      exact ⟨bytes.take count, ⟨rfl, by simp; omega⟩, by simp⟩
  · rintro value bytes front ⟨rfl, rfl⟩ hp hne
    have hlength : front.length < bytes.length :=
      lt_of_le_of_ne hp.length_le fun he => hne (hp.eq_of_length he)
    simp [takeBytes, hlength, throw, throwThe, MonadExceptOf.throw]

theorem fromUTF8?_eq_some {bytes : List UInt8} {text : String} :
    String.fromUTF8? bytes.toByteArray = some text ↔ bytes = textBytes text := by
  constructor
  · intro h
    unfold String.fromUTF8? at h
    split at h
    · cases h
      change bytes = bytes.toByteArray.data.toList
      simp
    · cases h
  · rintro rfl
    have hbytes : (textBytes text).toByteArray = text.toByteArray := by
      apply ByteArray.ext
      simp [textBytes, String.toUTF8_eq_toByteArray]
    rw [hbytes, String.fromUTF8?, dif_pos text.isValidUTF8]
    rfl

/-- The text that a number of bytes hold, and the rest. -/
def readText (count : Nat) (bytes : List UInt8) : Except AssetError (String × List UInt8) := do
  let (text, rest) ← takeBytes count bytes
  match String.fromUTF8? text.toByteArray with
  | some source => return (source, rest)
  | none => throw .invalidText

theorem frames_readText (count : Nat) :
    Frames (fun text bytes => bytes = textBytes text ∧ bytes.length = count) (readText count) := by
  have htake := frames_takeBytes count
  constructor
  · rintro text bytes ⟨hbytes, hlength⟩ rest
    rw [readText, htake.append ⟨rfl, hlength⟩]
    change (match String.fromUTF8? bytes.toByteArray with | some source => _ | none => _) = _
    rw [fromUTF8?_eq_some.mpr hbytes]
    rfl
  · intro text bytes rest h
    obtain ⟨⟨front, rest'⟩, ht, hmatch⟩ := bind_eq_ok.mp h
    obtain ⟨_, ⟨rfl, hlength⟩, rfl⟩ := htake.of_ok ht
    simp only at hmatch
    split at hmatch
    · cases hmatch
      exact ⟨_, ⟨fromUTF8?_eq_some.mp ‹_›, hlength⟩, rfl⟩
    · cases hmatch
  · rintro text bytes front ⟨hbytes, hlength⟩ hp hne
    rw [readText, htake.truncated ⟨rfl, hlength⟩ hp hne]
    rfl

theorem lengthOfBytes_lengthBytes {n : Nat} (h : n < UInt32.size) :
    lengthOfBytes (lengthBytes n) = n := by
  simp only [lengthBytes, lengthOfBytes, UInt8.toNat_ofNat', UInt32.size] at *
  omega

theorem lengthBytes_lengthOfBytes {bytes : List UInt8} (h : bytes.length = 4) :
    lengthBytes (lengthOfBytes bytes) = bytes ∧ lengthOfBytes bytes < UInt32.size := by
  obtain ⟨a, b, c, d, rfl⟩ : ∃ a b c d, bytes = [a, b, c, d] := by
    match bytes, h with
    | [a, b, c, d], _ => exact ⟨a, b, c, d, rfl⟩
  have ha := a.toNat_lt
  have hb := b.toNat_lt
  have hc := c.toNat_lt
  have hd := d.toNat_lt
  simp only [lengthBytes, lengthOfBytes, UInt32.size, List.cons.injEq, ← UInt8.toNat_inj,
    UInt8.toNat_ofNat', and_true]
  omega

theorem sourceBytes_eq_ok {source : String} {bytes : List UInt8} :
    sourceBytes source = .ok bytes ↔ (textBytes source).length < UInt32.size ∧
      bytes = lengthBytes (textBytes source).length ++ textBytes source := by
  simp only [sourceBytes]
  split
  · simp_all [pure, Except.pure, eq_comm]
  · simp [throw, throwThe, MonadExceptOf.throw, *]

theorem frames_readSource : Frames (fun source bytes => sourceBytes source = .ok bytes)
    readSource := by
  have hjoined := (frames_takeBytes 4).bind (fun length => frames_readText (lengthOfBytes length))
    fun _ source => source
  refine hjoined.congr (fun source bytes => ?_) fun bytes => ?_
  · rw [sourceBytes_eq_ok]
    constructor
    · rintro ⟨hlt, rfl⟩
      refine ⟨_, source, _, _, ⟨rfl, rfl⟩, ⟨rfl, ?_⟩, rfl, rfl⟩
      rw [lengthOfBytes_lengthBytes hlt]
    · rintro ⟨length, _, _, text, ⟨rfl, hlength⟩, ⟨rfl, ht⟩, rfl, rfl⟩
      obtain ⟨hbytes, hlt⟩ := lengthBytes_lengthOfBytes hlength
      rw [ht, hbytes]
      exact ⟨hlt, rfl⟩
  · simp only [Prod.eta, bind_pure]
    rfl

/-! ## Vertex input layouts -/

/-- One element, and the rest. -/
def readElement (bytes : List UInt8) : Except AssetError (VertexElement × List UInt8) :=
  match bytes with
  | formatByte :: semanticsByte :: rest =>
    match ElementFormat.ofByte? formatByte, Semantics.ofByte? semanticsByte with
    | none, _ => throw (.invalidFormat formatByte)
    | some _, none => throw (.invalidSemantics semanticsByte)
    | some format, some semantics => return ({ format, semantics }, rest)
  | _ => throw .unexpectedEnd

theorem frames_readElement :
    Frames (fun element bytes => bytes = [element.format.toByte, element.semantics.toByte])
      readElement := by
  constructor
  · rintro ⟨format, semantics⟩ bytes rfl rest
    simp only [List.cons_append, List.nil_append, readElement,
      ElementFormat.ofByte?_eq_some.mpr rfl, Semantics.ofByte?_eq_some.mpr rfl]
    rfl
  · intro element bytes rest h
    unfold readElement at h
    split at h
    · split at h
      · cases h
      · cases h
      · rename_i hformat hsemantics
        cases h
        simp [ElementFormat.ofByte?_eq_some.mp hformat, Semantics.ofByte?_eq_some.mp hsemantics]
    · cases h
  · rintro ⟨format, semantics⟩ bytes cut rfl hp hne
    rcases cut with - | ⟨a, - | ⟨b, rest⟩⟩
    · rfl
    · rfl
    · -- both bytes are there, so nothing was cut off
      exact absurd (hp.eq_of_length_le (by simp)) hne

theorem readElements_succ (count : Nat) (bytes : List UInt8) :
    readElements (count + 1) bytes = do
      let (element, bytes) ← readElement bytes
      let (elements, rest) ← readElements count bytes
      return (element :: elements, rest) := by
  rcases bytes with - | ⟨formatByte, - | ⟨semanticsByte, rest⟩⟩
  · rfl
  · rfl
  · simp only [readElements, readElement]
    cases ElementFormat.ofByte? formatByte with
    | none => rfl
    | some format => cases Semantics.ofByte? semanticsByte <;> rfl

theorem frames_readElements (count : Nat) :
    Frames (fun elements bytes => elements.length = count ∧ bytes = elementBytes elements)
      (readElements count) := by
  induction count with
  | zero =>
      constructor
      · rintro elements bytes ⟨hlength, rfl⟩ rest
        obtain rfl := List.length_eq_zero_iff.mp hlength
        rfl
      · intro elements bytes rest h
        cases h
        exact ⟨[], ⟨rfl, rfl⟩, rfl⟩
      · rintro elements bytes cut ⟨hlength, rfl⟩ hp hne
        obtain rfl := List.length_eq_zero_iff.mp hlength
        exact absurd (List.prefix_nil.mp hp) hne
  | succ count ih =>
      have hjoined := frames_readElement.bind (fun _ => ih) List.cons
      refine hjoined.congr (fun elements bytes => ?_) (readElements_succ count)
      constructor
      · rintro ⟨hlength, rfl⟩
        obtain ⟨element, rest, rfl, hrest⟩ := List.exists_cons_of_length_eq_add_one hlength
        exact ⟨element, rest, _, _, rfl, ⟨by simpa using hlength, rfl⟩, rfl, rfl⟩
      · rintro ⟨element, rest, _, _, rfl, ⟨rfl, rfl⟩, rfl, rfl⟩
        exact ⟨rfl, rfl⟩

/-- The layout that is written for a stage. No layout is written for a fragment shader, so that it
can only be read back if it is empty. -/
def LayoutWritten (stage : Stage) (inputs : List VertexElement) (bytes : List UInt8) : Prop :=
  layoutBytes stage inputs = .ok bytes ∧ (stage = .fragment → inputs = [])

theorem layoutBytes_vertex_eq_ok {inputs : List VertexElement} {bytes : List UInt8} :
    layoutBytes .vertex inputs = .ok bytes ↔ inputs.length < UInt8.size ∧
      bytes = UInt8.ofNat inputs.length :: elementBytes inputs := by
  simp only [layoutBytes]
  split
  · simp_all [pure, Except.pure, eq_comm]
  · simp [throw, throwThe, MonadExceptOf.throw, *]

theorem frames_readLayout (stage : Stage) : Frames (LayoutWritten stage) (readLayout stage) := by
  cases stage with
  | fragment =>
      constructor
      · rintro inputs bytes ⟨h, hinputs⟩ rest
        cases h
        rw [hinputs rfl]
        rfl
      · intro inputs bytes rest h
        cases h
        exact ⟨[], ⟨rfl, fun _ => rfl⟩, rfl⟩
      · rintro inputs bytes cut ⟨h, -⟩ hp hne
        cases h
        exact absurd (List.prefix_nil.mp hp) hne
  | vertex =>
      have hjoined := (frames_takeBytes 1).bind
        (fun count => frames_readElements (lengthOfBytes count)) fun _ elements => elements
      refine hjoined.congr (fun inputs bytes => ?_) fun bytes => ?_
      · simp only [LayoutWritten, layoutBytes_vertex_eq_ok]
        constructor
        · rintro ⟨⟨hlt, rfl⟩, -⟩
          refine ⟨[UInt8.ofNat inputs.length], inputs, _, _, ⟨rfl, rfl⟩, ⟨?_, rfl⟩, rfl, rfl⟩
          simp only [lengthOfBytes, UInt8.toNat_ofNat', UInt8.size] at *
          omega
        · rintro ⟨count, _, _, _, ⟨rfl, hone⟩, ⟨hlength, rfl⟩, rfl, rfl⟩
          obtain ⟨byte, rfl⟩ := List.length_eq_one_iff.mp hone
          simp only [lengthOfBytes, Nat.mul_zero, Nat.add_zero] at hlength
          refine ⟨⟨?_, ?_⟩, by simp⟩
          · rw [hlength]
            exact byte.toNat_lt
          · simp [hlength]
      · simp only [Prod.eta, bind_pure]
        cases bytes with
        | nil => rfl
        | cons count rest =>
            simp [takeBytes, readLayout, lengthOfBytes]

/-! ## Assets -/

/-- Both sources, and the rest. -/
def readSources (bytes : List UInt8) : Except AssetError ((String × String) × List UInt8) := do
  let (hlsl, bytes) ← readSource bytes
  let (glsl, bytes) ← readSource bytes
  return ((hlsl, glsl), bytes)

/-- The asset of a stage at the start of some bytes, and the rest. -/
def readAsset (stage : Stage) (bytes : List UInt8) : Except AssetError (Asset × List UInt8) := do
  let (inputs, bytes) ← readLayout stage bytes
  let (sources, bytes) ← readSources bytes
  return ({ stage, inputs, hlsl := sources.1, glsl := sources.2 }, bytes)

/-- What is written for an asset that can be read back. -/
def Written (stage : Stage) (asset : Asset) (bytes : List UInt8) : Prop :=
  asset.toBytes = .ok bytes ∧ asset.stage = stage ∧ (stage = .fragment → asset.inputs = [])

theorem toBytes_eq_ok {asset : Asset} {bytes : List UInt8} :
    asset.toBytes = .ok bytes ↔ ∃ layout hlsl glsl,
      layoutBytes asset.stage asset.inputs = .ok layout ∧ sourceBytes asset.hlsl = .ok hlsl ∧
        sourceBytes asset.glsl = .ok glsl ∧ bytes = layout ++ hlsl ++ glsl := by
  simp only [toBytes, bind_eq_ok]
  constructor
  · rintro ⟨layout, hl, hlsl, hh, glsl, hg, h⟩
    cases h
    exact ⟨layout, hlsl, glsl, hl, hh, hg, rfl⟩
  · rintro ⟨layout, hlsl, glsl, hl, hh, hg, rfl⟩
    exact ⟨layout, hl, hlsl, hh, glsl, hg, rfl⟩

theorem frames_readAsset (stage : Stage) : Frames (Written stage) (readAsset stage) := by
  have hsources := frames_readSource.bind (fun _ => frames_readSource) Prod.mk
  have hjoined := (frames_readLayout stage).bind (fun _ => hsources)
    fun inputs sources => ({ stage, inputs, hlsl := sources.1, glsl := sources.2 } : Asset)
  refine hjoined.congr (fun asset bytes => ?_) fun bytes => rfl
  simp only [Written, toBytes_eq_ok]
  constructor
  · rintro ⟨⟨layout, hlsl, glsl, hl, hh, hg, rfl⟩, rfl, hinputs⟩
    exact ⟨asset.inputs, (asset.hlsl, asset.glsl), layout, hlsl ++ glsl, ⟨hl, hinputs⟩,
      ⟨_, _, hlsl, glsl, hh, hg, rfl, rfl⟩, rfl, by simp⟩
  · rintro ⟨inputs, _, layout, _, ⟨hl, hinputs⟩, ⟨_, _, hlsl, glsl, hh, hg, rfl, rfl⟩, rfl, rfl⟩
    exact ⟨⟨layout, hlsl, glsl, hl, hh, hg, by simp⟩, rfl, hinputs⟩

/-- Whatever inputs are given for a fragment shader, the same is written as for one without any. -/
theorem exists_written {asset : Asset} {bytes : List UInt8} (h : asset.toBytes = .ok bytes) :
    ∃ readable, Written asset.stage readable bytes := by
  cases hs : asset.stage with
  | vertex => exact ⟨asset, h, hs, fun hf => by cases hf⟩
  | fragment =>
      refine ⟨{ asset with inputs := [] }, ?_, hs, fun _ => rfl⟩
      rw [← h, toBytes, toBytes, hs]
      rfl

theorem ofBytes_eq (bytes : List UInt8) (stage : Stage) :
    ofBytes bytes stage = do return (← readAsset stage bytes).1 := by
  simp only [ofBytes, readAsset, readSources, bind_assoc, pure_bind]

theorem ofBytes_eq_ok {bytes : List UInt8} {stage : Stage} {asset : Asset} :
    ofBytes bytes stage = .ok asset ↔ ∃ rest, readAsset stage bytes = .ok (asset, rest) := by
  rw [ofBytes_eq, bind_eq_ok]
  constructor
  · rintro ⟨⟨_, rest⟩, hr, h⟩
    cases h
    exact ⟨rest, hr⟩
  · rintro ⟨rest, hr⟩
    exact ⟨(asset, rest), hr, rfl⟩

theorem length_textBytes (text : String) : (textBytes text).length = text.utf8ByteSize := by
  simp [textBytes]

/-- An asset can be written if the counts in it fit. -/
theorem toBytes_isOk_iff (asset : Asset) :
    (∃ bytes, asset.toBytes = .ok bytes) ↔
      (asset.stage = .fragment ∨ asset.inputs.length ≤ 255) ∧
        asset.hlsl.utf8ByteSize < UInt32.size ∧ asset.glsl.utf8ByteSize < UInt32.size := by
  have hlayout : (∃ bytes, layoutBytes asset.stage asset.inputs = .ok bytes) ↔
      (asset.stage = .fragment ∨ asset.inputs.length ≤ 255) := by
    cases asset.stage with
    | fragment => simp [layoutBytes, pure, Except.pure]
    | vertex => simp [layoutBytes_vertex_eq_ok, UInt8.size, Nat.lt_succ_iff]
  have hsource (source : String) :
      (∃ bytes, sourceBytes source = .ok bytes) ↔ source.utf8ByteSize < UInt32.size := by
    simp [sourceBytes_eq_ok, length_textBytes]
  rw [← hlayout, ← hsource, ← hsource]
  constructor
  · rintro ⟨bytes, h⟩
    obtain ⟨layout, hlsl, glsl, hl, hh, hg, -⟩ := toBytes_eq_ok.mp h
    exact ⟨⟨layout, hl⟩, ⟨hlsl, hh⟩, glsl, hg⟩
  · rintro ⟨⟨layout, hl⟩, ⟨hlsl, hh⟩, glsl, hg⟩
    exact ⟨_, toBytes_eq_ok.mpr ⟨layout, hlsl, glsl, hl, hh, hg, rfl⟩⟩

/-- The binary format loses nothing, holds nothing twice and has no asset that is the beginning of
another one. -/
theorem assets_exact_and_prefix_free :
    (∀ asset : Asset, (asset.stage = .fragment → asset.inputs = []) →
      ((∃ bytes, asset.toBytes = .ok bytes) ↔
        (asset.stage = .fragment ∨ asset.inputs.length ≤ 255) ∧
          asset.hlsl.utf8ByteSize < UInt32.size ∧ asset.glsl.utf8ByteSize < UInt32.size) ∧
      ∀ bytes, asset.toBytes = .ok bytes →
        ∀ rest, ofBytes (bytes ++ rest) asset.stage = .ok asset) ∧
    (∀ (bytes : List UInt8) (stage : Stage) (asset : Asset), ofBytes bytes stage = .ok asset →
      ∃ written, asset.toBytes = .ok written ∧ written <+: bytes) ∧
    ∀ (asset : Asset) (bytes cut : List UInt8), asset.toBytes = .ok bytes → cut <+: bytes →
      cut ≠ bytes → ofBytes cut asset.stage = .error .unexpectedEnd := by
  refine ⟨fun asset hinputs => ⟨asset.toBytes_isOk_iff, fun bytes h rest => ?_⟩, ?_, ?_⟩
  · exact ofBytes_eq_ok.mpr ⟨rest, (frames_readAsset _).append ⟨h, rfl, hinputs⟩ rest⟩
  · intro bytes stage asset h
    obtain ⟨rest, hr⟩ := ofBytes_eq_ok.mp h
    obtain ⟨written, hw, rfl⟩ := (frames_readAsset stage).of_ok hr
    exact ⟨written, hw.1, List.prefix_append _ _⟩
  · intro asset bytes cut h hp hne
    obtain ⟨readable, hw⟩ := exists_written h
    rw [ofBytes_eq, (frames_readAsset _).truncated hw hp hne]
    rfl

/-- A vertex shader with two inputs and short sources. -/
def litAsset : Asset :=
  { stage := .vertex
    inputs := [⟨.vector4, .position⟩, ⟨.vector3, .normal⟩]
    hlsl := "hlsl"
    glsl := "é" }

/-- The bytes of the vertex shader: its layout, and the sources after their lengths. -/
def litAssetBytes : List UInt8 :=
  [2, 3, 0, 2, 5] ++ [4, 0, 0, 0, 104, 108, 115, 108] ++ [2, 0, 0, 0, 195, 169]

theorem litAsset_exact_and_prefix_free :
    litAsset.toBytes = .ok litAssetBytes ∧
      ofBytes (litAssetBytes ++ [7]) .vertex = .ok litAsset ∧
      ofBytes (litAssetBytes.take 9) .vertex = .error .unexpectedEnd := by
  have hbytes : litAsset.toBytes = .ok litAssetBytes := by decide +kernel
  obtain ⟨hread, -, hcut⟩ := assets_exact_and_prefix_free
  exact ⟨hbytes, (hread litAsset (by decide)).2 _ hbytes [7],
    hcut litAsset _ _ hbytes (List.take_prefix _ _) (by decide)⟩

end Asset

end ShaderEffect
