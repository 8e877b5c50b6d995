import Mathlib.Data.List.Forall2
import Mathlib.Data.List.Nodup
import ShaderEffect.Proofs.Call

/-!
# Overloads

Which signature a method stands for. Integers are taken for floats where floats are expected, but no
method fits two signatures even so: the declaring type, the name and the number of parameters leave
at most one. So the table of signatures can be searched in any order, and the search for exact
parameter types decides nothing that the search with widened integers would not.
-/

namespace ShaderEffect

/-! ## Signatures that fit -/

/-- The method can be called with a signature: the signature is of the same type, name, kind and
arity, and each of its parameters has the given type or is a float where an integer is given. -/
structure MethodRef.Fits (method : MethodRef) (signature : Signature) : Prop where
  declaringType : signature.declaringType = canonicalTypeName method.declaringType
  name : signature.name = method.name
  isStatic : signature.isStatic = method.isStatic
  parameters : List.Forall₂
    (fun parameter given => parameter = given ∨ parameter = .float ∧ given = .int)
    signature.parameters method.parameterDataTypes

/-- What tells the signatures apart. -/
def Signature.key (signature : Signature) : String × String × Nat :=
  (signature.declaringType, signature.name, signature.parameters.length)

theorem Signature.nodup_key : (all.map key).Nodup := by
  decide +kernel

namespace MethodRef

variable {method other : MethodRef} {signature : Signature} {table : List Signature}

theorem length_parameterDataTypes :
    method.parameterDataTypes.length = method.parameterTypes.length := by
  simp [parameterDataTypes]

theorem matchesWidened_iff : method.matchesWidened signature = true ↔ method.Fits signature := by
  simp only [matchesWidened, isCandidate, Bool.and_eq_true, beq_iff_eq, List.all_eq_true,
    DataType.accepts, Bool.or_eq_true]
  constructor
  · rintro ⟨⟨⟨⟨htype, hname⟩, hlength⟩, hstatic⟩, haccepts⟩
    refine ⟨htype, hname, hstatic, List.forall₂_iff_zip.mpr ⟨?_, ?_⟩⟩
    · rw [hlength, length_parameterDataTypes]
    · exact fun {parameter given} hmem => haccepts (parameter, given) hmem
  · rintro ⟨htype, hname, hstatic, hparameters⟩
    obtain ⟨hlength, haccepts⟩ := List.forall₂_iff_zip.mp hparameters
    rw [length_parameterDataTypes] at hlength
    exact ⟨⟨⟨⟨htype, hname⟩, hlength⟩, hstatic⟩, fun pair hmem => haccepts hmem⟩

instance : Decidable (method.Fits signature) :=
  decidable_of_iff _ matchesWidened_iff

theorem fits_of_matchesExactly (h : method.matchesExactly signature = true) :
    method.Fits signature := by
  simp only [matchesExactly, isCandidate, Bool.and_eq_true, beq_iff_eq] at h
  obtain ⟨⟨⟨⟨htype, hname⟩, -⟩, hstatic⟩, hparameters⟩ := h
  refine ⟨htype, hname, hstatic, ?_⟩
  rw [hparameters, List.forall₂_same]
  exact fun type _ => .inl rfl

/-- A method that fits a signature has its key. -/
theorem Fits.key_eq (h : method.Fits signature) : signature.key =
    (canonicalTypeName method.declaringType, method.name, method.parameterTypes.length) := by
  rw [Signature.key, h.declaringType, h.name, h.parameters.length_eq, length_parameterDataTypes]

/-- No method fits two rows of the table. -/
theorem pairwise_not_fits (method : MethodRef) :
    Signature.all.Pairwise fun first second => ¬ (method.Fits first ∧ method.Fits second) := by
  have hkeys : Signature.all.Pairwise fun first second => first.key ≠ second.key :=
    List.pairwise_map.mp Signature.nodup_key
  refine hkeys.imp fun hne => ?_
  rintro ⟨hfirst, hsecond⟩
  exact hne (hfirst.key_eq.trans hsecond.key_eq.symm)

theorem Fits.eq {first second : Signature} (hf : first ∈ Signature.all)
    (hs : second ∈ Signature.all) (hfirst : method.Fits first) (hsecond : method.Fits second) :
    first = second :=
  List.inj_on_of_nodup_map Signature.nodup_key hf hs (hfirst.key_eq.trans hsecond.key_eq.symm)

/-! ## Searching the table -/

/-- The search comes to nothing but signatures that fit. -/
theorem intrinsicIn_cases (method : MethodRef) (table : List Signature) :
    (∃ signature ∈ table, method.Fits signature ∧
        method.intrinsicIn table = signature.intrinsic) ∨
      (∀ signature ∈ table, ¬ method.Fits signature) ∧ method.intrinsicIn table = .unknown := by
  unfold intrinsicIn
  split
  · rename_i signature hfound
    exact .inl ⟨signature, List.mem_of_find?_eq_some hfound,
      fits_of_matchesExactly (List.find?_some hfound), rfl⟩
  · split
    · rename_i signature hfound
      exact .inl ⟨signature, List.mem_of_find?_eq_some hfound,
        matchesWidened_iff.mp (List.find?_some hfound), rfl⟩
    · rename_i hnone
      refine .inr ⟨fun signature hs hfits => ?_, rfl⟩
      exact List.find?_eq_none.mp hnone signature hs (matchesWidened_iff.mpr hfits)

/-- In whatever order the signatures stand, the one that fits is found. -/
theorem Fits.intrinsicIn_eq (h : method.Fits signature) (hs : signature ∈ Signature.all)
    (ht : table.Perm Signature.all) : method.intrinsicIn table = signature.intrinsic := by
  rcases method.intrinsicIn_cases table with ⟨found, hfound, hfits, hintrinsic⟩ | ⟨hnone, -⟩
  · rw [hintrinsic, hfits.eq (ht.mem_iff.mp hfound) hs h]
  · exact absurd h (hnone signature (ht.mem_iff.mpr hs))

theorem intrinsicIn_eq_unknown (ht : table.Perm Signature.all)
    (h : ∀ signature ∈ Signature.all, ¬ method.Fits signature) :
    method.intrinsicIn table = .unknown := by
  rcases method.intrinsicIn_cases table with ⟨found, hfound, hfits, -⟩ | ⟨-, hunknown⟩
  · exact absurd hfits (h found (ht.mem_iff.mp hfound))
  · exact hunknown

/-- The search with widened integers gives the same answer alone. -/
theorem intrinsicIn_eq_widened (ht : table.Perm Signature.all) :
    method.intrinsicIn table =
      ((table.find? method.matchesWidened).map (·.intrinsic)).getD .unknown := by
  cases hfound : table.find? method.matchesWidened with
  | some signature =>
      have hs := ht.mem_iff.mp (List.mem_of_find?_eq_some hfound)
      exact (matchesWidened_iff.mp (List.find?_some hfound)).intrinsicIn_eq hs ht
  | none =>
      refine intrinsicIn_eq_unknown ht fun signature hs hfits => ?_
      exact List.find?_eq_none.mp hfound signature (ht.mem_iff.mpr hs) (matchesWidened_iff.mpr hfits)

/-! ## Other words for the same method -/

theorem Fits.congr (h : method.Fits signature)
    (htype : canonicalTypeName other.declaringType = canonicalTypeName method.declaringType)
    (hname : other.name = method.name) (hstatic : other.isStatic = method.isStatic)
    (hparameters : other.parameterDataTypes = method.parameterDataTypes) : other.Fits signature :=
  ⟨htype ▸ h.declaringType, hname ▸ h.name, hstatic ▸ h.isStatic, hparameters ▸ h.parameters⟩

/-- How the types of a method are spelled makes no difference. -/
theorem intrinsic_congr
    (htype : canonicalTypeName other.declaringType = canonicalTypeName method.declaringType)
    (hname : other.name = method.name) (hstatic : other.isStatic = method.isStatic)
    (hparameters : other.parameterDataTypes = method.parameterDataTypes) :
    other.intrinsic = method.intrinsic := by
  rcases method.intrinsicIn_cases Signature.all with ⟨found, hs, hfits, hintrinsic⟩ | ⟨hnone, hunknown⟩
  · have hother := hfits.congr htype hname hstatic hparameters
    exact (hother.intrinsicIn_eq hs (.refl _)).trans hintrinsic.symm
  · refine Eq.trans (intrinsicIn_eq_unknown (.refl _) fun signature hs hfits => ?_) hunknown.symm
    exact hnone signature hs
      (hfits.congr htype.symm hname.symm hstatic.symm hparameters.symm)

end MethodRef

/-- Overloads are unambiguous. No method fits two signatures of the table. In every order of the
table the search finds the signature that fits, and nothing if there is none, so that a search for
exact parameter types before it changes no answer. Other names for the declaring type and for the
parameter types change no answer either. -/
theorem overloads_unambiguous (method : MethodRef) :
    (Signature.all.Pairwise fun first second => ¬ (method.Fits first ∧ method.Fits second)) ∧
      (∀ table : List Signature, table.Perm Signature.all →
        (∀ signature ∈ Signature.all, method.Fits signature →
            method.intrinsicIn table = signature.intrinsic) ∧
          ((∀ signature ∈ Signature.all, ¬ method.Fits signature) →
            method.intrinsicIn table = .unknown) ∧
          method.intrinsicIn table =
            ((table.find? method.matchesWidened).map (·.intrinsic)).getD .unknown) ∧
      ∀ other : MethodRef,
        canonicalTypeName other.declaringType = canonicalTypeName method.declaringType →
        other.name = method.name → other.isStatic = method.isStatic →
        other.parameterTypes.map DataType.ofHostName =
          method.parameterTypes.map DataType.ofHostName →
        other.intrinsic = method.intrinsic := by
  refine ⟨method.pairwise_not_fits, fun table ht => ⟨?_, ?_, ?_⟩, ?_⟩
  · exact fun signature hs hfits => hfits.intrinsicIn_eq hs ht
  · exact MethodRef.intrinsicIn_eq_unknown ht
  · exact MethodRef.intrinsicIn_eq_widened ht
  · exact fun other => MethodRef.intrinsic_congr

/-- A mixture of vectors by an integer weight. -/
def integerLerp : MethodRef :=
  { declaringType := "System.Numerics.Vector3"
    name := "Lerp"
    parameterTypes := ["Vector3", "Vector3", "Int32"]
    isStatic := true }

/-- The same method in other words. -/
def shortIntegerLerp : MethodRef :=
  { integerLerp with
    declaringType := "Vector3"
    parameterTypes := ["Numerics.Vector3", "System.Numerics.Vector3", "int"] }

/-- A reflection of vectors that is not in the table. -/
def longReflect : MethodRef :=
  { declaringType := "Vector4"
    name := "Reflect"
    parameterTypes := ["Vector4", "Vector4"]
    isStatic := true }

/-- The integer weight is taken for a float in the table from back to front, under both names of the
method, and the missing overload is not found there. -/
theorem integerLerp_unambiguous :
    Signature.all.reverse.Perm Signature.all ∧
      integerLerp.intrinsicIn Signature.all.reverse = .lerp ∧
      shortIntegerLerp.intrinsic = integerLerp.intrinsic ∧
      longReflect.intrinsicIn Signature.all.reverse = .unknown := by
  have hreverse : Signature.all.reverse.Perm Signature.all := List.reverse_perm _
  obtain ⟨signature, hs, hfits, hlerp⟩ : ∃ signature ∈ Signature.all,
      integerLerp.Fits signature ∧ signature.intrinsic = .lerp := by decide +kernel
  have hnone : ∀ signature ∈ Signature.all, ¬ longReflect.Fits signature := by decide +kernel
  obtain ⟨-, hsearch, hwords⟩ := overloads_unambiguous integerLerp
  refine ⟨hreverse, ((hsearch _ hreverse).1 signature hs hfits).trans hlerp, ?_, ?_⟩
  · exact hwords shortIntegerLerp (by decide +kernel) rfl rfl (by decide +kernel)
  · exact ((overloads_unambiguous longReflect).2.1 _ hreverse).2.1 hnone

end ShaderEffect
