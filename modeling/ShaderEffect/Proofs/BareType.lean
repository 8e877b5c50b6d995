import Mathlib.Data.List.TakeWhile
import ShaderEffect.Scope

/-!
# Types without qualification

A type may be written with the namespaces that it is in. They do not count: the bare form of a type
has none of them and stands for the same shader type, and so does the bare form of the signature of a
method. Only where a constant is converted, the name of the type has to be as it is written.
-/

namespace ShaderEffect

/-! ## Names -/

theorem unqualified_append {name ending : String} (h : '.' ∉ ending.toList) :
    unqualified (name ++ ending) = unqualified name ++ ending := by
  have hall : ∀ c ∈ ending.toList.reverse, (c != '.') = true := by
    intro c hc
    rw [List.mem_reverse] at hc
    rw [bne_iff_ne]
    rintro rfl
    exact h hc
  rw [← String.toList_inj]
  simp [unqualified, List.takeWhile_append_of_pos hall]

theorem unqualified_of_not_mem {name : String} (h : '.' ∉ name.toList) :
    unqualified name = name := by
  have happend : unqualified ("" ++ name) = unqualified "" ++ name := unqualified_append h
  rwa [String.empty_append, show unqualified "" = "" from rfl, String.empty_append] at happend

theorem not_mem_unqualified (name : String) : '.' ∉ (unqualified name).toList := by
  intro h
  rw [unqualified, String.toList_ofList, List.mem_reverse] at h
  simpa using List.mem_takeWhile_imp h

theorem unqualified_unqualified (name : String) :
    unqualified (unqualified name) = unqualified name :=
  unqualified_of_not_mem (not_mem_unqualified name)

/-- Namespaces before a name do not count. -/
theorem unqualified_qualified (qualifier name : String) :
    unqualified (qualifier ++ "." ++ name) = unqualified name := by
  have hdot : (".".toList.reverse ++ qualifier.toList.reverse).takeWhile (· != '.') = [] := rfl
  rw [← String.toList_inj]
  simp only [unqualified, String.toList_append, String.toList_ofList, List.reverse_append,
    List.reverse_inj, List.takeWhile_append, hdot, List.append_nil]
  split
  · rename_i hlength
    exact (List.IsPrefix.eq_of_length (List.takeWhile_prefix _) hlength).symm
  · rfl

theorem DataType.ofHostName_unqualified (name : String) :
    ofHostName (unqualified name) = ofHostName name := by
  simp only [ofHostName, unqualified_unqualified]

/-! ## Types -/

/-- Whether a constant changes when it is converted to the type of a name: a number to the other
kind of numbers. -/
def Value.convertsTo (value : Value) (name : String) : Bool :=
  match value with
  | float _ => name == "int" || name == "Int32"
  | int _ => name == "float" || name == "Single"
  | bool _ | string _ => false

namespace TypeRef

/-- The type without qualification. -/
def bare : TypeRef → TypeRef
  | named name => named (unqualified name)
  | array element => array element.bare
  | pointer element => pointer element.bare
  | inferred => inferred

/-- The type of a cast of what may be a constant, without qualification. The type that a constant is
converted to stays as it is written, because there is no conversion to the qualified name. -/
def bareCast : TypeRef → Option Value → TypeRef
  | named name, some value =>
    if value.convertsTo (unqualified name) then named name else named (unqualified name)
  | type, _ => type.bare

theorem bare_bare (type : TypeRef) : type.bare.bare = type.bare := by
  induction type with
  | named name => rw [bare, bare, unqualified_unqualified]
  | array element ih => rw [bare, bare, ih]
  | pointer element ih => rw [bare, bare, ih]
  | inferred => rfl

theorem bareCast_none (type : TypeRef) : type.bareCast none = type.bare := by
  cases type <;> rfl

theorem bare_bareCast (type : TypeRef) (constant : Option Value) :
    (type.bareCast constant).bare = type.bare := by
  cases type with
  | named name =>
      cases constant with
      | none => exact bare_bare (named name)
      | some value =>
          rw [bareCast]
          split
          · rfl
          · exact bare_bare (named name)
  | array element => exact bare_bare (array element)
  | pointer element => exact bare_bare (pointer element)
  | inferred => rfl

theorem dataType_bare (type : TypeRef) : type.bare.dataType = type.dataType := by
  cases type with
  | named name => exact DataType.ofHostName_unqualified name
  | array element => rfl
  | pointer element => rfl
  | inferred => rfl

theorem hasShortName_bare (type : TypeRef) (name : String) :
    type.bare.hasShortName name = type.hasShortName name := by
  cases type with
  | named declared => simp [hasShortName, bare, name?, unqualified_unqualified]
  | array element => rfl
  | pointer element => rfl
  | inferred => rfl

theorem isArray_bare (type : TypeRef) : type.bare.isArray = type.isArray := by
  cases type <;> rfl

/-- Messages name a type with its qualification, and else alike. -/
theorem unqualified_describe (type : TypeRef) : unqualified type.describe = type.bare.describe := by
  induction type with
  | named name => rfl
  | array element ih => rw [describe, unqualified_append (by decide), ih, bare, describe]
  | pointer element ih => rw [describe, unqualified_append (by decide), ih, bare, describe]
  | inferred => rfl

theorem convert_of_not_convertsTo {value : Value} {name : String}
    (h : value.convertsTo name = false) : Value.convert (named name) value = some value := by
  simp only [Value.convert, name?]
  split <;> simp_all [Value.convertsTo]

theorem convertsTo_unqualified {value : Value} {name : String}
    (h : value.convertsTo name = true) : value.convertsTo (unqualified name) = true := by
  suffices '.' ∉ name.toList by rwa [unqualified_of_not_mem this]
  cases value with
  | float _ =>
      simp only [Value.convertsTo, Bool.or_eq_true, beq_iff_eq] at h
      rcases h with rfl | rfl <;> decide
  | int _ =>
      simp only [Value.convertsTo, Bool.or_eq_true, beq_iff_eq] at h
      rcases h with rfl | rfl <;> decide
  | bool _ => cases h
  | string _ => cases h

/-- A constant is converted alike to the type of a cast and to its bare form. -/
theorem convert_bareCast (type : TypeRef) (constant : Option Value) :
    constant.bind (Value.convert (type.bareCast constant)) =
      constant.bind (Value.convert type) := by
  cases constant with
  | none => rfl
  | some value =>
      cases type with
      | named name =>
          rw [bareCast]
          split
          · rfl
          · rename_i hshort
            have hname : ¬ value.convertsTo name = true := fun h =>
              hshort (convertsTo_unqualified h)
            rw [Bool.not_eq_true] at hshort hname
            simp only [Option.bind_some, convert_of_not_convertsTo hshort,
              convert_of_not_convertsTo hname]
      | array element => rfl
      | pointer element => rfl
      | inferred => rfl

end TypeRef

/-! ## Methods -/

/-- The method without qualification of the types in its signature. -/
def MethodRef.bare (method : MethodRef) : MethodRef :=
  { method with
    declaringType := unqualified method.declaringType
    parameterTypes := method.parameterTypes.map unqualified }

theorem canonicalTypeName_unqualified (name : String) :
    canonicalTypeName (unqualified name) = canonicalTypeName name := by
  simp only [canonicalTypeName, DataType.ofHostName_unqualified, unqualified_unqualified]

theorem MethodRef.intrinsic_bare (method : MethodRef) :
    method.bare.intrinsic = method.intrinsic := by
  have htypes : method.bare.parameterDataTypes = method.parameterDataTypes := by
    simp [parameterDataTypes, MethodRef.bare, DataType.ofHostName_unqualified, Function.comp_def]
  have hcandidate : method.bare.isCandidate = method.isCandidate := by
    funext signature
    simp [isCandidate, MethodRef.bare, canonicalTypeName_unqualified]
  have hexactly : method.bare.matchesExactly = method.matchesExactly := by
    funext signature
    simp only [matchesExactly, hcandidate, htypes]
  have hwidened : method.bare.matchesWidened = method.matchesWidened := by
    funext signature
    simp only [matchesWidened, hcandidate, htypes]
  simp only [intrinsic, intrinsicIn, hexactly, hwidened]

end ShaderEffect
