import ShaderEffect.Proofs.Call
import ShaderEffect.Proofs.Layout
import ShaderEffect.Proofs.Model
import ShaderEffect.Proofs.Result
import ShaderEffect.Shader.Unit

/-!
# What a language can write

When the pieces of a unit can be written: types, constructions, casts and calls, and the declarations
of buffers, textures and stage parameters.
-/

namespace ShaderEffect

/-! ## Types and operations -/

namespace Dialect

variable {dialect : Dialect}

theorem typeName_unknown : dialect.typeName .unknown = .error (.unknownType .unknown) := by
  cases dialect <;> rfl

theorem construction_unknown {arguments : List String} :
    dialect.construction .unknown arguments = .error (.unknownType .unknown) := by
  cases dialect <;> rfl

theorem cast_unknown {operand : Operand} :
    dialect.cast .unknown operand = .error (.unknownType .unknown) := by
  cases dialect <;> rfl

theorem succeeds_typeName {type : DataType} :
    Succeeds (dialect.typeName type) ↔ type ≠ .unknown := by
  cases dialect <;> cases type <;> simp [typeName]

theorem succeeds_construction {type : DataType} {arguments : List String} :
    Succeeds (dialect.construction type arguments) ↔ type ≠ .unknown := by
  rw [construction, succeeds_bind_iff (P := True), and_true, succeeds_typeName]
  intro name _
  cases dialect <;> rcases arguments with - | ⟨argument, - | _⟩ <;> simp

theorem succeeds_cast {type : DataType} {operand : Operand} :
    Succeeds (dialect.cast type operand) ↔ type ≠ .unknown := by
  rw [cast, succeeds_bind_iff (P := True), and_true, succeeds_typeName]
  intro name _
  cases dialect <;> simp

theorem succeeds_identifier {scope : Scope} {name : String} :
    Succeeds (dialect.identifier scope name) ↔ (scope.lookup? name).isSome := by
  unfold identifier
  split <;> simp_all

end Dialect

theorem staticProperty?_type {type : DataType} {member : String}
    (h : (staticProperty? type member).isSome) : type.isVector ∨ type.isMatrix := by
  by_cases hm : type.isMatrix
  · exact .inr hm
  · by_cases hv : type.isVector
    · exact .inl hv
    · simp [staticProperty?, hm, hv] at h

theorem Dialect.succeeds_staticMember {dialect : Dialect} {receiver member : String} :
    Succeeds (dialect.staticMember receiver member) ↔
      (staticProperty? (DataType.ofHostName receiver) member).isSome := by
  cases hp : staticProperty? (DataType.ofHostName receiver) member with
  | none => simp [staticMember, hp]
  | some values =>
      have ht := staticProperty?_type (Option.isSome_of_eq_some hp)
      simp only [staticMember, hp, succeeds_construction, Option.isSome_some, iff_true]
      intro hu
      simp [hu, DataType.isVector, DataType.isMatrix] at ht

/-! ## Calls -/

/-- The numbers of operands that a sample can be written with. -/
def Dialect.Samples (dialect : Dialect) (operands : Nat) : Prop :=
  match dialect with
  | hlsl => operands = 2
  | glsl _ => 2 ≤ operands

theorem Dialect.samples_two (dialect : Dialect) : dialect.Samples 2 := by
  cases dialect <;> simp [Samples]

/-- With operands that a sample can have, only the stage can keep the call of an intrinsic from being
written. -/
theorem Dialect.intrinsicCall_eq (dialect : Dialect) (stage : Stage) {intrinsic : Intrinsic}
    {operands : List Operand} (hi : intrinsic ≠ .unknown)
    (hs : intrinsic = .sampleTexture → dialect.Samples operands.length) :
    ∃ text, dialect.intrinsicCall stage intrinsic operands =
      if intrinsic.isFragmentOnly && stage = .vertex then .error (.unwritable .vertexDerivative)
      else .ok text := by
  unfold intrinsicCall
  split
  · exact absurd rfl hi
  · have hlength := hs rfl
    cases dialect with
    | hlsl =>
        obtain ⟨texture, coordinates, rfl⟩ := List.length_eq_two.mp hlength
        exact ⟨_, rfl⟩
    | glsl version =>
        obtain - | ⟨texture, - | ⟨coordinates, - | _⟩⟩ := operands
        · simp [Samples] at hlength
        · simp [Samples] at hlength
        · exact ⟨_, rfl⟩
        · exact ⟨_, rfl⟩
  · cases dialect <;> obtain - | ⟨value, - | _⟩ := operands <;> exact ⟨_, rfl⟩
  · exact ⟨_, rfl⟩

theorem Dialect.succeeds_intrinsicCall {dialect : Dialect} {stage : Stage} {intrinsic : Intrinsic}
    {operands : List Operand} (hi : intrinsic ≠ .unknown) :
    Succeeds (dialect.intrinsicCall stage intrinsic operands) ↔
      (intrinsic = .sampleTexture → dialect.Samples operands.length) ∧
        ¬ (intrinsic.isFragmentOnly ∧ stage = .vertex) := by
  by_cases hs : intrinsic = .sampleTexture → dialect.Samples operands.length
  · obtain ⟨text, h⟩ := dialect.intrinsicCall_eq stage hi hs
    rw [h]
    split <;> simp_all
  · obtain ⟨rfl, hs'⟩ := Classical.not_imp.mp hs
    refine iff_of_false ?_ (fun h => hs h.1)
    cases dialect <;> obtain - | ⟨texture, - | ⟨coordinates, - | _⟩⟩ := operands <;>
      simp_all [intrinsicCall, Samples]

namespace Dialect

variable {dialect : Dialect} {scope : Scope}

theorem renderReceiver_eq {target : Expr} {member : String} (callee : Expr)
    (h : callee.unparenthesized.kind = .memberAccess target member) :
    dialect.renderReceiver scope callee = dialect.render scope target := by
  fun_induction Expr.unparenthesized callee with
  | case1 location notes inner ih =>
      rw [renderReceiver]
      exact ih h
  | case2 e _ =>
      obtain ⟨kind, location, notes⟩ := e
      subst h
      rw [renderReceiver]

/-- What is written for the receiver of a call: the name of a texture that is sampled, nothing for a
static method. -/
def receiverOperands (dialect : Dialect) (scope : Scope) (call : Call) :
    Except CompileError (List Operand) :=
  match call.receiver with
  | none => pure []
  | some receiver =>
    if call.intrinsic = .sampleTexture then
      match scope.texture? receiver with
      | some texture => pure [.atom texture.name]
      | none => throw (.unwritable .textureReceiver)
    else do return [← dialect.render scope receiver]

theorem length_receiverOperands {call : Call} {operands : List Operand}
    (h : dialect.receiverOperands scope call = .ok operands) :
    operands.length = call.receiver.toList.length := by
  unfold receiverOperands at h
  cases hr : call.receiver with
  | none =>
      simp only [hr] at h
      cases h
      rfl
  | some receiver =>
      simp only [hr] at h
      split at h
      · split at h
        · cases h
          rfl
        · cases h
      · cases he : dialect.render scope receiver with
        | error e =>
            rw [he] at h
            cases h
        | ok operand =>
            rw [he] at h
            cases h
            rfl

theorem length_renderArguments {arguments : List Argument} {operands : List Operand}
    (h : dialect.renderArguments scope arguments = .ok operands) :
    operands.length = arguments.length := by
  induction arguments generalizing operands with
  | nil =>
      rw [renderArguments] at h
      cases h
      rfl
  | cons argument rest ih =>
      obtain ⟨name, mode, value⟩ := argument
      rw [renderArguments] at h
      cases hv : dialect.render scope value with
      | error e =>
          rw [hv] at h
          cases h
      | ok operand =>
          cases hr : dialect.renderArguments scope rest with
          | error e =>
              rw [hv, hr] at h
              cases h
          | ok operands' =>
              rw [hv, hr] at h
              cases h
              simp [ih hr]

/-- An invocation is written as its receiver, its arguments and the intrinsic that it calls. -/
theorem render_invocation {callee : Expr} {arguments : List Argument} {location : Location}
    {notes : Notes} {call : Call}
    (hc : scope.call? ⟨.invocation callee arguments, location, notes⟩ = some call)
    (hu : call.intrinsic ≠ .unknown) :
    dialect.render scope ⟨.invocation callee arguments, location, notes⟩ = do
      let receiver ← dialect.receiverOperands scope call
      let arguments ← dialect.renderArguments scope call.arguments
      return .atom (← dialect.intrinsicCall scope.method.stage call.intrinsic
        (receiver ++ arguments)) := by
  obtain ⟨callee', target, member, hk, -⟩ := Scope.call?_eq_some hc
  obtain ⟨rfl, rfl⟩ : callee = callee' ∧ arguments = call.arguments := by simpa using hk
  simp only [render, Construct.ofExpr?, hc, hu, if_false, receiverOperands]
  cases hr : call.receiver with
  | none => rfl
  | some receiver =>
      obtain ⟨callee', member', hk', hm⟩ := Scope.call?_receiver hc hr
      obtain rfl : callee = callee' := by simpa using hk'
      simp only [renderReceiver_eq callee hm]
      by_cases hs : call.intrinsic = .sampleTexture
      · simp only [hs, if_true]
        cases scope.texture? receiver <;> rfl
      · simp only [hs, if_false, bind_assoc]

/-! ## Loop headers -/

/-- One initializer of a loop header, and the scope after it. -/
def headerInitializer (dialect : Dialect) (scope : Scope) (initializer : Stmt) :
    Except CompileError (Scope × String) :=
  match initializer.kind with
  | .declaration locals => dialect.headerDeclaration scope locals
  | .expression value => do return (scope, ← dialect.renderText scope value)
  | _ => throw (.unwritable .loopInitializer)

theorem headerInitializers_cons {initializer : Stmt} {rest : List Stmt} :
    dialect.headerInitializers scope (initializer :: rest) = do
      let (inner, text) ← dialect.headerInitializer scope initializer
      let (after, texts) ← dialect.headerInitializers inner rest
      return (after, text :: texts) := by
  obtain ⟨kind, location⟩ := initializer
  cases kind
  case expression value => simp only [headerInitializers, headerInitializer, bind_assoc, pure_bind]
  all_goals rfl

end Dialect

/-! ## Declarations -/

namespace Dialect

variable {dialect : Dialect}

theorem succeeds_writeBuffer {buffer : ConstantBuffer} :
    Succeeds (dialect.writeBuffer buffer) ↔
      ∀ constant ∈ buffer.constants, constant.type ≠ .unknown := by
  have hmember (member : MemberLayout) :
      Succeeds (dialect.bufferMember member) ↔ member.type ≠ .unknown := by
    rw [bufferMember, succeeds_bind_pure, succeeds_typeName]
  have htypes := buffer.type_layout dialect.packing
  rw [writeBuffer, succeeds_bind_pure, succeeds_mapM]
  simp only [hmember]
  have hmembers : (∀ member ∈ (buffer.layout dialect.packing).members, member.type ≠ .unknown) ↔
      .unknown ∉ (buffer.layout dialect.packing).members.map (·.type) := by simp [eq_comm]
  rw [hmembers, htypes]
  simp [eq_comm]

theorem succeeds_writeTexture {texture : ShaderTexture} :
    Succeeds (dialect.writeTexture texture) ↔ texture.type ≠ .unknown := by
  rw [writeTexture, succeeds_bind_iff (P := True), and_true, succeeds_typeName]
  intro name _
  cases dialect <;> simp

theorem succeeds_hlslStruct {method : ShaderMethod} (direction : Direction)
    (h : ∀ parameter ∈ method.parameters, parameter.type ≠ .unknown) :
    Succeeds (hlslStruct method direction) := by
  rw [hlslStruct, succeeds_bind_pure, succeeds_mapM]
  intro parameter hp
  rw [succeeds_bind_pure, succeeds_typeName]
  exact h parameter (List.mem_filter.mp hp).1

theorem succeeds_glslVariables {version : GlslVersion} {stage : Stage} (location : Nat)
    {parameters : List ShaderParameter}
    (h : ∀ parameter ∈ parameters, parameter.type ≠ .unknown) :
    Succeeds (glslVariables version stage location parameters) := by
  induction parameters generalizing location with
  | nil => simp [glslVariables]
  | cons parameter rest ih =>
      have hrest := fun location => ih location fun other ho => h other (by simp [ho])
      rw [glslVariables]
      split
      · exact hrest location
      · refine succeeds_bind.mpr ?_
        have htype : Succeeds ((glsl version).typeName parameter.type) :=
          succeeds_typeName.mpr (h parameter (by simp))
        obtain ⟨type, ht⟩ := htype
        refine ⟨type, ht, ?_⟩
        by_cases hl : isLocated stage parameter.direction
        · simp only [hl, if_true]
          exact succeeds_bind_pure.mpr (hrest _)
        · simp only [hl]
          exact succeeds_bind_pure.mpr (hrest _)

theorem succeeds_writeInterface {method : ShaderMethod}
    (h : ∀ parameter ∈ method.parameters, parameter.type ≠ .unknown) :
    Succeeds (dialect.writeInterface method) := by
  cases dialect with
  | hlsl =>
      obtain ⟨inputs, hi⟩ := succeeds_hlslStruct .input h
      refine succeeds_bind.mpr ⟨inputs, hi, ?_⟩
      exact succeeds_bind_pure.mpr (succeeds_hlslStruct .output h)
  | glsl version => exact succeeds_bind_pure.mpr (succeeds_glslVariables 0 h)

end Dialect

/-! ## The declarations of built effects -/

section

variable {decl : TypeDecl} {effect : Effect}

theorem Effect.succeeds_writeBuffers (dialect : Dialect) (h : decl.build.result = .ok effect) :
    Succeeds (effect.buffers.mapM dialect.writeBuffer) := by
  refine succeeds_mapM.mpr fun buffer hb => Dialect.succeeds_writeBuffer.mpr ?_
  intro constant hc hu
  have ht := (Effect.mem_constants h hb hc).1
  simp [hu, DataType.isValueType] at ht

theorem Effect.succeeds_writeTextures (dialect : Dialect) (h : decl.build.result = .ok effect) :
    Succeeds (effect.textures.mapM dialect.writeTexture) := by
  refine succeeds_mapM.mpr fun texture htexture => Dialect.succeeds_writeTexture.mpr ?_
  intro hu
  have ht := (Effect.mem_textures h htexture).1
  simp [hu, DataType.isTexture] at ht

theorem Effect.succeeds_writeInterface (dialect : Dialect) (h : decl.build.result = .ok effect)
    {method : ShaderMethod} (hm : method ∈ effect.methods) :
    Succeeds (dialect.writeInterface method) := by
  obtain ⟨declared, -, hscanned⟩ := Effect.mem_methods h hm
  refine Dialect.succeeds_writeInterface fun parameter hp hu => ?_
  have ht := isParameterType_of_forall₂ hscanned.parameters parameter hp
  simp [hu, DataType.isParameterType] at ht

end

end ShaderEffect
