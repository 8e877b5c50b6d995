import ShaderEffect.Proofs.BareEffect
import ShaderEffect.Proofs.Build
import ShaderEffect.Proofs.Shape

/-!
# Qualification of type names

Declarations that differ only in the namespaces before the names of types describe the same effect:
both have a model or neither has, and their methods have the same text. They are valid alike, as
long as the return types are written as void. There are two places where the whole name of a type
counts: a return type is void, and a constant is converted to another kind of number, only under a
name without namespaces.
-/

namespace ShaderEffect

/-! ## Declarations -/

/-- The attribute without qualification of types in its arguments. -/
def Attribute.bare (attr : Attribute) : Attribute :=
  { attr with
    arguments := attr.arguments.map fun argument => { argument with value := argument.value.bare } }

/-- The field without qualification of types. -/
def FieldDecl.bare (field : FieldDecl) : FieldDecl :=
  { field with
    type := field.type.bare
    attributes := field.attributes.map Attribute.bare
    initializer := field.initializer.map Expr.bare }

/-- The parameter without qualification of types. -/
def ParamDecl.bare (parameter : ParamDecl) : ParamDecl :=
  { parameter with
    type := parameter.type.bare
    attributes := parameter.attributes.map Attribute.bare }

/-- The method without qualification of types. -/
def MethodDecl.bare (method : MethodDecl) : MethodDecl :=
  { method with
    attributes := method.attributes.map Attribute.bare
    parameters := method.parameters.map ParamDecl.bare
    returnType := method.returnType.bare
    body := method.body.map (·.map Stmt.bare) }

/-- The member without qualification of types. -/
def Member.bare : Member → Member
  | field declared => field declared.bare
  | method declared => method declared.bare
  | other declared => other declared

/-- The declaration without qualification of types. -/
def TypeDecl.bare (decl : TypeDecl) : TypeDecl :=
  { decl with
    baseTypes := decl.baseTypes.map TypeRef.bare
    attributes := decl.attributes.map Attribute.bare
    members := decl.members.map Member.bare }

theorem TypeDecl.fields_bare (decl : TypeDecl) :
    decl.bare.fields = decl.fields.map FieldDecl.bare := by
  simp only [fields, TypeDecl.bare, List.filterMap_map, List.map_filterMap]
  congr 1
  funext member
  cases member <;> rfl

theorem TypeDecl.methods_bare (decl : TypeDecl) :
    decl.bare.methods = decl.methods.map MethodDecl.bare := by
  simp only [methods, TypeDecl.bare, List.filterMap_map, List.map_filterMap]
  congr 1
  funext member
  cases member <;> rfl

theorem TypeDecl.otherMembers_bare (decl : TypeDecl) :
    decl.bare.otherMembers = decl.otherMembers := by
  simp only [otherMembers, TypeDecl.bare, List.filterMap_map]
  congr 1
  funext member
  cases member <;> rfl

theorem Attribute.resolve_bare (attr : Attribute) : attr.bare.resolve = attr.resolve := by
  simp [resolve, Attribute.bare, AttributeArgument.resolve, Function.comp_def, Expr.constant?_bare]

theorem resolve_attributes_bare (attributes : List Attribute) :
    (attributes.map Attribute.bare).map Attribute.resolve = attributes.map Attribute.resolve := by
  simp [Function.comp_def, Attribute.resolve_bare]

theorem findAttribute?_bare (attributes : List Attribute) (name : String) :
    findAttribute? (attributes.map Attribute.bare) name = findAttribute? attributes name := by
  rw [findAttribute?, findAttribute?, resolve_attributes_bare]

theorem hasAttribute_bare (attributes : List Attribute) (name : String) :
    hasAttribute (attributes.map Attribute.bare) name = hasAttribute attributes name := by
  rw [hasAttribute, hasAttribute, findAttribute?_bare]

theorem TypeDecl.derivesFromEffect_bare (decl : TypeDecl) :
    decl.bare.derivesFromEffect = decl.derivesFromEffect := by
  simp [derivesFromEffect, TypeDecl.bare, Function.comp_def, TypeRef.hasShortName_bare]

theorem TypeDecl.hasEffectAttribute_bare (decl : TypeDecl) :
    decl.bare.hasEffectAttribute = decl.hasEffectAttribute :=
  hasAttribute_bare decl.attributes effectAttributeName

theorem TypeDecl.isEffectCandidate_bare (decl : TypeDecl) :
    decl.bare.isEffectCandidate = decl.isEffectCandidate := by
  rw [isEffectCandidate, isEffectCandidate, derivesFromEffect_bare, hasEffectAttribute_bare]

/-! ## Fields -/

namespace FieldDecl

variable (field : FieldDecl)

theorem isTechnique_bare : field.bare.isTechnique = field.isTechnique :=
  field.type.hasShortName_bare techniqueTypeName

theorem isConstant_bare : field.bare.isConstant = field.isConstant :=
  hasAttribute_bare field.attributes constantAttributeName

theorem elementDataType_bare : field.bare.elementDataType = field.elementDataType := by
  simp only [elementDataType, FieldDecl.bare]
  cases field.type with
  | named name => exact TypeRef.dataType_bare (.named name)
  | array element => exact element.dataType_bare
  | pointer element => rfl
  | inferred => rfl

theorem isTexture_bare : field.bare.isTexture = field.isTexture := by
  have harray : field.bare.type.isArray = field.type.isArray := field.type.isArray_bare
  rw [isTexture, isTexture, isConstant_bare, isTechnique_bare, elementDataType_bare, harray]

theorem literal?_bare : field.bare.literal? = field.literal?.map ShaderLiteral.bare := by
  rw [literal?, literal?, isConstant_bare, isTechnique_bare, isTexture_bare, elementDataType_bare]
  split
  · rfl
  · simp only [FieldDecl.bare, Option.map_map]
    rfl

end FieldDecl

theorem scanTextures_bare (fields : List FieldDecl) :
    scanTextures (fields.map FieldDecl.bare) = scanTextures fields := by
  have htexture : FieldDecl.isTexture ∘ FieldDecl.bare = FieldDecl.isTexture :=
    funext FieldDecl.isTexture_bare
  rw [scanTextures_eq, scanTextures_eq, List.filter_map, htexture]
  apply List.ext_getElem?
  intro slot
  simp only [List.getElem?_mapIdx, List.getElem?_map, Option.map_map, Function.comp_def,
    FieldDecl.textureAt, FieldDecl.elementDataType_bare]
  rfl

theorem scanLiterals_bare (fields : List FieldDecl) :
    scanLiterals (fields.map FieldDecl.bare) = (scanLiterals fields).map ShaderLiteral.bare := by
  simp only [scanLiterals, List.filterMap_map, List.map_filterMap, Function.comp_def,
    FieldDecl.literal?_bare]

/-! ## Methods -/

/-- The first result is the bare form of the second, and the same positions are found. -/
structure FoundAlike {α φ : Type} (bareOf : α → α) (bare plain : α × List (Located φ)) : Prop where
  result : bare.1 = bareOf plain.1
  positions : positions bare.2 = positions plain.2

/-- Results with the same value or with faults at the same position. -/
theorem same_or_faults {α : Type} {bare plain : Except Fault α}
    (h : bare.mapError (·.location) = plain.mapError (·.location)) :
    (∃ value, bare = .ok value ∧ plain = .ok value) ∨
      ∃ fault fault', bare = .error fault ∧ plain = .error fault' ∧
        fault.location = fault'.location := by
  cases bare with
  | ok value =>
      cases plain with
      | ok value' => exact .inl ⟨value, rfl, congrArg Except.ok (Except.ok.inj h).symm⟩
      | error fault' => cases h
  | error fault =>
      cases plain with
      | ok value' => cases h
      | error fault' => exact .inr ⟨fault, fault', rfl, rfl, Except.error.inj h⟩

theorem scanParameter_bare (method : MethodDecl) (parameter : ParamDecl) :
    (scanParameter method.bare parameter.bare).mapError (·.location) =
      (scanParameter method parameter).mapError (·.location) := by
  simp only [scanParameter, ParamDecl.bare, TypeRef.isArray_bare, TypeRef.dataType_bare,
    resolve_attributes_bare]
  split
  · rfl
  · split
    · rfl
    · split
      · split
        · rfl
        · split <;> rfl
      · rfl

theorem scanParameters_bare (method : MethodDecl) (parameters : List ParamDecl) :
    FoundAlike id (scanParameters method.bare (parameters.map ParamDecl.bare))
      (scanParameters method parameters) := by
  induction parameters with
  | nil => exact ⟨rfl, rfl⟩
  | cons parameter rest ih =>
      simp only [List.map_cons, scanParameters]
      rcases same_or_faults (scanParameter_bare method parameter) with
        ⟨scanned, hbare, hplain⟩ | ⟨fault, fault', hbare, hplain, hlocation⟩
      · rw [hbare, hplain]
        exact ⟨congrArg (scanned :: ·) ih.result, ih.positions⟩
      · rw [hbare, hplain]
        exact ⟨ih.result, congrArg₂ List.cons hlocation ih.positions⟩

theorem scanMethod_bare (stage : Stage) (method : MethodDecl) :
    FoundAlike ShaderMethod.bare (scanMethod stage method.bare) (scanMethod stage method) := by
  have hparameters := scanParameters_bare method method.parameters
  have hbody : method.bare.body.isNone = method.body.isNone := Option.isNone_map
  have hstmts : method.bare.body.getD [] = (method.body.getD []).map Stmt.bare := by
    rw [MethodDecl.bare]
    cases method.body <;> rfl
  refine ⟨?_, ?_⟩
  · simp only [scanMethod, ShaderMethod.bare, hstmts]
    exact congrArg (ShaderMethod.mk _ stage · _ _) hparameters.result
  · simp only [scanMethod, positions_append, hbody]
    refine congrArg₂ (· ++ ·) ?_ hparameters.positions
    split <;> rfl

theorem MethodDecl.stageTag_bare (method : MethodDecl) :
    method.bare.stageTag = method.stageTag := by
  simp only [stageTag, MethodDecl.bare, hasAttribute_bare]

theorem scanMethods_bare (seen : List String) (methods : List MethodDecl) :
    FoundAlike (List.map ShaderMethod.bare) (scanMethods seen (methods.map MethodDecl.bare))
      (scanMethods seen methods) := by
  induction methods generalizing seen with
  | nil => exact ⟨rfl, rfl⟩
  | cons method rest ih =>
      have hname : method.bare.name = method.name := rfl
      simp only [List.map_cons, scanMethods, method.stageTag_bare, hname]
      cases method.stageTag with
      | untagged => exact ih seen
      | conflicting => exact ⟨(ih seen).result, congrArg (method.location :: ·) (ih seen).positions⟩
      | tagged stage =>
          dsimp only
          split
          · exact ⟨(ih seen).result, congrArg (method.location :: ·) (ih seen).positions⟩
          · have hmethod := scanMethod_bare stage method
            have hrest := ih (method.name :: seen)
            refine ⟨congrArg₂ List.cons hmethod.result hrest.result, ?_⟩
            simp only [positions_append, hmethod.positions, hrest.positions]

/-! ## Constants and techniques -/

theorem scanConstant_bare (field : FieldDecl) (attr : ResolvedAttribute) :
    (scanConstant field.bare attr).mapError (·.location) =
      (scanConstant field attr).mapError (·.location) := by
  simp only [scanConstant, FieldDecl.bare, TypeRef.dataType_bare]
  split
  · rfl
  · split <;> rfl

theorem scanConstants_bare (fields : List FieldDecl) :
    FoundAlike id (scanConstants (fields.map FieldDecl.bare)) (scanConstants fields) := by
  induction fields with
  | nil => exact ⟨rfl, rfl⟩
  | cons field rest ih =>
      have hattribute : findAttribute? field.bare.attributes constantAttributeName =
          findAttribute? field.attributes constantAttributeName :=
        findAttribute?_bare field.attributes constantAttributeName
      simp only [List.map_cons, scanConstants, hattribute]
      cases findAttribute? field.attributes constantAttributeName with
      | none => exact ih
      | some attr =>
          dsimp only
          rcases same_or_faults (scanConstant_bare field attr) with
            ⟨scanned, hbare, hplain⟩ | ⟨fault, fault', hbare, hplain, hlocation⟩
          · rw [hbare, hplain]
            exact ⟨congrArg (scanned :: ·) ih.result, ih.positions⟩
          · rw [hbare, hplain]
            exact ⟨ih.result, congrArg₂ List.cons hlocation ih.positions⟩

theorem techniqueArguments?_bare (field : FieldDecl) :
    techniqueArguments? field.bare = techniqueArguments? field := by
  simp only [techniqueArguments?, FieldDecl.bare]
  cases field.initializer with
  | none => rfl
  | some initializer =>
      simp only [Option.map_some, Option.bind_eq_bind, Option.bind_some,
        Expr.unparenthesized_bare, Expr.rewrittenInside]
      cases initializer.unparenthesized.kind
      case objectCreation type arguments values =>
        simp only [ExprKind.rewritten, rewrittenArguments_eq]
        rcases arguments with - | ⟨vertex, - | ⟨fragment, - | ⟨third, rest⟩⟩⟩
        · rfl
        · rfl
        · simp only [changeEach, Argument.rewritten, Expr.constant?_rewritten]
        · rfl
      all_goals rw [ExprKind.rewritten]

theorem find?_methods_bare (methods : List ShaderMethod) (name : String) :
    (methods.map ShaderMethod.bare).find? (·.name == name) =
      (methods.find? (·.name == name)).map ShaderMethod.bare := by
  rw [List.find?_map]
  rfl

theorem techniqueFaults_bare (methods : List ShaderMethod) (field : FieldDecl) (stage : Stage)
    (name : String) :
    techniqueFaults (methods.map ShaderMethod.bare) field.bare stage name =
      techniqueFaults methods field stage name := by
  simp only [techniqueFaults, find?_methods_bare]
  cases methods.find? (·.name == name) <;> rfl

theorem scanTechnique_bare (methods : List ShaderMethod) (field : FieldDecl) :
    scanTechnique (methods.map ShaderMethod.bare) field.bare = scanTechnique methods field := by
  simp only [scanTechnique, techniqueArguments?_bare, techniqueFaults_bare]
  rfl

theorem scanTechniques_bare (methods : List ShaderMethod) (fields : List FieldDecl) :
    scanTechniques (methods.map ShaderMethod.bare) (fields.map FieldDecl.bare) =
      scanTechniques methods fields := by
  induction fields with
  | nil => rfl
  | cons field rest ih =>
      simp only [List.map_cons, scanTechniques, field.isTechnique_bare, scanTechnique_bare, ih]

/-! ## Models -/

theorem ShaderMethod.refersTo_bare (method : ShaderMethod) :
    method.bare.refersTo = method.refersTo := by
  funext name
  simp only [refersTo, identifiers, ShaderMethod.bare, map_bare_stmts, names_walkStmts]

theorem referringStages_bare (methods : List ShaderMethod) (names : List String) :
    referringStages (methods.map ShaderMethod.bare) names = referringStages methods names := by
  simp only [referringStages, List.any_map, Function.comp_def, ShaderMethod.refersTo_bare]
  rfl

theorem Effect.withStages_bare (effect : Effect) :
    effect.bare.withStages = effect.withStages.bare := by
  simp only [withStages, Effect.bare, referringStages_bare]

theorem completenessFaults_bare (decl : TypeDecl) (methods : List ShaderMethod)
    (techniques : List Technique) :
    completenessFaults decl.bare (methods.map ShaderMethod.bare) techniques =
      completenessFaults decl methods techniques := by
  have htechnique : FieldDecl.isTechnique ∘ FieldDecl.bare = FieldDecl.isTechnique :=
    funext FieldDecl.isTechnique_bare
  simp only [completenessFaults, TypeDecl.fields_bare, List.any_map, htechnique]
  rfl

theorem eq_nil_iff_of_positions {φ : Type} {first second : List (Located φ)}
    (h : positions first = positions second) : first = [] ↔ second = [] := by
  rw [← positions_eq_nil, h, positions_eq_nil]

namespace TypeDecl

theorem scan_bare (decl : TypeDecl) : FoundAlike Effect.bare decl.bare.scan decl.scan := by
  have hmethods := scanMethods_bare [] decl.methods
  have hconstants := scanConstants_bare decl.fields
  constructor
  · simp only [scan, methods_bare, fields_bare, scanTextures_bare, scanLiterals_bare,
      hmethods.result, hconstants.result, scanTechniques_bare, id_eq, ← Effect.withStages_bare]
    rfl
  · simp only [scan, methods_bare, fields_bare, hmethods.result, scanTechniques_bare,
      completenessFaults_bare, positions_append, hmethods.positions, hconstants.positions]

/-- A declaration has a model if it has one without qualification, and then that is the model
without qualification. -/
theorem build_bare (decl : TypeDecl) (built : Effect) :
    decl.bare.build.result = .ok built ↔
      ∃ effect, decl.build.result = .ok effect ∧ effect.bare = built := by
  obtain ⟨hresult, hpositions⟩ := decl.scan_bare
  have hfaults : decl.bare.scan.2 = [] ↔ decl.scan.2 = [] := eq_nil_iff_of_positions hpositions
  simp only [build_eq_ok_iff, decl.isEffectCandidate_bare, Prod.ext_iff, hresult, hfaults]
  constructor
  · rintro ⟨hcandidate, rfl, hnone⟩
    exact ⟨decl.scan.1, ⟨hcandidate, rfl, hnone⟩, rfl⟩
  · rintro ⟨effect, ⟨hcandidate, rfl, hnone⟩, rfl⟩
    exact ⟨hcandidate, rfl, hnone⟩

end TypeDecl

/-! ## Rules for declarations -/

theorem checkEffect_bare (decl : TypeDecl) :
    positions (checkEffect decl.bare) = positions (checkEffect decl) := by
  have hbase : (decl.bare.baseTypes.filter (!·.hasShortName effectBaseName)) =
      (decl.baseTypes.filter (!·.hasShortName effectBaseName)).map TypeRef.bare := by
    simp only [TypeDecl.bare, List.filter_map, Function.comp_def, TypeRef.hasShortName_bare]
  simp only [checkEffect, positions_append, decl.hasEffectAttribute_bare,
    decl.derivesFromEffect_bare, decl.otherMembers_bare, hbase]
  refine congrArg₂ (· ++ ·) (congrArg₂ (· ++ ·) rfl ?_) rfl
  simp only [positions, List.map_map]
  rfl

theorem memberNames_bare (decl : TypeDecl) (effect : Effect) :
    memberNames decl.bare effect.bare = memberNames decl effect := by
  simp only [memberNames, decl.fields_bare, List.map_map]
  rfl

theorem checkMethodNames_bare (members : List String) (effect : Effect) (method : MethodDecl) :
    checkMethodNames members effect.bare method.bare = checkMethodNames members effect method := by
  simp only [checkMethodNames, Effect.method?_bare, Option.isNone_map, MethodDecl.bare,
    List.flatMap_map]
  rfl

theorem checkNames_bare (decl : TypeDecl) (effect : Effect) :
    checkNames decl.bare effect.bare = checkNames decl effect := by
  simp only [checkNames, memberNames_bare, decl.fields_bare, decl.methods_bare, List.flatMap_map,
    checkMethodNames_bare]
  rfl

theorem namedType?_rewritten_inner (e : Expr) (naming : Naming) (places : Places) :
    namedType? (e.rewritten naming places.inner) = namedType? e := by
  rw [Expr.rewritten_inner, namedType?, namedType?, Expr.annotatedTypeName?_rewrittenInside]
  cases e.annotatedTypeName? with
  | some name => rfl
  | none =>
      rw [Expr.rewrittenInside]
      cases e.kind <;> simp only [ExprKind.rewritten]

theorem areConstantValues_rewritten_of {naming : Naming} {arguments : List Argument}
    (h : ∀ argument ∈ arguments, ∀ places,
      isConstantValue (argument.value.rewritten naming places) = isConstantValue argument.value)
    (places : Places) :
    areConstantValues (changeEach (Argument.rewritten naming) places arguments) =
      areConstantValues arguments := by
  induction arguments generalizing places with
  | nil => rfl
  | cons argument rest ih =>
      obtain ⟨name, mode, value⟩ := argument
      rw [List.forall_mem_cons] at h
      rw [changeEach, Argument.rewritten, areConstantValues, areConstantValues, h.1, ih h.2]

theorem isConstantValue_enclosed (e : Expr) : isConstantValue e.enclosed = isConstantValue e := by
  rw [Expr.enclosed, isConstantValue]

theorem isConstantValue_rewritten (e : Expr) (naming : Naming) (places : Places) :
    isConstantValue (e.rewritten naming places) = isConstantValue e := by
  induction e using Expr.induction_parts generalizing places with
  | step e hpart hargument =>
      have hvalue : (e.rewrittenInside naming places).constant? = e.constant? := by
        rw [← Expr.apply_rewritten Expr.constant?_enclosed, Expr.constant?_rewritten]
      have hscalar : isScalarConstant (e.rewrittenInside naming places) = isScalarConstant e := by
        rw [isScalarConstant, isScalarConstant, hvalue]
      have hconstant : (e.rewrittenInside naming places).isConstant = e.isConstant := by
        rw [Expr.isConstant, Expr.isConstant, hvalue]
      rw [Expr.apply_rewritten isConstantValue_enclosed]
      obtain ⟨kind, location, notes⟩ := e
      cases kind
      case parenthesized inner =>
        simp only [Expr.rewrittenInside, ExprKind.rewritten, isConstantValue]
        exact hpart inner (by simp [ExprKind.parts]) _
      case objectCreation type arguments initializer =>
        cases initializer with
        | none =>
            have harguments := areConstantValues_rewritten_of
              fun argument (ha : argument ∈ arguments) =>
                hargument argument (by simp [ExprKind.parts, ha])
            simp only [Expr.rewrittenInside, ExprKind.rewritten, rewrittenArguments_eq,
              rewrittenOptionalValues, isConstantValue, Naming.dataType_type, harguments]
        | some values =>
            simpa only [Expr.rewrittenInside, ExprKind.rewritten, rewrittenOptionalValues,
              isConstantValue] using hscalar
      case memberAccess target member =>
        simp only [Expr.rewrittenInside, ExprKind.rewritten, isConstantValue,
          namedType?_rewritten_inner]
      case unary op operand =>
        have hoperand := hpart operand (by simp [ExprKind.parts])
        simp only [Expr.rewrittenInside, ExprKind.rewritten] at hscalar hconstant ⊢
        cases op <;> simp only [isConstantValue, hoperand, hconstant, hscalar]
      all_goals
        simpa only [Expr.rewrittenInside, ExprKind.rewritten, isConstantValue] using hscalar

theorem checkLiteral_bare (decl : TypeDecl) (literal : ShaderLiteral) :
    positions (checkLiteral decl.bare literal.bare) = positions (checkLiteral decl literal) := by
  have htype : literal.bare.type = literal.type := rfl
  have hconstant : literal.bare.value.constant? = literal.value.constant? :=
    literal.value.constant?_bare
  have helements : isConstantValue ∘ Expr.bare = isConstantValue :=
    funext fun e => isConstantValue_rewritten e .bare .none
  simp only [checkLiteral, htype, hconstant, literal.elements?_bare]
  split
  · rfl
  · split
    · rfl
    · cases literal.elements? with
      | some values =>
          simp only [Option.map_some, List.all_map, helements]
          rfl
      | none =>
          have hvalue : isConstantValue literal.bare.value = isConstantValue literal.value :=
            isConstantValue_rewritten literal.value .bare .none
          simp only [Option.map_none, hvalue]
          rfl

theorem checkLiterals_bare (decl : TypeDecl) (effect : Effect) :
    positions (checkLiterals decl.bare effect.bare) = positions (checkLiterals decl effect) :=
  positions_flatMap_bare fun literal _ => checkLiteral_bare decl literal

/-! ## Return types -/

theorem TypeRef.isVoid_bare {type : TypeRef} (h : type.isVoid = true) :
    type.bare.isVoid = true := by
  cases type with
  | named name =>
      have hname : name = "void" ∨ name = "Void" := by simpa [isVoid] using h
      rcases hname with rfl | rfl <;> rfl
  | array element => cases h
  | pointer element => cases h
  | inferred => cases h

/-- Every method that shares its name with a shader method has a return type that is written as
void, which a qualified name is not. -/
def TypeDecl.ReturnsVoid (decl : TypeDecl) (effect : Effect) : Prop :=
  ∀ method ∈ decl.methods, (effect.method? method.name).isSome → method.returnType.isVoid = true

theorem checkMethod_bare {decl : MethodDecl} (h : decl.returnType.isVoid = true)
    (method : ShaderMethod) : checkMethod decl.bare method.bare = checkMethod decl method := by
  have hbare : decl.bare.returnType.isVoid = true := TypeRef.isVoid_bare h
  simp only [checkMethod, h, hbare, if_true]
  simp only [MethodDecl.bare, List.flatMap_map]
  rfl

/-- The methods keep the rules if they keep them without qualification and return nothing. -/
theorem checkMethods_bare (decl : TypeDecl) (effect : Effect) :
    checkMethods decl effect = [] ↔
      checkMethods decl.bare effect.bare = [] ∧ decl.ReturnsVoid effect := by
  simp only [checkMethods_eq_nil, decl.methods_bare, List.forall_mem_map, Effect.method?_bare,
    Option.map_eq_some_iff, forall_exists_index, and_imp, forall_apply_eq_imp_iff₂]
  constructor
  · intro h
    have hvoid : decl.ReturnsVoid effect := by
      intro method hm hshader
      obtain ⟨shader, hs⟩ := Option.isSome_iff_exists.mp hshader
      exact (checkMethod_eq_nil.mp (h method hm shader hs)).1
    refine ⟨fun method hm shader hs => ?_, hvoid⟩
    rw [checkMethod_bare (hvoid method hm (Option.isSome_of_eq_some hs))]
    exact h method hm shader hs
  · rintro ⟨h, hvoid⟩ method hm shader hs
    rw [← checkMethod_bare (hvoid method hm (Option.isSome_of_eq_some hs))]
    exact h method hm shader hs

/-! ## Validity -/

theorem bodyFindings_bare (decl : TypeDecl) (effect : Effect) :
    positions (bodyFindings decl.bare effect.bare) = positions (bodyFindings decl effect) := by
  rw [bodyFindings, bodyFindings, memberNames_bare]
  exact positions_flatMap_bare fun method _ => checkBody_bare _ effect method

/-- An effect is valid if it is without qualification and its methods return nothing. -/
theorem isValid_bare (decl : TypeDecl) (effect : Effect) :
    isValid decl effect = true ↔
      isValid decl.bare effect.bare = true ∧ decl.ReturnsVoid effect := by
  simp only [isValid_eq, declarationFindings, Bool.and_eq_true, List.isEmpty_iff,
    List.append_eq_nil_iff, eq_nil_iff_of_positions (checkEffect_bare decl), checkNames_bare,
    eq_nil_iff_of_positions (checkLiterals_bare decl effect), checkMethods_bare decl effect,
    eq_nil_iff_of_positions (bodyFindings_bare decl effect)]
  tauto

/-- A declaration that is another one but for qualification has a model with the other's. -/
theorem exists_build_of_bare_eq {decl decl' : TypeDecl} {effect : Effect}
    (h : decl.bare = decl'.bare) (hb : decl.build.result = .ok effect) :
    ∃ effect', decl'.build.result = .ok effect' ∧ effect'.bare = effect.bare := by
  rw [← decl'.build_bare, ← h, decl.build_bare]
  exact ⟨effect, hb, rfl⟩

/-- The namespaces before the names of types do not count. Take two declarations that are the same
without them, with constants converted to types that are written alike. Both have models or neither
has. The models are valid alike if the return types are void in both or not in both; otherwise the
one without void is not valid. Every method has the same text in every language, if it has one. -/
theorem qualified_types_mean_the_same {decl decl' : TypeDecl} (h : decl.bare = decl'.bare) :
    ((∃ effect, decl.build.result = .ok effect) ↔ ∃ effect', decl'.build.result = .ok effect') ∧
      ∀ effect effect', decl.build.result = .ok effect → decl'.build.result = .ok effect' →
        ((decl.ReturnsVoid effect ↔ decl'.ReturnsVoid effect') →
          isValid decl effect = isValid decl' effect') ∧
        (¬ decl.ReturnsVoid effect → isValid decl effect = false) ∧
        ∀ dialect method shader, effect.compile dialect method = .ok shader ↔
          effect'.compile dialect method = .ok shader := by
  constructor
  · constructor
    · rintro ⟨effect, hb⟩
      obtain ⟨effect', hb', -⟩ := exists_build_of_bare_eq h hb
      exact ⟨effect', hb'⟩
    · rintro ⟨effect', hb'⟩
      obtain ⟨effect, hb, -⟩ := exists_build_of_bare_eq h.symm hb'
      exact ⟨effect, hb⟩
  · intro effect effect' hb hb'
    have hbare : effect'.bare = effect.bare := by
      obtain ⟨built, hbuilt, hbare⟩ := exists_build_of_bare_eq h hb
      rw [hb'] at hbuilt
      cases hbuilt
      exact hbare
    refine ⟨?_, ?_, ?_⟩
    · intro hvoid
      rw [Bool.eq_iff_iff, isValid_bare decl, isValid_bare decl', h, hbare, hvoid]
    · intro hother
      rw [Bool.eq_false_iff]
      intro hvalid
      exact hother ((isValid_bare decl effect).mp hvalid).2
    · intro dialect method shader
      rw [← (effect.compile_bare dialect method).eq_ok_iff,
        ← (effect'.compile_bare dialect method).eq_ok_iff, hbare]

/-! ## An effect in a namespace -/

/-- An effect that fades colors. Given are how the names of its types are written, the return type
of its shaders, and a number type that the index of its output is cast to. -/
def fading (written : String → String) (returned number : String) : TypeDecl :=
  let type (name : String) : TypeRef := .named (written name)
  let strength : Expr := ⟨.cast (type "Single") (.named "Strength"), {}, {}⟩
  let faded : Expr := ⟨.objectCreation (type "Vector4")
    [{ value := .named "tone" }, { value := strength }] none, {}, {}⟩
  { name := "Fading"
    modifiers := [.publicAccess]
    baseTypes := [type "Effect"]
    members := [
      .field { name := "Strength", type := type "Single", attributes := [{ name := "Constant" }] },
      .field {
        name := "Main"
        type := type "Technique"
        initializer := some ⟨.objectCreation (type "Technique")
          [{ value := ⟨.literal (.string "Project"), {}, {}⟩ },
            { value := ⟨.literal (.string "Fade"), {}, {}⟩ }] none, {}, {}⟩ },
      .method {
        name := "Project"
        attributes := [{ name := "VertexShader" }]
        parameters := [
          { name := "corner", type := type "Vector4", attributes := [{ name := "Position" }] },
          { name := "placed", type := type "Vector4", mode := .out
            attributes := [{ name := "Position" }] }]
        returnType := .named returned
        body := some [
          ⟨.expression ⟨.assignment .assign (.named "placed") (.named "corner"), {}, {}⟩, {}⟩] },
      .method {
        name := "Fade"
        attributes := [{ name := "FragmentShader" }]
        parameters := [
          { name := "tone", type := type "Vector3", attributes := [{ name := "Color" }] },
          { name := "shade", type := type "Vector4", mode := .out
            attributes := [{
              name := "Color"
              arguments := [{
                value := ⟨.cast (.named number) ⟨.literal (.int 0), {}, {}⟩, {}, {}⟩ }] }] }]
        returnType := .named returned
        body := some [
          ⟨.declaration ⟨type "Vector4", [{ name := "faded", initializer := some faded }]⟩, {}⟩,
          ⟨.expression ⟨.assignment .assign (.named "shade") (.named "faded"), {}, {}⟩, {}⟩] }] }

/-- The model of the effect. -/
def fadingEffect (written : String → String) (returned number : String) : Effect :=
  (fading written returned number).scan.1

theorem bare_fading {written : String → String} {returned number returned' number' : String}
    (hw : ∀ name, unqualified (written name) = unqualified name)
    (hr : unqualified returned = unqualified returned')
    (hn : (TypeRef.named number).bareCast (some (.int 0)) =
      (TypeRef.named number').bareCast (some (.int 0))) :
    (fading written returned number).bare = (fading id returned' number').bare := by
  simp [fading, TypeDecl.bare, Member.bare, FieldDecl.bare, MethodDecl.bare, ParamDecl.bare,
    Attribute.bare, TypeRef.bare, TypeRef.bareCast_none, Expr.bare, Expr.rewritten_none,
    Expr.rewrittenInside, Stmt.bare, Stmt.rewritten, Naming.type, Naming.castType, Naming.notes,
    rewrittenDeclarators, rewrittenArguments, rewrittenOption, rewrittenOptionalValues, Expr.named,
    Expr.constant?, hw, hr, hn]

theorem returnsVoid_fading (written : String → String) (number : String) (effect : Effect) :
    (fading written "void" number).ReturnsVoid effect := by
  simp [TypeDecl.ReturnsVoid, TypeDecl.methods, fading, TypeRef.isVoid]

/-- A name with the namespace of the engine. -/
def inEngine (name : String) : String :=
  "Engine" ++ "." ++ name

theorem build_fading :
    (fading id "void" "Int32").build.result = .ok (fadingEffect id "void" "Int32") := by
  rfl

theorem build_fading_inEngine :
    (fading inEngine "void" "System.Int32").build.result =
      .ok (fadingEffect inEngine "void" "System.Int32") := by
  rfl

theorem isValid_fading :
    isValid (fading id "void" "Int32") (fadingEffect id "void" "Int32") = true := by
  decide +kernel

/-- The effect is what it is without namespaces. -/
theorem fading_inEngine_means_the_same :
    (fading id "void" "Int32").bare = (fading inEngine "void" "System.Int32").bare ∧
      isValid (fading inEngine "void" "System.Int32")
        (fadingEffect inEngine "void" "System.Int32") = true ∧
      ∀ dialect method shader,
        (fadingEffect id "void" "Int32").compile dialect method = .ok shader ↔
          (fadingEffect inEngine "void" "System.Int32").compile dialect method = .ok shader := by
  have hbare : (fading inEngine "void" "System.Int32").bare = (fading id "void" "Int32").bare :=
    bare_fading (unqualified_qualified "Engine") rfl rfl
  obtain ⟨-, halike⟩ := qualified_types_mean_the_same hbare.symm
  obtain ⟨hvalid, -, hcompile⟩ := halike _ _ build_fading build_fading_inEngine
  have hsame := hvalid (iff_of_true (returnsVoid_fading _ _ _) (returnsVoid_fading _ _ _))
  exact ⟨hbare.symm, hsame.symm.trans isValid_fading, hcompile⟩

/-- A return type with its namespace is not taken for void. -/
theorem qualified_void_not_valid :
    (fading id "System.Void" "Int32").bare = (fading id "Void" "Int32").bare ∧
      (fading id "System.Void" "Int32").build.result =
        .ok (fadingEffect id "System.Void" "Int32") ∧
      (fading id "Void" "Int32").build.result = .ok (fadingEffect id "Void" "Int32") ∧
      isValid (fading id "System.Void" "Int32") (fadingEffect id "System.Void" "Int32") = false ∧
      isValid (fading id "Void" "Int32") (fadingEffect id "Void" "Int32") = true :=
  ⟨bare_fading (fun _ => rfl) rfl rfl, rfl, rfl, by decide +kernel, by decide +kernel⟩

/-- An index that is cast to a number type with its namespace is not converted. -/
theorem qualified_conversion_builds :
    (fading id "void" "Single").build.result = .error (.structural "Fading" 1) ∧
      (fading id "void" "System.Single").build.result =
        .ok (fadingEffect id "void" "System.Single") :=
  ⟨rfl, rfl⟩

end ShaderEffect
