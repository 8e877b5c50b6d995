import ShaderEffect.Proofs.Build
import ShaderEffect.Proofs.Coverage
import ShaderEffect.Proofs.RewrittenText

/-!
# Parentheses are transparent

An effect stays what it is when expressions in its shader bodies are put in parentheses. The
declaration with more parentheses has a model too, with the same problems in it, and the same methods
of it are compiled in each language.
-/

namespace ShaderEffect

/-! ## Effects -/

/-- The statements with parentheses at the places. -/
def enclosedStmts (places : Places) (stmts : List Stmt) : List Stmt :=
  changeEach (Stmt.rewritten .kept) places stmts

/-- The method with parentheses at the places in its body, given for each name of a method. -/
def ShaderMethod.enclosedAt (bodies : String → Places) (method : ShaderMethod) : ShaderMethod :=
  { method with body := enclosedStmts (bodies method.name) method.body }

/-- The effect with parentheses in the bodies of its methods. -/
def Effect.enclosedAt (bodies : String → Places) (effect : Effect) : Effect :=
  { effect with methods := effect.methods.map (ShaderMethod.enclosedAt bodies) }

theorem find?_methods_enclosedAt (bodies : String → Places) (methods : List ShaderMethod)
    (name : String) :
    (methods.map (ShaderMethod.enclosedAt bodies)).find? (·.name == name) =
      (methods.find? (·.name == name)).map (ShaderMethod.enclosedAt bodies) := by
  rw [List.find?_map]
  rfl

theorem Effect.method?_enclosedAt (bodies : String → Places) (effect : Effect) (name : String) :
    (effect.enclosedAt bodies).method? name =
      (effect.method? name).map (ShaderMethod.enclosedAt bodies) :=
  find?_methods_enclosedAt bodies effect.methods name

/-- No name refers to the body of a method. -/
theorem Effect.matches_enclosedAt (bodies : String → Places) (effect : Effect)
    (method : ShaderMethod) :
    Scope.Matches { effect := effect.enclosedAt bodies, method := method.enclosedAt bodies }
      { effect, method } where
  locals := rfl
  name := rfl
  stage := rfl
  parameters := rfl
  constants := rfl
  literals _ := rfl
  textures := rfl

/-- The same rules are broken in a body with parentheses, in the same way. -/
theorem checkBody_enclosedAt (members : List String) (bodies : String → Places) (effect : Effect)
    (method : ShaderMethod) :
    checkBody members (effect.enclosedAt bodies) (method.enclosedAt bodies) =
      checkBody members effect method :=
  Naming.eq_of_view_kept (checkStmts_rewritten members method.body
    (effect.matches_enclosedAt bodies method) (bodies method.name)).findings

/-! ## Texts -/

namespace Dialect

variable (dialect : Dialect) (bodies : String → Places) (effect : Effect) (method : ShaderMethod)

/-- Literals are outside the bodies, and no name in them refers to a body. -/
theorem succeeds_writeLiteral_enclosedAt (literal : ShaderLiteral) :
    Succeeds (dialect.writeLiteral
        { effect := effect.enclosedAt bodies, method := method.enclosedAt bodies } literal) ↔
      Succeeds (dialect.writeLiteral { effect, method } literal) := by
  rw [succeeds_writeLiteral, succeeds_writeLiteral]
  refine and_congr_left fun _ => forall₂_congr fun e _ => ?_
  have hstage : (method.enclosedAt bodies).stage = method.stage := rfl
  have hsame : Scope.SameReferences
      { effect := effect.enclosedAt bodies, method := method.enclosedAt bodies }
      { effect, method } e := fun _ _ _ _ => rfl
  exact Scope.throughout_congr (Scope.expressible_congr hstage) e hsame

theorem succeeds_body_enclosedAt :
    Succeeds (dialect.writeStmts 1
        { effect := effect.enclosedAt bodies, method := method.enclosedAt bodies }
        (method.enclosedAt bodies).body) ↔
      Succeeds (dialect.writeStmts 1 { effect, method } method.body) :=
  (dialect.writeStmts_rewritten method.body 1 (effect.matches_enclosedAt bodies method)
    False.elim).succeeds_iff

end Dialect

/-- Of two built effects that differ in parentheses, both or neither can compile a method. -/
theorem Effect.succeeds_compile_enclosedAt {decl decl' : TypeDecl} {effect : Effect}
    {bodies : String → Places} (hb : decl.build.result = .ok effect)
    (hb' : decl'.build.result = .ok (effect.enclosedAt bodies)) (dialect : Dialect)
    (name : String) :
    Succeeds ((effect.enclosedAt bodies).compile dialect name) ↔
      Succeeds (effect.compile dialect name) := by
  cases hm : effect.method? name with
  | none => simp [compile, Effect.method?_enclosedAt, hm]
  | some method =>
      have hmem : method ∈ effect.methods := List.mem_of_find?_eq_some hm
      have hmem' : method.enclosedAt bodies ∈ (effect.enclosedAt bodies).methods :=
        List.mem_map_of_mem hmem
      obtain rfl : method.name = name := by simpa using List.find?_some hm
      let scope' : Scope :=
        { effect := effect.enclosedAt bodies, method := method.enclosedAt bodies }
      calc Succeeds ((effect.enclosedAt bodies).compile dialect method.name)
          ↔ (∀ literal ∈ effect.literals, Succeeds (dialect.writeLiteral scope' literal)) ∧
              Succeeds (dialect.writeStmts 1 scope' (method.enclosedAt bodies).body) :=
            succeeds_compile hb' hmem'
        _ ↔ (∀ literal ∈ effect.literals,
                Succeeds (dialect.writeLiteral { effect, method } literal)) ∧
              Succeeds (dialect.writeStmts 1 { effect, method } method.body) :=
            and_congr (forall₂_congr fun literal _ =>
                dialect.succeeds_writeLiteral_enclosedAt bodies effect method literal)
              (dialect.succeeds_body_enclosedAt bodies effect method)
        _ ↔ Succeeds (effect.compile dialect method.name) := (succeeds_compile hb hmem).symm

/-! ## Identifiers -/

theorem ShaderMethod.identifiers_enclosedAt (bodies : String → Places) (method : ShaderMethod) :
    (method.enclosedAt bodies).identifiers = method.identifiers := by
  rw [identifiers, identifiers]
  exact names_walkStmts method.body (bodies method.name)

theorem ShaderMethod.refersTo_enclosedAt (bodies : String → Places) (method : ShaderMethod) :
    (method.enclosedAt bodies).refersTo = method.refersTo := by
  funext name
  rw [refersTo, refersTo, identifiers_enclosedAt]

/-! ## Declarations -/

/-- The method with parentheses at the places in its body, given for each name of a method. A method
that is no shader stays as it is. -/
def MethodDecl.enclosedAt (bodies : String → Places) (method : MethodDecl) : MethodDecl :=
  if method.stageTag = .untagged then method
  else { method with body := method.body.map (enclosedStmts (bodies method.name)) }

/-- The member with parentheses in its body, if it is a shader. -/
def Member.enclosedAt (bodies : String → Places) : Member → Member
  | method declared => method (declared.enclosedAt bodies)
  | field declared => field declared
  | other declared => other declared

/-- The declaration with parentheses in its shader bodies. -/
def TypeDecl.enclosedAt (bodies : String → Places) (decl : TypeDecl) : TypeDecl :=
  { decl with members := decl.members.map (Member.enclosedAt bodies) }

/-- Only the body of a method changes. -/
theorem MethodDecl.exists_enclosedAt_eq (bodies : String → Places) (method : MethodDecl) :
    ∃ body, method.enclosedAt bodies = { method with body } := by
  rw [MethodDecl.enclosedAt]
  split
  · exact ⟨method.body, rfl⟩
  · exact ⟨_, rfl⟩

section

variable (bodies : String → Places) (decl : TypeDecl)

theorem TypeDecl.fields_enclosedAt : (decl.enclosedAt bodies).fields = decl.fields := by
  simp only [fields, TypeDecl.enclosedAt, List.filterMap_map]
  congr 1
  funext member
  cases member <;> rfl

theorem TypeDecl.methods_enclosedAt :
    (decl.enclosedAt bodies).methods = decl.methods.map (MethodDecl.enclosedAt bodies) := by
  simp only [methods, TypeDecl.enclosedAt, List.filterMap_map, List.map_filterMap]
  congr 1
  funext member
  cases member <;> rfl

theorem TypeDecl.otherMembers_enclosedAt :
    (decl.enclosedAt bodies).otherMembers = decl.otherMembers := by
  simp only [otherMembers, TypeDecl.enclosedAt, List.filterMap_map]
  congr 1
  funext member
  cases member <;> rfl

end

/-! ## Models -/

section

variable (bodies : String → Places)

theorem scanParameters_body (method : MethodDecl) (body : Option (List Stmt))
    (parameters : List ParamDecl) :
    scanParameters { method with body } parameters = scanParameters method parameters := by
  induction parameters with
  | nil => rfl
  | cons parameter rest ih =>
      rw [scanParameters, scanParameters, ih]
      rfl

theorem scanMethod_enclosedAt (stage : Stage) (method : MethodDecl)
    (h : method.stageTag ≠ .untagged) :
    scanMethod stage (method.enclosedAt bodies) =
      ((scanMethod stage method).1.enclosedAt bodies, (scanMethod stage method).2) := by
  rw [MethodDecl.enclosedAt, if_neg h]
  simp only [scanMethod, scanParameters_body, ShaderMethod.enclosedAt]
  cases method.body <;> rfl

theorem scanMethods_enclosedAt (seen : List String) (methods : List MethodDecl) :
    scanMethods seen (methods.map (MethodDecl.enclosedAt bodies)) =
      ((scanMethods seen methods).1.map (ShaderMethod.enclosedAt bodies),
        (scanMethods seen methods).2) := by
  induction methods generalizing seen with
  | nil => rfl
  | cons method rest ih =>
      obtain ⟨body, hbody⟩ := method.exists_enclosedAt_eq bodies
      have htag : (method.enclosedAt bodies).stageTag = method.stageTag := by rw [hbody]; rfl
      have hname : (method.enclosedAt bodies).name = method.name := by rw [hbody]
      have hlocation : (method.enclosedAt bodies).location = method.location := by rw [hbody]
      simp only [List.map_cons, scanMethods, htag, hname, hlocation]
      cases ht : method.stageTag with
      | untagged => exact ih seen
      | conflicting => simp only [ih]
      | tagged stage =>
          -- a repeated name is a fault in both, and any other method is a shader
          have hmethod := scanMethod_enclosedAt bodies stage method (by simp [ht])
          simp only [ih, hmethod]
          split <;> rfl

theorem scanTechnique_enclosedAt (methods : List ShaderMethod) (field : FieldDecl) :
    scanTechnique (methods.map (ShaderMethod.enclosedAt bodies)) field =
      scanTechnique methods field := by
  have hfaults (stage : Stage) (name : String) :
      techniqueFaults (methods.map (ShaderMethod.enclosedAt bodies)) field stage name =
        techniqueFaults methods field stage name := by
    simp only [techniqueFaults, find?_methods_enclosedAt]
    cases methods.find? (·.name == name) <;> rfl
  simp only [scanTechnique, hfaults]

theorem scanTechniques_enclosedAt (methods : List ShaderMethod) (fields : List FieldDecl) :
    scanTechniques (methods.map (ShaderMethod.enclosedAt bodies)) fields =
      scanTechniques methods fields := by
  induction fields with
  | nil => rfl
  | cons field rest ih => simp only [scanTechniques, scanTechnique_enclosedAt, ih]

theorem completenessFaults_enclosedAt (decl : TypeDecl) (methods : List ShaderMethod)
    (techniques : List Technique) :
    completenessFaults (decl.enclosedAt bodies) (methods.map (ShaderMethod.enclosedAt bodies))
        techniques = completenessFaults decl methods techniques := by
  simp only [completenessFaults, TypeDecl.fields_enclosedAt, List.any_map]
  rfl

theorem referringStages_enclosedAt (methods : List ShaderMethod) (names : List String) :
    referringStages (methods.map (ShaderMethod.enclosedAt bodies)) names =
      referringStages methods names := by
  simp only [referringStages, List.any_map, Function.comp_def, ShaderMethod.refersTo_enclosedAt]
  rfl

theorem Effect.withStages_enclosedAt (effect : Effect) :
    (effect.enclosedAt bodies).withStages = effect.withStages.enclosedAt bodies := by
  simp only [withStages, Effect.enclosedAt, referringStages_enclosedAt]

theorem TypeDecl.scan_enclosedAt (decl : TypeDecl) :
    (decl.enclosedAt bodies).scan = (decl.scan.1.enclosedAt bodies, decl.scan.2) := by
  simp only [scan, methods_enclosedAt, fields_enclosedAt, scanMethods_enclosedAt,
    scanTechniques_enclosedAt, completenessFaults_enclosedAt, ← Effect.withStages_enclosedAt]
  rfl

/-- The declaration with parentheses has a model if the declaration has one: the model with
parentheses. -/
theorem TypeDecl.build_enclosedAt {decl : TypeDecl} {effect : Effect}
    (h : decl.build.result = .ok effect) :
    (decl.enclosedAt bodies).build.result = .ok (effect.enclosedAt bodies) := by
  obtain ⟨hcandidate, hscan⟩ := build_eq_ok_iff.mp h
  rw [build_eq_ok_iff, scan_enclosedAt, hscan]
  exact ⟨hcandidate, rfl⟩

end

/-! ## Problems -/

section

variable (bodies : String → Places) (decl : TypeDecl) (effect : Effect)

theorem memberNames_enclosedAt :
    memberNames (decl.enclosedAt bodies) (effect.enclosedAt bodies) = memberNames decl effect := by
  simp only [memberNames, decl.fields_enclosedAt]
  rfl

theorem checkMethodNames_enclosedAt (members : List String) (method : MethodDecl) :
    checkMethodNames members (effect.enclosedAt bodies) (method.enclosedAt bodies) =
      checkMethodNames members effect method := by
  obtain ⟨body, hbody⟩ := method.exists_enclosedAt_eq bodies
  rw [hbody]
  simp only [checkMethodNames, Effect.method?_enclosedAt, Option.isNone_map]

theorem checkMethods_enclosedAt :
    checkMethods (decl.enclosedAt bodies) (effect.enclosedAt bodies) =
      checkMethods decl effect := by
  simp only [checkMethods, decl.methods_enclosedAt, List.flatMap_map]
  congr 1
  funext method
  obtain ⟨body, hbody⟩ := method.exists_enclosedAt_eq bodies
  rw [hbody]
  simp only [Effect.method?_enclosedAt]
  cases effect.method? method.name <;> rfl

theorem declarationFindings_enclosedAt :
    declarationFindings (decl.enclosedAt bodies) (effect.enclosedAt bodies) =
      declarationFindings decl effect := by
  have heffect : checkEffect (decl.enclosedAt bodies) = checkEffect decl := by
    simp only [checkEffect, decl.otherMembers_enclosedAt]
    rfl
  have hnames : checkNames (decl.enclosedAt bodies) (effect.enclosedAt bodies) =
      checkNames decl effect := by
    simp only [checkNames, memberNames_enclosedAt, decl.fields_enclosedAt,
      decl.methods_enclosedAt, List.flatMap_map, checkMethodNames_enclosedAt]
    rfl
  have hliteral : checkLiteral (decl.enclosedAt bodies) = checkLiteral decl := by
    funext literal
    simp only [checkLiteral, decl.fields_enclosedAt]
  have hliterals : checkLiterals (decl.enclosedAt bodies) (effect.enclosedAt bodies) =
      checkLiterals decl effect := by
    rw [checkLiterals, checkLiterals, hliteral]
    rfl
  simp only [declarationFindings, heffect, hnames, hliterals, checkMethods_enclosedAt]

theorem checkUsage_enclosedAt :
    checkUsage (decl.enclosedAt bodies) (effect.enclosedAt bodies) = checkUsage decl effect := by
  simp only [checkUsage, isInitialized, decl.fields_enclosedAt, Effect.enclosedAt, List.filter_map,
    List.map_map]
  rfl

theorem bodyFindings_enclosedAt :
    bodyFindings (decl.enclosedAt bodies) (effect.enclosedAt bodies) = bodyFindings decl effect := by
  rw [bodyFindings, bodyFindings, memberNames_enclosedAt]
  simp only [Effect.enclosedAt, List.flatMap_map]
  congr 1
  funext method
  exact checkBody_enclosedAt _ bodies effect method

end

/-- Parentheses are transparent. Take a declaration that has a model, and put any expressions of its
shader bodies in parentheses, apart from callees and targets of member accesses. The declaration then
has the model with these parentheses. The two models are valid alike, with the same diagnostics, and
the same methods of them are compiled in every language. -/
theorem parentheses_change_nothing {decl : TypeDecl} {effect : Effect}
    (h : decl.build.result = .ok effect) (bodies : String → Places) :
    (decl.enclosedAt bodies).build.result = .ok (effect.enclosedAt bodies) ∧
      isValid (decl.enclosedAt bodies) (effect.enclosedAt bodies) = isValid decl effect ∧
      validationDiagnostics (decl.enclosedAt bodies) (effect.enclosedAt bodies) =
        validationDiagnostics decl effect ∧
      ∀ dialect name, Succeeds ((effect.enclosedAt bodies).compile dialect name) ↔
        Succeeds (effect.compile dialect name) := by
  have hbuild := TypeDecl.build_enclosedAt bodies h
  refine ⟨hbuild, ?_, ?_, Effect.succeeds_compile_enclosedAt h hbuild⟩
  · rw [isValid_eq, isValid_eq, declarationFindings_enclosedAt, bodyFindings_enclosedAt]
  · rw [validationDiagnostics_eq, validationDiagnostics_eq, declarationFindings_enclosedAt,
      checkUsage_enclosedAt, bodyFindings_enclosedAt]

/-- The texture at coordinates, multiplied by the tint. -/
def tintedSample (coordinates : Expr) : List Stmt :=
  let product : Expr := ⟨.binary .mul (imageSampleAt coordinates) (.named "Tint"), {}, {}⟩
  [⟨.expression ⟨.assignment .assign (.named "shade") product, {}, {}⟩, {}⟩]

/-- The place of the coordinates in that body. -/
def coordinatesPlace : String → Places :=
  fun _ path => path == [0, 0, 1, 0, 1, 0]

theorem enclosedCoordinates_change_nothing :
    (tinting (tintedSample (.named "uv"))).enclosedAt coordinatesPlace =
        tinting (tintedSample (Expr.named "uv").enclosed) ∧
      (tinting (tintedSample (Expr.named "uv").enclosed)).build.result =
        .ok ((tintingEffect (tintedSample (.named "uv"))).enclosedAt coordinatesPlace) ∧
      isValid (tinting (tintedSample (Expr.named "uv").enclosed))
        ((tintingEffect (tintedSample (.named "uv"))).enclosedAt coordinatesPlace) = true ∧
      Succeeds (((tintingEffect (tintedSample (.named "uv"))).enclosedAt coordinatesPlace).compile
        .hlsl "Shade") := by
  have hvalid : isValid (tinting (tintedSample (.named "uv")))
      (tintingEffect (tintedSample (.named "uv"))) = true := rfl
  have hcompiled : Succeeds ((tintingEffect (tintedSample (.named "uv"))).compile .hlsl "Shade") :=
    ⟨_, rfl⟩
  obtain ⟨hbuild, hsame, -, hcompile⟩ :=
    parentheses_change_nothing (build_tinting (tintedSample (.named "uv"))) coordinatesPlace
  exact ⟨rfl, hbuild, hsame.trans hvalid, (hcompile .hlsl "Shade").mpr hcompiled⟩

end ShaderEffect
