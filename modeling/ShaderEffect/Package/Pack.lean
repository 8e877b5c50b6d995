import ShaderEffect.Check
import ShaderEffect.Package.Asset
import ShaderEffect.Package.FileTree
import ShaderEffect.Package.Wrapper
import ShaderEffect.Shader.Unit

/-!
# Packing

Take every effect of a source file through validation and compilation, and write one asset per
shader method. What is to be written follows from the declaration alone; only then files are
touched. Effects do not depend on each other: an effect with errors is skipped, and the others are
still packed.
-/

namespace ShaderEffect

/-! ## Options -/

/-- How effects are packed. -/
structure PackOptions where
  /-- The directory that assets are written to. -/
  outputDirectory : String := "."
  glslVersion : GlslVersion := .v330
  /-- Whether the effects of a file may be packed at the same time. -/
  parallel : Bool := true

open Json (Decoder Input)

def GlslVersion.ofJson? : Decoder GlslVersion := Input.oneOf? GlslVersion.all GlslVersion.tag

def PackOptions.ofJson? (input : Input) : Option PackOptions := do
  let default : PackOptions := {}
  let record ← input.record? ["output_dir", "glsl_version", "parallel"]
  return {
    outputDirectory := ← record.defaulted "output_dir" default.outputDirectory Input.string?
    glslVersion := ← record.defaulted "glsl_version" default.glslVersion GlslVersion.ofJson?
    parallel := ← record.defaulted "parallel" default.parallel Input.bool? }

def PackOptions.toJson (options : PackOptions) : Json :=
  .object
    [("output_dir", .string options.outputDirectory),
      ("glsl_version", .string options.glslVersion.tag),
      ("parallel", .bool options.parallel)]

/-! ## Errors -/

/-- Why packing fails. -/
inductive PackError where
  | writing (path : String) (cause : FileError)
  | compilation (cause : CompileError)
  | building (cause : BuildError)
  | wrapping (effect cause : String)
  | vertexInput (input : UnplacedInput)
  | asset (cause : AssetError)
  deriving DecidableEq

/-- The wording of a packing error. -/
def PackError.message : PackError → String
  | writing path _ => s!"failed to write {path}"
  | compilation _ => "shader compilation failed"
  | building _ => "effect model could not be built"
  | wrapping effect _ => s!"wrapper generation failed for effect '{effect}'"
  | vertexInput input =>
    s!"input '{input.parameter}' of '{input.method}' has no vertex element format"
  | asset cause => cause.message

/-- The wording of what a packing error goes back to. -/
def PackError.cause? : PackError → Option String
  | writing _ cause => some cause.message
  | compilation cause => some cause.message
  | building cause => some cause.message
  | wrapping _ cause => some cause
  | vertexInput _ | asset _ => none

/-! ## Plans -/

/-- A shader method with its asset and the path that this is written to. -/
structure PackedShader where
  method : String
  path : String
  asset : Asset

/-- An effect whose assets have been written. -/
structure PackedEffect where
  name : String
  shaders : List PackedShader
  wrapper : Wrapper

/-- The asset of a shader method, with both sources. A layout fault comes before compile errors, and
those of HLSL before those of GLSL. -/
def Effect.asset (effect : Effect) (method : ShaderMethod) (version : GlslVersion) :
    Except PackError Asset := do
  let inputs ←
    match method.stage with
    | .vertex => method.vertexLayout.mapError .vertexInput
    | .fragment => pure []
  let hlsl ← (effect.compile .hlsl method.name).mapError .compilation
  let glsl ← (effect.compile (.glsl version) method.name).mapError .compilation
  return { stage := method.stage, inputs, hlsl := hlsl.source, glsl := glsl.source }

/-- An asset that is to be written. -/
structure PlannedWrite where
  shader : PackedShader
  content : List UInt8

/-- The asset of a shader method that is to be written. -/
def Effect.planWrite (effect : Effect) (options : PackOptions) (method : ShaderMethod) :
    Except PackError PlannedWrite := do
  let asset ← effect.asset method options.glslVersion
  let content ← asset.toBytes.mapError .asset
  let name := assetFileName effect.name method.name method.stage
  return {
    shader := { method := method.name, path := joinPath options.outputDirectory name, asset }
    content }

/-- The assets that are written before the first failure, and that failure. -/
def Effect.planWrites (effect : Effect) (options : PackOptions) :
    List ShaderMethod → List PlannedWrite × Option PackError
  | [] => ([], none)
  | method :: rest =>
    match effect.planWrite options method with
    | .error error => ([], some error)
    | .ok write =>
      let (writes, failure) := effect.planWrites options rest
      (write :: writes, failure)

/-- What packing does with a declaration. -/
inductive PackPlan where
  | notAnEffect
  | unbuildable (cause : BuildError)
  | skip (name : String)
  | write (name : String) (writes : List PlannedWrite) (failure : Option PackError)
      (wrapper : Wrapper)

/-- What packing does with a declaration, and what there is to say about it. -/
def TypeDecl.packPlan (decl : TypeDecl) (options : PackOptions) : Diagnostics × PackPlan :=
  if !decl.isEffectCandidate then ([], .notAnEffect)
  else
    let report := decl.build
    match report.result with
    | .error (.structural _ _) => (report.diagnostics, .skip decl.name)
    | .error error => (report.diagnostics, .unbuildable error)
    | .ok effect =>
      let validation := validateInto decl effect report.diagnostics
      if validation.valid then
        let (writes, failure) := effect.planWrites options effect.methods
        (validation.diagnostics, .write effect.name writes failure effect.wrapper)
      else (validation.diagnostics, .skip effect.name)

/-! ## Execution -/

/-- What became of a declaration. -/
inductive PackOutcome where
  | notAnEffect
  | skipped (name : String)
  | packed (effect : PackedEffect)

/-- What became of a declaration, or why packing it failed, with its diagnostics. -/
structure PackResult where
  diagnostics : Diagnostics
  outcome : Except PackError PackOutcome

/-- The wrapper model that was handed to the generator, if this accepted it. -/
def PackResult.wrapper? (result : PackResult) : Option Wrapper :=
  match result.outcome with
  | .ok (.packed effect) => some effect.wrapper
  | _ => none

section Execution

variable {m : Type → Type} [Monad m]

/-- Write assets in order, up to the first one that cannot be written. -/
def FileAccess.writeAll (files : FileAccess m) : List PlannedWrite → m (Except PackError Unit)
  | [] => return .ok ()
  | write :: rest => do
    match ← files.write write.shader.path write.content with
    | .error cause => return .error (.writing write.shader.path cause)
    | .ok () => files.writeAll rest

/-- Do what is planned for a declaration. The wrapper is generated after all assets are written. -/
def PackPlan.execute (files : FileAccess m) (generate : Wrapper → m (Except String Unit)) :
    PackPlan → m (Except PackError PackOutcome)
  | notAnEffect => return .ok .notAnEffect
  | unbuildable cause => return .error (.building cause)
  | skip name => return .ok (.skipped name)
  | write name writes failure wrapper => do
    match ← files.writeAll writes, failure with
    | .error error, _ => return .error error
    | .ok (), some error => return .error error
    | .ok (), none =>
      match ← generate wrapper with
      | .error cause => return .error (.wrapping name cause)
      | .ok () => return .ok (.packed { name, shaders := writes.map (·.shader), wrapper })

/-- Pack one declaration. -/
def packDeclaration (files : FileAccess m) (generate : Wrapper → m (Except String Unit))
    (options : PackOptions) (decl : TypeDecl) : m PackResult := do
  let (diagnostics, plan) := decl.packPlan options
  return { diagnostics, outcome := ← plan.execute files generate }

/-- Pack all declarations of a file. A declaration that fails does not stop the others. -/
def packDeclarations (files : FileAccess m) (generate : Wrapper → m (Except String Unit))
    (options : PackOptions) (file : SourceFile) : m (Except PackError (List PackResult)) := do
  match ← files.createDirectories options.outputDirectory with
  | .error cause => return .error (.writing options.outputDirectory cause)
  | .ok () => return .ok (← file.types.mapM (packDeclaration files generate options))

end Execution

/-! ## Reports -/

/-- The outcome of packing a file. -/
structure PackReport where
  packed : List PackedEffect := []
  /-- The effects that are not packed because of errors in their source. -/
  skipped : List String := []

/-- Adds to a report what became of a declaration. -/
def PackReport.add (report : PackReport) : PackOutcome → PackReport
  | .notAnEffect => report
  | .skipped name => { report with skipped := report.skipped ++ [name] }
  | .packed effect => { report with packed := report.packed ++ [effect] }

/-- Adds results to a report, and hands their diagnostics on to a sink, up to the first failure. -/
def PackReport.addAll (sink : Diagnostics) (report : PackReport) :
    List PackResult → Diagnostics × Except PackError PackReport
  | [] => (sink, .ok report)
  | result :: rest =>
    let sink := result.diagnostics.forward sink
    match result.outcome with
    | .error error => (sink, .error error)
    | .ok outcome => PackReport.addAll sink (report.add outcome) rest

/-- The diagnostics of the results up to the first failure, and the report or that failure. -/
def PackReport.ofResults (results : List PackResult) :
    Diagnostics × Except PackError PackReport :=
  PackReport.addAll [] {} results

/-- The diagnostics and the report of packing a file, or why that failed. -/
def PackReport.ofPacking : Except PackError (List PackResult) →
    Diagnostics × Except PackError PackReport
  | .error error => ([], .error error)
  | .ok results => PackReport.ofResults results

/-- Pack all effects of a file. -/
def packFile {m : Type → Type} [Monad m] (files : FileAccess m)
    (generate : Wrapper → m (Except String Unit)) (options : PackOptions) (file : SourceFile) :
    m (Diagnostics × Except PackError PackReport) :=
  PackReport.ofPacking <$> packDeclarations files generate options file

end ShaderEffect
