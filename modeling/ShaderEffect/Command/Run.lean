import ShaderEffect.Command.Arguments
import ShaderEffect.Json.Printer
import ShaderEffect.Json.Reader
import ShaderEffect.Package.Pack
import ShaderEffect.Tree.Decode

/-!
# Running commands

What each command reads, writes and prints. A command ends with a failure, or it has printed
something; diagnostics are printed before either.
-/

namespace ShaderEffect

/-- What a command has printed, and whether it succeeded. -/
structure CommandOutput where
  stdout : String := ""
  stderr : String := ""
  succeeded : Bool := true

/-- Why a command fails. -/
structure CommandFailure where
  message : String
  cause : Option String := none

/-- The failure as printed, with the lines of its cause indented. -/
def CommandFailure.describe (failure : CommandFailure) : String :=
  let cause :=
    match failure.cause with
    | none => ""
    | some text => "\nCaused by:\n    " ++ "\n    ".intercalate (text.splitOn "\n") ++ "\n"
  s!"Error: {failure.message}\n{cause}"

namespace CommandOutput

/-- The output of a command that has printed some diagnostics and then fails. -/
def failed (stderr : String) (failure : CommandFailure) : CommandOutput :=
  { stderr := stderr ++ failure.describe, succeeded := false }

end CommandOutput

/-- Diagnostics as printed for a file, one on a line. -/
def SourceFile.describeDiagnostics (file : SourceFile) (diagnostics : Diagnostics) : String :=
  String.join (diagnostics.map fun diagnostic => s!"{file.path}:{diagnostic.describe}\n")

/-- The first declaration with a name. -/
def SourceFile.find (file : SourceFile) (name : String) : Except CommandFailure TypeDecl :=
  match file.types.find? (·.name == name) with
  | some decl => return decl
  | none => throw { message := s!"no type named '{name}' in {file.path}" }

/-! ## Commands on a source file -/

/-- Reports about a declaration to a sink: about its model, and about its validation if there is a
model. -/
def TypeDecl.diagnoseInto (decl : TypeDecl) (sink : Diagnostics) : Diagnostics :=
  let report := decl.buildInto sink
  match report.result with
  | .ok effect => (validateInto decl effect report.diagnostics).diagnostics
  | .error _ => report.diagnostics

/-- The diagnostics of a declaration. -/
def TypeDecl.diagnostics (decl : TypeDecl) : Diagnostics :=
  decl.diagnoseInto []

/-- The diagnostics of all declarations of a file, in one sink. -/
def SourceFile.diagnostics (file : SourceFile) : Diagnostics :=
  file.types.foldl (fun sink decl => decl.diagnoseInto sink) []

/-- Validate all effects of a file. -/
def SourceFile.validate (file : SourceFile) : CommandOutput :=
  let diagnostics := file.diagnostics
  let printed := file.describeDiagnostics diagnostics
  if diagnostics.hasErrors then
    .failed printed
      { message := s!"validation failed with {diagnostics.errorCount} error(s)" }
  else { stderr := printed }

/-- The slots that the application has to set up, as printed. -/
def CompiledShader.describeBindings (shader : CompiledShader) : String :=
  String.join
    (shader.samplerBindings.map (fun (name, unit) =>
        s!"sampler {name} -> texture unit {unit}\n") ++
      shader.blockBindings.map fun (name, binding) =>
        s!"uniform block {name} -> binding {binding}\n")

/-- A shader method in a format, and what the application has to know about it. -/
def Effect.transpile (effect : Effect) (method : String) (format : TargetFormat)
    (version : Option Nat) : Except CommandFailure (String × String) :=
  let compile (dialect : Dialect) : Except CommandFailure CompiledShader :=
    match effect.compile dialect method with
    | .ok shader => return shader
    | .error error => throw { message := error.message }
  match format with
  | .hlsl => do return ((← compile .hlsl).source, "")
  | .glsl =>
    let number := version.getD GlslVersion.v330.number
    match GlslVersion.ofNumber? number with
    | none => throw { message := s!"unsupported GLSL version {number}" }
    | some version => do
      let shader ← compile (.glsl version)
      return (shader.source, shader.describeBindings)

/-- Print one shader method of an effect that is valid. -/
def SourceFile.transpile (file : SourceFile) (name method : String) (format : TargetFormat)
    (version : Option Nat) : CommandOutput :=
  match file.find name with
  | .error failure => .failed "" failure
  | .ok decl =>
    let printed := file.describeDiagnostics decl.diagnostics
    match decl.build.result with
    | .error error => .failed printed { message := error.message }
    | .ok effect =>
      if isValid decl effect then
        match effect.transpile method format version with
        | .error failure => .failed printed failure
        | .ok (source, bindings) => { stdout := source, stderr := printed ++ bindings }
      else .failed printed { message := s!"effect '{effect.name}' is not valid" }

/-- Print the wrapper model of an effect, valid or not. -/
def SourceFile.reflect (file : SourceFile) (name : String) : CommandOutput :=
  match file.find name with
  | .error failure => .failed "" failure
  | .ok decl =>
    let report := decl.build
    let printed := file.describeDiagnostics report.diagnostics
    match report.result with
    | .error error => .failed printed { message := error.message }
    | .ok effect => { stdout := effect.wrapper.toJson.pretty, stderr := printed }

/-- What is printed after packing. -/
def SourceFile.describePacking (file : SourceFile) (diagnostics : Diagnostics) :
    Except PackError PackReport → CommandOutput
  | .error error => .failed "" { message := error.message, cause := error.cause? }
  | .ok report =>
    let printed := file.describeDiagnostics diagnostics
    let paths := report.packed.flatMap fun effect => effect.shaders.map (·.path)
    let stdout := String.join (paths.map fun path => s!"{path}\n")
    if report.skipped.isEmpty then { stdout, stderr := printed }
    else
      let message := s!"{report.skipped.length} effect(s) were not packed: " ++
        ", ".intercalate report.skipped
      { CommandOutput.failed printed { message := message } with stdout }

/-! ## Commands on files -/

/-- The deepest nesting of the data in an input file. -/
def maxInputDepth : Nat := 127

/-- The data in the text of an input file. -/
def readInput? {α : Type} (decoder : Json.Decoder α) (content : List UInt8) : Option α := do
  let text ← String.fromUTF8? content.toByteArray
  let json ← Json.parse? text
  decoder { json, depth := some maxInputDepth, positional := true }

section Files

variable {m : Type → Type} [Monad m]

/-- The data in an input file. -/
def FileAccess.readInput {α : Type} (files : FileAccess m) (decoder : Json.Decoder α)
    (path : String) : m (Except CommandFailure α) := do
  match ← files.read path with
  | .error error => return .error { message := error.message }
  | .ok content =>
    match readInput? decoder content with
    | some value => return .ok value
    | none => return .error { message := s!"{path} does not hold the expected data" }

/-- The options of packing: those of a configuration file, unless the command line says
otherwise. -/
def FileAccess.readPackOptions (files : FileAccess m) (out config : Option String)
    (serial : Bool) : m (Except CommandFailure PackOptions) := do
  let configured ←
    match config with
    | none => pure (.ok {})
    | some path => files.readInput PackOptions.ofJson? path
  return configured.map fun options =>
    { options with
      outputDirectory := out.getD options.outputDirectory
      parallel := options.parallel && !serial }

/-- Run a command. -/
def Command.run (files : FileAccess m) (command : Command) : m CommandOutput := do
  let input :=
    match command with
    | validate input | transpile input _ _ _ _ | reflect input _ | pack input _ _ _ => input
  match ← files.readInput SourceFile.ofJson? input with
  | .error failure => return .failed "" failure
  | .ok file =>
    match command with
    | validate _ => return file.validate
    | transpile _ effect method format version =>
      return file.transpile effect method format version
    | reflect _ effect => return file.reflect effect
    | pack _ out config serial =>
      match ← files.readPackOptions out config serial with
      | .error failure => return .failed "" failure
      | .ok options =>
        let (diagnostics, report) ← packFile files (fun _ => pure (.ok ())) options file
        return file.describePacking diagnostics report

end Files

end ShaderEffect
