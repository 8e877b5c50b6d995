import ShaderEffect.Shader.Dialect

/-!
# Commands

What the user asks for on the command line. An option is given as `-i X`, `-iX`, `-i=X`, `--input X`
or `--input=X`, at most once.
-/

namespace ShaderEffect

/-- The format that a shader method is written in. -/
inductive TargetFormat where
  | hlsl
  | glsl
  deriving DecidableEq

/-- A command. -/
inductive Command where
  /-- Validate every effect of a source file and print the diagnostics. -/
  | validate (input : String)
  /-- Print one shader method of an effect in a format. -/
  | transpile (input effect method : String) (format : TargetFormat) (version : Option Nat)
  /-- Print the wrapper model of an effect. -/
  | reflect (input effect : String)
  /-- Write the assets of all effects of a source file. -/
  | pack (input : String) (out config : Option String) (serial : Bool)
  deriving DecidableEq

/-! ## Options -/

/-- The options of all commands. -/
inductive CommandOption where
  | input
  | effect
  | method
  | format
  | version
  | out
  | config
  | serial
  deriving DecidableEq

namespace CommandOption

/-- The name after two dashes. -/
def longName : CommandOption → String
  | input => "input"
  | effect => "effect"
  | method => "method"
  | format => "format"
  | version => "version"
  | out => "out"
  | config => "config"
  | serial => "serial"

/-- The letter after one dash. -/
def letter? : CommandOption → Option Char
  | serial => none
  | option => option.longName.toList.head?

/-- Whether the option has a value. -/
def takesValue : CommandOption → Bool
  | serial => false
  | _ => true

/-- Whether the option names a file or a directory. -/
def isPath : CommandOption → Bool
  | input | out | config => true
  | _ => false

/-- Whether a text can be the value. -/
def accepts (option : CommandOption) (value : String) : Bool :=
  !(option.isPath && value.isEmpty)

end CommandOption

/-- The option among the given ones that an argument names, with the value in the same argument. -/
def splitArgument? (options : List CommandOption) (argument : String) :
    Option (CommandOption × Option String) :=
  match argument.toList with
  | '-' :: '-' :: rest => do
    let name := rest.takeWhile (· != '=')
    let option ← options.find? (·.longName.toList == name)
    match rest.dropWhile (· != '=') with
    | [] => return (option, none)
    | _ :: value => return (option, some (String.ofList value))
  | '-' :: letter :: rest => do
    let option ← options.find? (·.letter? == some letter)
    match rest with
    | [] => return (option, none)
    | '=' :: value => return (option, some (String.ofList value))
    | value => return (option, some (String.ofList value))
  | _ => none

/-- Whether an argument of its own can be the value of the option before it. -/
def isSeparateValue (argument : String) : Bool :=
  argument == "-" || !argument.startsWith "-"

/-- Options with their values. -/
abbrev OptionValues := List (CommandOption × String)

/-- The options in arguments, in order. -/
def readOptions? (options : List CommandOption) : List String → Option OptionValues
  | [] => some []
  | [argument] =>
    if argument = "--" then some []
    else do
      let (option, attached) ← splitArgument? options argument
      match option.takesValue, attached with
      | true, some value => return [(option, value)]
      | false, none => return [(option, "")]
      | _, _ => none
  | argument :: next :: rest => do
    let (option, attached) ← splitArgument? options argument
    match option.takesValue, attached with
    | true, some value => return (option, value) :: (← readOptions? options (next :: rest))
    | false, none => return (option, "") :: (← readOptions? options (next :: rest))
    | true, none =>
      if isSeparateValue next then return (option, next) :: (← readOptions? options rest) else none
    | false, some _ => none

namespace OptionValues

/-- The value of an option. -/
def value? (values : OptionValues) (option : CommandOption) : Option String :=
  List.lookup option values

def has (values : OptionValues) (option : CommandOption) : Bool :=
  (values.value? option).isSome

/-- Whether no option is given twice, and all values are acceptable. -/
def isAcceptable : OptionValues → Bool
  | [] => true
  | (option, value) :: rest =>
    option.accepts value && !OptionValues.has rest option && isAcceptable rest

end OptionValues

/-- A format by its name. -/
def TargetFormat.ofName? : String → Option TargetFormat
  | "hlsl" => some hlsl
  | "glsl" => some glsl
  | _ => none

/-- The value of decimal digits. -/
def decimalValue? (digits : List Char) : Option Nat :=
  if digits.isEmpty || !digits.all Char.isDigit then none
  else some (digits.foldl (fun value digit => 10 * value + (digit.toNat - '0'.toNat)) 0)

/-- A version number: decimal digits, perhaps with a sign, in 32 bits. -/
def versionNumber? (text : String) : Option Nat := do
  let value ←
    match text.toList with
    | '+' :: digits => decimalValue? digits
    | '-' :: digits => (decimalValue? digits).filter (· == 0)
    | digits => decimalValue? digits
  if value < UInt32.size then some value else none

/-- An optional value has to be readable if it is there. -/
def readValue? {α : Type} (read : String → Option α) : Option String → Option (Option α)
  | none => some none
  | some text => (read text).map some

namespace Command

/-- The acceptable options in arguments. -/
def options? (options : List CommandOption) (arguments : List String) : Option OptionValues :=
  (readOptions? options arguments).filter OptionValues.isAcceptable

/-- The command that the arguments ask for, if they are well formed. -/
def ofArguments? : List String → Option Command
  | "validate" :: arguments => do
    let values ← options? [.input] arguments
    return .validate (← values.value? .input)
  | "transpile" :: arguments => do
    let values ← options? [.input, .effect, .method, .format, .version] arguments
    let format ← TargetFormat.ofName? (← values.value? .format)
    let version ← readValue? versionNumber? (values.value? .version)
    return .transpile (← values.value? .input) (← values.value? .effect) (← values.value? .method)
      format version
  | "reflect" :: arguments => do
    let values ← options? [.input, .effect] arguments
    return .reflect (← values.value? .input) (← values.value? .effect)
  | "pack" :: arguments => do
    let values ← options? [.input, .out, .config, .serial] arguments
    return .pack (← values.value? .input) (values.value? .out) (values.value? .config)
      (values.has .serial)
  | _ => none

end Command

end ShaderEffect
