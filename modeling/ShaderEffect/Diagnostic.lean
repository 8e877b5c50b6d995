import ShaderEffect.Tree.Basic

/-!
# Diagnostics

Problems found in the source of an effect, in the order in which they were found.
-/

namespace ShaderEffect

/-- How serious a problem is. Errors keep an effect from being packed, warnings do not. -/
inductive Severity where
  | warning
  | error
  deriving DecidableEq

/-- The severity as written in messages. -/
def Severity.describe : Severity → String
  | warning => "warning"
  | error => "error"

/-- A problem at a position of the source. -/
structure Diagnostic where
  severity : Severity
  location : Location
  message : String
  deriving DecidableEq

namespace Diagnostic

/-- The diagnostic as one line of text. -/
def describe (diagnostic : Diagnostic) : String :=
  diagnostic.location.describe ++ ": " ++ diagnostic.severity.describe ++ ": " ++
    diagnostic.message

end Diagnostic

/-- Diagnostics in the order of their reports. -/
abbrev Diagnostics := List Diagnostic

namespace Diagnostics

/-- Adds a report at the end. -/
def report (diagnostics : Diagnostics) (severity : Severity) (location : Location)
    (message : String) : Diagnostics :=
  diagnostics ++ [⟨severity, location, message⟩]

/-- Hands all reports of one list on to another one, in order. -/
def forward (source target : Diagnostics) : Diagnostics :=
  source.foldl (fun sink diagnostic =>
    sink.report diagnostic.severity diagnostic.location diagnostic.message) target

/-- The number of reports of a severity. -/
def count (diagnostics : Diagnostics) (severity : Severity) : Nat :=
  (diagnostics.filter (·.severity == severity)).length

def errorCount (diagnostics : Diagnostics) : Nat :=
  diagnostics.count .error

def hasErrors (diagnostics : Diagnostics) : Bool :=
  0 < diagnostics.errorCount

end Diagnostics

/-- A sink with the number of errors that it was handed. -/
structure ErrorCounter where
  sink : Diagnostics
  errors : Nat := 0

namespace ErrorCounter

/-- Hands a report on to the sink, and counts it if it is an error. -/
def report (counter : ErrorCounter) (severity : Severity) (location : Location)
    (message : String) : ErrorCounter :=
  { sink := counter.sink.report severity location message
    errors := if severity = .error then counter.errors + 1 else counter.errors }

/-- Hands reports on in order. -/
def reportAll (counter : ErrorCounter) (diagnostics : Diagnostics) : ErrorCounter :=
  diagnostics.foldl (fun counter diagnostic =>
    counter.report diagnostic.severity diagnostic.location diagnostic.message) counter

end ErrorCounter

/-- Something found at a position of the source. -/
structure Located (α : Type) where
  location : Location
  value : α

end ShaderEffect
