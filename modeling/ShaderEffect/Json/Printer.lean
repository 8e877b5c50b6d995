import ShaderEffect.Decimal.Notation
import ShaderEffect.Json.Basic

/-!
# JSON text

The text of a JSON value, without blanks or laid out over lines.
-/

namespace ShaderEffect.Json

/-- A digit below 16 in lower case. -/
def hexDigit (n : Nat) : Char :=
  if n < 10 then Char.ofNat (48 + n) else Char.ofNat (87 + n)

/-- A character as it stands in a JSON string. Control characters, the quote and the backslash are
escaped. -/
def escapeChar (c : Char) : List Char :=
  match c with
  | '"' => ['\\', '"']
  | '\\' => ['\\', '\\']
  | '\n' => ['\\', 'n']
  | '\r' => ['\\', 'r']
  | '\t' => ['\\', 't']
  | '\x08' => ['\\', 'b']
  | '\x0c' => ['\\', 'f']
  | c =>
    if c.toNat < 0x20 then ['\\', 'u', '0', '0', hexDigit (c.toNat / 16), hexDigit (c.toNat % 16)]
    else [c]

/-- A JSON string. -/
def stringText (text : String) : String :=
  "\"" ++ String.ofList (text.toList.flatMap escapeChar) ++ "\""

/-- A JSON number; what is no number in JSON is written as null. -/
def floatText (x : Float) : String :=
  match Decimal.magnitude x with
  | .infinite | .notANumber => "null"
  | _ => Decimal.literal.float x

/-- The text of a value that is neither an array nor an object. -/
def scalarText : Json → String
  | null => "null"
  | bool value => if value then "true" else "false"
  | int value => toString value
  | float value => floatText value
  | string value => stringText value
  | array _ => "[]"
  | object _ => "\x7b\x7d"

mutual

/-- Appends the text of a value without blanks. -/
def appendCompact (out : String) : Json → String
  | array [] => out ++ "[]"
  | array (item :: rest) => appendItems (appendCompact (out ++ "[") item) rest ++ "]"
  | object [] => out ++ "\x7b\x7d"
  | object ((key, value) :: rest) =>
    appendMembers (appendCompact (out ++ "\x7b" ++ stringText key ++ ":") value) rest ++ "\x7d"
  | scalar => out ++ scalar.scalarText

/-- Appends the items of an array after the first one. -/
def appendItems (out : String) : List Json → String
  | [] => out
  | item :: rest => appendItems (appendCompact (out ++ ",") item) rest

/-- Appends the members of an object after the first one. -/
def appendMembers (out : String) : List (String × Json) → String
  | [] => out
  | (key, value) :: rest =>
    appendMembers (appendCompact (out ++ "," ++ stringText key ++ ":") value) rest

end

/-- The text of a value without blanks. -/
def compact (json : Json) : String :=
  appendCompact "" json

/-- A line break and the indentation of a level, two blanks each. -/
def newline (level : Nat) : String :=
  String.ofList ('\n' :: List.replicate (2 * level) ' ')

mutual

/-- Appends the text of a value with one item or member a line. -/
def appendPretty (level : Nat) (out : String) : Json → String
  | array [] => out ++ "[]"
  | array (item :: rest) =>
    let first := appendPretty (level + 1) (out ++ "[" ++ newline (level + 1)) item
    appendPrettyItems (level + 1) first rest ++ newline level ++ "]"
  | object [] => out ++ "\x7b\x7d"
  | object ((key, value) :: rest) =>
    let first := appendPretty (level + 1)
      (out ++ "\x7b" ++ newline (level + 1) ++ stringText key ++ ": ") value
    appendPrettyMembers (level + 1) first rest ++ newline level ++ "\x7d"
  | scalar => out ++ scalar.scalarText

/-- Appends the items of an array after the first one, each on its line. -/
def appendPrettyItems (level : Nat) (out : String) : List Json → String
  | [] => out
  | item :: rest =>
    appendPrettyItems level (appendPretty level (out ++ "," ++ newline level) item) rest

/-- Appends the members of an object after the first one, each on its line. -/
def appendPrettyMembers (level : Nat) (out : String) : List (String × Json) → String
  | [] => out
  | (key, value) :: rest =>
    appendPrettyMembers level
      (appendPretty level (out ++ "," ++ newline level ++ stringText key ++ ": ") value) rest

end

/-- The text of a value with one item or member a line. -/
def pretty (json : Json) : String :=
  appendPretty 0 "" json

end ShaderEffect.Json
