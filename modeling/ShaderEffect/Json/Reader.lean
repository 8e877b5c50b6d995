import ShaderEffect.Decimal.Shortest
import ShaderEffect.Json.Basic

/-!
# Reading JSON text

Text is cut into tokens and the tokens are put together with a stack of unfinished arrays and
objects, so that both passes are plain folds.
-/

namespace ShaderEffect.Json

/-- A token of JSON text. -/
inductive Token where
  | openBrace
  | closeBrace
  | openBracket
  | closeBracket
  | colon
  | comma
  | scalar (value : Json)

/-! ## Numbers -/

/-- The number that decimal digits spell. -/
def digitsValue (digits : List Char) : Nat :=
  digits.foldl (fun n c => 10 * n + (c.toNat - 48)) 0

/-- The digits at the start of a text and what follows them. -/
def spanDigits (text : List Char) : List Char × List Char :=
  text.span Char.isDigit

/-- Appends digits to a number as long as this fits in 64 bits. The digits that no longer fit are
left over. -/
def takeDigits (significand : Nat) : List Char → Nat × List Char
  | [] => (significand, [])
  | c :: rest =>
    let longer := 10 * significand + (c.toNat - 48)
    if longer < UInt64.size then takeDigits longer rest else (significand, c :: rest)

/-- The exponent of the greatest power of ten that is a float. -/
def maxPowerOfTen : Nat := 308

/-- A power of ten as a float. -/
def powerOfTen (exponent : Nat) : Float :=
  Float.ofScientific 1 false exponent

/-- A float divided by a power of ten, in steps if this is beyond the floats. -/
def divideByPowerOfTen (x : Float) (exponent : Nat) : Float :=
  if exponent ≤ maxPowerOfTen then x / powerOfTen exponent
  else if x == 0.0 then x
  else divideByPowerOfTen (x / powerOfTen maxPowerOfTen) (exponent - maxPowerOfTen)
termination_by exponent
decreasing_by
  simp only [maxPowerOfTen] at *
  omega

/-- The float `significand * 10 ^ exponent`, if that is not beyond the largest one. The significand
is rounded to a float first, and then the product or quotient with the power of ten. -/
def scaled? (significand : Nat) (exponent : Int) : Option Float :=
  let x := Float.ofNat significand
  if exponent < 0 then some (divideByPowerOfTen x exponent.natAbs)
  else if maxPowerOfTen < exponent.natAbs then if significand = 0 then some 0.0 else none
  else
    let product := x * powerOfTen exponent.natAbs
    if Decimal.magnitude product = .infinite then none else some product

/-- The float that the digits before and after the point and an exponent spell. Only the leading
digits count, as many as fit in 64 bits. -/
def floatOf? (negative : Bool) (whole fraction : List Char) (exponent : Int) : Option Float := do
  let (significand, dropped) := takeDigits 0 whole
  let (significand, ignored) := takeDigits significand fraction
  let x ← scaled? significand (exponent + dropped.length + ignored.length - fraction.length)
  return if negative then -x else x

/-- A number without fraction and exponent. One that does not fit in 64 bits is a float, and so is
negative zero. -/
def wholeNumber? (negative : Bool) (digits : List Char) : Option Json :=
  let n := digitsValue digits
  let isWhole := if negative then 0 < n && n ≤ 0x8000000000000000 else n < UInt64.size
  if isWhole then some (int (if negative then -n else n))
  else (floatOf? negative digits [] 0).map float

/-- The exponent at the end of a number, if there is one. -/
def exponent? : List Char → Option (Option Int)
  | [] => some none
  | c :: rest =>
    if c == 'e' || c == 'E' then
      let (negative, digits) :=
        match rest with
        | '-' :: digits => (true, digits)
        | '+' :: digits => (false, digits)
        | digits => (false, digits)
      if !digits.isEmpty && digits.all Char.isDigit then
        some (some (if negative then -(digitsValue digits : Int) else digitsValue digits))
      else none
    else none

/-- The fraction digits after the whole part of a number and what follows them. -/
def fraction? : List Char → Option (List Char × List Char)
  | '.' :: rest =>
    match spanDigits rest with
    | ([], _) => none
    | digits => some digits
  | rest => some ([], rest)

/-- The number that a text spells. -/
def number? (text : List Char) : Option Json := do
  let (negative, unsigned) :=
    match text with
    | '-' :: rest => (true, rest)
    | rest => (false, rest)
  let (whole, rest) := spanDigits unsigned
  match whole with
  | [] => none
  | '0' :: _ :: _ => none
  | _ =>
    let (fraction, rest) ← fraction? rest
    let exponent ← exponent? rest
    match fraction, exponent with
    | [], none => wholeNumber? negative whole
    | _, _ => (floatOf? negative whole fraction (exponent.getD 0)).map float

/-- The value of a run of letters, digits and signs. -/
def word? (text : List Char) : Option Json :=
  match String.ofList text with
  | "null" => some null
  | "true" => some (bool true)
  | "false" => some (bool false)
  | _ => number? text

/-! ## Tokens -/

/-- The value of a hexadecimal digit. -/
def hexValue? (c : Char) : Option Nat :=
  if c.isDigit then some (c.toNat - 48)
  else if 'a' ≤ c && c ≤ 'f' then some (c.toNat - 87)
  else if 'A' ≤ c && c ≤ 'F' then some (c.toNat - 55)
  else none

/-- Where in the text a scan is. Texts under construction are reversed. -/
inductive ScanMode where
  | between
  | inWord (done : List Char)
  | inString (done : List Char)
  | inEscape (done : List Char)
  /-- Inside the four digits of a code unit; `high` is the first half of a surrogate pair. -/
  | inCodeUnit (done : List Char) (high : Option Nat) (read : Nat) (value : Nat)
  /-- After the first half of a surrogate pair. -/
  | afterHigh (done : List Char) (high : Nat)
  | inHighEscape (done : List Char) (high : Nat)

/-- A scan: where it is and the tokens found so far, last one first. -/
structure Scan where
  mode : ScanMode := .between
  tokens : List Token := []

/-- Whether a character can be part of a number or a keyword. -/
def isWordChar (c : Char) : Bool :=
  c.isAlphanum || c == '-' || c == '+' || c == '.'

/-- A character between tokens. -/
def Scan.between (tokens : List Token) (c : Char) : Option Scan :=
  match c with
  | '\x7b' => some { tokens := .openBrace :: tokens }
  | '\x7d' => some { tokens := .closeBrace :: tokens }
  | '[' => some { tokens := .openBracket :: tokens }
  | ']' => some { tokens := .closeBracket :: tokens }
  | ':' => some { tokens := .colon :: tokens }
  | ',' => some { tokens := .comma :: tokens }
  | '"' => some { mode := .inString [], tokens }
  | ' ' | '\n' | '\r' | '\t' => some { tokens }
  | c => if isWordChar c then some { mode := .inWord [c], tokens } else none

/-- What a code unit that was read completely adds to a string. -/
def codeUnit (done : List Char) (high : Option Nat) (value : Nat) : Option ScanMode :=
  match high with
  | none =>
    if 0xd800 ≤ value && value < 0xdc00 then some (.afterHigh done value)
    else if 0xdc00 ≤ value && value < 0xe000 then none
    else some (.inString (Char.ofNat value :: done))
  | some high =>
    if 0xdc00 ≤ value && value < 0xe000 then
      some (.inString (Char.ofNat (0x10000 + (high - 0xd800) * 0x400 + (value - 0xdc00)) :: done))
    else none

/-- The character that a one-letter escape stands for. -/
def escaped? : Char → Option Char
  | '"' => some '"'
  | '\\' => some '\\'
  | '/' => some '/'
  | 'b' => some '\x08'
  | 'f' => some '\x0c'
  | 'n' => some '\n'
  | 'r' => some '\r'
  | 't' => some '\t'
  | _ => none

/-- One character of the text. -/
def Scan.step (scan : Scan) (c : Char) : Option Scan :=
  let tokens := scan.tokens
  match scan.mode with
  | .between => Scan.between tokens c
  | .inWord done =>
    if isWordChar c then some { mode := .inWord (c :: done), tokens }
    else do
      let value ← word? done.reverse
      Scan.between (.scalar value :: tokens) c
  | .inString done =>
    if c == '"' then some { tokens := .scalar (.string (String.ofList done.reverse)) :: tokens }
    else if c == '\\' then some { mode := .inEscape done, tokens }
    else if c.toNat < 0x20 then none
    else some { mode := .inString (c :: done), tokens }
  | .inEscape done =>
    if c == 'u' then some { mode := .inCodeUnit done none 0 0, tokens }
    else (escaped? c).map fun d => { mode := .inString (d :: done), tokens }
  | .inCodeUnit done high read value => do
    let digit ← hexValue? c
    let value := 16 * value + digit
    if read < 3 then some { mode := .inCodeUnit done high (read + 1) value, tokens }
    else (codeUnit done high value).map fun mode => { mode, tokens }
  | .afterHigh done high =>
    if c == '\\' then some { mode := .inHighEscape done high, tokens } else none
  | .inHighEscape done high =>
    if c == 'u' then some { mode := .inCodeUnit done (some high) 0 0, tokens } else none

/-- The tokens of a text. -/
def tokens? (text : String) : Option (List Token) := do
  let scan ← text.toList.foldlM Scan.step {}
  match scan.mode with
  | .between => some scan.tokens.reverse
  | .inWord done => (word? done.reverse).map fun value => (.scalar value :: scan.tokens).reverse
  | _ => none

/-! ## Values -/

/-- An array or object that is not finished. Its parts are reversed. -/
inductive Frame where
  | array (items : List Json)
  | object (members : List (String × Json))
  /-- An object that waits for the value of a key. -/
  | member (members : List (String × Json)) (key : String)

/-- What can follow. -/
inductive ReadMode where
  | value
  | firstItem
  | firstKey
  | key
  | colon (key : String)
  | afterValue
  | finished (value : Json)

/-- The unfinished arrays and objects, innermost first, and what can follow. -/
structure Reading where
  mode : ReadMode := .value
  stack : List Frame := []

/-- Hands a finished value to the innermost unfinished array or object. -/
def Reading.deliver (value : Json) : List Frame → Option Reading
  | [] => some { mode := .finished value }
  | .array items :: rest => some { mode := .afterValue, stack := .array (value :: items) :: rest }
  | .member members key :: rest =>
    some { mode := .afterValue, stack := .object ((key, value) :: members) :: rest }
  | .object _ :: _ => none

/-- A token where a value is expected. -/
def Reading.value (stack : List Frame) : Token → Option Reading
  | .scalar value => deliver value stack
  | .openBracket => some { mode := .firstItem, stack := .array [] :: stack }
  | .openBrace => some { mode := .firstKey, stack := .object [] :: stack }
  | _ => none

/-- A token after a finished value. -/
def Reading.afterValue : List Frame → Token → Option Reading
  | .array items :: rest, .comma => some { mode := .value, stack := .array items :: rest }
  | .array items :: rest, .closeBracket => deliver (.array items.reverse) rest
  | .object members :: rest, .comma => some { mode := .key, stack := .object members :: rest }
  | .object members :: rest, .closeBrace => deliver (.object members.reverse) rest
  | _, _ => none

/-- One token. -/
def Reading.step (reading : Reading) (token : Token) : Option Reading :=
  let stack := reading.stack
  match reading.mode, token with
  | .value, token => Reading.value stack token
  | .firstItem, .closeBracket => Reading.afterValue stack .closeBracket
  | .firstItem, token => Reading.value stack token
  | .firstKey, .closeBrace => Reading.afterValue stack .closeBrace
  | .firstKey, .scalar (.string key) | .key, .scalar (.string key) =>
    some { mode := .colon key, stack }
  | .colon key, .colon =>
    match stack with
    | .object members :: rest => some { mode := .value, stack := .member members key :: rest }
    | _ => none
  | .afterValue, token => Reading.afterValue stack token
  | _, _ => none

/-- The value that a text spells. -/
def parse? (text : String) : Option Json := do
  let reading ← (← tokens? text).foldlM Reading.step {}
  match reading.mode with
  | .finished value => some value
  | _ => none

end ShaderEffect.Json
