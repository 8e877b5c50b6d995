import ShaderEffect.Decimal.Shortest

/-!
# Decimal notation

How the digits of a number are laid out as text. The decisions of a format are one record.
-/

namespace ShaderEffect.Decimal

/-- The decisions of a number format. -/
structure Notation where
  /-- The smallest exponent of the first digit that is written with a decimal point only. -/
  smallest : Int
  /-- The smallest exponent of the first digit above those. -/
  bound : Int
  /-- What follows the digits of a whole number in positional notation. -/
  whole : String
  /-- The mark before the exponent. -/
  mark : String
  infinity : String
  notANumber : String

/-- Digits with a point after the first one and an exponent. -/
def Notation.scientific (style : Notation) (digits : List Char) (leading : Int) : String :=
  let mantissa :=
    match digits with
    | [] => ""
    | [d] => String.ofList [d]
    | d :: rest => String.ofList (d :: '.' :: rest)
  mantissa ++ style.mark ++ toString leading

/-- Digits with a point and zeros where needed, and no exponent. -/
def Notation.positional (style : Notation) (digits : List Char) (leading : Int) : String :=
  if leading < 0 then
    "0." ++ String.ofList (List.replicate ((-leading).toNat - 1) '0' ++ digits)
  else
    let whole := leading.toNat + 1
    if digits.length ≤ whole then
      String.ofList (digits ++ List.replicate (whole - digits.length) '0') ++ style.whole
    else
      String.ofList (digits.take whole ++ '.' :: digits.drop whole)

/-- The text of a positive decimal. -/
def Notation.decimal (style : Notation) (d : Decimal) : String :=
  let digits := Nat.toDigits 10 d.digits
  let leading := d.exponent + digits.length - 1
  if style.smallest ≤ leading && leading < style.bound then style.positional digits leading
  else style.scientific digits leading

/-- The text of a float: the fewest digits that read back. -/
def Notation.float (style : Notation) (x : Float) : String :=
  let sign := if isNegative x then "-" else ""
  match magnitude x with
  | .notANumber => style.notANumber
  | .infinite => sign ++ style.infinity
  | .zero => sign ++ "0" ++ style.whole
  | .finite mantissa exponent narrow => sign ++ style.decimal (shortest mantissa exponent narrow)

/-- Float literals of shaders and constants in messages: positional from `0.0001` to below
`10 ^ 16`, whole numbers with one decimal place. -/
def literal : Notation :=
  { smallest := -4
    bound := 16
    whole := ".0"
    mark := "e"
    infinity := "inf"
    notANumber := "NaN" }

end ShaderEffect.Decimal
