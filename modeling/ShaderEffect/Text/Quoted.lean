import ShaderEffect.Text.Unprintable

/-!
# Quoted text

A text in double quotes, with everything escaped that has no visible form of its own.
-/

namespace ShaderEffect.Text

/-- A character by its code point in hexadecimal: `\u` and the digits in braces. -/
def codePointEscape (c : Char) : List Char :=
  ['\\', 'u', '\x7b'] ++ Nat.toDigits 16 c.toNat ++ ['\x7d']

/-- A character as it stands between double quotes. -/
def quoteChar (c : Char) : List Char :=
  match c with
  | '\x00' => ['\\', '0']
  | '\t' => ['\\', 't']
  | '\r' => ['\\', 'r']
  | '\n' => ['\\', 'n']
  | '"' => ['\\', '"']
  | '\\' => ['\\', '\\']
  | c => if extendsGrapheme c || !isPrintable c then codePointEscape c else [c]

/-- The text in double quotes. -/
def quoted (text : String) : String :=
  String.ofList ('"' :: text.toList.flatMap quoteChar ++ ['"'])

end ShaderEffect.Text
