import ShaderEffect.Decimal.Notation
import ShaderEffect.Text.Quoted
import ShaderEffect.Tree.Basic

/-!
# Compile-time constants

The value of an expression that the tree alone determines. Integer arithmetic is exact: a result
outside the 64-bit range is no constant.
-/

namespace ShaderEffect

namespace Value

def int? : Value → Option Int64
  | int value => some value
  | _ => none

/-- The value as a float; integers round to the nearest float. -/
def float? : Value → Option Float
  | int value => some (Float.ofInt value.toInt)
  | float value => some value
  | _ => none

def string? : Value → Option String
  | string value => some value
  | _ => none

/-- The value as written in messages. -/
def describe : Value → String
  | bool value => if value then "true" else "false"
  | int value => toString value.toInt
  | float value => Decimal.literal.float value
  | string value => Text.quoted value

/-- The integer as a constant, if it fits in 64 bits. -/
def ofInt? (n : Int) : Option Value :=
  if -0x8000000000000000 ≤ n ∧ n < 0x8000000000000000 then some (int (Int64.ofInt n)) else none

/-- The value of a unary operator applied to a constant. -/
def foldUnary : UnaryOp → Value → Option Value
  | .plus, int value => some (int value)
  | .plus, float value => some (float value)
  | .neg, int value => ofInt? (-value.toInt)
  | .neg, float value => some (float (-value))
  | .not, bool value => some (bool !value)
  | .bitNot, int value => some (int (~~~value))
  | _, _ => none

/-- The value of a binary operator applied to two integers. The remainder is defined where the
quotient is; a shift by 64 or more places is not a constant. -/
def foldInt (op : BinaryOp) (a b : Int64) : Option Value :=
  match op with
  | .add => ofInt? (a.toInt + b.toInt)
  | .sub => ofInt? (a.toInt - b.toInt)
  | .mul => ofInt? (a.toInt * b.toInt)
  | .div => if b = 0 then none else ofInt? (a.toInt.tdiv b.toInt)
  | .rem =>
    if b = 0 then none
    else (ofInt? (a.toInt.tdiv b.toInt)).bind fun _ => ofInt? (a.toInt.tmod b.toInt)
  | .bitAnd => some (int (a &&& b))
  | .bitOr => some (int (a ||| b))
  | .bitXor => some (int (a ^^^ b))
  | .shl => if 0 ≤ b.toInt ∧ b.toInt < 64 then some (int (a <<< b)) else none
  | .shr => if 0 ≤ b.toInt ∧ b.toInt < 64 then some (int (a >>> b)) else none
  | .less => some (bool (decide (a.toInt < b.toInt)))
  | .lessEq => some (bool (decide (a.toInt ≤ b.toInt)))
  | .greater => some (bool (decide (b.toInt < a.toInt)))
  | .greaterEq => some (bool (decide (b.toInt ≤ a.toInt)))
  | .eq => some (bool (a == b))
  | .notEq => some (bool (a != b))
  | _ => none

/-- The value of a binary operator applied to two truth values. -/
def foldBool (op : BinaryOp) (a b : Bool) : Option Value :=
  match op with
  | .and => some (bool (a && b))
  | .or => some (bool (a || b))
  | .eq => some (bool (a == b))
  | .notEq => some (bool (a != b))
  | _ => none

/-- The value of a binary operator applied to two floats. Floats have no constant remainder and no
constant equality. -/
def foldFloat (op : BinaryOp) (a b : Float) : Option Value :=
  match op with
  | .add => some (float (a + b))
  | .sub => some (float (a - b))
  | .mul => some (float (a * b))
  | .div => some (float (a / b))
  | .less => some (bool (decide (a < b)))
  | .lessEq => some (bool (decide (a ≤ b)))
  | .greater => some (bool (decide (b < a)))
  | .greaterEq => some (bool (decide (b ≤ a)))
  | _ => none

/-- The value of a binary operator applied to two constants. An integer meets a float as a
float. -/
def foldBinary (op : BinaryOp) (lhs rhs : Value) : Option Value :=
  match lhs, rhs with
  | int a, int b => foldInt op a b
  | bool a, bool b => foldBool op a b
  | int a, float b => foldFloat op (Float.ofInt a.toInt) b
  | float a, int b => foldFloat op a (Float.ofInt b.toInt)
  | float a, float b => foldFloat op a b
  | _, _ => none

/-- The value of a constant converted to a type. A float becomes an integer by dropping its
fraction; other conversions keep the value. -/
def convert (type : TypeRef) (value : Value) : Option Value :=
  match type.name?, value with
  | none, _ => none
  | some "int", float value | some "Int32", float value => some (int value.toInt64)
  | some "float", int value | some "Single", int value => some (float (Float.ofInt value.toInt))
  | some _, value => some value

end Value

/-- The name that `nameof` yields for an operand. -/
def nameOfOperand? (operand : Expr) : Option String :=
  match operand.unparenthesized.kind with
  | .identifier name => some name
  | .memberAccess _ member => some member
  | _ => none

/-- The value of an expression if it is a compile-time constant. An annotated value is taken as it
is. -/
def Expr.constant? (e : Expr) : Option Value :=
  match e.notes.constant with
  | some value => some value
  | none =>
    match e with
    | ⟨.literal value, _, _⟩ => some value
    | ⟨.parenthesized inner, _, _⟩ => inner.constant?
    | ⟨.unary op operand, _, _⟩ => operand.constant?.bind (Value.foldUnary op)
    | ⟨.binary op lhs rhs, _, _⟩ =>
      match lhs.constant?, rhs.constant? with
      | some a, some b => Value.foldBinary op a b
      | _, _ => none
    | ⟨.cast type operand, _, _⟩ => operand.constant?.bind (Value.convert type)
    | ⟨.invocation ⟨.identifier "nameof", _, _⟩ [argument], _, _⟩ =>
      (nameOfOperand? argument.value).map .string
    | _ => none

end ShaderEffect
