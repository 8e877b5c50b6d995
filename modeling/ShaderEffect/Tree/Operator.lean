/-!
# Operators

The operators of the host language, with their spelling and what kind of operator each one is.
-/

namespace ShaderEffect

/-- An operator between two operands. -/
inductive BinaryOp where
  | add
  | sub
  | mul
  | div
  | rem
  | less
  | lessEq
  | greater
  | greaterEq
  | eq
  | notEq
  | and
  | or
  | bitAnd
  | bitOr
  | bitXor
  | shl
  | shr
  | nullCoalesce
  deriving DecidableEq

namespace BinaryOp

def all : List BinaryOp :=
  [add, sub, mul, div, rem, less, lessEq, greater, greaterEq, eq, notEq, and, or,
    bitAnd, bitOr, bitXor, shl, shr, nullCoalesce]

def token : BinaryOp → String
  | add => "+"
  | sub => "-"
  | mul => "*"
  | div => "/"
  | rem => "%"
  | less => "<"
  | lessEq => "<="
  | greater => ">"
  | greaterEq => ">="
  | eq => "=="
  | notEq => "!="
  | and => "&&"
  | or => "||"
  | bitAnd => "&"
  | bitOr => "|"
  | bitXor => "^"
  | shl => "<<"
  | shr => ">>"
  | nullCoalesce => "??"

def isComparison : BinaryOp → Bool
  | less | lessEq | greater | greaterEq | eq | notEq => true
  | _ => false

def isLogical : BinaryOp → Bool
  | and | or => true
  | _ => false

/-- The name in the interchange format. -/
def tag : BinaryOp → String
  | add => "Add"
  | sub => "Sub"
  | mul => "Mul"
  | div => "Div"
  | rem => "Rem"
  | less => "Less"
  | lessEq => "LessEq"
  | greater => "Greater"
  | greaterEq => "GreaterEq"
  | eq => "Eq"
  | notEq => "NotEq"
  | and => "And"
  | or => "Or"
  | bitAnd => "BitAnd"
  | bitOr => "BitOr"
  | bitXor => "BitXor"
  | shl => "Shl"
  | shr => "Shr"
  | nullCoalesce => "NullCoalesce"

end BinaryOp

/-- An operator on one operand. -/
inductive UnaryOp where
  | plus
  | neg
  | not
  | bitNot
  | preIncrement
  | preDecrement
  | postIncrement
  | postDecrement
  deriving DecidableEq

namespace UnaryOp

def all : List UnaryOp :=
  [plus, neg, not, bitNot, preIncrement, preDecrement, postIncrement, postDecrement]

def token : UnaryOp → String
  | plus => "+"
  | neg => "-"
  | not => "!"
  | bitNot => "~"
  | preIncrement | postIncrement => "++"
  | preDecrement | postDecrement => "--"

/-- Whether the operator stands after its operand. -/
def isTrailing : UnaryOp → Bool
  | postIncrement | postDecrement => true
  | _ => false

/-- Whether the operator writes to its operand. -/
def isMutating : UnaryOp → Bool
  | preIncrement | preDecrement | postIncrement | postDecrement => true
  | _ => false

/-- The name in the interchange format. -/
def tag : UnaryOp → String
  | plus => "Plus"
  | neg => "Neg"
  | not => "Not"
  | bitNot => "BitNot"
  | preIncrement => "PreIncrement"
  | preDecrement => "PreDecrement"
  | postIncrement => "PostIncrement"
  | postDecrement => "PostDecrement"

end UnaryOp

/-- Plain assignment, or assignment combined with a binary operator. -/
inductive AssignOp where
  | assign
  | add
  | sub
  | mul
  | div
  | rem
  | bitAnd
  | bitOr
  | bitXor
  | shl
  | shr
  | nullCoalesce
  deriving DecidableEq

namespace AssignOp

def all : List AssignOp :=
  [assign, add, sub, mul, div, rem, bitAnd, bitOr, bitXor, shl, shr, nullCoalesce]

/-- The binary operator that a compound assignment applies. -/
def binary? : AssignOp → Option BinaryOp
  | assign => none
  | add => some .add
  | sub => some .sub
  | mul => some .mul
  | div => some .div
  | rem => some .rem
  | bitAnd => some .bitAnd
  | bitOr => some .bitOr
  | bitXor => some .bitXor
  | shl => some .shl
  | shr => some .shr
  | nullCoalesce => some .nullCoalesce

def token (op : AssignOp) : String :=
  match op.binary? with
  | none => "="
  | some binary => binary.token ++ "="

/-- The name in the interchange format. -/
def tag (op : AssignOp) : String :=
  match op.binary? with
  | none => "Assign"
  | some binary => binary.tag

end AssignOp

/-- The kinds of clauses of a query expression. -/
inductive QueryClauseKind where
  | from_
  | where_
  | select
  | orderBy
  | groupBy
  | join
  | let_
  | into
  deriving DecidableEq

namespace QueryClauseKind

def all : List QueryClauseKind := [from_, where_, select, orderBy, groupBy, join, let_, into]

/-- The name in the interchange format. -/
def tag : QueryClauseKind → String
  | from_ => "From"
  | where_ => "Where"
  | select => "Select"
  | orderBy => "OrderBy"
  | groupBy => "GroupBy"
  | join => "Join"
  | let_ => "Let"
  | into => "Into"

end QueryClauseKind

end ShaderEffect
