set_option autoImplicit false

/- The operators of binding expressions. -/
namespace Tether

inductive BinaryOp where
  | coalesce
  | or
  | and
  | bitOr
  | bitXor
  | bitAnd
  | equal
  | notEqual
  | less
  | lessEqual
  | greater
  | greaterEqual
  | shiftLeft
  | shiftRight
  | add
  | sub
  | mul
  | div
  | rem
deriving DecidableEq, Repr

namespace BinaryOp

def symbol : BinaryOp → String
  | .coalesce => "??"
  | .or => "||"
  | .and => "&&"
  | .bitOr => "|"
  | .bitXor => "^"
  | .bitAnd => "&"
  | .equal => "=="
  | .notEqual => "!="
  | .less => "<"
  | .lessEqual => "<="
  | .greater => ">"
  | .greaterEqual => ">="
  | .shiftLeft => "<<"
  | .shiftRight => ">>"
  | .add => "+"
  | .sub => "-"
  | .mul => "*"
  | .div => "/"
  | .rem => "%"

def name : BinaryOp → String
  | .coalesce => "NullCoalescing"
  | .or => "LogicalOr"
  | .and => "LogicalAnd"
  | .bitOr => "BitwiseOr"
  | .bitXor => "BitwiseXor"
  | .bitAnd => "BitwiseAnd"
  | .equal => "Equal"
  | .notEqual => "NotEqual"
  | .less => "Less"
  | .lessEqual => "LessEqual"
  | .greater => "Greater"
  | .greaterEqual => "GreaterEqual"
  | .shiftLeft => "ShiftLeft"
  | .shiftRight => "ShiftRight"
  | .add => "Add"
  | .sub => "Sub"
  | .mul => "Mul"
  | .div => "Div"
  | .rem => "Rem"

def all : List BinaryOp :=
  [.coalesce, .or, .and, .bitOr, .bitXor, .bitAnd, .equal, .notEqual, .less, .lessEqual, .greater,
    .greaterEqual, .shiftLeft, .shiftRight, .add, .sub, .mul, .div, .rem]

def ofSymbol? (text : String) : Option BinaryOp :=
  all.find? (·.symbol == text)

def isArithmetic : BinaryOp → Bool
  | .add | .sub | .mul | .div | .rem => true
  | _ => false

def isComparison : BinaryOp → Bool
  | .equal | .notEqual | .less | .lessEqual | .greater | .greaterEqual => true
  | _ => false

def isShortCircuit : BinaryOp → Bool
  | .and | .or | .coalesce => true
  | _ => false

end BinaryOp

/-- The last two name a root: `$` one that is read on every evaluation, `$$` one whose value is
taken when names are resolved. -/
inductive UnaryOp where
  | negate
  | not
  | complement
  | dynamic
  | static
deriving DecidableEq, Repr

namespace UnaryOp

def symbol : UnaryOp → String
  | .negate => "-"
  | .not => "!"
  | .complement => "~"
  | .dynamic => "$"
  | .static => "$$"

def name : UnaryOp → String
  | .negate => "Minus"
  | .not => "Not"
  | .complement => "BitwiseNot"
  | .dynamic => "DynamicExpression"
  | .static => "StaticExpression"

def all : List UnaryOp :=
  [.negate, .not, .complement, .dynamic, .static]

def ofSymbol? (text : String) : Option UnaryOp :=
  all.find? (·.symbol == text)

def namesRoot : UnaryOp → Bool
  | .dynamic | .static => true
  | _ => false

end UnaryOp

end Tether
