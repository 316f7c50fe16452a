import Tether.Convert

set_option autoImplicit false

/- The operators on values. Integers are 64 bits wide and wrap around; a mixed pair of numbers is
computed in doubles. -/
namespace Tether.Value

def noOperator (op : BinaryOp) (left right : Value) : EvalError :=
  .noOperator op left.typeName right.typeName

/-- A shift goes by the distance modulo 64. -/
def intBinary (op : BinaryOp) (a b : Int64) : Except EvalError Value :=
  match op with
  | .add => .ok (.int (a + b))
  | .sub => .ok (.int (a - b))
  | .mul => .ok (.int (a * b))
  | .div => if b == 0 then .error .divisionByZero else .ok (.int (a / b))
  | .rem => if b == 0 then .error .divisionByZero else .ok (.int (a % b))
  | .bitAnd => .ok (.int (a &&& b))
  | .bitOr => .ok (.int (a ||| b))
  | .bitXor => .ok (.int (a ^^^ b))
  | .shiftLeft => .ok (.int (a <<< b))
  | .shiftRight => .ok (.int (a >>> b))
  | _ => .error (noOperator op (.int a) (.int b))

def doubleBinary (op : BinaryOp) (a b : Float) : Except EvalError Value :=
  match op with
  | .add => .ok (.double (a + b))
  | .sub => .ok (.double (a - b))
  | .mul => .ok (.double (a * b))
  | .div => .ok (.double (a / b))
  | .rem => .ok (.double (Double.remainder a b))
  | _ => .error (noOperator op (.double a) (.double b))

def boolBinary (op : BinaryOp) (a b : Bool) : Except EvalError Value :=
  match op with
  | .bitAnd => .ok (.bool (a && b))
  | .bitOr => .ok (.bool (a || b))
  | .bitXor => .ok (.bool (a != b))
  | _ => .error (noOperator op (.bool a) (.bool b))

def concat (left right : Value) : Value :=
  .string (left.text ++ right.text)

def orderStrings (left right : String) : Ordering :=
  if left < right then .lt else if left == right then .eq else .gt

def orderInts (left right : Int64) : Ordering :=
  if left < right then .lt else if left == right then .eq else .gt

/-- Doubles that include a NaN have no order. -/
def orderDoubles? (left right : Float) : Option Ordering :=
  if left < right then some .lt
  else if left == right then some .eq
  else if right < left then some .gt
  else none

/-- Whether an order satisfies one of the four order relations. -/
def satisfies? (op : BinaryOp) (order : Ordering) : Option Bool :=
  match op with
  | .less => some (order == .lt)
  | .lessEqual => some (order != .gt)
  | .greater => some (order == .gt)
  | .greaterEqual => some (order != .lt)
  | _ => none

/-- Orders two values and asks the relation; null and NaN satisfy none. -/
def relate (op : BinaryOp) (left right : Value) : Except EvalError Bool :=
  let decideBy (order : Ordering) : Except EvalError Bool :=
    match satisfies? op order with
    | some answer => .ok answer
    | none => .error (noOperator op left right)
  match left, right with
  | .null, _ => .ok false
  | _, .null => .ok false
  | .int a, .int b => decideBy (orderInts a b)
  | .string a, .string b => decideBy (orderStrings a b)
  | _, _ =>
      match left.asDouble?, right.asDouble? with
      | some a, some b =>
          match orderDoubles? a b with
          | some order => decideBy order
          | none => .ok false
      | _, _ => .error (noOperator op left right)

def compare (op : BinaryOp) (left right : Value) : Except EvalError Bool :=
  match op with
  | .equal => .ok (left.equals right)
  | .notEqual => .ok (!left.equals right)
  | _ => relate op left right

/-- Numbers by double arithmetic; nothing else can be combined here. -/
def combineNumbers (op : BinaryOp) (left right : Value) : Except EvalError Value :=
  match left.asDouble?, right.asDouble? with
  | some a, some b => doubleBinary op a b
  | _, _ => .error (noOperator op left right)

/-- The operators that compute a new value from two operands. -/
def combine (op : BinaryOp) (left right : Value) : Except EvalError Value :=
  match left, right with
  | .int a, .int b => intBinary op a b
  | .bool a, .bool b => boolBinary op a b
  | .string _, _ =>
      if op == .add then .ok (concat left right) else combineNumbers op left right
  | _, .string _ =>
      if op == .add then .ok (concat left right) else combineNumbers op left right
  | _, _ => combineNumbers op left right

/-- Applies an operator to two values. The logical operators look at the right one only when the
left one does not decide. -/
def binary (op : BinaryOp) (left right : Value) : Except EvalError Value :=
  match op with
  | .coalesce => .ok (if left.isNull then right else left)
  | .and => do
      if ← left.toBool then return .bool (← right.toBool) else return .bool false
  | .or => do
      if ← left.toBool then return .bool true else return .bool (← right.toBool)
  | _ => if op.isComparison then (compare op left right).map .bool else combine op left right

def unary (op : UnaryOp) (operand : Value) : Except EvalError Value :=
  match op, operand with
  | .negate, .int number => .ok (.int (-number))
  | .negate, .double number => .ok (.double (-number))
  | .not, .bool flag => .ok (.bool (!flag))
  | .complement, .int number => .ok (.int (~~~number))
  | _, _ => .error (mismatch s!"operand for '{op.symbol}'" operand)

end Tether.Value
