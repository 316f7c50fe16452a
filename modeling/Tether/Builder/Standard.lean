import Tether.Build

set_option autoImplicit false

/- The standard builders, one for each kind of node but placeholders, which are left to the
fallback table. Static types pick the form of an operator; `object` stands for any type. -/
namespace Tether.Builder

/-- The type two fragments share, or `object`. -/
def joinTypes (left right : TypeTag) : TypeTag :=
  if left == right then left else .object

/-- Reads the innermost parameter of a name, where there is one. -/
def readParameter (name : String) : Build (Option Fragment) := do
  let position := (← Build.context).parameter? name
  pure (position.map fun position => { tag := .object, code := .localAt position })

def constant : Builder where
  priority := 1000
  respond offer :=
    match offer.node with
    | .constant value => pure (some (.ofValue value))
    | _ => pure none

def parameter : Builder where
  priority := 990
  respond offer :=
    match offer.node with
    | .parameter name => readParameter name
    | _ => pure none

def lambda : Builder where
  priority := 980
  respond offer :=
    match offer.node with
    | .lambda names (_, body) => do
        let body ← Build.underParameters names body
        pure (some { tag := .function, code := .lambda names.length body.code })
    | _ => pure none

def requireTest (expression : String) (test : Fragment) : Except CompileError Unit :=
  if test.tag == .bool || test.tag == .object then .ok ()
  else .error (.typeMismatch expression s!"condition must be bool, found {test.tag.text}")

/-- A test that is known selects its branch at once. -/
def branch (test whenTrue whenFalse : Fragment) : Fragment :=
  match test.constant with
  | some (.bool flag) => if flag then whenTrue else whenFalse
  | _ =>
      { tag := joinTypes whenTrue.tag whenFalse.tag
        code := .condition test.code whenTrue.code whenFalse.code }

/-- Both branches are built, also when the test is known. -/
def condition : Builder where
  priority := 900
  respond offer :=
    match offer.node with
    | .condition (testExpr, test) (_, whenTrue) (_, whenFalse) => do
        let test ← test
        requireTest testExpr.text test
        let whenTrue ← whenTrue
        let whenFalse ← whenFalse
        pure (some (branch test whenTrue whenFalse))
    | _ => pure none

/-- The type of an operator's result, if it is defined for the operand's type. -/
def unaryType? (op : UnaryOp) (operand : TypeTag) : Option TypeTag :=
  if operand == .object then some (if op == .not then .bool else .object)
  else
    match op with
    | .negate => if operand.isNumeric then some operand else none
    | .not => if operand == .bool then some .bool else none
    | .complement => if operand == .int then some .int else none
    | .dynamic | .static => none

/-- An operator on one operand, computed at once where the operand is known and has a result. -/
def applyUnary (expression : String) (op : UnaryOp) (operand : Fragment) :
    Except CompileError Fragment :=
  match unaryType? op operand.tag with
  | none =>
      .error (.typeMismatch expression
        s!"operator '{op.symbol}' is not defined for {operand.tag.text}")
  | some tag =>
      match operand.constant.map (Value.unary op) with
      | some (.ok folded) => .ok (.ofValue folded)
      | _ => .ok { tag, code := .unary op operand.code }

def unary : Builder where
  priority := 890
  respond offer :=
    match offer.node with
    | .unary op (_, operand) =>
        if op.namesRoot then pure none
        else do
          let operand ← operand
          let applied ← applyUnary offer.text op operand
          pure (some applied)
    | _ => pure none

def requireBool (expression : String) (operand : Fragment) : Except CompileError Unit :=
  if operand.tag == .bool || operand.tag == .object then .ok ()
  else .error (.typeMismatch expression s!"expected bool operand, found {operand.tag.text}")

/-- The operators that compute a new value, in the form that the operands' types allow. -/
def specialize (expression : String) (op : BinaryOp) (left right : Fragment) :
    Except CompileError Fragment :=
  if op.isArithmetic && (left.tag == .bool || right.tag == .bool) then
    .error (.typeMismatch expression
      s!"operator '{op.symbol}' is not defined for {left.tag.text} and {right.tag.text}")
  else if left.tag == .int && right.tag == .int then
    .ok { tag := .int, code := .intBinary op left.code right.code }
  else if op.isArithmetic && left.tag.isNumeric && right.tag.isNumeric then
    .ok { tag := .double, code := .doubleBinary op left.code right.code }
  else if op == .add && (left.tag == .string || right.tag == .string) then
    .ok { tag := .string, code := .concat left.code right.code }
  else
    .ok { tag := .object, code := .binary op left.code right.code }

def combine (expression : String) (op : BinaryOp) (left right : Fragment) :
    Except CompileError Fragment :=
  match op with
  | .and | .or => do
      requireBool expression left
      requireBool expression right
      pure { tag := .bool, code := .logical (op == .or) left.code right.code }
  | .coalesce =>
      .ok { tag := joinTypes left.tag right.tag, code := .coalesce left.code right.code }
  | _ =>
      if op.isComparison then .ok { tag := .bool, code := .compare op left.code right.code }
      else specialize expression op left right

/-- The value of an operator on two known operands, if it has one. -/
def foldBinary? (op : BinaryOp) (left right : Fragment) : Option Value :=
  match left.constant, right.constant with
  | some first, some second => (Value.binary op first second).toOption
  | _, _ => none

/-- An operator on two operands, computed at once where both are known and have a result. -/
def applyBinary (expression : String) (op : BinaryOp) (left right : Fragment) :
    Except CompileError Fragment :=
  match foldBinary? op left right with
  | some folded => .ok (.ofValue folded)
  | none => combine expression op left right

def binary : Builder where
  priority := 880
  respond offer :=
    match offer.node with
    | .binary op (_, left) (_, right) => do
        let left ← left
        let right ← right
        let applied ← applyBinary offer.text op left right
        pure (some applied)
    | _ => pure none

def memberType (target : TypeTag) (name : String) : TypeTag :=
  if (target == .string || target == .list) && (name == "Length" || name == "Count") then .int
  else .object

def member : Builder where
  priority := 870
  respond offer :=
    match offer.node with
    | .member none name => readParameter name
    | .member (some (_, target)) name => do
        let target ← target
        pure (some { tag := memberType target.tag name, code := .member target.code name })
    | _ => pure none

/-- Builds the arguments of an index or a call in order. -/
def buildAll (arguments : List (Expr × Build Fragment)) : Build (List Code) :=
  arguments.mapM fun argument => Fragment.code <$> argument.2

def index : Builder where
  priority := 860
  respond offer :=
    match offer.node with
    | .index (some (_, target)) arguments => do
        let target ← target
        let arguments ← buildAll arguments
        pure (some
          { tag := if target.tag == .string then .string else .object
            code := .index target.code arguments })
    | _ => pure none

/-- Only the built-in methods of built-in types have a known type. -/
def methodType (target : TypeTag) (method : String) : TypeTag :=
  if target == .object || target.name?.isNone then .object
  else
    match method with
    | "ToString" | "ToUpper" | "ToLower" | "Trim" | "Substring" => .string
    | "Equals" | "Contains" | "StartsWith" | "EndsWith" | "Any" => .bool
    | _ => .object

def call : Builder where
  priority := 850
  respond offer :=
    match offer.node with
    | .call (some (_, target)) method arguments => do
        let target ← target
        let arguments ← buildAll arguments
        pure (some
          { tag := methodType target.tag method, code := .call target.code method arguments })
    | _ => pure none

def named : List (String × Builder) :=
  [("Constant", constant), ("Parameter", parameter), ("Lambda", lambda),
    ("Conditional", condition), ("Unary", unary), ("Binary", binary), ("Member", member),
    ("Index", index), ("MethodCall", call)]

def standard : List Builder :=
  sort (named.map Prod.snd)

end Tether.Builder
