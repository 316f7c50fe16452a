import Tether.Operator

set_option autoImplicit false

/- What can go wrong in each phase, and how it is said. Every failure ends the call at hand. -/
namespace Tether

/-- Why a computation ends without a value. It fails, or its calls nest deeper than there is room
for. The second is no answer: a computation that does not return runs out of room however much
there is. -/
inductive Halt (ε : Type) where
  | failure (error : ε)
  | overflow
deriving DecidableEq, Repr

def Halt.map {ε ε' : Type} (change : ε → ε') : Halt ε → Halt ε'
  | .failure error => .failure (change error)
  | .overflow => .overflow

/-- Failures while member chains are resolved. -/
inductive ResolveError where
  | unknownRoot (name : String)
  | cannotFlatten (expression : String)
  | staticEvaluation (expression reason : String)
deriving DecidableEq, Repr

def ResolveError.message : ResolveError → String
  | .unknownRoot name => s!"cannot resolve member: unknown macro '${name}'"
  | .cannotFlatten expression => s!"cannot resolve member expression `{expression}`"
  | .staticEvaluation expression reason =>
      s!"cannot evaluate static expression `{expression}`: {reason}"

/-- A short name of the cause, for programs. -/
def ResolveError.name : ResolveError → String
  | .unknownRoot _ => "UnknownMacro"
  | .cannotFlatten _ => "CannotFlatten"
  | .staticEvaluation _ _ => "StaticEvaluation"

/-- Failures while an expression is compiled. -/
inductive CompileError where
  | unresolvedMember (member : String) (index : Int)
  | cannotCompile (expression : String)
  | noStrategy (expression : String)
  | typeMismatch (expression reason : String)
  | internal (reason : String)
deriving DecidableEq, Repr

def CompileError.message : CompileError → String
  | .unresolvedMember member index =>
      s!"cannot compile expression: binding member '{member}' has invalid index {index}"
  | .cannotCompile expression => s!"cannot compile expression `{expression}`"
  | .noStrategy expression =>
      s!"cannot compile expression `{expression}`: no compile strategy accepted it"
  | .typeMismatch expression reason => s!"cannot compile expression `{expression}`: {reason}"
  | .internal reason => s!"internal error: {reason}"

def CompileError.name : CompileError → String
  | .unresolvedMember _ _ => "UnresolvedMember"
  | .cannotCompile _ => "CannotCompile"
  | .noStrategy _ => "NoStrategy"
  | .typeMismatch _ _ => "TypeMismatch"
  | .internal _ => "Internal"

/-- Failures while an expression is evaluated. -/
inductive EvalError where
  | argumentCount (expected got : Nat)
  | typeMismatch (expected actual : String)
  | nullReference (member : String)
  | unknownMember (member typeName : String)
  | unknownMethod (method typeName : String)
  | indexOutOfRange (index : Int) (length : Nat)
  | divisionByZero
  | noOperator (op : BinaryOp) (left right : String)
  | host (message : String)
deriving DecidableEq, Repr

def EvalError.message : EvalError → String
  | .argumentCount expected got => s!"expected {expected} argument(s), got {got}"
  | .typeMismatch expected actual => s!"type mismatch: expected {expected}, got {actual}"
  | .nullReference member => s!"null reference: cannot access '{member}' on null"
  | .unknownMember member typeName => s!"unknown member '{member}' on type '{typeName}'"
  | .unknownMethod method typeName => s!"unknown method '{method}' on type '{typeName}'"
  | .indexOutOfRange index length => s!"index {index} out of range for length {length}"
  | .divisionByZero => "division by zero"
  | .noOperator op left right =>
      s!"operator '{op.symbol}' is not defined for {left} and {right}"
  | .host message => message

def EvalError.name : EvalError → String
  | .argumentCount _ _ => "ArgumentCount"
  | .typeMismatch _ _ => "TypeMismatch"
  | .nullReference _ => "NullReference"
  | .unknownMember _ _ => "UnknownMember"
  | .unknownMethod _ _ => "UnknownMethod"
  | .indexOutOfRange _ _ => "IndexOutOfRange"
  | .divisionByZero => "DivisionByZero"
  | .noOperator _ _ _ => "NoOperator"
  | .host _ => "Host"

/-- A failure of any phase. -/
inductive Error where
  | resolve (error : ResolveError)
  | compile (error : CompileError)
  | eval (error : EvalError)
deriving DecidableEq, Repr

def Error.message : Error → String
  | .resolve error => error.message
  | .compile error => error.message
  | .eval error => error.message

def Error.name : Error → String
  | .resolve error => "Resolve." ++ error.name
  | .compile error => "Compilation." ++ error.name
  | .eval error => "Runtime." ++ error.name

def Error.phase : Error → String
  | .resolve _ => "resolve"
  | .compile _ => "compilation"
  | .eval _ => "runtime"

end Tether
