import Tether.World

set_option autoImplicit false

/- The built-in members of lists. Those that take a function call it on the items in order. -/
namespace Tether.Builtin

variable {κ : Type}

def itemAt (items : List Value) (position : Int64) : Except EvalError Value :=
  match if position.toInt < 0 then none else items[position.toInt.toNat]? with
  | some item => .ok item
  | none => .error (.indexOutOfRange position.toInt items.length)

def select (call : Caller κ) (handle : FunctionRef) : List Value → Eval κ (List Value)
  | [] => pure []
  | item :: items => do
      let first ← call handle [item]
      let rest ← select call handle items
      pure (first :: rest)

/-- Calls a function that has to answer with a bool. -/
def test (call : Caller κ) (handle : FunctionRef) (item : Value) : Eval κ Bool := do
  (← call handle [item]).toBool

def keepWhere (call : Caller κ) (handle : FunctionRef) : List Value → Eval κ (List Value)
  | [] => pure []
  | item :: items => do
      let kept ← test call handle item
      let rest ← keepWhere call handle items
      pure (if kept then item :: rest else rest)

/-- Stops at the first item that passes. -/
def anyWhere (call : Caller κ) (handle : FunctionRef) : List Value → Eval κ Bool
  | [] => pure false
  | item :: items => do
      if ← test call handle item then pure true else anyWhere call handle items

def listMethod? (call : Caller κ) (items : List Value) (name : String) (arguments : List Value) :
    Option (Eval κ Value) :=
  match name, arguments with
  | "Contains", [value] => some (pure (.bool (items.any (·.equals value))))
  | "Any", [] => some (pure (.bool (!items.isEmpty)))
  | "First", [] =>
      some (match items with
        | item :: _ => pure item
        | [] => throw (.failure (.indexOutOfRange 0 0)))
  | "Select", [.function handle] => some (Value.list <$> select call handle items)
  | "Where", [.function handle] => some (Value.list <$> keepWhere call handle items)
  | "Any", [.function handle] => some (Value.bool <$> anyWhere call handle items)
  | _, _ => none

end Tether.Builtin
