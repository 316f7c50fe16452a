import Tether.Builtin.Sequence
import Tether.Builtin.Text

set_option autoImplicit false

/- Members, items and methods of any value. Host objects answer for themselves; strings, lists and
functions have a few built-ins. -/
namespace Tether.Value

variable {κ : Type}

def member (call : Caller κ) (target : Value) (name : String) : Eval κ Value :=
  match target with
  | .object handle => handle.member call name
  | .null => throw (.failure (.nullReference name))
  | .string text =>
      if name == "Length" then pure (.int (Int64.ofNat text.length))
      else throw (.failure (.unknownMember name target.typeName))
  | .list items =>
      if name == "Count" || name == "Length" then pure (.int (Int64.ofNat items.length))
      else throw (.failure (.unknownMember name target.typeName))
  | _ => throw (.failure (.unknownMember name target.typeName))

def item (call : Caller κ) (target : Value) (arguments : List Value) : Eval κ Value :=
  match target, arguments with
  | .object handle, _ => handle.item call arguments
  | .null, _ => throw (.failure (.nullReference "[]"))
  | .list items, [.int position] => Builtin.itemAt items position
  | .string text, [.int position] => Builtin.charAt text position
  | _, _ => throw (.failure (mismatch "indexable value" target))

/-- The methods that every value but null and host objects has. -/
def commonMethod? (target : Value) (name : String) (arguments : List Value) : Option Value :=
  match name, arguments with
  | "ToString", [] => some (.string target.text)
  | "Equals", [other] => some (.bool (target.equals other))
  | _, _ => none

def builtinMethod? (call : Caller κ) (target : Value) (name : String) (arguments : List Value) :
    Option (Eval κ Value) :=
  match commonMethod? target name arguments with
  | some value => some (pure value)
  | none =>
      match target with
      | .string text => (Builtin.stringMethod? text name arguments).map liftM
      | .list items => Builtin.listMethod? call items name arguments
      | _ => none

def builtinMethod (call : Caller κ) (target : Value) (name : String) (arguments : List Value) :
    Eval κ Value :=
  match builtinMethod? call target name arguments with
  | some result => result
  | none => throw (.failure (.unknownMethod name target.typeName))

def method (call : Caller κ) (target : Value) (name : String) (arguments : List Value) :
    Eval κ Value :=
  match target with
  | .object handle => handle.method call name arguments
  | .null => throw (.failure (.nullReference (name ++ "()")))
  | .function handle =>
      if name == "Invoke" then call handle arguments
      else builtinMethod call target name arguments
  | _ => builtinMethod call target name arguments

end Tether.Value
