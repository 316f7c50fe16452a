import Tether.Convert
import Tether.Text.Blank
import Tether.Text.Case

set_option autoImplicit false

/- The built-in members of strings. Lengths and positions count code points. -/
namespace Tether.Builtin

/-- The character at a position, as a string of its own. -/
def charAt (text : String) (position : Int64) : Except EvalError Value :=
  let chars := text.toList
  match if position.toInt < 0 then none else chars[position.toInt.toNat]? with
  | some c => .ok (.string (String.ofList [c]))
  | none => .error (.indexOutOfRange position.toInt chars.length)

/-- The nearest number of 64 bits. -/
def saturate (number : Int) : Int :=
  max Int64.minValue.toInt (min number Int64.maxValue.toInt)

/-- The part of a text from `start`, `length` characters long or up to the end. -/
def substring (text : String) (start : Int64) (length : Option Int64) : Except EvalError Value :=
  let chars := text.toList
  let count := chars.length
  if start.toInt < 0 ∨ count < start.toInt then .error (.indexOutOfRange start.toInt count)
  else
    let rest := chars.drop start.toInt.toNat
    match length with
    | none => .ok (.string (String.ofList rest))
    | some length =>
        if length.toInt < 0 ∨ rest.length < length.toInt then
          .error (.indexOutOfRange (saturate (start.toInt + length.toInt)) count)
        else .ok (.string (String.ofList (rest.take length.toInt.toNat)))

/-- Whether `part` stands somewhere in the text. -/
def containsChars (part : List Char) : List Char → Bool
  | [] => part.isEmpty
  | c :: rest => part.isPrefixOf (c :: rest) || containsChars part rest

def stringMethod? (text : String) (name : String) (arguments : List Value) :
    Option (Except EvalError Value) :=
  match name, arguments with
  | "ToUpper", [] => some (.ok (.string (Text.upper text)))
  | "ToLower", [] => some (.ok (.string (Text.lower text)))
  | "Trim", [] => some (.ok (.string (Text.trim text)))
  | "Contains", [.string part] => some (.ok (.bool (containsChars part.toList text.toList)))
  | "StartsWith", [.string part] => some (.ok (.bool (part.toList.isPrefixOf text.toList)))
  | "EndsWith", [.string part] => some (.ok (.bool (part.toList.isSuffixOf text.toList)))
  | "Substring", [.int start] => some (substring text start none)
  | "Substring", [.int start, .int length] => some (substring text start (some length))
  | _, _ => none

end Tether.Builtin
