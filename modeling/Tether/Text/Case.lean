import Tether.Text.CaseTable
import Tether.Text.Cased

set_option autoImplicit false

/- Full upper and lower case of a text. One character may become several, and a capital sigma
that ends a word gets its final form. -/
namespace Tether.Text

def shiftCase (runs : Array CaseRun) (c : Char) : Char :=
  match runs.find? (·.covers c.toNat) with
  | some run => Char.ofNat (c.toNat + run.delta).toNat
  | none => c

def mapCase (runs : Array CaseRun) (expansions : Array (Nat × List Nat)) (c : Char) : List Char :=
  match expansions.find? (·.1 == c.toNat) with
  | some (_, codes) => codes.map Char.ofNat
  | none => [shiftCase runs c]

def upperChars (chars : List Char) : List Char :=
  chars.flatMap (mapCase upperRuns upperExpansions)

/-- Whether the nearest character that is not transparent to case has case. -/
def meetsCased (chars : List Char) : Bool :=
  match chars.dropWhile isCaseIgnorable with
  | c :: _ => isCased c
  | [] => false

/-- Lowers a text whose part already read is `before`, nearest character first. A sigma is final
when a cased character stands before it and none after it. -/
def lowerChars (before : List Char) : List Char → List Char
  | [] => []
  | c :: rest =>
      let lowered :=
        if c == 'Σ' then
          [if meetsCased before && !meetsCased rest then 'ς' else 'σ']
        else mapCase lowerRuns lowerExpansions c
      lowered ++ lowerChars (c :: before) rest

def upper (text : String) : String :=
  String.ofList (upperChars text.toList)

def lower (text : String) : String :=
  String.ofList (lowerChars [] text.toList)

end Tether.Text
