import Tether.Text.Hex
import Tether.Text.Invisible

set_option autoImplicit false

/- Quoted text: between double quotes, with the quote, the backslash and the usual controls
escaped, and every invisible character spelled out by its code point in braces. -/
namespace Tether.Text

def spellOut (c : Char) : List Char :=
  ['\\', 'u', '\x7b'] ++ hexDigits c.toNat ++ ['\x7d']

def escapeChar (c : Char) : List Char :=
  if c == '\x00' then ['\\', '0']
  else if c == '\t' then ['\\', 't']
  else if c == '\r' then ['\\', 'r']
  else if c == '\n' then ['\\', 'n']
  else if c == '"' then ['\\', '"']
  else if c == '\\' then ['\\', '\\']
  else if isInvisible c then spellOut c
  else [c]

def quotedChars (chars : List Char) : List Char :=
  '"' :: (chars.flatMap escapeChar ++ ['"'])

def quoted (text : String) : String :=
  String.ofList (quotedChars text.toList)

end Tether.Text
