import InterfaceGen.Text.Invisible

/-!
# Quoted text

A text between double quotes, with every invisible character spelled by an escape, as it stands
in the dump of a parsed command line.
-/

namespace InterfaceGen.Text

def hexDigits (n : Nat) : List Char := Nat.toDigits 16 n

/-- The usual short escapes, and the code point in braces for any other invisible character. -/
def quotedChar (c : Char) : List Char :=
  if c = '\t' then ['\\', 't']
  else if c = '\n' then ['\\', 'n']
  else if c = '\r' then ['\\', 'r']
  else if c.toNat = 0 then ['\\', '0']
  else if c = '"' then ['\\', '"']
  else if c = '\\' then ['\\', '\\']
  else if isInvisible c then ['\\', 'u', '{'] ++ hexDigits c.toNat ++ ['}']
  else [c]

def quoted (s : String) : String :=
  String.ofList ('"' :: s.toList.flatMap quotedChar ++ ['"'])

end InterfaceGen.Text
