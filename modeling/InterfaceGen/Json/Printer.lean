import InterfaceGen.Json.Value

/-!
# Printing JSON

Two layouts of a value: compact, without any blank, and pretty, with one entry on a line and two
spaces a level. Only the quote, the backslash and the control characters below the space are
escaped.
-/

namespace InterfaceGen.Json

def hexDigit (n : Nat) : Char := Nat.digitChar n

def numericEscape (c : Char) : List Char :=
  ['\\', 'u', '0', '0', hexDigit (c.toNat / 16), hexDigit (c.toNat % 16)]

def escapeChar (c : Char) : List Char :=
  if c = '"' then ['\\', '"']
  else if c = '\\' then ['\\', '\\']
  else if 0x20 ≤ c.toNat then [c]
  else if c = '\n' then ['\\', 'n']
  else if c = '\r' then ['\\', 'r']
  else if c = '\t' then ['\\', 't']
  else if c = '\x08' then ['\\', 'b']
  else if c = '\x0c' then ['\\', 'f']
  else numericEscape c

def stringText (s : String) : List Char := '"' :: s.toList.flatMap escapeChar ++ ['"']

def commaSeparated : List (List Char) → List Char
  | [] => []
  | [t] => t
  | t :: rest => t ++ ',' :: commaSeparated rest

def memberText (name : String) (value : List Char) : List Char := stringText name ++ ':' :: value

def recordText (members : List (List Char)) : List Char :=
  '{' :: commaSeparated members ++ ['}']

def listText (items : List (List Char)) : List Char := '[' :: commaSeparated items ++ [']']

mutual

def Value.compact : Value → List Char
  | .null => ['n', 'u', 'l', 'l']
  | .boolean true => ['t', 'r', 'u', 'e']
  | .boolean false => ['f', 'a', 'l', 's', 'e']
  | .number n => n.text
  | .string s => stringText s
  | .array items => listText (compactItems items)
  | .object members => recordText (compactMembers members)

def Value.compactItems : List Value → List (List Char)
  | [] => []
  | v :: rest => v.compact :: compactItems rest

def Value.compactMembers : List (String × Value) → List (List Char)
  | [] => []
  | (name, v) :: rest => memberText name v.compact :: compactMembers rest

end

def indentation (level : Nat) : List Char := List.replicate (2 * level) ' '

/-- The entries of an enclosure on lines of their own; an enclosure without entries stays on one
line. -/
def prettyBlock (opening closing : Char) (level : Nat) : List (List Char) → List Char
  | [] => [opening, closing]
  | entries =>
    opening :: commaSeparated (entries.map fun e => '\n' :: indentation (level + 1) ++ e) ++
      '\n' :: indentation level ++ [closing]

mutual

def Value.pretty (level : Nat) : Value → List Char
  | .array items => prettyBlock '[' ']' level (prettyItems (level + 1) items)
  | .object members => prettyBlock '{' '}' level (prettyMembers (level + 1) members)
  | .null => Value.null.compact
  | .boolean b => (Value.boolean b).compact
  | .number n => (Value.number n).compact
  | .string s => (Value.string s).compact

def Value.prettyItems (level : Nat) : List Value → List (List Char)
  | [] => []
  | v :: rest => v.pretty level :: prettyItems level rest

def Value.prettyMembers (level : Nat) : List (String × Value) → List (List Char)
  | [] => []
  | (name, v) :: rest =>
    (stringText name ++ ':' :: ' ' :: v.pretty level) :: prettyMembers level rest

end

def Value.text (v : Value) : String := String.ofList v.compact

def Value.prettyText (v : Value) : String := String.ofList (v.pretty 0)

end InterfaceGen.Json
