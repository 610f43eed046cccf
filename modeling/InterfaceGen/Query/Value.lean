import InterfaceGen.Decimal.Reading
import InterfaceGen.Json.Printer

/-!
# Values of a query

A query works on the values of JSON with three kinds of numbers: integers of 64 bits,
floating-point numbers, and numbers that are still as they were written. The last become
floating-point numbers as soon as they are computed with.
-/

namespace InterfaceGen.Query

inductive Number
  | integer (n : Int)
  | real (x : Float)
  /-- The text of a number that has not been computed with. -/
  | literal (text : List Char)

def fitsWord (n : Int) : Bool := -9223372036854775808 ≤ n && n < 9223372036854775808

namespace Number

def toFloat : Number → Float
  | .integer n => Float.ofInt n
  | .real x => x
  | .literal text => Decimal.ofText text

/-- A number that is not finite is written as null. -/
def text : Number → List Char
  | .integer n => Decimal.intText n
  | .real x => if x.isFinite then Decimal.Layout.query.text x else ['n', 'u', 'l', 'l']
  | .literal text => text

def ofText (text : List Char) : Number :=
  if text.all Char.isDigit && fitsWord (Decimal.digitsValue text) then
    .integer (Decimal.digitsValue text)
  else .literal text

def ofJson : Json.Number → Number
  | .integer n => if fitsWord n then .integer n else .literal (Decimal.intText n)
  | .real x => .literal (Json.Number.real x).text

end Number

inductive Value
  | null
  | boolean (b : Bool)
  | number (n : Number)
  | string (s : String)
  | array (items : List Value)
  | object (members : List (String × Value))
deriving Inhabited

namespace Value

def integer (n : Int) : Value := .number (.integer n)

def isTrue : Value → Bool
  | .null => false
  | .boolean b => b
  | _ => true

def typeName : Value → String
  | .null => "null"
  | .boolean _ => "boolean"
  | .number _ => "number"
  | .string _ => "string"
  | .array _ => "array"
  | .object _ => "object"

mutual

def ofJson : Json.Value → Value
  | .null => .null
  | .boolean b => .boolean b
  | .number n => .number (.ofJson n)
  | .string s => .string s
  | .array items => .array (ofJsonItems items)
  | .object members => .object (ofJsonMembers members)

def ofJsonItems : List Json.Value → List Value
  | [] => []
  | v :: rest => ofJson v :: ofJsonItems rest

def ofJsonMembers : List (String × Json.Value) → List (String × Value)
  | [] => []
  | (name, v) :: rest => (name, ofJson v) :: ofJsonMembers rest

end

/-- A backspace and a form feed have no escapes of their own in the text of a query's values. -/
def escapeChar (c : Char) : List Char :=
  if c = '\x08' || c = '\x0c' then Json.numericEscape c else Json.escapeChar c

def stringText (s : String) : List Char := '"' :: s.toList.flatMap escapeChar ++ ['"']

mutual

def text : Value → List Char
  | .null => Json.Value.null.compact
  | .boolean b => (Json.Value.boolean b).compact
  | .number n => n.text
  | .string s => stringText s
  | .array items => Json.listText (itemTexts items)
  | .object members => Json.recordText (memberTexts members)

def itemTexts : List Value → List (List Char)
  | [] => []
  | v :: rest => v.text :: itemTexts rest

def memberTexts : List (String × Value) → List (List Char)
  | [] => []
  | (name, v) :: rest => (stringText name ++ ':' :: v.text) :: memberTexts rest

end

end Value

theorem Number.text_ofJson (n : Json.Number) : (Number.ofJson n).text = n.text := by
  cases n with
  | integer n =>
    simp only [Number.ofJson]
    split <;> rfl
  | real x => rfl

end InterfaceGen.Query
