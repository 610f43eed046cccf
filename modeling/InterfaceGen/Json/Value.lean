import InterfaceGen.Decimal.Layout
import InterfaceGen.OrderedMap

/-!
# JSON values

An object is a list of members in order. Values that come from a text have each key once.
-/

namespace InterfaceGen.Json

/-- An integer of at most 64 bits, or a floating-point number. -/
inductive Number
  | integer (n : Int)
  | real (x : Float)
deriving DecidableEq

def Number.text : Number → List Char
  | .integer n => Decimal.intText n
  | .real x => Decimal.Layout.json.text x

inductive Value
  | null
  | boolean (b : Bool)
  | number (n : Number)
  | string (s : String)
  | array (items : List Value)
  | object (members : List (String × Value))
deriving Inhabited

end InterfaceGen.Json
