import InterfaceGen.Query.Order
import InterfaceGen.Query.Results

/-!
# Calculating with values

Sums, differences and products of numbers and of other values. Where an integer would outgrow
64 bits, floating-point numbers are calculated with instead.
-/

namespace InterfaceGen.Query

namespace Number

/-- The result for two integers if it is one of 64 bits, and else the result for the
floating-point numbers nearest to them. -/
def calculate (exact : Int → Int → Int) (rounded : Float → Float → Float) :
    Number → Number → Number
  | .integer a, .integer b =>
    if fitsWord (exact a b) then .integer (exact a b)
    else .real (rounded (Float.ofInt a) (Float.ofInt b))
  | a, b => .real (rounded a.toFloat b.toFloat)

def add : Number → Number → Number := calculate (· + ·) (· + ·)

def subtract : Number → Number → Number := calculate (· - ·) (· - ·)

def multiply : Number → Number → Number := calculate (· * ·) (· * ·)

/-- The least integer, whose opposite does not have 64 bits, is its own opposite. -/
def negate : Number → Number
  | .integer n => .integer (Int.bmod (-n) 18446744073709551616)
  | x => .real (-x.toFloat)

def magnitude : Number → Number
  | .integer n => if n < 0 then negate (.integer n) else .integer n
  | x => .real x.toFloat.abs

end Number

namespace Value

mutual

/-- Writes the members of one object into another; where both hold an object under the same key,
the two are merged in turn. -/
def mergeMembers (members : List (String × Value)) :
    List (String × Value) → List (String × Value)
  | [] => members
  | (name, v) :: rest =>
    mergeMembers (OrderedMap.insert members name (mergeOnto (OrderedMap.find? members name) v)) rest

def mergeOnto (old : Option Value) : Value → Value
  | .object members =>
    match old with
    | some (.object oldMembers) => .object (mergeMembers oldMembers members)
    | _ => .object members
  | v => v

end

/-- A text several times over; not even once gives null. -/
def repeated (s : String) (times : Int) : Value :=
  if times ≤ 0 then .null else .string (String.join (List.replicate times.toNat s))

def negate : Value → Except Failure Value
  | .number n => .ok (.number n.negate)
  | v => .error (.wrongType v .number)

def length : Value → Except Failure Value
  | .null => .ok (.integer 0)
  | .boolean b => .error (.withoutLength (.boolean b))
  | .number n => .ok (.number n.magnitude)
  | .string s => .ok (.integer s.length)
  | .array items => .ok (.integer items.length)
  | .object members => .ok (.integer members.length)

end Value

/-- Null is neutral in a sum, and the right one of two objects has the last word on a key. A
difference of arrays keeps the items that are not found in the set of the right ones. -/
def Arithmetic.apply : Arithmetic → Value → Value → Except Failure Value
  | .add, .null, v => .ok v
  | .add, v, .null => .ok v
  | .add, .number a, .number b => .ok (.number (a.add b))
  | .add, .string a, .string b => .ok (.string (a ++ b))
  | .add, .array a, .array b => .ok (.array (a ++ b))
  | .add, .object a, .object b => .ok (.object (OrderedMap.insertAll a b))
  | .subtract, .number a, .number b => .ok (.number (a.subtract b))
  | .subtract, .array a, .array b =>
    let others := ValueSet.ofList b
    .ok (.array (a.filter fun item => !others.contains item))
  | .multiply, .number a, .number b => .ok (.number (a.multiply b))
  | .multiply, .string s, .number (.integer n) => .ok (.repeated s n)
  | .multiply, .number (.integer n), .string s => .ok (.repeated s n)
  | .multiply, .object a, .object b => .ok (.object (Value.mergeMembers a b))
  | op, l, r => .error (.cannotCalculate l op r)

end InterfaceGen.Query
