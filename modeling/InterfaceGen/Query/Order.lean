import InterfaceGen.Query.Value

/-!
# The order of values

Values are ordered by type first: null, false, true, numbers, strings, arrays, objects. Arrays
are ordered by their items, objects by their sorted keys and then by the values under them.
-/

namespace InterfaceGen.Query

/-- Zeros are equal whatever their sign, and what is not a number is below everything. -/
def compareFloats (x y : Float) : Ordering :=
  if x == 0 && y == 0 then .eq
  else if x.isNaN then .lt
  else if y.isNaN then .gt
  else if x < y then .lt
  else if y < x then .gt
  else .eq

def Number.compare : Number → Number → Ordering
  | .integer a, .integer b => Ord.compare a b
  | a, b => compareFloats a.toFloat b.toFloat

namespace Value

def sortMembers (members : List (String × Value)) : List (String × Value) :=
  members.mergeSort fun a b => decide (a.1 ≤ b.1)

mutual

def sorted : Value → Value
  | .array items => .array (sortedItems items)
  | .object members => .object (sortMembers (sortedMembers members))
  | v => v

def sortedItems : List Value → List Value
  | [] => []
  | v :: rest => v.sorted :: sortedItems rest

def sortedMembers : List (String × Value) → List (String × Value)
  | [] => []
  | (name, v) :: rest => (name, v.sorted) :: sortedMembers rest

end

def rank : Value → Nat
  | .null => 0
  | .boolean _ => 1
  | .number _ => 2
  | .string _ => 3
  | .array _ => 4
  | .object _ => 5

mutual

def compareSorted : Value → Value → Ordering
  | .boolean a, .boolean b => Ord.compare a b
  | .number a, .number b => a.compare b
  | .string a, .string b => Ord.compare a b
  | .array a, .array b => compareItems a b
  | .object a, .object b =>
    (Ord.compare (a.map Prod.fst) (b.map Prod.fst)).then (compareMembers a b)
  | a, b => Ord.compare a.rank b.rank

def compareItems : List Value → List Value → Ordering
  | [], [] => .eq
  | [], _ :: _ => .lt
  | _ :: _, [] => .gt
  | a :: as, b :: bs => (compareSorted a b).then (compareItems as bs)

def compareMembers : List (String × Value) → List (String × Value) → Ordering
  | [], [] => .eq
  | [], _ :: _ => .lt
  | _ :: _, [] => .gt
  | (_, a) :: as, (_, b) :: bs => (compareSorted a b).then (compareMembers as bs)

end

def compare (a b : Value) : Ordering := compareSorted a.sorted b.sorted

end Value

/-! ### Sets -/

/-- Values in ascending order, no two neighbours of them equal. -/
structure ValueSet where
  items : List Value

namespace ValueSet

/-- Puts a value into a list in descending order, before the values that are not above it. -/
def insertDescending (v : Value) : List Value → List Value
  | [] => [v]
  | w :: rest => if v.compare w = .lt then w :: insertDescending v rest else v :: w :: rest

def dropRepeats (previous : Value) : List Value → List Value
  | [] => []
  | v :: rest =>
    if v.compare previous = .eq then dropRepeats v rest else v :: dropRepeats v rest

/-- Of equal values, the set holds the one that stands last in the list. -/
def ofList (vs : List Value) : ValueSet :=
  match vs.foldl (fun sorted v => insertDescending v sorted) [] with
  | [] => ⟨[]⟩
  | v :: rest => ⟨(v :: dropRepeats v rest).reverse⟩

def holds (v : Value) : List Value → Bool
  | [] => false
  | w :: rest =>
    match v.compare w with
    | .gt => holds v rest
    | .eq => true
    | .lt => false

def contains (s : ValueSet) (v : Value) : Bool := holds v s.items

end ValueSet

inductive Comparison
  | less
  | lessOrEqual
  | greater
  | greaterOrEqual
  | equal
  | different
deriving DecidableEq

def Comparison.holds : Comparison → Ordering → Bool
  | .less, o => o == .lt
  | .lessOrEqual, o => o != .gt
  | .greater, o => o == .gt
  | .greaterOrEqual, o => o != .lt
  | .equal, o => o == .eq
  | .different, o => o != .eq

end InterfaceGen.Query
