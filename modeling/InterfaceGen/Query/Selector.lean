import InterfaceGen.OrderedMap
import InterfaceGen.Query.Results

/-!
# Selectors

A selector names parts of an array or object: the one under a key, all of them, or a slice.
The parts can be read, and they can be replaced in place.
-/

namespace InterfaceGen.Query

/-- A place counted from the front, or from the end when it is negative; none when that lies
before the front. -/
def placeFromFront (i : Int) (size : Nat) : Option Nat :=
  if 0 ≤ i then some i.toNat
  else if i.natAbs ≤ size then some (size - i.natAbs)
  else none

def itemPlace (i : Int) (size : Nat) : Option Nat :=
  (placeFromFront i size).filter (· < size)

/-- One end of a slice, moved to the nearest end of the whole when it lies outside. -/
def slicePlace (size : Nat) (absent : Nat) : Option Int → Nat
  | none => absent
  | some i => min ((placeFromFront i size).getD 0) size

structure Cut (α : Type) where
  before : List α
  slice : List α
  after : List α

def Cut.of {α : Type} (items : List α) (start stop : Option Int) : Cut α :=
  let start := slicePlace items.length 0 start
  let stop := max start (slicePlace items.length items.length stop)
  ⟨items.take start, (items.take stop).drop start, items.drop stop⟩

namespace Value

def toInteger : Value → Except Failure Int
  | .number (.integer n) => .ok n
  | v => .error (.wrongType v .integer)

def parts : Value → Except Failure (List Value)
  | .array items => .ok items
  | .object members => .ok (members.map Prod.snd)
  | v => .error (.wrongType v .iterable)

def lookup : Value → Value → Except Failure Value
  | .array items, .number (.integer i) =>
    .ok (((itemPlace i items.length).bind (items[·]?)).getD .null)
  | .object members, .string name => .ok ((OrderedMap.find? members name).getD .null)
  | .array items, key => .error (.cannotIndex (.array items) key)
  | .object members, key => .error (.cannotIndex (.object members) key)
  | v, _ => .error (.wrongType v .iterable)

def has : Value → Value → Except Failure Bool
  | .array items, .number (.integer i) =>
    if 0 ≤ i then .ok (i < items.length)
    else .error (.cannotIndex (.array items) (.integer i))
  | .object members, .string name => .ok (OrderedMap.find? members name).isSome
  | v, key => .error (.cannotIndex v key)

def slice (v : Value) (start stop : Option Int) : Except Failure Value :=
  match v with
  | .array items => .ok (.array (Cut.of items start stop).slice)
  | .string s => .ok (.string (String.ofList (Cut.of s.toList start stop).slice))
  | v => .error (.wrongType v .sliceable)

def keys : Value → Except Failure (List Value)
  | .array items => .ok ((List.range items.length).map fun (i : Nat) => .integer i)
  | .object members => .ok (members.map fun member => .string member.1)
  | v => .error (.wrongType v .iterable)

/-! ### Replacing parts -/

/-- Replaces the value under a key by the first result; a key without any is removed, and the
last member takes its place. -/
def replaceMember (members : List (String × Value)) (name : String) (f : Value → Stream) :
    Except Failure (List (String × Value)) :=
  match OrderedMap.find? members name with
  | none => (f .null).first?.map fun
    | some v => members ++ [(name, v)]
    | none => members
  | some old => (f old).first?.map fun
    | some v => OrderedMap.insert members name v
    | none =>
      let before := members.takeWhile (·.1 ≠ name)
      let after := (members.dropWhile (·.1 ≠ name)).drop 1
      match after.getLast? with
      | some last => before ++ last :: after.dropLast
      | none => before

def replaceItem (items : List Value) (i : Nat) (f : Value → Stream) :
    Except Failure (List Value) :=
  match items[i]? with
  | none => .ok items
  | some old => (f old).first?.map fun
    | some v => items.set i v
    | none => items.eraseIdx i

def replaceAt (f : Value → Stream) : Value → Value → Except Failure Value
  | .object members, .string name => (replaceMember members name f).map .object
  | .object members, key => .error (.cannotIndex (.object members) key)
  | .array items, key =>
    match key.toInteger with
    | .error e => .error e
    | .ok i =>
      match itemPlace i items.length with
      | none => .error (.outOfBounds key)
      | some place => (replaceItem items place f).map .array
  | v, _ => .error (.wrongType v .iterable)

/-- Each member becomes the first result. -/
def replaceMembers (f : Value → Stream) :
    List (String × Value) → Except Failure (List (String × Value))
  | [] => .ok []
  | (name, v) :: rest =>
    match (f v).first? with
    | .error e => .error e
    | .ok none => replaceMembers f rest
    | .ok (some v') => (replaceMembers f rest).map ((name, v') :: ·)

/-- Each item becomes all of its results. -/
def replaceItems (f : Value → Stream) : List Value → Except Failure (List Value)
  | [] => .ok []
  | v :: rest =>
    match (f v).all with
    | .error e => .error e
    | .ok results => (replaceItems f rest).map (results ++ ·)

def replaceParts (f : Value → Stream) : Value → Except Failure Value
  | .array items => (replaceItems f items).map .array
  | .object members => (replaceMembers f members).map .object
  | v => .error (.wrongType v .iterable)

def replaceSlice (f : Value → Stream) (v : Value) (start stop : Option Int) :
    Except Failure Value :=
  match v with
  | .array items =>
    let cut := Cut.of items start stop
    match (f (.array cut.slice)).first? with
    | .error e => .error e
    | .ok none => .ok (.array (cut.before ++ cut.after))
    | .ok (some (.array slice)) => .ok (.array (cut.before ++ slice ++ cut.after))
    | .ok (some other) => .error (.wrongType other .array)
  | v => .error (.wrongType v .array)

end Value

inductive Selector
  | key (key : Value)
  | each
  | slice (start stop : Option Value)

namespace Selector

def bound : Option Value → Except Failure (Option Int)
  | none => .ok none
  | some v => v.toInteger.map some

def select (v : Value) : Selector → Except Failure (List Value)
  | .key k => (v.lookup k).map ([·])
  | .each => v.parts
  | .slice start stop => do
    let start ← bound start
    let stop ← bound stop
    return [← v.slice start stop]

def replace (f : Value → Stream) (v : Value) : Selector → Except Failure Value
  | .key k => v.replaceAt f k
  | .each => v.replaceParts f
  | .slice start stop => do
    let start ← bound start
    let stop ← bound stop
    v.replaceSlice f start stop

end Selector

/-- Selectors that apply one after the other. -/
structure Route.Leg where
  selector : Selector
  lenient : Bool

abbrev Route := List Route.Leg

namespace Route

def Leg.select (leg : Leg) (v : Value) : Stream :=
  match leg.selector.select v with
  | .ok values => .ofList values
  | .error e => if leg.lenient then .empty else .fail e

def Leg.replace (leg : Leg) (f : Value → Stream) (v : Value) : Except Failure Value :=
  match leg.selector.replace f v with
  | .ok v' => .ok v'
  | .error e => if leg.lenient then .ok v else .error e

def select : Route → Value → Stream
  | [], v => .last v
  | leg :: rest, v => (leg.select v).bind (select rest)

def replace (f : Value → Stream) : Route → Value → Except Failure Value
  | [], v => .ok v
  | [leg], v => leg.replace f v
  | leg :: rest, v => leg.replace (fun part => .ofExcept (replace f rest part)) v

end Route

end InterfaceGen.Query
