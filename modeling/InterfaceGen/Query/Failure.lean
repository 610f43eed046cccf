import InterfaceGen.Query.Value

/-!
# Failures of a query

What can go wrong when a query runs. A query can handle its failures, and then it sees each as a
value.
-/

namespace InterfaceGen.Query

inductive Arithmetic
  | add
  | subtract
  | multiply
deriving DecidableEq

def Arithmetic.symbol : Arithmetic → String
  | .add => "+"
  | .subtract => "-"
  | .multiply => "*"

inductive Wanted
  | number
  | integer
  | string
  | array
  | iterable
  | sliceable
deriving DecidableEq

def Wanted.text : Wanted → String
  | .number => "number"
  | .integer => "integer"
  | .string => "string"
  | .array => "array"
  | .iterable => "iterable (array or object)"
  | .sliceable => "rangeable (array or string)"

inductive Failure
  | thrown (v : Value)
  | wrongType (found : Value) (wanted : Wanted)
  | cannotIndex (v key : Value)
  | outOfBounds (key : Value)
  | cannotCalculate (left : Value) (op : Arithmetic) (right : Value)
  | withoutLength (v : Value)
  | notAPath
  | tooDeep

namespace Failure

def message : Failure → List Char
  | .thrown v => v.text
  | .wrongType v wanted =>
    "cannot use ".toList ++ v.text ++ " as ".toList ++ wanted.text.toList
  | .cannotIndex v key => "cannot index ".toList ++ v.text ++ " with ".toList ++ key.text
  | .outOfBounds key => "index ".toList ++ key.text ++ " is out of bounds".toList
  | .cannotCalculate l op r =>
    "cannot calculate ".toList ++ l.text ++ ' ' :: op.symbol.toList ++ ' ' :: r.text
  | .withoutLength v => v.text ++ " has no length".toList
  | .notAPath => "invalid path expression".toList
  | .tooDeep => "calls are nested too deep".toList

def value : Failure → Value
  | .thrown v => v
  | e => .string (String.ofList e.message)

end Failure

end InterfaceGen.Query
