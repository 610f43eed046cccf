import InterfaceGen.Query.Failure
import InterfaceGen.Query.Order

/-!
# Terms of a query

The language of queries, after parsing. A term takes one value and gives any number of results.
-/

namespace InterfaceGen.Query

/-- A parameter of a definition. One stands for a filter, and is run where it is called; the
other for a value, and is bound to each of its argument's results in turn. -/
inductive Parameter
  | filter (name : String)
  | value (name : String)

inductive Function
  | typeName
  | length
  | keys
  | sortedKeys
  | throw

mutual

inductive Term
  | identity
  | literal (v : Value)
  | variable (name : String)
  | call (name : String) (arguments : List Term)
  | access (head : Term) (parts : List Part)
  | collect (body : Term)
  | record (entries : List Entry)
  | negate (body : Term)
  | pipe (left right : Term)
  /-- Runs `body` once for every result of `source`, under a name. -/
  | bind (source : Term) (name : String) (body : Term)
  | comma (left right : Term)
  /-- The true results of the left side, or else the right side. -/
  | otherwise (left right : Term)
  | disjunction (left right : Term)
  | conjunction (left right : Term)
  | compare (comparison : Comparison) (left right : Term)
  | calculate (op : Arithmetic) (left right : Term)
  | assign (target source : Term)
  | update (target body : Term)
  | updateWith (op : Arithmetic) (target source : Term)
  | updateOtherwise (target source : Term)
  | branch (condition positive negative : Term)
  | attempt (body : Term) (handler : Option Term)
  /-- Takes a state through the results of `source`, each under a name. The arguments have to be
  two, the first state and the step. -/
  | reduce (source : Term) (name : String) (arguments : List Term)
  | define (name : String) (parameters : List Parameter) (body rest : Term)
  | first (body : Term)
  | apply (f : Function)
  | has (key : Term)

inductive Part
  | key (key : Term) (lenient : Bool)
  | each (lenient : Bool)
  | slice (start stop : Option Term) (lenient : Bool)

inductive Entry
  | mk (key value : Term)

end

instance : Inhabited Term := ⟨.identity⟩

namespace Term

def text (s : String) : Term := .literal (.string s)

def member (head : Term) (name : String) : Term := .access head [.key (.text name) false]

def each : Term := .access .identity [.each false]

def descend : Term :=
  .define "descend" []
    (.comma .identity (.pipe (.access .identity [.each true]) (.call "descend" [])))
    (.call "descend" [])

end Term

structure Definition where
  name : String
  parameters : List Parameter
  body : Term

end InterfaceGen.Query
