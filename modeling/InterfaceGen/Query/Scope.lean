import InterfaceGen.Query.Builtin
import InterfaceGen.Query.Term

/-!
# Names of a query

Every name that a query uses must be bound: a filter by a definition, as a parameter or as a
built-in filter, a variable by a binding around its use or as a parameter.
-/

namespace InterfaceGen.Query

inductive Name
  | filter (name : String) (arity : Nat)
  | variable (name : String)
deriving DecidableEq

namespace Name

def text : Name → String
  | .filter name _ => name
  | .variable name => "$" ++ name

def kind : Name → String
  | .filter _ arity => "Filter(" ++ arity.repr ++ ")"
  | .variable _ => "Var"

def report (source : String) (n : Name) : String :=
  "undefined `" ++ n.text ++ "`: " ++ n.kind ++ " in `" ++ source ++ "`\n"

def unbound (bound : List Name) (n : Name) : List Name := if bound.contains n then [] else [n]

def outermost : List Name :=
  Builtin.definitions.map fun d => .filter d.name d.parameters.length

def ofParameter : Parameter → Name
  | .filter name => .filter name 0
  | .value name => .variable name

end Name

mutual

/-- The uses of names that are not bound, in the order of their report. The body of a binding
comes before its source, what follows a definition before the definition, the last branch of a
choice before its condition, and the arguments of a call before its name. -/
def Term.unbound (bound : List Name) : Term → List Name
  | .identity => []
  | .literal _ => []
  | .variable name => (Name.variable name).unbound bound
  | .call name arguments =>
    unboundInAll bound arguments ++ (Name.filter name arguments.length).unbound bound
  | .access head parts => head.unbound bound ++ unboundInParts bound parts
  | .collect body => body.unbound bound
  | .record entries => unboundInEntries bound entries
  | .negate body => body.unbound bound
  | .pipe l r => l.unbound bound ++ r.unbound bound
  | .bind source name body => body.unbound (.variable name :: bound) ++ source.unbound bound
  | .comma l r => l.unbound bound ++ r.unbound bound
  | .otherwise l r => l.unbound bound ++ r.unbound bound
  | .disjunction l r => l.unbound bound ++ r.unbound bound
  | .conjunction l r => l.unbound bound ++ r.unbound bound
  | .compare _ l r => l.unbound bound ++ r.unbound bound
  | .calculate _ l r => l.unbound bound ++ r.unbound bound
  | .assign l r => l.unbound bound ++ r.unbound bound
  | .update l r => l.unbound bound ++ r.unbound bound
  | .updateWith _ l r => l.unbound bound ++ r.unbound bound
  | .updateOtherwise l r => l.unbound bound ++ r.unbound bound
  | .branch c t e => e.unbound bound ++ c.unbound bound ++ t.unbound bound
  | .attempt body handler => body.unbound bound ++ unboundInOption bound handler
  | .reduce source name (start :: step :: surplus) =>
    source.unbound bound ++ start.unbound bound ++ step.unbound (.variable name :: bound) ++
      if surplus.isEmpty then [] else [.filter "reduce" (surplus.length + 2)]
  | .reduce _ _ arguments => [.filter "reduce" arguments.length]
  | .define name parameters body rest =>
    let bound := .filter name parameters.length :: bound
    rest.unbound bound ++ body.unbound (parameters.map Name.ofParameter ++ bound)
  | .first body => body.unbound bound
  | .apply _ => []
  | .has key => key.unbound bound

def unboundInAll (bound : List Name) : List Term → List Name
  | [] => []
  | t :: rest => t.unbound bound ++ unboundInAll bound rest

def unboundInOption (bound : List Name) : Option Term → List Name
  | none => []
  | some t => t.unbound bound

def unboundInParts (bound : List Name) : List Part → List Name
  | [] => []
  | .key key _ :: rest => key.unbound bound ++ unboundInParts bound rest
  | .each _ :: rest => unboundInParts bound rest
  | .slice start stop _ :: rest =>
    unboundInOption bound start ++ unboundInOption bound stop ++ unboundInParts bound rest

def unboundInEntries (bound : List Name) : List Entry → List Name
  | [] => []
  | .mk key value :: rest =>
    key.unbound bound ++ value.unbound bound ++ unboundInEntries bound rest

end

end InterfaceGen.Query
