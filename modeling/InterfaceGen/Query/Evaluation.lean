import InterfaceGen.Query.Builtin
import InterfaceGen.Query.Calculation
import InterfaceGen.Query.Selector

/-!
# Evaluation of queries

A term is evaluated by recursion on its structure. Only the bodies of definitions and of
arguments are evaluated by another machine, which allows one level of calls less; the work on a
body starts when its results are asked for.
-/

namespace InterfaceGen.Query

abbrev Filter := Value → Stream

/-- What a name stands for. A definition sees the bindings from itself on outward, so that it
can call itself; an argument sees those of its call. -/
inductive Binding
  | value (name : String) (v : Value)
  | argument (name : String) (body : Term) (scope : List Binding)
  | definition (d : Definition)

abbrev Scope := List Binding

namespace Scope

def valueOf? (name : String) : Scope → Option Value
  | [] => none
  | .value name' v :: rest => if name' = name then some v else valueOf? name rest
  | _ :: rest => valueOf? name rest

/-- The filter that a call runs, and the bindings that it sees besides its arguments. -/
def filter? (name : String) (arity : Nat) : Scope → Option (Definition × Scope)
  | [] => none
  | .value _ _ :: rest => filter? name arity rest
  | .argument name' body scope :: rest =>
    if name' = name ∧ arity = 0 then some (⟨name, [], body⟩, scope) else filter? name arity rest
  | .definition d :: rest =>
    if d.name = name ∧ arity = d.parameters.length then some (d, .definition d :: rest)
    else filter? name arity rest

def outermost : Scope := Builtin.definitions.map .definition

end Scope

structure Machine where
  run : Term → Scope → Filter
  update : Term → Scope → Filter → Filter

def Function.apply (v : Value) : Function → Except Failure Value
  | .typeName => .ok (.string v.typeName)
  | .length => v.length
  | .keys => v.keys.map .array
  | .sortedKeys => v.keys.map fun keys => .array (keys.mergeSort fun a b => a.compare b != .gt)
  | .throw => .error (.thrown v)

def singleton (key v : Value) : Stream :=
  match key with
  | .string name => .last (.object [(name, v)])
  | key => .fail (.wrongType key .string)

mutual

def Term.eval (m : Machine) (scope : Scope) (v : Value) : Term → Stream
  | .identity => .last v
  | .literal x => .last x
  | .variable name => .last ((scope.valueOf? name).getD .null)
  | .call name arguments =>
    match scope.filter? name arguments.length with
    | some (d, inner) =>
      (bindArguments m scope v arguments d.parameters inner).bind fun inner =>
        .later fun _ => m.run d.body inner v
    | none => .empty
  | .access head parts =>
    (head.eval m scope v).bind fun x => (routes m scope v parts).bind fun route => route.select x
  | .collect body => (body.eval m scope v).gather.map .array
  | .record entries => members m scope v (.last (.object [])) entries
  | .negate body => (body.eval m scope v).bind fun x => .ofExcept x.negate
  | .pipe l r => (l.eval m scope v).bind fun x => r.eval m scope x
  | .bind source name body =>
    (source.eval m scope v).bind fun x => body.eval m (.value name x :: scope) v
  | .comma l r => (l.eval m scope v).append fun _ => r.eval m scope v
  | .otherwise l r =>
    ((l.eval m scope v).filter Value.isTrue).orElse fun _ => r.eval m scope v
  | .disjunction l r =>
    (l.eval m scope v).bind fun x =>
      if x.isTrue then .last (.boolean true)
      else (r.eval m scope v).map fun y => .boolean y.isTrue
  | .conjunction l r =>
    (l.eval m scope v).bind fun x =>
      if x.isTrue then (r.eval m scope v).map fun y => .boolean y.isTrue
      else .last (.boolean false)
  | .compare comparison l r =>
    (l.eval m scope v).product (fun _ => r.eval m scope v) fun x y =>
      .last (.boolean (comparison.holds (x.compare y)))
  | .calculate op l r =>
    (l.eval m scope v).product (fun _ => r.eval m scope v) fun x y => .ofExcept (op.apply x y)
  | .assign target source =>
    (source.eval m scope v).bind fun x => target.replace m scope (fun _ => .last x) v
  | .update target body => target.replace m scope (fun x => body.eval m scope x) v
  | .updateWith op target source =>
    (source.eval m scope v).bind fun y =>
      target.replace m scope (fun x => .ofExcept (op.apply x y)) v
  | .updateOtherwise target source =>
    (source.eval m scope v).bind fun y =>
      target.replace m scope (fun x => .last (if x.isTrue then x else y)) v
  | .branch condition positive negative =>
    (condition.eval m scope v).bind fun c =>
      if c.isTrue then positive.eval m scope v else negative.eval m scope v
  | .attempt body none => (body.eval m scope v).handle fun _ => .empty
  | .attempt body (some handler) =>
    (body.eval m scope v).handle fun e => handler.eval m scope e.value
  | .reduce source name (start :: step :: _) =>
    (start.eval m scope v).bind fun state =>
      (source.eval m scope v).fold
        (fun x state => step.eval m (.value name x :: scope) state) state
  | .reduce _ _ _ => .empty
  | .define name parameters body rest =>
    rest.eval m (.definition ⟨name, parameters, body⟩ :: scope) v
  | .first body => (body.eval m scope v).first
  | .apply f => .ofExcept (f.apply v)
  | .has key => (key.eval m scope v).bind fun k => .ofExcept ((v.has k).map .boolean)

def Term.replace (m : Machine) (scope : Scope) (f : Filter) (v : Value) : Term → Stream
  | .identity => f v
  | .call name arguments =>
    match scope.filter? name arguments.length with
    | some (d, inner) =>
      (bindArguments m scope v arguments d.parameters inner).fold
        (fun inner state => .later fun _ => m.update d.body inner f state) v
    | none => .empty
  | .access head parts =>
    head.replace m scope (fun x =>
      (routes m scope v parts).fold (fun route x => .ofExcept (route.replace f x)) x) v
  | .pipe l r => l.replace m scope (fun x => r.replace m scope f x) v
  | .bind source name body =>
    (source.eval m scope v).fold
      (fun x state => body.replace m (.value name x :: scope) f state) v
  | .comma l r => (l.replace m scope f v).bind fun x => r.replace m scope f x
  | .otherwise l r =>
    if ((l.eval m scope v).filter Value.isTrue).isEmpty then r.replace m scope f v
    else l.replace m scope f v
  | .branch condition positive negative =>
    (condition.eval m scope v).fold
      (fun c state =>
        if c.isTrue then positive.replace m scope f state else negative.replace m scope f state) v
  | .define name parameters body rest =>
    rest.replace m (.definition ⟨name, parameters, body⟩ :: scope) f v
  | .apply .throw => .fail (.thrown v)
  | _ => .fail .notAPath

/-- Every way to bind the arguments of a call, in the order of the parameters; a later one hides
an earlier one of the same name. -/
def bindArguments (m : Machine) (scope : Scope) (v : Value) :
    List Term → List Parameter → Scope → Results Scope
  | t :: arguments, .filter name :: parameters, inner =>
    bindArguments m scope v arguments parameters (.argument name t scope :: inner)
  | t :: arguments, .value name :: parameters, inner =>
    (t.eval m scope v).bind fun x =>
      bindArguments m scope v arguments parameters (.value name x :: inner)
  | _, _, inner => .last inner

/-- Every way to choose the keys and ends of a chain of parts. -/
def routes (m : Machine) (scope : Scope) (v : Value) : List Part → Results Route
  | [] => .last []
  | .key key lenient :: rest =>
    (key.eval m scope v).product (fun _ => routes m scope v rest) fun k route =>
      .last (⟨.key k, lenient⟩ :: route)
  | .each lenient :: rest => (routes m scope v rest).map (⟨.each, lenient⟩ :: ·)
  | .slice start stop lenient :: rest =>
    ((bounds m scope v start).product (fun _ => bounds m scope v stop) fun start stop =>
      .last (start, stop)).product (fun _ => routes m scope v rest) fun (start, stop) route =>
        .last (⟨.slice start stop, lenient⟩ :: route)

def bounds (m : Machine) (scope : Scope) (v : Value) : Option Term → Results (Option Value)
  | none => .last none
  | some t => (t.eval m scope v).map some

/-- Every way to choose the members of an object, each put onto what stands before it. -/
def members (m : Machine) (scope : Scope) (v : Value) (before : Stream) : List Entry → Stream
  | [] => before
  | .mk key value :: rest =>
    let member := fun (_ : Unit) =>
      (key.eval m scope v).product (fun _ => value.eval m scope v) singleton
    members m scope v
      (before.product member fun x y => .ofExcept (Arithmetic.add.apply x y)) rest

end

def Machine.ofDepth : Nat → Machine
  | 0 => ⟨fun _ _ _ => .fail .tooDeep, fun _ _ _ _ => .fail .tooDeep⟩
  | depth + 1 =>
    { run := fun t scope v => t.eval (Machine.ofDepth depth) scope v
      update := fun t scope f v => t.replace (Machine.ofDepth depth) scope f v }

end InterfaceGen.Query
