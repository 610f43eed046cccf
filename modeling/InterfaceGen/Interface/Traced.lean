import InterfaceGen.Interface.Path
import InterfaceGen.Schema.Basic

/-!
# Traced runs

A run either succeeds or stops at its first error; in both cases it leaves the events that
happened until then, in order.
-/

namespace InterfaceGen

inductive GenerationError
  /-- The declared type is none of the supported shapes. -/
  | unsupported (path : PropertyPath) (decl : TypeDecl)
  /-- An object was asked for where only leaves are rendered. -/
  | objectAsLeaf (path : PropertyPath)
  /-- An object has an alternative that is not null. -/
  | objectPair (path : PropertyPath) (other : Tag)
deriving DecidableEq

namespace GenerationError

def path : GenerationError → PropertyPath
  | .unsupported path _ => path
  | .objectAsLeaf path => path
  | .objectPair path _ => path

def detail : GenerationError → String
  | .unsupported _ decl => decl.text
  | .objectAsLeaf _ => "object as a leaf"
  | .objectPair _ other => other.name

def message (e : GenerationError) : String :=
  match e with
  | .objectPair path other =>
    "invalid object pair at `" ++ path.text ++
      "`: `object` can only be paired with `null`, found `" ++ other.name ++ "`"
  | _ => "unsupported shape at `" ++ e.path.text ++ "`: " ++ e.detail

end GenerationError

inductive Event
  | resolved (path : PropertyPath) (expression : String)
  | overwritten (typeName previous foreignKey : String)
  | emitted (interface : String) (properties relations : Nat)
deriving DecidableEq

structure Traced (α : Type) where
  events : List Event
  outcome : Except GenerationError α

namespace Traced

variable {α β : Type}

def fail (e : GenerationError) : Traced α := ⟨[], .error e⟩

def ofExcept (outcome : Except GenerationError α) : Traced α := ⟨[], outcome⟩

def record (e : Event) : Traced Unit := ⟨[e], .ok ()⟩

protected def bind (run : Traced α) (next : α → Traced β) : Traced β :=
  match run.outcome with
  | .error e => ⟨run.events, .error e⟩
  | .ok a =>
    let rest := next a
    ⟨run.events ++ rest.events, rest.outcome⟩

instance : Monad Traced where
  pure a := ⟨[], .ok a⟩
  bind := Traced.bind

end Traced

end InterfaceGen
