import InterfaceGen.Interface.Member
import InterfaceGen.Relation.Field
import InterfaceGen.Text.Blank

/-!
# Emitting declarations

An emission holds the declarations written so far and the relations that they refer to. Steps of an
emitter write to it one after the other until one fails, and nothing takes back what is written by
then.
-/

namespace InterfaceGen

def indexSignature : String := "[key: string]: unknown;"

def declarationSeparator : String := "\n\n"

def interfaceDeclaration (name : String) (members : List String) : String :=
  "export interface " ++ name ++ " \x7b " ++ "\n".intercalate members ++ " \x7d"

/-- What the top-level properties declare for themselves. Blanks around a name are dropped. -/
def propertyMembers (required : Option (List String)) :
    List (String × Property) → Traced (List String)
  | [] => pure []
  | (key, p) :: rest => do
    let name := Text.trim key
    let text ← p.member name required (PropertyPath.root.child name)
    let others ← propertyMembers required rest
    return text :: others

structure Emission where
  source : String
  relations : RelationTable
deriving DecidableEq

/-- A step that may write to an emission, and leaves it as it is then also if it fails. -/
def Emitter (α : Type) := Emission → Traced α × Emission

namespace Emitter

variable {α β : Type}

protected def bind (step : Emitter α) (next : α → Emitter β) : Emitter β := fun e =>
  let (run, e') := step e
  match run.outcome with
  | .error error => (⟨run.events, .error error⟩, e')
  | .ok a =>
    let (rest, e'') := next a e'
    (⟨run.events ++ rest.events, rest.outcome⟩, e'')

instance : Monad Emitter where
  pure a := fun e => (pure a, e)
  bind := Emitter.bind

instance : MonadLift Traced Emitter where
  monadLift run := fun e => (run, e)

end Emitter

namespace Emission

def empty : Emission := ⟨"", .empty⟩

def append (source declaration : String) : String :=
  if source.isEmpty then declaration else source ++ declarationSeparator ++ declaration

def write (declaration : String) : Emitter Unit := fun e =>
  (pure (), { e with source := append e.source declaration })

/-- The relation of a property, if it has one, which is recorded in the table. -/
def relationMember (key : String) (p : Property) (required : Option (List String)) :
    Emitter (Option String) := fun e =>
  let (declaration, table) := relationField key p required e.relations
  (⟨relationEvents key p required e.relations, .ok declaration⟩, { e with relations := table })

def relationMembers (required : Option (List String)) :
    List (String × Property) → Emitter (List String)
  | [] => pure []
  | (key, p) :: rest => do
    let declaration ← relationMember (Text.trim key) p required
    let others ← relationMembers required rest
    return declaration.toList ++ others

def emit (schema : Schema) (name : String) : Emitter Unit := do
  let members ← propertyMembers schema.required schema.properties
  let relations ← relationMembers schema.required schema.properties
  Traced.record (.emitted name members.length relations.length)
  write (interfaceDeclaration name (members ++ relations ++ [indexSignature]))

/-- Emits a schema under several names. After each the outcome and the emission as it then stands,
which is where the next one goes on. -/
def emitAll (schema : Schema) : List String → Emission →
    List (Except GenerationError Unit × Emission)
  | [], _ => []
  | name :: rest, e =>
    let (run, e') := emit schema name e
    (run.outcome, e') :: emitAll schema rest e'

end Emission

def generateTraced (name : String) (schema : Schema) : Traced Emission :=
  let (run, e) := Emission.emit schema name .empty
  run >>= fun () => pure e

def generate (name : String) (schema : Schema) : Except GenerationError Emission :=
  (generateTraced name schema).outcome

end InterfaceGen
