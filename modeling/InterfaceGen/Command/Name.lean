import InterfaceGen.Files.Path
import InterfaceGen.Relation.Field

/-!
# Names of declarations

A declaration is named after the file that its schema comes from, unless a name is given.
-/

namespace InterfaceGen.Command

def isIdentifierStart (c : Char) : Bool := c.isAlpha || c == '_' || c == '$'

def isIdentifierChar (c : Char) : Bool := isIdentifierStart c || c.isDigit

def isIdentifier (s : String) : Bool :=
  match s.toList with
  | [] => false
  | c :: rest => isIdentifierStart c && rest.all isIdentifierChar

inductive NameError
  | severalInputs (count : Nat)
  | noStem (path : String)
  | invalid (name : String)
deriving DecidableEq

def NameError.message : NameError → String
  | .severalInputs count =>
    "--name can only be used with a single input (" ++ count.repr ++ " given)"
  | .noStem path => "cannot derive a name from " ++ path
  | .invalid name => "`" ++ name ++ "` is not a valid declaration name"

def checkName (name : String) : Except NameError String :=
  if isIdentifier name then .ok name else .error (.invalid name)

/-- The name of the declaration from one of `inputs` inputs. -/
def declarationName (given : Option String) (path : String) (inputs : Nat) :
    Except NameError String :=
  match given with
  | some name => if 1 < inputs then .error (.severalInputs inputs) else checkName name
  | none =>
    match Files.Path.stem? path with
    | none => .error (.noStem path)
    | some stem => checkName (relatedTypeName stem)

end InterfaceGen.Command
