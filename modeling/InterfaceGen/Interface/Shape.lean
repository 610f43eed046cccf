import InterfaceGen.Interface.Traced
import InterfaceGen.Interface.Union

/-!
# Shapes

The type declarations that have an expression: one known tag, or a pair of known tags.
-/

namespace InterfaceGen

inductive Shape
  | single (t : Tag)
  | pair (a b : Tag)
deriving DecidableEq

/-- A list of one tag reads as the bare tag. -/
def Shape.ofDecl? (decl : TypeDecl) : Option Shape :=
  match decl.tags.mapM Tag.ofName? with
  | some [t] => some (.single t)
  | some [a, b] => some (.pair a b)
  | _ => none

def stringExpression (enumValues : Option EnumValues) : String :=
  let literals := (enumValues.map literalUnion).getD ""
  if literals.isEmpty then "string" else literals

/-- The expression of a shape that is not an object. The null type has none of its own. -/
def leafExpression (t : Tag) (enumValues : Option EnumValues) (path : PropertyPath) :
    Except GenerationError (Option String) :=
  match t with
  | .null => .ok none
  | .string => .ok (some (stringExpression enumValues))
  | .number => .ok (some "number")
  | .boolean => .ok (some "boolean")
  | .object => .error (.objectAsLeaf path)

/-- A null is written last. -/
def nullLast (a b : Tag) : Tag × Tag := if a = .null then (b, a) else (a, b)

end InterfaceGen
