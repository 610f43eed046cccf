import InterfaceGen.Interface.Shape

/-!
# Members

The declarations of properties. A property of object type is written as the declarations of its
own properties between braces; the first property without an expression stops the run.
-/

namespace InterfaceGen

/-- The type of an object whose properties are not declared. -/
def unknownMap : String := "\x7b [key: string]: unknown; \x7d"

def memberDeclaration (name : String) (isRequired : Bool) (expression : String) : String :=
  name ++ (if isRequired then "" else "?") ++ ": " ++ expression ++ ";"

def bracedMembers : List String → String
  | [] => "\x7b\x7d"
  | members => "\x7b " ++ " ".intercalate members ++ " \x7d"

namespace Property

mutual

def expression (path : PropertyPath) : Property → Traced String
  | ⟨_, type, enumValues, properties, required, _, _⟩ =>
    match Shape.ofDecl? type with
    | none => Traced.fail (.unsupported path type)
    | some (.single .object) =>
      match properties with
      | none => pure unknownMap
      | some entries => (bracedMembers ·) <$> nestedMembers required path entries
    | some (.single t) => do
      let leaf ← Traced.ofExcept (leafExpression t enumValues path)
      return union [leaf]
    | some (.pair a b) =>
      if a = .object ∨ b = .object then
        let other := if a = .object then b else a
        if other ≠ .null then Traced.fail (.objectPair path other)
        else do
          let object ← match properties with
            | none => pure unknownMap
            | some entries => (bracedMembers ·) <$> nestedMembers required path entries
          return union [some object, none]
      else do
        let (a, b) := nullLast a b
        let first ← Traced.ofExcept (leafExpression a enumValues path)
        let second ← Traced.ofExcept (leafExpression b enumValues path)
        return union [first, second]

def nestedMembers (required : Option (List String)) (path : PropertyPath) :
    List (String × Property) → Traced (List String)
  | [] => pure []
  | (name, p) :: rest => do
    let text ← expression (path.child name) p
    Traced.record (.resolved (path.child name) text)
    let others ← nestedMembers required path rest
    return memberDeclaration name (isListed required name) text :: others

end

def member (name : String) (required : Option (List String)) (path : PropertyPath)
    (p : Property) : Traced String := do
  let text ← p.expression path
  Traced.record (.resolved path text)
  return memberDeclaration name (isListed required name) text

end Property

end InterfaceGen
