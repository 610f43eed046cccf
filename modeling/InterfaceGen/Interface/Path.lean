/-!
# Property paths

The names that lead from a schema to one of its properties.
-/

namespace InterfaceGen

structure PropertyPath where
  segments : List String
deriving DecidableEq

namespace PropertyPath

def root : PropertyPath := ⟨[]⟩

def child (path : PropertyPath) (name : String) : PropertyPath := ⟨path.segments ++ [name]⟩

def depth (path : PropertyPath) : Nat := path.segments.length

def isRoot (path : PropertyPath) : Bool := path.segments.isEmpty

/-- Segments are joined by points and not escaped. -/
def text (path : PropertyPath) : String :=
  match path.segments with
  | [] => "<root>"
  | segments => ".".intercalate segments

end PropertyPath

end InterfaceGen
