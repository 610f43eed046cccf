/-!
# Offsets in encoded text

Positions in a text count the bytes of its UTF-8 encoding.
-/

namespace InterfaceGen.Text

def offsets (start : Nat) : List Char → List (Nat × Char)
  | [] => []
  | c :: cs => (start, c) :: offsets (start + c.utf8Size) cs

/-- The text before an offset, unless the offset falls inside a character or past the end. -/
def before? : Nat → List Char → Option (List Char)
  | 0, _ => some []
  | _ + 1, [] => none
  | n + 1, c :: cs =>
    if c.utf8Size ≤ n + 1 then (before? (n + 1 - c.utf8Size) cs).map (c :: ·) else none

end InterfaceGen.Text
