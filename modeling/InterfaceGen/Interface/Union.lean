/-!
# Unions

The text of a union of type expressions. An alternative that is absent stands for the null type.
-/

namespace InterfaceGen

def nullText : String := "null"

def unionSeparator : String := " | "

def alternativeText (alternative : Option String) : String := alternative.getD nullText

/-- Joins alternatives; of those with the same text only the first is kept. -/
def union (alternatives : List (Option String)) : String :=
  unionSeparator.intercalate (alternatives.map alternativeText).eraseDups

def literal (value : String) : String := "'" ++ value ++ "'"

/-- Joins the literals of an enumeration; null members are left out and repeated ones stay. -/
def literalUnion (values : List (Option String)) : String :=
  unionSeparator.intercalate ((values.filterMap id).map literal)

end InterfaceGen
