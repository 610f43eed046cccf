import InterfaceGen.Json.Value

/-!
# Faults

What can be wrong with a JSON text or with the value it spells, and where. A fault has a place,
the steps that lead from the root of the document to it, and a cause.
-/

namespace InterfaceGen.Json

inductive SyntaxError
  | endInValue
  | endInString
  | endInArray
  | endInObject
  | expectedValue
  | expectedWord
  | expectedColon
  | expectedCommaOrBracket
  | expectedCommaOrBrace
  | trailingComma
  | keyNotString
  | invalidNumber
  | numberOutOfRange
  | invalidEscape
  | unfinishedSurrogatePair
  | loneSurrogate
  | controlCharacter
  | trailingCharacters
  | tooDeep
deriving DecidableEq

def SyntaxError.message : SyntaxError → String
  | .endInValue => "EOF while parsing a value"
  | .endInString => "EOF while parsing a string"
  | .endInArray => "EOF while parsing a list"
  | .endInObject => "EOF while parsing an object"
  | .expectedValue => "expected value"
  | .expectedWord => "expected ident"
  | .expectedColon => "expected `:`"
  | .expectedCommaOrBracket => "expected `,` or `]`"
  | .expectedCommaOrBrace => "expected `,` or `\x7d`"
  | .trailingComma => "trailing comma"
  | .keyNotString => "key must be a string"
  | .invalidNumber => "invalid number"
  | .numberOutOfRange => "number out of range"
  | .invalidEscape => "invalid escape"
  | .unfinishedSurrogatePair => "unexpected end of hex escape"
  | .loneSurrogate => "lone leading surrogate in hex escape"
  | .controlCharacter => "control character (\\u0000-\\u001F) found while parsing a string"
  | .trailingCharacters => "trailing characters"
  | .tooDeep => "recursion limit exceeded"

inductive Found
  | null
  | boolean (b : Bool)
  | number (n : Number)
  | string (s : String)
  | sequence
  | map
deriving DecidableEq

def Value.found : Value → Found
  | .null => .null
  | .boolean b => .boolean b
  | .number n => .number n
  | .string s => .string s
  | .array _ => .sequence
  | .object _ => .map

def Found.text : Found → String
  | .null => "null"
  | .boolean true => "boolean `true`"
  | .boolean false => "boolean `false`"
  | .number (.integer n) => "integer `" ++ n.repr ++ "`"
  | .number (.real x) => "floating point `" ++ String.ofList (Number.real x).text ++ "`"
  | .string s => "string \"" ++ s ++ "\""
  | .sequence => "sequence"
  | .map => "map"

inductive Cause
  | malformed (e : SyntaxError)
  | wrongType (found : Found) (wanted : String)
  | missingField (name : String)
  | duplicateField (name : String)
  | unknownVariant (name : String) (known : List String)
  | tooFewItems (count : Nat) (wanted : String)
  | tooManyItems (count : Nat)
  | notSingleKey
  | noAlternative (name : String)
deriving DecidableEq

instance : Coe SyntaxError Cause := ⟨Cause.malformed⟩

def Cause.message : Cause → String
  | .malformed e => e.message
  | .wrongType found wanted => "invalid type: " ++ found.text ++ ", expected " ++ wanted
  | .missingField name => "missing field `" ++ name ++ "`"
  | .duplicateField name => "duplicate field `" ++ name ++ "`"
  | .unknownVariant name known =>
    "unknown variant `" ++ name ++ "`, expected one of " ++
      ", ".intercalate (known.map fun k => "`" ++ k ++ "`")
  | .tooFewItems count wanted => "invalid length " ++ count.repr ++ ", expected " ++ wanted
  | .tooManyItems count =>
    "invalid length " ++ count.repr ++ ", expected fewer elements in array"
  | .notSingleKey => "invalid value: map, expected map with a single key"
  | .noAlternative name => "data did not match any variant of untagged enum " ++ name

inductive Step
  | key (name : String)
  | index (i : Nat)
  /-- A member whose key could not be read. -/
  | unnamed
deriving DecidableEq

abbrev Place := List Step

def Step.text : Step → String
  | .key name => name
  | .index i => "[" ++ i.repr ++ "]"
  | .unnamed => "?"

/-- Keys are joined to what precedes them by a point, indices are not. -/
def Place.tailText : Place → String
  | [] => ""
  | .index i :: rest => (Step.index i).text ++ tailText rest
  | step :: rest => "." ++ step.text ++ tailText rest

def Place.text : Place → String
  | [] => "."
  | step :: rest => step.text ++ tailText rest

structure Fault where
  place : Place
  cause : Cause
deriving DecidableEq

namespace Fault

def here (cause : Cause) : Fault := ⟨[], cause⟩

/-- The same fault seen from one step further up. -/
def within (step : Step) (fault : Fault) : Fault := ⟨step :: fault.place, fault.cause⟩

def message (fault : Fault) : String :=
  "at JSON path " ++ Place.text fault.place ++ " → " ++ fault.cause.message

end Fault

end InterfaceGen.Json
