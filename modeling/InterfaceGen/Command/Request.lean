/-!
# Requests

What a command line asks for.
-/

namespace InterfaceGen.Command

structure Settings where
  jsonPointer : Option String
  query : Option String
  inputs : List String
  name : Option String
  out : Option String
  relations : Option String
  /-- Only show the settings. -/
  noOp : Bool
deriving DecidableEq

structure Request where
  verbose : Bool
  settings : Settings
deriving DecidableEq

inductive UsageError
  | nothingGiven
  | missingCommand
  | unknownCommand
  | unknownArgument
  | missingInput
  /-- An option without its value, or with an empty path. -/
  | invalidValue
  | repeatedArgument
  | unexpectedValue
  | helpAsked
  | versionAsked
deriving DecidableEq

end InterfaceGen.Command
