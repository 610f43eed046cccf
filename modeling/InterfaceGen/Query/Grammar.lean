import InterfaceGen.Query.Parser
import InterfaceGen.Query.Term

/-!
# Grammar of queries

An operand is read from its first token on; operands and the operators between them make a term.
What stands inside brackets, and every operand behind a word such as `try`, is read at one level
of nesting less. Since at least one token comes before it, there are never more levels than
tokens.
-/

namespace InterfaceGen.Query

/-! ### Operators -/

inductive Operator
  | pipe
  | bind (name : String)
  | comma
  | assign
  | update
  | updateWith (op : Arithmetic)
  | updateOtherwise
  | otherwise
  | disjunction
  | conjunction
  | compare (comparison : Comparison)
  | calculate (op : Arithmetic)

namespace Operator

/-- An operator of higher precedence binds its operands more tightly. -/
def precedence : Operator → Nat
  | .pipe => 0
  | .bind _ => 0
  | .comma => 1
  | .assign => 2
  | .update => 2
  | .updateWith _ => 2
  | .updateOtherwise => 2
  | .otherwise => 3
  | .disjunction => 4
  | .conjunction => 5
  | .compare .equal => 6
  | .compare .different => 6
  | .compare _ => 7
  | .calculate .multiply => 9
  | .calculate _ => 8

/-- Whether of two equal operators the right one is applied first. -/
def groupsRight : Operator → Bool
  | .pipe => true
  | .bind _ => true
  | .assign => true
  | .update => true
  | .updateWith _ => true
  | .updateOtherwise => true
  | _ => false

def apply : Operator → Term → Term → Term
  | .pipe => .pipe
  | .bind name => fun source body => .bind source name body
  | .comma => .comma
  | .assign => .assign
  | .update => .update
  | .updateWith op => .updateWith op
  | .updateOtherwise => .updateOtherwise
  | .otherwise => .otherwise
  | .disjunction => .disjunction
  | .conjunction => .conjunction
  | .compare comparison => .compare comparison
  | .calculate op => .calculate op

def ofSymbol? : String → Option Operator
  | "|" => some .pipe
  | "," => some .comma
  | "=" => some .assign
  | "|=" => some .update
  | "+=" => some (.updateWith .add)
  | "-=" => some (.updateWith .subtract)
  | "*=" => some (.updateWith .multiply)
  | "//=" => some .updateOtherwise
  | "//" => some .otherwise
  | "==" => some (.compare .equal)
  | "!=" => some (.compare .different)
  | "<" => some (.compare .less)
  | "<=" => some (.compare .lessOrEqual)
  | ">" => some (.compare .greater)
  | ">=" => some (.compare .greaterOrEqual)
  | "+" => some (.calculate .add)
  | "-" => some (.calculate .subtract)
  | "*" => some (.calculate .multiply)
  | _ => none

def ofToken? : Token → Option Operator
  | .symbol s => ofSymbol? s
  | .word "or" => some .disjunction
  | .word "and" => some .conjunction
  | _ => none

end Operator

inductive Grouping
  | operand (t : Term)
  | apply (op : Operator) (left right : Grouping)

namespace Grouping

/-- Takes in the next operator and operand. It goes below an operator on the right edge that
binds less tightly, and around all others. -/
def push (op : Operator) (next : Term) : Grouping → Grouping
  | .operand t => .apply op (.operand t) (.operand next)
  | .apply op' left right =>
    if op'.precedence < op.precedence ∨ (op'.precedence = op.precedence ∧ op.groupsRight) then
      .apply op' left (right.push op next)
    else .apply op (.apply op' left right) (.operand next)

def term : Grouping → Term
  | .operand t => t
  | .apply op left right => op.apply left.term right.term

end Grouping

def Term.ofOperands (first : Term) (rest : List (Operator × Term)) : Term :=
  (rest.foldl (fun (g : Grouping) (op, t) => g.push op t) (.operand first)).term

/-! ### Words -/

/-- Words that start an operand of their own, and so cannot call a filter. -/
def leadingWords : List String := ["def", "if", "try", "label", "break", "reduce", "foreach"]

def fileWords : List String := ["module", "import", "include"]

namespace Grammar

open Query.Parser

def word : Parser String := accept fun
  | .word name => some name
  | _ => none

def filterName : Parser String := accept fun
  | .word name => if leadingWords.contains name then none else some name
  | _ => none

def variableName : Parser String := accept fun
  | .variable name => some name
  | _ => none

def stringText : Parser String := accept fun
  | .string s => some s
  | _ => none

def literal : Parser Term := accept fun
  | .number text => some (.literal (.number (.ofText text)))
  | .string s => some (.text s)
  | _ => none

def bracketed {α : Type} (opening closing : String) (p : Parser α) : Parser α :=
  (p.after (symbol opening)).before (symbol closing)

/-! ### Parts of a value -/

def fieldName : Parser String := (accept fun
  | .field name => some name
  | _ => none).orElse (stringText.after (symbol "."))

def selection (term : Parser Term) : Parser (Bool → Part) :=
  ((term.after (symbol ":")).map fun stop => Part.slice none (some stop)).orElse
    ((term.andMaybe ((symbol ":").andMaybe term)).map fun
      | (key, none) => Part.key key
      | (start, some (_, stop)) => Part.slice (some start) stop)

def brackets (term : Parser Term) : Parser (Bool → Part) :=
  ((symbol "]").after (symbol "[")).map (fun _ => Part.each) |>.orElse
    (bracketed "[" "]" (selection term))

def namedPart : Parser (Bool → Part) := fieldName.map fun name => Part.key (.text name)

def lenient (part : Parser (Bool → Part)) : Parser Part :=
  (part.andAll (symbol "?")).map fun (part, marks) => part !marks.isEmpty

def part (term : Parser Term) : Parser Part := lenient (namedPart.orElse (brackets term))

def withParts (term : Parser Term) (head : Parser Term) : Parser Term :=
  ((head.andAll (symbol "?")).andAll (part term)).map fun ((head, marks), parts) =>
    let head := if marks.isEmpty then head else .attempt head none
    if parts.isEmpty then head else .access head parts

def path (term : Parser Term) : Parser Term :=
  ((lenient namedPart).andAll (part term)).map (fun (first, rest) =>
    Term.access .identity (first :: rest)) |>.orElse
    (withParts term ((symbol ".").map fun _ => .identity))

/-! ### Operands -/

/-- A member of an object: a key with its value, or a key that names its own value. -/
def entry (term value : Parser Term) : Parser Entry :=
  let valueAfterColon := value.after (symbol ":")
  let name : Parser String := accept fun
    | .word name => some name
    | .string s => some s
    | _ => none
  let named := (name.andMaybe valueAfterColon).map fun
    | (key, none) => .mk (.text key) (.member .identity key)
    | (key, some value) => .mk (.text key) value
  let bound := (variableName.andMaybe valueAfterColon).map fun
    | (name, none) => .mk (.text name) (.variable name)
    | (name, some value) => .mk (.variable name) value
  let computed := (bracketed "(" ")" term).andThen fun key =>
    valueAfterColon.map fun value => .mk key value
  named.orElse (bound.orElse computed)

def record (term value : Parser Term) : Parser Term :=
  let entries := ((entry term value).separatedBy ",").andMaybe (symbol ",")
  ((symbol "\x7d").after (symbol "\x7b")).map (fun _ => Term.record []) |>.orElse
    ((bracketed "\x7b" "\x7d" entries).map fun (entries, _) => .record entries)

def array (term : Parser Term) : Parser Term :=
  ((symbol "]").after (symbol "[")).map (fun _ => Term.literal (.array [])) |>.orElse
    ((bracketed "[" "]" term).map .collect)

def branches (term : Parser Term) : Parser Term :=
  let choice : Parser (Term × Term) :=
    term.andThen fun condition => (term.after (keyword "then")).map fun t => (condition, t)
  let chain : Parser ((Term × Term) × List (Term × Term)) :=
    (choice.after (keyword "if")).andAll (choice.after (keyword "elif"))
  ((chain.andMaybe (term.after (keyword "else"))).before (keyword "end")).map
    fun ((first, rest), last) =>
      (first :: rest).foldr (fun (condition, t) negative => .branch condition t negative)
        (last.getD .identity)

def attempt (operand : Parser Term) : Parser Term :=
  ((operand.after (keyword "try")).andMaybe (operand.after (keyword "catch"))).map
    fun (body, handler) => .attempt body handler

def arguments (term : Parser Term) : Parser (List Term) :=
  bracketed "(" ")" (term.separatedBy ";")

def reduction (term operand : Parser Term) : Parser Term :=
  ((operand.after (keyword "reduce")).before (keyword "as")).andThen fun source =>
    (variableName.andMaybe (arguments term)).map fun (name, arguments) =>
      .reduce source name (arguments.getD [])

def parameters : Parser (List Parameter) :=
  bracketed "(" ")" (((word.map .filter).orElse (variableName.map .value)).separatedBy ";")

def definition (term : Parser Term) : Parser Term :=
  (word.after (keyword "def")).andMaybe parameters |>.andThen fun (name, parameters) =>
    (bracketed ":" ";" term).andThen fun body =>
      term.map fun rest => .define name (parameters.getD []) body rest

def call (term : Parser Term) : Parser Term :=
  (filterName.andMaybe (arguments term)).map
    fun (name, arguments) => .call name (arguments.getD [])

def head (term value operand : Parser Term) : Parser Term :=
  [literal,
    (symbol "..").map fun _ => Term.descend,
    bracketed "(" ")" term,
    array term,
    record term value,
    branches term,
    attempt operand,
    reduction term operand,
    definition term,
    variableName.map .variable,
    (operand.after (symbol "-")).map .negate].foldr Parser.orElse (call term)

/-! ### Terms -/

def operator (comma : Bool) : Parser Operator :=
  (accept fun t => (Operator.ofToken? t).filter fun
    | .comma => comma
    | _ => true).orElse
  ((variableName.after (keyword "as")).before (symbol "|") |>.map .bind)

/-- Operands and operators. A comma inside the value of a member is not an operator. -/
def operation (operand : Parser Term) (comma : Bool) : Parser Term :=
  (operand.andAll ((operator comma).andThen fun op => operand.map fun t => (op, t))).map
    fun (first, rest) => .ofOperands first rest

def operand : Nat → Parser Term
  | 0 => fail
  | levels + 1 =>
    let inner := operand levels
    let term := operation inner true
    (path term).orElse (withParts term (head term (operation inner false) inner))

end Grammar

def Term.ofText? (s : String) : Option Term := do
  let ts ← tokens s.toList
  guard !(fileWords.any fun name => ts.head? = some (.word name))
  (Grammar.operation (Grammar.operand ts.length) true).whole ts

end InterfaceGen.Query
