import InterfaceGen.Query.Term

/-!
# Built-in filters

The filters that every query can call without defining them. They are definitions themselves, in
force around the whole query, so that a query can define a filter of the same name anew.
-/

namespace InterfaceGen.Query

namespace Builtin

def argument : Term := .call "f" []

def withArgument (name : String) (body : Term) : Definition := ⟨name, [.filter "f"], body⟩

def constant (name : String) (v : Value) : Definition := ⟨name, [], .literal v⟩

/-! ### Bodies -/

/-- Nothing can be bound to a part of an object that has none. -/
def empty : Term := .bind (.access (.record []) [.each false]) "x" .identity

def select (condition : Term) : Term := .branch condition .identity empty

def map (f : Term) : Term := .collect (.pipe .each f)

def sum (f : Term) : Term :=
  .reduce f "x" [.literal .null, .calculate .add .identity (.variable "x")]

/-- Throws the first result, and gives the value back if there is none. -/
def throwResult (f : Term) : Term :=
  .reduce f "x" [.identity, .pipe (.variable "x") (.apply .throw)]

def toEntries : Term :=
  .collect (.bind (.access (.apply .keys) [.each false]) "k"
    (.record
      [.mk (.text "key") (.variable "k"),
        .mk (.text "value") (.access .identity [.key (.variable "k") false])]))

def fromEntries : Term :=
  .calculate .add
    (.pipe (map (.record [.mk (.member .identity "key") (.member .identity "value")]))
      (sum .each))
    (.record [])

/-! ### The filters -/

def definitions : List Definition :=
  [constant "null" .null,
    constant "true" (.boolean true),
    constant "false" (.boolean false),
    constant "infinite" (.number (.real (1 / 0))),
    constant "nan" (.number (.real (0 / 0))),
    ⟨"empty", [], empty⟩,
    ⟨"not", [], .branch .identity (.literal (.boolean false)) (.literal (.boolean true))⟩,
    ⟨"type", [], .apply .typeName⟩,
    ⟨"length", [], .apply .length⟩,
    ⟨"keys", [], .apply .sortedKeys⟩,
    ⟨"keys_unsorted", [], .apply .keys⟩,
    ⟨"error", [], .apply .throw⟩,
    ⟨"first", [], .access .identity [.key (.literal (.integer 0)) false]⟩,
    ⟨"add", [], sum .each⟩,
    ⟨"numbers", [], select (.compare .equal (.apply .typeName) (.text "number"))⟩,
    ⟨"to_entries", [], toEntries⟩,
    ⟨"from_entries", [], fromEntries⟩,
    withArgument "error" (throwResult argument),
    withArgument "select" (select argument),
    withArgument "map" (map argument),
    withArgument "add" (sum argument),
    withArgument "first" (.first argument),
    withArgument "has" (.has argument),
    withArgument "with_entries" (.pipe toEntries (.pipe (map argument) fromEntries))]

end Builtin

end InterfaceGen.Query
