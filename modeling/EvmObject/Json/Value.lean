import EvmObject.Json.Token

/-!
# JSON values

A value is read from tokens with a stack of the arrays and objects that are open. The fields of an
object are kept in order and with repetitions; whoever looks at them decides what these mean.
-/

namespace EvmObject

/-- A JSON value. -/
inductive Json where
  | null
  | bool (value : Bool)
  | number (value : Json.Number)
  | string (value : String)
  | array (items : List Json)
  | object (fields : List (String × Json))

namespace Json

/-- Arrays and objects are nested less than this deep. -/
def depthLimit : Nat := 128

/-- An array or object that is open; what it holds stands last first. -/
inductive Open where
  | array (items : List Json)
  /-- Behind the fields comes one with this key. -/
  | object (fields : List (String × Json)) (key : String)

/-- What may come next. -/
inductive Expected where
  /-- A value, or at the start of an array its end. -/
  | value (orEnd : Bool)
  /-- A key, or at the start of an object its end. -/
  | key (orEnd : Bool)
  /-- The colon behind a key. -/
  | colon
  /-- What stands behind a value. -/
  | behind (value : Json)

/-- One more array or object may be opened inside these. -/
def mayOpen (opened : List Open) : Bool := opened.length + 1 < depthLimit

/-- Reads a value from tokens, with the arrays and objects that are open, innermost first. -/
def parse : List Token → Expected → List Open → Option Json
  | [], .behind value, [] => some value
  | .openArray :: rest, .value _, opened =>
    if mayOpen opened then parse rest (.value true) (.array [] :: opened) else none
  | .openObject :: rest, .value _, opened =>
    if mayOpen opened then parse rest (.key true) (.object [] "" :: opened) else none
  | .null :: rest, .value _, opened => parse rest (.behind .null) opened
  | .bool value :: rest, .value _, opened => parse rest (.behind (.bool value)) opened
  | .number value :: rest, .value _, opened => parse rest (.behind (.number value)) opened
  | .string value :: rest, .value _, opened => parse rest (.behind (.string value)) opened
  | .closeArray :: rest, .value true, .array _ :: opened => parse rest (.behind (.array [])) opened
  | .closeObject :: rest, .key true, .object .. :: opened =>
    parse rest (.behind (.object [])) opened
  | .string key :: rest, .key _, .object fields _ :: opened =>
    parse rest .colon (.object fields key :: opened)
  | .colon :: rest, .colon, opened => parse rest (.value false) opened
  | .comma :: rest, .behind value, .array items :: opened =>
    parse rest (.value false) (.array (value :: items) :: opened)
  | .closeArray :: rest, .behind value, .array items :: opened =>
    parse rest (.behind (.array (value :: items).reverse)) opened
  | .comma :: rest, .behind value, .object fields key :: opened =>
    parse rest (.key false) (.object ((key, value) :: fields) "" :: opened)
  | .closeObject :: rest, .behind value, .object fields key :: opened =>
    parse rest (.behind (.object ((key, value) :: fields).reverse)) opened
  | _, _, _ => none

/-- Reads a text that holds one value and nothing else. -/
def read (text : String) : Option Json := do
  parse (← Token.cut text.toList) (.value false) []

/-! ## Fields -/

/-- The value of a field. -/
def field? (fields : List (String × Json)) (key : String) : Option Json :=
  (fields.find? (·.1 == key)).map (·.2)

/-- Every key is one of the given ones and none stands twice. -/
def hasOnly (keys : List String) (fields : List (String × Json)) : Bool :=
  fields.all (fun (key, _) => keys.contains key) &&
    keys.all fun key => (fields.filter (·.1 == key)).length ≤ 1

end Json

end EvmObject
