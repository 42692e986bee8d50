import ReviewDesk.Json.Reader
import ReviewDesk.Text.Utf8

/-!
# Issues

What is wrong with a value that came from outside: the kind of mistake, the place of the value, and the value
itself. An issue has a stable name and a message for a person.
-/
namespace ReviewDesk

/-- One step on the way to a value. -/
inductive Place where
  | field (name : String)
  | item (index : Nat)
  deriving Repr, DecidableEq

/-- The kinds of mistakes. -/
inductive Mistake where
  | missing
  | notText
  | brokenText
  | notList
  | notObject
  | notBool
  | unclearBool
  | notInteger
  | unclearInteger
  | longInteger
  | fractional
  | notFinite
  | below (least : Nat)
  | above (greatest : Nat)
  | notOneOf (first second : String)
  | unknownLevel (name : Text)
  | malformed (why : Json.Mistake)
  deriving Repr, DecidableEq

namespace Mistake

def name : Mistake → String
  | missing => "missing"
  | notText => "string_type"
  | brokenText => "string_unicode"
  | notList => "list_type"
  | notObject => "model_attributes_type"
  | notBool => "bool_type"
  | unclearBool => "bool_parsing"
  | notInteger => "int_type"
  | unclearInteger => "int_parsing"
  | longInteger => "int_parsing_size"
  | fractional => "int_from_float"
  | notFinite => "finite_number"
  | below _ => "greater_than_equal"
  | above _ => "less_than_equal"
  | notOneOf _ _ => "literal_error"
  | unknownLevel _ => "value_error"
  | malformed _ => "json_invalid"

/-- What is told about a level that nobody knows. -/
def levelNote (name : Text) : Text := "invalid log level: " ++ name

/-- Where the words for a mistake, which can take up a text from outside, have no written form. -/
def gap? : Mistake → Option Text.Gap
  | unknownLevel name => (levelNote name).gap?
  | _ => none

def message : Mistake → Text
  | missing => "Field required"
  | notText => "Input should be a valid string"
  | brokenText => "Input should be a valid string, unable to parse raw data as a unicode string"
  | notList => "Input should be a valid list"
  | notObject => "Input should be a valid dictionary or object to extract fields from"
  | notBool => "Input should be a valid boolean"
  | unclearBool => "Input should be a valid boolean, unable to interpret input"
  | notInteger => "Input should be a valid integer"
  | unclearInteger => "Input should be a valid integer, unable to parse string as an integer"
  | longInteger => "Unable to parse input string as an integer, exceeded maximum size"
  | fractional => "Input should be a valid integer, got a number with a fractional part"
  | notFinite => "Input should be a finite number"
  | below least => "Input should be greater than or equal to " ++ toString least
  | above greatest => "Input should be less than or equal to " ++ toString greatest
  | notOneOf first second => "Input should be '" ++ first ++ "' or '" ++ second ++ "'"
  | unknownLevel name => "Value error, " ++ levelNote name
  | malformed _ => "JSON decode error"

end Mistake

structure Issue where
  mistake : Mistake
  place : List Place
  input : Json
  deriving Repr

def Place.toJson : Place → Json
  | .field name => .text name
  | .item index => .ofNat index

namespace Issue

/-- The issue without the value that has it. -/
def summary (i : Issue) : List (Text × Json) :=
  [("type", .text i.mistake.name), ("loc", .list (i.place.map Place.toJson)),
    ("msg", .text i.mistake.message)]

/-- The issue with the value that has it. A text that cannot be read has its own explanation. -/
def toJson (i : Issue) : Json :=
  let context : List (Text × Json) := match i.mistake with
    | .malformed why => [("ctx", .object [("error", .text why.message)])]
    | _ => []
  let shown : List (Text × Json) := ("input", i.input) :: context
  .object (i.summary ++ shown)

end Issue
end ReviewDesk
