import ReviewDesk.Check.Issue
import ReviewDesk.Failure
import ReviewDesk.Inspection

/-!
# Reports

The issues with a value as one text, for places that have room for no more than a text: how many there are, with
what, and for each of them its place, its words, its name, and the value that has it. The value is shown as a line
of text, of which the middle is left out if it is long.
-/
namespace ReviewDesk

namespace CodePoint

/-- How many octets a code point takes. -/
def width (p : CodePoint) : Nat :=
  if p.value < 0x80 then 1 else if p.value < 0x800 then 2 else if p.value < 0x10000 then 3 else 4

end CodePoint

namespace Text

/-- The code points in front that take no more than so many octets. -/
def front : Nat → List CodePoint → List CodePoint
  | _, [] => []
  | room, p :: ps => if p.width ≤ room then p :: front (room - p.width) ps else []

/-- A text of more than fifty octets without its middle: at most 25 octets in front and at most 24 at the end are
left. -/
def excerpt (t : Text) : Text :=
  if (front 50 t.points).length = t.points.length then t
  else ⟨front 25 t.points⟩ ++ "..." ++ ⟨(front 24 t.points.reverse).reverse⟩

example : excerpt "0123456789012345678901234é789012345678901234567890" =
    "0123456789012345678901234...789012345678901234567890" := by decide +kernel

end Text

/-- A value as a report shows it: a line of text, and its form. -/
structure Exhibit where
  line : Text
  form : ValueForm
  deriving Repr, DecidableEq

namespace Json

def form : Json → ValueForm
  | .null => .none
  | .bool _ => .bool
  | .int _ => .int
  | .float _ => .float
  | .text _ => .text
  | .list _ => .list
  | .object _ => .object

/-- The value as a report shows it. -/
def exhibit (j : Json) : Exhibit := ⟨j.inspected, j.form⟩

end Json

def Place.label : Place → Text
  | .field name => name
  | .item index => Text.ofString (toString index)

/-- The words for a mistake, or why there are none. -/
def Mistake.told (m : Mistake) : Text :=
  match m.gap? with
  | none => m.message
  | some gap => "(error rendering message: UnicodeEncodeError: " ++ Text.ofString gap.message ++ ")"

/-- The entry of a report about a mistake. -/
def reportEntry (place : List Place) (m : Mistake) (e : Exhibit) : Text :=
  Text.joined "." (place.map Place.label) ++ "\n  " ++ m.told ++ " [type=" ++ m.name ++ ", input_value=" ++
    e.line.excerpt ++ ", input_type=" ++ e.form.name ++ "]\n    For further information visit " ++
    ("https:" ++ "//errors.pydantic.dev/2.14/v/") ++ m.name

/-- The report with the given entries. -/
def report (title : String) (entries : List Text) : Text :=
  toString entries.length ++ " validation error" ++ (if entries.length = 1 then "" else "s") ++ " for " ++ title ++
    "\n" ++ Text.joined "\n" entries

/-- The entry of a report about an issue. -/
def Issue.entry (i : Issue) : Text := reportEntry i.place i.mistake i.input.exhibit

end ReviewDesk
