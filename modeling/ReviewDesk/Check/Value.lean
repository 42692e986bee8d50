import ReviewDesk.Check.Issue

/-!
# Checks

A check takes a value from outside and answers with what it stands for or with everything that is wrong with
it. Checks of the parts of a value are put together so that no issue is lost, in the order of the parts.
-/
namespace ReviewDesk

/-- What a check found: a value, or issues. -/
abbrev Checked (α : Type) := Except (List Issue) α

namespace Checked

variable {α β : Type}

def issue (m : Mistake) (place : List Place) (input : Json) : Checked α := .error [⟨m, place, input⟩]

/-- Both values, or all issues, those of the first part first. -/
def both : Checked α → Checked β → Checked (α × β)
  | .ok a, .ok b => .ok (a, b)
  | .ok _, .error js => .error js
  | .error is, .ok _ => .error is
  | .error is, .error js => .error (is ++ js)

/-- Text, and nothing that could be turned into text. -/
def text (place : List Place) : Json → Checked Text
  | .text s => .ok s
  | j => issue .notText place j

/-- Spellings of "true". -/
def yesWords : List String := ["1", "on", "t", "true", "y", "yes"]

/-- Spellings of "false". -/
def noWords : List String := ["0", "off", "f", "false", "n", "no"]

/-- The numbers that take sixty-four bits with a sign. -/
def isWord (i : Int) : Bool := -0x8000000000000000 ≤ i && i < 0x8000000000000000

/-- A number that stands for a truth value. -/
def boolOfInt (place : List Place) (j : Json) (i : Int) : Checked Bool :=
  if i = 0 then .ok false else if i = 1 then .ok true else issue .unclearBool place j

/-- A truth value, one of the numbers 0 and 1 in whatever form, or one of the words above in any case. Numbers
that are not whole or do not fit into sixty-four bits cannot be taken for truth values at all, and a text that is
not a string cannot be read for a word. -/
def bool (place : List Place) (j : Json) : Checked Bool :=
  match j with
  | .bool b => .ok b
  | .int i => if isWord i then boolOfInt place j i else issue .notBool place j
  | .float x =>
    match x.integer? with
    | some i =>
      if isWord i && i != -0x8000000000000000 then boolOfInt place j i else issue .notBool place j
    | none => issue .notBool place j
  | .text s =>
    match s.toString? with
    | none => issue .brokenText place j
    | some word =>
      let word := String.ofList (word.toList.map Char.toLower)
      if word ∈ yesWords then .ok true
      else if word ∈ noWords then .ok false
      else issue .unclearBool place j
  | _ => issue .notBool place j

/-- The items of a list from the given index on, each checked at its own place. -/
def items (place : List Place) (check : List Place → Json → Checked α) : Nat → List Json → Checked (List α)
  | _, [] => .ok []
  | i, j :: js =>
    (both (check (place ++ [.item i]) j) (items place check (i + 1) js)).map fun (a, as) => a :: as

/-- A list of checked items. -/
def list (check : List Place → Json → Checked α) (place : List Place) : Json → Checked (List α)
  | .list js => items place check 0 js
  | j => issue .notList place j

/-- A field that has to be there. -/
def field (place : List Place) (fields : List (Text × Json)) (name : String)
    (check : List Place → Json → Checked α) : Checked α :=
  match Json.lookup name fields with
  | some j => check (place ++ [.field name]) j
  | none => issue .missing (place ++ [.field name]) (.object fields)

/-- A field with a value of its own where it is left out. -/
def fieldOr (default : α) (place : List Place) (fields : List (Text × Json)) (name : String)
    (check : List Place → Json → Checked α) : Checked α :=
  match Json.lookup name fields with
  | some j => check (place ++ [.field name]) j
  | none => .ok default

/-- An object whose fields are checked. Fields that no check asks for are passed over. -/
def object (check : List Place → List (Text × Json) → Checked α) (place : List Place) :
    Json → Checked α
  | .object fields => check place fields
  | j => issue .notObject place j

@[simp] theorem both_ok (a : α) (b : β) : both (.ok a) (.ok b) = .ok (a, b) := rfl

/-- Both parts have to be right. -/
theorem both_eq_ok_iff (x : Checked α) (y : Checked β) (a : α) (b : β) :
    both x y = .ok (a, b) ↔ x = .ok a ∧ y = .ok b := by
  cases x <;> cases y <;> simp [both]

end Checked
end ReviewDesk
