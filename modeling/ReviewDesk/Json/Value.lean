import ReviewDesk.Number.Binary64
import ReviewDesk.Text.Basic

/-!
# JSON values

A document in memory. Whole numbers are kept exactly and apart from numbers written with a fraction or an
exponent. An object keeps its fields in the order in which they were first written.
-/
namespace ReviewDesk

/-- A JSON value. -/
inductive Json where
  | null
  | bool (b : Bool)
  | int (i : Int)
  | float (x : Binary64)
  | text (s : Text)
  | list (items : List Json)
  | object (fields : List (Text × Json))
  deriving Repr, Inhabited

namespace Json

/-- Fields with `name` set to `value`: a name that is there keeps its place. -/
def setField (name : Text) (value : Json) : List (Text × Json) → List (Text × Json)
  | [] => [(name, value)]
  | (n, v) :: rest => if n = name then (name, value) :: rest else (n, v) :: setField name value rest

/-- The value under a name. -/
def lookup (name : Text) : List (Text × Json) → Option Json
  | [] => none
  | (n, v) :: rest => if n = name then some v else lookup name rest

/-- The field of an object; nothing for another value. -/
def field? (j : Json) (name : Text) : Option Json :=
  match j with
  | .object fields => lookup name fields
  | _ => none

/-- The text, or null for none. -/
def ofText? : Option Text → Json
  | some s => .text s
  | none => .null

def ofTexts (ss : List Text) : Json := .list (ss.map .text)

/-- A whole number. -/
def ofNat (n : Nat) : Json := .int n

mutual
/-- Whether two values are the same. -/
def same : Json → Json → Bool
  | .null, .null => true
  | .bool a, .bool b => a == b
  | .int a, .int b => a == b
  | .float a, .float b => decide (a = b)
  | .text a, .text b => decide (a = b)
  | .list as, .list bs => sameItems as bs
  | .object as, .object bs => sameFields as bs
  | _, _ => false
def sameItems : List Json → List Json → Bool
  | [], [] => true
  | a :: as, b :: bs => same a b && sameItems as bs
  | _, _ => false
def sameFields : List (Text × Json) → List (Text × Json) → Bool
  | [], [] => true
  | (m, a) :: as, (n, b) :: bs => decide (m = n) && same a b && sameFields as bs
  | _, _ => false
end

mutual
theorem same_iff : ∀ a b : Json, same a b = true ↔ a = b
  | .null, b => by cases b <;> simp [same]
  | .bool _, b => by cases b <;> simp [same]
  | .int _, b => by cases b <;> simp [same]
  | .float _, b => by cases b <;> simp [same]
  | .text _, b => by cases b <;> simp [same]
  | .list as, b => by cases b <;> simp [same, sameItems_iff as]
  | .object as, b => by cases b <;> simp [same, sameFields_iff as]
theorem sameItems_iff : ∀ as bs : List Json, sameItems as bs = true ↔ as = bs
  | [], bs => by cases bs <;> simp [sameItems]
  | a :: as, bs => by cases bs <;> simp [sameItems, same_iff a, sameItems_iff as]
theorem sameFields_iff : ∀ as bs : List (Text × Json), sameFields as bs = true ↔ as = bs
  | [], bs => by cases bs <;> simp [sameFields]
  | (m, a) :: as, bs => by
    cases bs with
    | nil => simp [sameFields]
    | cons b bs => simp [sameFields, same_iff a, sameFields_iff as, Prod.ext_iff]
end

instance : DecidableEq Json := fun a b => decidable_of_iff _ (same_iff a b)

/-- What keeps a value from being written as a whole. -/
inductive Hindrance where
  | notFinite
  | tooDeep
  deriving Repr, DecidableEq

mutual
/-- The first number that is infinite or "not a number", or the first list or object that lies too deep, in the
order in which the value is written, if at most `room` lists and objects may lie in one another. -/
def hindrance? (room : Nat) : Json → Option Hindrance
  | .float x => if x.isFinite then none else some .notFinite
  | .list items =>
    match room with
    | 0 => some .tooDeep
    | room + 1 => itemsHindrance? room items
  | .object fields =>
    match room with
    | 0 => some .tooDeep
    | room + 1 => fieldsHindrance? room fields
  | _ => none
def itemsHindrance? (room : Nat) : List Json → Option Hindrance
  | [] => none
  | j :: rest => (j.hindrance? room).or (itemsHindrance? room rest)
def fieldsHindrance? (room : Nat) : List (Text × Json) → Option Hindrance
  | [] => none
  | (_, j) :: rest => (j.hindrance? room).or (fieldsHindrance? room rest)
end

mutual
/-- Whether at most `room` lists and objects lie in one another. -/
def fits (room : Nat) : Json → Bool
  | .list items =>
    match room with
    | 0 => false
    | room + 1 => itemsFit room items
  | .object fields =>
    match room with
    | 0 => false
    | room + 1 => fieldsFit room fields
  | _ => true
def itemsFit (room : Nat) : List Json → Bool
  | [] => true
  | j :: rest => j.fits room && itemsFit room rest
def fieldsFit (room : Nat) : List (Text × Json) → Bool
  | [] => true
  | (_, j) :: rest => j.fits room && fieldsFit room rest
end

mutual
/-- The value without the fields, at any depth, whose names are hidden. -/
def without (hidden : Text → Bool) : Json → Json
  | .list items => .list (itemsWithout hidden items)
  | .object fields => .object (fieldsWithout hidden fields)
  | j => j
def itemsWithout (hidden : Text → Bool) : List Json → List Json
  | [] => []
  | j :: rest => j.without hidden :: itemsWithout hidden rest
def fieldsWithout (hidden : Text → Bool) : List (Text × Json) → List (Text × Json)
  | [] => []
  | (name, j) :: rest =>
    if hidden name then fieldsWithout hidden rest
    else (name, j.without hidden) :: fieldsWithout hidden rest
end

mutual
/-- The texts in the value, names included, in the order in which they are written. -/
def texts : Json → List Text
  | .text s => [s]
  | .list items => allTexts items
  | .object fields => fieldTexts fields
  | _ => []
def allTexts : List Json → List Text
  | [] => []
  | j :: rest => j.texts ++ allTexts rest
def fieldTexts : List (Text × Json) → List Text
  | [] => []
  | (name, j) :: rest => name :: (j.texts ++ fieldTexts rest)
end

@[simp] theorem lookup_setField (name other : Text) (value : Json) (fields : List (Text × Json)) :
    lookup other (setField name value fields) = if name = other then some value else lookup other fields := by
  induction fields with
  | nil => simp [setField, lookup]
  | cons f rest ih =>
    obtain ⟨n, v⟩ := f
    by_cases h : n = name
    · subst h
      by_cases h' : n = other <;> simp [setField, lookup, h']
    · by_cases h' : n = other
      · subst h'
        have : ¬ name = n := fun e => h e.symm
        simp [setField, lookup, h, this]
      · simp [setField, lookup, h, h', ih]

end Json
end ReviewDesk
