import ReviewDesk.Text.Blank

/-!
# Whole numbers written as text

The strict form of a whole number is a minus sign, perhaps, and decimal digits without needless zeros in front.
Text that is not in strict form is made tidy first: blank space around it and a plus sign are taken away, and
behind a minus sign, which stays, zeros in front, a fraction of zeros and single underscores between digits are,
in this order. What is left has to be strict.
-/
namespace ReviewDesk.Numeral

/-- Why text is not taken for a whole number. -/
inductive Flaw where
  | unclear
  | tooLong
  deriving Repr, DecidableEq

/-- The most digits of a number. -/
def digitLimit : Nat := 4300

/-- The value of decimal digits. -/
def value (ds : List Char) : Nat := ds.foldl (fun n c => 10 * n + (c.toNat - 48)) 0

/-- The digits at the front of a text: a zero stands alone. -/
def wholePart : List Char → List Char
  | '0' :: _ => ['0']
  | cs => cs.takeWhile Char.isDigit

/-- The number in strict form. The count of its digits is looked at before anything that follows them. -/
def strict (cs : List Char) : Except Flaw Int :=
  let (negative, ds) := match cs with
    | '-' :: ds => (true, ds)
    | ds => (false, ds)
  let whole := wholePart ds
  if whole.isEmpty then .error .unclear
  else if digitLimit < whole.length then .error .tooLong
  else if whole.length < ds.length then .error .unclear
  else .ok (if negative then -(value whole : Int) else value whole)

/-- Whether what is left behind zeros in front can start with the character. -/
def startsRest (c : Char) : Bool := c = '-' || ('1' ≤ c && c ≤ '9')

/-- What is left behind zeros and underscores, the last of which is `last`: the rest from the first digit or
minus sign on, or, if none comes, the last of them with the fraction after it. -/
def dropZerosAfter (last : Char) : List Char → Option (List Char)
  | [] => some [last]
  | c :: cs =>
    if c = '0' || c = '_' then dropZerosAfter c cs
    else if startsRest c then some (c :: cs)
    else if c = '.' then some (last :: c :: cs)
    else none

/-- A text that starts with a digit, without zeros in front. -/
def dropZeros : List Char → Option (List Char)
  | '0' :: cs => dropZerosAfter '0' cs
  | c :: cs => if c.isDigit then some (c :: cs) else none
  | [] => none

/-- A text without a fraction of one or more zeros. -/
def dropFraction (cs : List Char) : List Char :=
  let fraction := (cs.dropWhile (· ≠ '.')).drop 1
  if !fraction.isEmpty && fraction.all (· = '0') then cs.takeWhile (· ≠ '.') else cs

/-- Whether underscores stand only between other characters, one at a time. `after` tells whether another
character comes before. -/
def singly (after : Bool) : List Char → Bool
  | [] => after
  | c :: cs => if c = '_' then after && singly false cs else singly true cs

/-- A text without the underscores in it. -/
def dropUnderscores (cs : List Char) : List Char := if singly false cs then cs.filter (· ≠ '_') else cs

/-- The tidy form of a text without a sign. -/
def tidyUnsigned? (cs : List Char) : Option (List Char) :=
  (dropZeros cs).map fun rest => dropUnderscores (dropFraction rest)

/-- The tidy form of a text. -/
def tidy? (cs : List Char) : Option (List Char) :=
  match Text.trimBlank cs with
  | '-' :: rest => (tidyUnsigned? rest).map ('-' :: ·)
  | '+' :: rest => tidyUnsigned? rest
  | rest => tidyUnsigned? rest

/-- The whole number that a text writes. A text that had to be made tidy is never found too long. -/
def read (cs : List Char) : Except Flaw Int :=
  match strict cs with
  | .error .unclear =>
    match (tidy? cs).map strict with
    | some (.ok i) => .ok i
    | _ => .error .unclear
  | r => r

example : read " +0_80.00 ".toList = .ok 80 := by rfl
example : read "-08".toList = .ok (-8) := by rfl
example : read "0-5".toList = .ok (-5) := by rfl
example : read "-_8".toList = .error .unclear := by rfl
example : read "80.".toList = .error .unclear := by rfl

end ReviewDesk.Numeral
