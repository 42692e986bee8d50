import ReviewDesk.Json.Value

/-!
# Reading JSON text

`Json.readWithin` turns code points into a value, or says what is wrong and where; `Json.read` reads values of any
depth. A step of the reader returns what
is left of the text together with the fact that it is shorter, which is why reading ends. A mistake carries
the text left at the point where it was noticed; the position is the number of code points before it.

Beyond the standard, the words `NaN`, `Infinity` and `-Infinity` are numbers, and of two fields with one name
the later one counts. An escape can write half of a surrogate pair; the escapes of both halves in a row write
one character. Lists and objects that lie too deep in one another are not read.
-/
namespace ReviewDesk.Json

/-- What is wrong with a text. -/
inductive Mistake where
  | expectedValue
  | expectedName
  | expectedColon
  | expectedComma
  | extraData
  | unterminated
  | controlCharacter
  | badEscape
  | badCodeUnit
  | tooManyDigits
  | tooDeep
  deriving Repr, DecidableEq

/-- The words for a mistake. -/
def Mistake.message : Mistake → String
  | .expectedValue => "Expecting value"
  | .expectedName => "Expecting property name enclosed in double quotes"
  | .expectedColon => "Expecting ':' delimiter"
  | .expectedComma => "Expecting ',' delimiter"
  | .extraData => "Extra data"
  | .unterminated => "Unterminated string starting at"
  | .controlCharacter => "Invalid control character at"
  | .badEscape => "Invalid \\escape"
  | .badCodeUnit => "Invalid \\uXXXX escape"
  | .tooManyDigits => "Exceeds the limit for integer string conversion"
  | .tooDeep => "maximum recursion depth exceeded"

/-- A mistake and the text left where it was noticed. -/
abbrev Refusal := Mistake × List CodePoint

/-- A text shorter than `s`. -/
abbrev Shorter (s : List CodePoint) := { r : List CodePoint // r.length < s.length }

/-- A text no longer than `s`. -/
abbrev NoLonger (s : List CodePoint) := { r : List CodePoint // r.length ≤ s.length }

/-- Blank space between tokens. -/
def isBlank (c : Char) : Bool := c = ' ' || c = '\t' || c = '\n' || c = '\r'

/-- The text from its first character that is not blank. -/
def skipBlank : List CodePoint → List CodePoint
  | .char c :: s => if isBlank c then skipBlank s else .char c :: s
  | s => s

theorem length_skipBlank_le (s : List CodePoint) : (skipBlank s).length ≤ s.length := by
  induction s with
  | nil => simp [skipBlank]
  | cons p s ih =>
    unfold skipBlank
    split
    · next h =>
      obtain ⟨rfl, rfl⟩ := List.cons.inj h
      split
      · simp; omega
      · simp
    · simp

/-- What follows the first code point that is not blank is shorter than the text. -/
theorem length_lt_of_skipBlank {q : CodePoint} {s after : List CodePoint} (h : skipBlank s = q :: after) :
    after.length < s.length := by
  have := length_skipBlank_le s
  rw [h] at this
  exact this

/-- The rest of the text after `word`, if it starts with it. -/
def dropWord : (word : List Char) → (s : List CodePoint) → Option (NoLonger s)
  | [], s => some ⟨s, Nat.le_refl _⟩
  | _ :: _, [] => none
  | w :: word, c :: s =>
    if .char w = c then (dropWord word s).map fun r => ⟨r.1, Nat.le_succ_of_le r.2⟩ else none

/-- The value of a hexadecimal digit. -/
def hexDigit? (c : Char) : Option Nat :=
  if '0' ≤ c ∧ c ≤ '9' then some (c.toNat - 48)
  else if 'a' ≤ c ∧ c ≤ 'f' then some (c.toNat - 87)
  else if 'A' ≤ c ∧ c ≤ 'F' then some (c.toNat - 55)
  else none

/-- The number written by four hexadecimal digits. -/
def fourHex? (a b c d : CodePoint) : Option Nat := do
  let a ← a.char?.bind hexDigit?
  let b ← b.char?.bind hexDigit?
  let c ← c.char?.bind hexDigit?
  let d ← d.char?.bind hexDigit?
  return ((a * 16 + b) * 16 + c) * 16 + d

def isHighHalf (u : Nat) : Bool := 0xD800 ≤ u && u ≤ 0xDBFF
def isLowHalf (u : Nat) : Bool := 0xDC00 ≤ u && u ≤ 0xDFFF

/-- The character of a pair of halves. -/
def joinHalves (high low : Nat) : CodePoint :=
  .ofNat (0x10000 + (high - 0xD800) * 0x400 + (low - 0xDC00))

/-- The character after a backslash, when it is one of the short escapes. -/
def shortEscape? : Char → Option Char
  | '"' => some '"'
  | '\\' => some '\\'
  | '/' => some '/'
  | 'b' => some '\x08'
  | 'f' => some '\x0c'
  | 'n' => some '\n'
  | 'r' => some '\r'
  | 't' => some '\t'
  | _ => none

/-- The next four characters, if at least one more follows them, and the text after the four. -/
def fourAhead? :
    (s : List CodePoint) → Option ((CodePoint × CodePoint × CodePoint × CodePoint) × Shorter s)
  | a :: b :: c :: d :: e :: rest => some ((a, b, c, d), ⟨e :: rest, by simp⟩)
  | _ => none

/-- A code unit whose four digits stand at the front of the text. -/
def codeUnit (s : List CodePoint) : Except Refusal (Nat × Shorter s) :=
  match fourAhead? s with
  | none => .error (.badCodeUnit, .char 'u' :: s)
  | some ((a, b, c, d), r) =>
    match fourHex? a b c d with
    | none => .error (.badCodeUnit, .char 'u' :: s)
    | some u => .ok (u, r)

/-- The second half of a pair written at the front of the text as another escape. Too little text is no
mistake here, and neither is a code unit that is no second half: the text then goes on as usual. -/
def secondHalf (s : List CodePoint) : Except Refusal (Option (Nat × Shorter s)) :=
  match s with
  | .char '\\' :: .char 'u' :: t =>
    match fourAhead? t with
    | none => .ok none
    | some ((a, b, c, d), r) =>
      match fourHex? a b c d with
      | none => .error (.badCodeUnit, .char 'u' :: t)
      | some v => .ok (if isLowHalf v then some (v, ⟨r.1, by have := r.2; simp; omega⟩) else none)
  | _ => .ok none

/-- The code point that an escape by code unit writes, after its `u`. -/
def unitEscape (s : List CodePoint) : Except Refusal (CodePoint × Shorter s) := do
  let (u, r) ← codeUnit s
  if isHighHalf u then
    match ← secondHalf r.1 with
    | some (v, q) => return (joinHalves u v, ⟨q.1, Nat.lt_trans q.2 r.2⟩)
    | none => return (.ofNat u, r)
  else return (.ofNat u, r)

/-- The code points of a string up to its closing quote, put behind `done`, and the text after the quote.
`start` is the text from the opening quote on. An escape by code unit must be followed by one more
character, be it the closing quote. -/
def stringBody (start : List CodePoint) (done : List CodePoint) (s : List CodePoint) :
    Except Refusal (Text × Shorter s) :=
  match s with
  | [] => .error (.unterminated, start)
  | .char '"' :: s => .ok (⟨done.reverse⟩, ⟨s, Nat.lt_succ_self _⟩)
  | .char '\\' :: [] => .error (.unterminated, start)
  | .char '\\' :: .char 'u' :: t =>
    match unitEscape t with
    | .error e => .error e
    | .ok (x, q) =>
      (stringBody start (x :: done) q.1).map fun (x, r) =>
        (x, ⟨r.1, by have := r.2; have := q.2; simp; omega⟩)
  | .char '\\' :: p :: t =>
    match p.char?.bind shortEscape? with
    | none => .error (.badEscape, .char '\\' :: p :: t)
    | some x =>
      (stringBody start (.char x :: done) t).map fun (x, r) => (x, ⟨r.1, by have := r.2; simp; omega⟩)
  | p :: s =>
    if p.value < 0x20 then .error (.controlCharacter, p :: s)
    else
      (stringBody start (p :: done) s).map fun (x, r) => (x, ⟨r.1, Nat.lt_succ_of_lt r.2⟩)
termination_by s.length
decreasing_by
  · have := q.2; simp only [List.length_cons]; omega
  · simp only [List.length_cons]; omega
  · exact Nat.lt_succ_self _

/-- The digits at the front of the text, and the rest. -/
def spanDigits : (s : List CodePoint) → List Char × NoLonger s
  | .char c :: s =>
    if c.isDigit then
      let (ds, r) := spanDigits s
      (c :: ds, ⟨r.1, Nat.le_succ_of_le r.2⟩)
    else ([], ⟨.char c :: s, Nat.le_refl _⟩)
  | s => ([], ⟨s, Nat.le_refl _⟩)

/-- The number written by decimal digits. -/
def digitsValue (ds : List Char) : Nat := ds.foldl (fun n c => 10 * n + (c.toNat - 48)) 0

/-- A point and the digits after it, if at least one digit follows the point. -/
def fraction? : (s : List CodePoint) → Option (List Char × NoLonger s)
  | .char '.' :: s =>
    let (ds, r) := spanDigits s
    if ds.isEmpty then none else some (ds, ⟨r.1, Nat.le_succ_of_le r.2⟩)
  | _ => none

/-- The sign at the front of the text, if there is one: whether it is negative, and the rest. -/
def sign : (s : List CodePoint) → Bool × NoLonger s
  | .char '+' :: s => (false, ⟨s, Nat.le_succ _⟩)
  | .char '-' :: s => (true, ⟨s, Nat.le_succ _⟩)
  | s => (false, ⟨s, Nat.le_refl _⟩)

/-- The exponent part, if at least one digit follows its mark and sign. -/
def exponent? : (s : List CodePoint) → Option (Int × NoLonger s)
  | .char e :: s =>
    if e = 'e' || e = 'E' then
      let (negative, t) := sign s
      let (ds, r) := spanDigits t.1
      if ds.isEmpty then none
      else
        let n : Int := digitsValue ds
        some (if negative then -n else n, ⟨r.1, by have := r.2; have := t.2; simp; omega⟩)
    else none
  | _ => none

/-- The most digits a whole number may have. -/
def digitLimit : Nat := 4300

/-- A number without its sign: a whole part without needless zeros, then perhaps a fraction and an
exponent. `start` is the text from the sign on. -/
def magnitude (negative : Bool) (start : List CodePoint) :
    (s : List CodePoint) → Except Refusal (Json × Shorter s)
  | .char c :: s =>
    if c.isDigit then
      let (more, r) : List Char × NoLonger s := if c = '0' then ([], ⟨s, Nat.le_refl _⟩) else spanDigits s
      let whole := c :: more
      match fraction? r.1 with
      | some (ds, r') =>
        let shorter : r'.1.length < (CodePoint.char c :: s).length := by
          have := r.2; have := r'.2; simp; omega
        let digits := digitsValue (whole ++ ds)
        match exponent? r'.1 with
        | some (e, r'') =>
          .ok (.float (.ofDecimal negative digits (e - ds.length)),
            ⟨r''.1, Nat.lt_of_le_of_lt r''.2 shorter⟩)
        | none => .ok (.float (.ofDecimal negative digits (-ds.length)), ⟨r'.1, shorter⟩)
      | none =>
        let shorter : r.1.length < (CodePoint.char c :: s).length := Nat.lt_succ_of_le r.2
        match exponent? r.1 with
        | some (e, r') =>
          .ok (.float (.ofDecimal negative (digitsValue whole) e),
            ⟨r'.1, Nat.lt_of_le_of_lt r'.2 shorter⟩)
        | none =>
          if digitLimit < whole.length then .error (.tooManyDigits, start)
          else
            let n : Int := digitsValue whole
            .ok (.int (if negative then -n else n), ⟨r.1, shorter⟩)
    else .error (.expectedValue, start)
  | _ => .error (.expectedValue, start)

/-- The word that a value may be spelled with, by its first character: the rest of it, and the value. -/
def word? : Char → Option (List Char × Json)
  | 'n' => some (['u', 'l', 'l'], .null)
  | 't' => some (['r', 'u', 'e'], .bool true)
  | 'f' => some (['a', 'l', 's', 'e'], .bool false)
  | 'N' => some (['a', 'N'], .float .nan)
  | 'I' => some (['n', 'f', 'i', 'n', 'i', 't', 'y'], .float .positiveInfinity)
  | '-' => some (['I', 'n', 'f', 'i', 'n', 'i', 't', 'y'], .float .negativeInfinity)
  | _ => none

/-- A value that holds no others: a word, a number or a string. -/
def scalar : (s : List CodePoint) → Except Refusal (Json × Shorter s)
  | .char c :: s =>
    let found : Option (Json × NoLonger s) := do
      let (rest, value) ← word? c
      let r ← dropWord rest s
      return (value, r)
    match found with
    | some (value, r) => .ok (value, ⟨r.1, Nat.lt_succ_of_le r.2⟩)
    | none =>
      if c = '"' then
        (stringBody (.char c :: s) [] s).map fun (x, r) => (.text x, ⟨r.1, Nat.lt_succ_of_lt r.2⟩)
      else if c = '-' then
        (magnitude true (.char c :: s) s).map fun (x, r) => (x, ⟨r.1, Nat.lt_succ_of_lt r.2⟩)
      else magnitude false (.char c :: s) (.char c :: s)
  | s => .error (.expectedValue, s)

/-- A list or an object of which a part has been read: its items so far, last first, or its fields so far
and the name of the field whose value comes next. -/
inductive Frame where
  | list (done : List Json)
  | object (done : List (Text × Json)) (name : Text)

mutual
/-- Reads a value at the front of the text and goes on with what `around` waits for it. At most `room` lists and
objects may lie in one another. -/
def readValue (room : Nat) (around : List Frame) (s : List CodePoint) : Except Refusal (Json × List CodePoint) :=
  match s with
  | .char '[' :: rest =>
    if room ≤ around.length then .error (.tooDeep, .char '[' :: rest)
    else
      match _h : skipBlank rest with
      | .char ']' :: after => deliver room around (.list []) after
      | _ => readValue room (.list [] :: around) (skipBlank rest)
  | .char '\x7b' :: rest =>
    if room ≤ around.length then .error (.tooDeep, .char '\x7b' :: rest)
    else
      match _h : skipBlank rest with
      | .char '\x7d' :: after => deliver room around (.object []) after
      | _ => readField room around [] (skipBlank rest)
  | s =>
    match scalar s with
    | .error e => .error e
    | .ok (x, r) => deliver room around x r.1
termination_by s.length
decreasing_by
  · exact Nat.lt_succ_of_lt (length_lt_of_skipBlank _h)
  · exact Nat.lt_succ_of_le (length_skipBlank_le rest)
  · exact Nat.lt_succ_of_lt (length_lt_of_skipBlank _h)
  · exact Nat.lt_succ_of_le (length_skipBlank_le rest)
  · exact r.2

/-- Reads the name of a field and the colon after it, then the value. -/
def readField (room : Nat) (around : List Frame) (done : List (Text × Json)) (s : List CodePoint) :
    Except Refusal (Json × List CodePoint) :=
  match s with
  | .char '"' :: rest =>
    match stringBody (.char '"' :: rest) [] rest with
    | .error e => .error e
    | .ok (name, r) =>
      match _h : skipBlank r.1 with
      | .char ':' :: inside => readValue room (.object done name :: around) (skipBlank inside)
      | other => .error (.expectedColon, other)
  | other => .error (.expectedName, other)
termination_by s.length
decreasing_by
  exact Nat.lt_succ_of_lt (Nat.lt_of_le_of_lt (length_skipBlank_le inside)
    (Nat.lt_trans (length_lt_of_skipBlank _h) r.2))

/-- Puts a finished value into the innermost open list or object and goes on after it. -/
def deliver (room : Nat) (around : List Frame) (x : Json) (s : List CodePoint) :
    Except Refusal (Json × List CodePoint) :=
  match around with
  | [] => .ok (x, s)
  | .list done :: outer =>
    match _h : skipBlank s with
    | .char ']' :: after => deliver room outer (.list (x :: done).reverse) after
    | .char ',' :: rest => readValue room (.list (x :: done) :: outer) (skipBlank rest)
    | other => .error (.expectedComma, other)
  | .object done name :: outer =>
    match _h : skipBlank s with
    | .char '\x7d' :: after => deliver room outer (.object (setField name x done)) after
    | .char ',' :: rest => readField room outer (setField name x done) (skipBlank rest)
    | other => .error (.expectedComma, other)
termination_by s.length
decreasing_by
  · exact length_lt_of_skipBlank _h
  · exact Nat.lt_of_le_of_lt (length_skipBlank_le rest) (length_lt_of_skipBlank _h)
  · exact length_lt_of_skipBlank _h
  · exact Nat.lt_of_le_of_lt (length_skipBlank_le rest) (length_lt_of_skipBlank _h)
end

/-- The value a text writes, with blank space allowed around it and at most `room` lists and objects in one
another; else the mistake and its position. -/
def readWithin (room : Nat) (s : List CodePoint) : Except (Mistake × Nat) Json :=
  let located : Refusal → Mistake × Nat := fun (m, left) => (m, s.length - left.length)
  match readValue room [] (skipBlank s) with
  | .error e => .error (located e)
  | .ok (x, r) =>
    match skipBlank r with
    | [] => .ok x
    | left => .error (located (.extraData, left))

/-- The value a text writes, however deep. -/
def read (s : List CodePoint) : Except (Mistake × Nat) Json := readWithin s.length s

end ReviewDesk.Json
