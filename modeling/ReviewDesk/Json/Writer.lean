import ReviewDesk.Json.Value
import ReviewDesk.Number.Decimal

/-!
# Writing JSON text

`Json.write` turns a value into code points in a given style. A style says what stands between items and after
names, and whether only ASCII characters are written; it has no say over numbers. A number with a fraction is
written with the fewest digits that identify it, positionally while its leading digit stands for one of
`10 ^ (-4)`, …, `10 ^ 15` and with an exponent of at least two digits otherwise; it never looks like a whole
number.
-/
namespace ReviewDesk.Json

/-- What a writer is free to choose. -/
structure Style where
  comma : String
  colon : String
  asciiOnly : Bool
  deriving Repr, DecidableEq

/-- Blanks after commas and colons, and nothing beyond ASCII. -/
def Style.spaced : Style := ⟨", ", ": ", true⟩

/-- No blanks, and every character as it is. -/
def Style.dense : Style := ⟨",", ":", false⟩

section Numbers

/-- The digits of a magnitude with the decimal point before digit number `point`. -/
def positional (digits : List Char) (point : Int) : List Char :=
  if point ≤ 0 then '0' :: '.' :: (List.replicate (-point).toNat '0' ++ digits)
  else
    let whole := digits.take point.toNat
    let fraction := digits.drop point.toNat
    whole ++ List.replicate (point.toNat - digits.length) '0' ++
      '.' :: (if fraction.isEmpty then ['0'] else fraction)

/-- A signed exponent of at least two digits. -/
def exponentPart (e : Int) : List Char :=
  let digits := Nat.toDigits 10 e.natAbs
  'e' :: (if e < 0 then '-' else '+') :: (List.replicate (2 - digits.length) '0' ++ digits)

/-- The digits of a magnitude whose leading digit stands for `10 ^ e`. -/
def scientific (digits : List Char) (e : Int) : List Char :=
  match digits with
  | [] => []
  | [d] => d :: exponentPart e
  | d :: ds => d :: '.' :: (ds ++ exponentPart e)

/-- The characters of a decimal. -/
def decimalChars (d : Decimal) : List Char :=
  let digits := Nat.toDigits 10 d.digits
  let point := (digits.length : Int) + d.exponent
  if -4 < point ∧ point ≤ 16 then positional digits point else scientific digits (point - 1)

/-- The characters of a number with a fraction, or of the word in its place. -/
def floatChars (x : Binary64) : List Char :=
  if x.isNan then ['N', 'a', 'N']
  else
    let magnitude :=
      if !x.isFinite then ['I', 'n', 'f', 'i', 'n', 'i', 't', 'y']
      else if x.isZero then ['0', '.', '0']
      else decimalChars x.shortest
    if x.isNegative then '-' :: magnitude else magnitude

/-- The characters of a whole number. -/
def intChars (i : Int) : List Char :=
  if i < 0 then '-' :: Nat.toDigits 10 i.natAbs else Nat.toDigits 10 i.natAbs

end Numbers

section Strings

/-- An escape by code unit. -/
def unitChars (u : Nat) : List Char :=
  let digits := Nat.toDigits 16 u
  '\\' :: 'u' :: (List.replicate (4 - digits.length) '0' ++ digits)

/-- The letter of the short escape that a character has. -/
def shortLetter? : Char → Option Char
  | '"' => some '"'
  | '\\' => some '\\'
  | '\x08' => some 'b'
  | '\x0c' => some 'f'
  | '\n' => some 'n'
  | '\r' => some 'r'
  | '\t' => some 't'
  | _ => none

/-- The escapes of a code point by its code units, which are two beyond the first 65536 code points. -/
def unitsChars (n : Nat) : List Char :=
  if n < 0x10000 then unitChars n
  else unitChars (0xD800 + (n - 0x10000) / 0x400) ++ unitChars (0xDC00 + (n - 0x10000) % 0x400)

/-- A code point inside a string. -/
def pointWritten (s : Style) (p : CodePoint) : List CodePoint :=
  let n := p.value
  match p.char?.bind shortLetter? with
  | some l => [.char '\\', .char l]
  | none =>
    if n < 0x20 ∨ (s.asciiOnly ∧ 0x7E < n) then (unitsChars n).map .char else [p]

/-- A string in its quotes. -/
def stringWritten (s : Style) (t : Text) : List CodePoint :=
  .char '"' :: (t.points.flatMap (pointWritten s) ++ [.char '"'])

end Strings

/-- The text of a string literal. -/
def literal (s : String) : List CodePoint := (Text.ofString s).points

mutual
/-- A value in a style. -/
def write (s : Style) : Json → List CodePoint
  | .null => literal "null"
  | .bool b => literal (if b then "true" else "false")
  | .int i => (intChars i).map .char
  | .float x => (floatChars x).map .char
  | .text t => stringWritten s t
  | .list items => .char '[' :: (writeItems s items ++ [.char ']'])
  | .object fields => .char '\x7b' :: (writeFields s fields ++ [.char '\x7d'])
def writeItems (s : Style) : List Json → List CodePoint
  | [] => []
  | [j] => write s j
  | j :: rest => write s j ++ (literal s.comma ++ writeItems s rest)
def writeFields (s : Style) : List (Text × Json) → List CodePoint
  | [] => []
  | [(name, j)] => stringWritten s name ++ (literal s.colon ++ write s j)
  | (name, j) :: rest =>
    stringWritten s name ++ (literal s.colon ++ (write s j ++ (literal s.comma ++ writeFields s rest)))
end

example : floatChars (.ofDecimal true 125 (-2)) = ['-', '1', '.', '2', '5'] := by decide +kernel
example : floatChars (.ofDecimal false 1 16) = ['1', 'e', '+', '1', '6'] := by decide +kernel
example : floatChars (.ofDecimal false 1 15) = "1000000000000000.0".toList := by decide +kernel
example : floatChars (.ofDecimal false 25 (-6)) = ['2', '.', '5', 'e', '-', '0', '5'] := by decide +kernel

end ReviewDesk.Json
