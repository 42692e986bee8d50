import ReviewDesk.Text.Unseen

/-!
# Quoted texts

A text between quotes, on one line: a backslash, the quote itself and whatever cannot be seen are written with
a backslash. The quotes are single ones unless that would need an escape which double ones do not need.
-/
namespace ReviewDesk.Text

/-- An escape with a number of so many hexadecimal digits. -/
def numbered (mark : Char) (width n : Nat) : List Char :=
  let digits := Nat.toDigits 16 n
  '\\' :: mark :: (List.replicate (width - digits.length) '0' ++ digits)

/-- A code point between quotes. -/
def quotedPoint (quote : Char) (p : CodePoint) : List CodePoint :=
  let n := p.value
  let escape (cs : List Char) : List CodePoint := cs.map .char
  if p = .char '\\' ∨ p = .char quote then [.char '\\', p]
  else if p = .char '\n' then escape ['\\', 'n']
  else if p = .char '\r' then escape ['\\', 'r']
  else if p = .char '\t' then escape ['\\', 't']
  else if 0x20 ≤ n ∧ n < 0x7F then [p]
  else if n < 0x80 ∨ isUnseen p then
    escape (if n < 0x100 then numbered 'x' 2 n else if n < 0x10000 then numbered 'u' 4 n else numbered 'U' 8 n)
  else [p]

/-- A text in quotes. -/
def quoted (t : Text) : Text :=
  let quote := if .char '\x27' ∈ t.points ∧ .char '"' ∉ t.points then '"' else '\x27'
  ⟨.char quote :: (t.points.flatMap (quotedPoint quote) ++ [.char quote])⟩

example : quoted "a\\b\n" = "'a\\\\b\\n'" := by decide +kernel
example : quoted "\u0378é" = "'\\u0378é'" := by decide +kernel
example : quoted "it's" = "\"it's\"" := by decide +kernel

end ReviewDesk.Text
