import ReviewDesk.Text.Basic

/-!
# UTF-8

A decoder that reads one octet at a time. Between characters it waits for a first octet; inside a character
it knows how many octets are owed and in which range the next one lies. A flaw is reported with the place
where its character starts and the number of octets that belong to it.

In the other direction a character has its octets, `octetsOf`, and half of a surrogate pair has none: `gap?`
finds the first place where a text cannot be written.
-/
namespace ReviewDesk.Text

/-- What is wrong with an octet sequence. -/
inductive FlawKind where
  | start
  | continuation
  | unexpectedEnd
  deriving Repr, DecidableEq

/-- A flaw: where the broken character starts, its octets, and what is wrong. -/
structure Flaw where
  position : Nat
  octets : List Nat
  kind : FlawKind
  deriving Repr, DecidableEq

/-- The words for a flaw. -/
def Flaw.message (f : Flaw) : String :=
  let reason := match f.kind with
    | .start => "invalid start byte"
    | .continuation => "invalid continuation byte"
    | .unexpectedEnd => "unexpected end of data"
  match f.octets with
  | [b] =>
    let digits := String.ofList (Nat.toDigits 16 b)
    let padded := if b < 16 then "0" ++ digits else digits
    "'utf-8' codec can't decode byte 0x" ++ padded ++ " in position " ++ toString f.position ++ ": " ++ reason
  | _ =>
    "'utf-8' codec can't decode bytes in position " ++ toString f.position ++ "-" ++
      toString (f.position + f.octets.length - 1) ++ ": " ++ reason

/-- A character of which some octets are still owed: the range of the next one, the bits so far, and the
octets read, last first. -/
structure Unfinished where
  owed : Nat
  low : Nat
  high : Nat
  bits : Nat
  seen : List Nat
  deriving Repr, DecidableEq

/-- The state after the first octet of a longer character. With `halves`, the code points of surrogate
halves are let through. -/
def firstOctet (halves : Bool) (b : Nat) : Option Unfinished :=
  if 0xC2 ≤ b ∧ b ≤ 0xDF then some ⟨1, 0x80, 0xBF, b - 0xC0, [b]⟩
  else if b = 0xE0 then some ⟨2, 0xA0, 0xBF, 0, [b]⟩
  else if b = 0xED then some ⟨2, 0x80, if halves then 0xBF else 0x9F, 0xD, [b]⟩
  else if 0xE1 ≤ b ∧ b ≤ 0xEF then some ⟨2, 0x80, 0xBF, b - 0xE0, [b]⟩
  else if b = 0xF0 then some ⟨3, 0x90, 0xBF, 0, [b]⟩
  else if b = 0xF4 then some ⟨3, 0x80, 0x8F, 4, [b]⟩
  else if 0xF1 ≤ b ∧ b ≤ 0xF3 then some ⟨3, 0x80, 0xBF, b - 0xF0, [b]⟩
  else none

/-- The code points from position `pos` on, inside an unfinished character or between two. -/
def decodeFrom (halves : Bool) : Nat → Option Unfinished → List Nat → Except Flaw (List CodePoint)
  | _, none, [] => .ok []
  | pos, some u, [] => .error ⟨pos - u.seen.length, u.seen.reverse, .unexpectedEnd⟩
  | pos, none, b :: bs =>
    if b < 0x80 then (decodeFrom halves (pos + 1) none bs).map (CodePoint.ofNat b :: ·)
    else
      match firstOctet halves b with
      | none => .error ⟨pos, [b], .start⟩
      | some u => decodeFrom halves (pos + 1) (some u) bs
  | pos, some u, b :: bs =>
    if u.low ≤ b ∧ b ≤ u.high then
      let bits := u.bits * 64 + (b - 0x80)
      if u.owed = 1 then (decodeFrom halves (pos + 1) none bs).map (CodePoint.ofNat bits :: ·)
      else decodeFrom halves (pos + 1) (some ⟨u.owed - 1, 0x80, 0xBF, bits, b :: u.seen⟩) bs
    else .error ⟨pos - u.seen.length, u.seen.reverse, .continuation⟩

/-- The code points of a UTF-8 sequence, all of them characters. -/
def decodeUtf8 (octets : List Nat) : Except Flaw (List CodePoint) := decodeFrom false 0 none octets

example : decodeUtf8 [0x7B, 0xC3, 0xA9, 0xF0, 0x9F, 0x98, 0x80] = .ok [.char '\x7b', .char 'é', .char '😀'] := by rfl
example : decodeUtf8 [0xC3, 0x28] = .error ⟨0, [0xC3], .continuation⟩ := by rfl
example : decodeUtf8 [0x61, 0xE2, 0x82] = .error ⟨1, [0xE2, 0x82], .unexpectedEnd⟩ := by rfl

/-- The octets of a character. -/
def octetsOf (c : Char) : List Nat :=
  let n := c.toNat
  if n < 0x80 then [n]
  else if n < 0x800 then [0xC0 + n / 64, 0x80 + n % 64]
  else if n < 0x10000 then [0xE0 + n / 4096, 0x80 + n / 64 % 64, 0x80 + n % 64]
  else [0xF0 + n / 262144, 0x80 + n / 4096 % 64, 0x80 + n / 64 % 64, 0x80 + n % 64]

/-- A string whose octets are each taken for a character. An ASCII string stays as it is. -/
def octetwise (s : String) : String := String.ofList ((s.toList.flatMap octetsOf).map Char.ofNat)

/-- A run of halves in a text: where it starts, the first of them, and how many follow it. -/
structure Gap where
  position : Nat
  first : Fin 2048
  more : Nat
  deriving Repr, DecidableEq

/-- The number of halves before the first character. -/
def halvesAhead : List CodePoint → Nat
  | .half _ :: ps => halvesAhead ps + 1
  | _ => 0

/-- The first run of halves, with positions counted from `start`. -/
def gapFrom (start : Nat) : List CodePoint → Option Gap
  | [] => none
  | .half o :: ps => some ⟨start, o, halvesAhead ps⟩
  | .char _ :: ps => gapFrom (start + 1) ps

/-- The first place where a text has no UTF-8 form. -/
def gap? (t : Text) : Option Gap := gapFrom 0 t.points

/-- The words for a gap. -/
def Gap.message (g : Gap) : String :=
  let place :=
    if g.more = 0 then
      "character '\\u" ++ String.ofList (Nat.toDigits 16 (0xD800 + g.first)) ++ "' in position " ++
        toString g.position
    else "characters in position " ++ toString g.position ++ "-" ++ toString (g.position + g.more)
  "'utf-8' codec can't encode " ++ place ++ ": surrogates not allowed"

/-- A text can be written exactly if it is a string. -/
theorem gapFrom_eq_none_iff (start : Nat) (ps : List CodePoint) :
    gapFrom start ps = none ↔ ∀ p ∈ ps, p.char?.isSome := by
  induction ps generalizing start with
  | nil => simp [gapFrom]
  | cons p ps ih => cases p <;> simp [gapFrom, CodePoint.char?, ih]

example : (⟨[.char 'a', .half 0, .half 1024, .char 'b']⟩ : Text).gap? = some ⟨1, 0, 1⟩ := by rfl
example : octetsOf '€' = [0xE2, 0x82, 0xAC] := by rfl

end ReviewDesk.Text
