/-!
# Sixty-four bit binary fractions

A number with a fraction is kept as the bit pattern of the nearest binary fraction with 53 significant bits.
`Binary64.ofRatio` rounds an exact quotient to it, ties to the even neighbour; decimal numerals and averages
are such quotients. Everything is arithmetic on natural numbers.
-/
namespace ReviewDesk

/-- The quotient rounded to the nearest whole number, a tie to the even one. -/
def roundHalfEven (num den : Nat) : Nat :=
  let q := num / den
  let r := num % den
  if 2 * r < den then q
  else if den < 2 * r then q + 1
  else if q % 2 = 0 then q else q + 1

/-- Rounding moves the quotient by at most half a unit. -/
theorem roundHalfEven_near (num den : Nat) (h : 0 < den) :
    2 * (roundHalfEven num den * den) ≤ 2 * num + den ∧
      2 * num ≤ 2 * (roundHalfEven num den * den) + den := by
  have e : den * (num / den) + num % den = num := Nat.div_add_mod num den
  have l : num % den < den := Nat.mod_lt _ h
  have up : (num / den + 1) * den = den * (num / den) + den := by
    rw [Nat.add_mul, Nat.mul_comm, Nat.one_mul]
  have same : num / den * den = den * (num / den) := Nat.mul_comm ..
  simp only [roundHalfEven]
  split
  · rw [same]; omega
  · split
    · rw [up]; omega
    · split
      · rw [same]; omega
      · rw [up]; omega

/-- A bit pattern: sign, eleven bits of exponent, 52 bits of fraction. -/
structure Binary64 where
  bits : Nat
  deriving Repr, DecidableEq

namespace Binary64

def positiveInfinity : Binary64 := ⟨0x7FF0000000000000⟩
def negativeInfinity : Binary64 := ⟨0xFFF0000000000000⟩
/-- The pattern used for "not a number". -/
def nan : Binary64 := ⟨0x7FF8000000000000⟩

/-- The weight of the sign bit. -/
def signBit : Nat := 1 <<< 63

/-- The pattern of a magnitude with the sign put in front. -/
def signed (negative : Bool) (magnitude : Nat) : Binary64 :=
  ⟨if negative then signBit + magnitude else magnitude⟩

/-- The exponent of the last kept bit of the quotient: it leaves 53 significant bits, but is never below
the exponent of the smallest pattern. -/
def unitExponent (num den : Nat) : Int :=
  let e : Int := (num.log2 : Int) - (den.log2 : Int) - 52
  let low := if num <<< (-(e + 52)).toNat < den <<< (e + 52).toNat then e - 1 else e
  max low (-1074)

/-- The pattern nearest to `num / den`. Adding the kept bits to the shifted exponent carries a rounding up
to the next power of two over into the exponent. -/
def ofRatio (negative : Bool) (num den : Nat) : Binary64 :=
  if num = 0 then signed negative 0
  else
    let e := unitExponent num den
    let m := roundHalfEven (num <<< (-e).toNat) (den <<< e.toNat)
    let magnitude := ((e + 1074).toNat <<< 52) + m
    signed negative (min magnitude 0x7FF0000000000000)

/-- The pattern nearest to `digits · 10 ^ exponent`. Far out of range the power is not computed. -/
def ofDecimal (negative : Bool) (digits : Nat) (exponent : Int) : Binary64 :=
  if digits = 0 then signed negative 0
  else
    let magnitude : Int := (digits.log2 : Int) / 4 + exponent
    if 400 < magnitude then signed negative 0x7FF0000000000000
    else if (digits.log2 : Int) + exponent < -400 then signed negative 0
    else ofRatio negative (digits * Nat.pow 10 exponent.toNat) (Nat.pow 10 (-exponent).toNat)

/-- Neither infinite nor "not a number". -/
def isFinite (x : Binary64) : Bool := (x.bits >>> 52) % 0x800 != 0x7FF

/-- Zero of either sign. -/
def isZero (x : Binary64) : Bool := x.bits % signBit == 0

/-- Whether the sign bit is set. -/
def isNegative (x : Binary64) : Bool := (x.bits >>> 63) % 2 == 1

def isNan (x : Binary64) : Bool := !x.isFinite && x.bits % (1 <<< 52) != 0

/-- The magnitude of a finite pattern as `m · 2 ^ q`, and whether the pattern below is nearer than the one
above. -/
def magnitude (x : Binary64) : Nat × Int × Bool :=
  let e := (x.bits >>> 52) % 0x800
  let f := x.bits % (1 <<< 52)
  if e = 0 then (f, -1074, false) else ((1 <<< 52) + f, (e : Int) - 1075, f == 0 && 1 < e)

/-- The whole number that a pattern stands for, if it stands for one. -/
def integer? (x : Binary64) : Option Int :=
  if !x.isFinite then none
  else
    let (m, q, _) := x.magnitude
    if m % (1 <<< (-q).toNat) = 0 then
      let n : Int := (m <<< q.toNat) >>> (-q).toNat
      some (if x.isNegative then -n else n)
    else none

/-- The sixteen hexadecimal digits of the pattern. -/
def hex (x : Binary64) : String :=
  let digits := Nat.toDigits 16 x.bits
  String.ofList (List.replicate (16 - digits.length) '0' ++ digits)

example : (ofRatio false 3 2).hex = "3ff8000000000000" := by decide +kernel
example : (ofDecimal false 1 (-1)).hex = "3fb999999999999a" := by decide +kernel
example : (ofDecimal false 5 (-324)).bits = 1 := by decide +kernel
example : ofDecimal true 1 400 = negativeInfinity := by decide +kernel
example : (ofRatio false (2 ^ 54 - 1) 1).bits = (ofRatio false (2 ^ 54) 1).bits := by decide +kernel
example : (ofRatio true 3 1).integer? = some (-3) := by decide +kernel
example : (ofRatio false 3 2).integer? = none := by decide +kernel

end Binary64
end ReviewDesk
