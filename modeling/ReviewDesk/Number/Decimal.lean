import ReviewDesk.Number.Binary64

/-!
# Shortest decimals

`Binary64.shortest` picks, for a finite pattern that is not zero, the decimal with the fewest digits among those
that round to the pattern, and of several such the nearest. The search tries grids of one, two, up to
seventeen digits; on each of them only the two neighbours of the value have to be tested. Everything is
arithmetic on natural numbers.
-/
namespace ReviewDesk

/-- The number `digits · 10 ^ exponent`. -/
structure Decimal where
  digits : Nat
  exponent : Int
  deriving Repr, DecidableEq

namespace Decimal

/-- Compares a decimal with `m · 2 ^ q`. -/
def compareBinary (d : Decimal) (m : Nat) (q : Int) : Ordering :=
  compare ((d.digits * Nat.pow 10 d.exponent.toNat) <<< (-q).toNat)
    ((m * Nat.pow 10 (-d.exponent).toNat) <<< q.toNat)

/-- The same number with up to `n` zeros at the end of its digits moved into the exponent. -/
def dropZeros : Nat → Decimal → Decimal
  | 0, d => d
  | n + 1, d =>
    if d.digits % 10 = 0 && d.digits != 0 then dropZeros n ⟨d.digits / 10, d.exponent + 1⟩ else d

end Decimal

namespace Binary64

/-- Whether a decimal lies among the numbers that round to a magnitude: from half way to the pattern below to
half way to the pattern above, ends included if the last bit is even. -/
def readsBack (m : Nat) (q : Int) (narrow : Bool) (d : Decimal) : Bool :=
  let low := d.compareBinary (if narrow then 4 * m - 1 else 4 * m - 2) (q - 2)
  let high := d.compareBinary (4 * m + 2) (q - 2)
  let closed := m % 2 == 0
  (low == .gt || (closed && low == .eq)) && (high == .lt || (closed && high == .eq))

/-- The least exponent `k` with `m · 2 ^ q < 10 ^ k`: an estimate from the binary logarithm, corrected
upwards. -/
def scale (m : Nat) (q : Int) : Int :=
  let estimate := ((m.log2 : Int) + q) * 30103 / 100000 - 1
  let candidates := (List.range 5).map fun (i : Nat) => estimate + i
  (candidates.find? fun k => Decimal.compareBinary ⟨1, k⟩ m q == .gt).getD (estimate + 5)

/-- The decimal on the grid `10 ^ g` that is nearest to the magnitude among those that read back. -/
def onGrid (m : Nat) (q : Int) (narrow : Bool) (g : Int) : Option Decimal :=
  let num := (m * Nat.pow 10 (-g).toNat) <<< q.toNat
  let den := Nat.pow 10 g.toNat <<< (-q).toNat
  let below : Decimal := ⟨num / den, g⟩
  let above : Decimal := ⟨num / den + 1, g⟩
  let nearer := if roundHalfEven num den = below.digits then [below, above] else [above, below]
  nearer.find? (readsBack m q narrow)

/-- The exact decimal value. -/
def exactDecimal (m : Nat) (q : Int) : Decimal :=
  ⟨(m * Nat.pow 5 (-q).toNat) <<< q.toNat, min q 0⟩

/-- The shortest decimal that rounds to the magnitude of a finite pattern other than zero. -/
def shortest (x : Binary64) : Decimal :=
  let (m, q, narrow) := x.magnitude
  let k := scale m q
  let found := (List.range 17).findSome? fun (n : Nat) => onGrid m q narrow (k - (n + 1))
  (found.getD (exactDecimal m q)).dropZeros 20

example : (ofDecimal false 1 (-1)).shortest = ⟨1, -1⟩ := by decide +kernel
example : (ofDecimal false 1 23).shortest = ⟨1, 23⟩ := by decide +kernel
example : (⟨1⟩ : Binary64).shortest = ⟨5, -324⟩ := by decide +kernel
example : (⟨0x3E60000000000000⟩ : Binary64).shortest = ⟨29802322387695312, -24⟩ := by decide +kernel

end Binary64
end ReviewDesk
