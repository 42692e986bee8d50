/-!
# The random source

Every random choice is one call for a number below a bound. The source answers its calls from a list of
prepared values and, once that list is used up, with the number of the call itself, so that a run is a
function of the prepared values. Main definition: `Draws.below`.
-/
namespace ReviewDesk

/-- A random source: the prepared values and the number of calls answered so far. -/
structure Draws where
  prepared : List Nat
  used : Nat
  deriving Repr, DecidableEq

namespace Draws

/-- A source that has answered no call yet. -/
def ofList (prepared : List Nat) : Draws := ⟨prepared, 0⟩

/-- The raw value behind call number `t`: the prepared one, else `t`. -/
def value (d : Draws) (t : Nat) : Nat := d.prepared.getD t t

/-- One call: a number below `n`, and the source after the call. -/
def below (d : Draws) (n : Nat) : Nat × Draws :=
  (d.value d.used % n, { d with used := d.used + 1 })

/-- The next `m` answers, if all of them are asked below `n`. -/
def upcoming (d : Draws) (n m : Nat) : List Nat :=
  (List.range m).map fun i => d.value (d.used + i) % n

/-- The source after `m` calls. -/
def skip (d : Draws) (m : Nat) : Draws := { d with used := d.used + m }

/-- The number of prepared values that no call has used. -/
def left (d : Draws) : Nat := d.prepared.length - d.used

@[simp] theorem below_used (d : Draws) (n : Nat) : (d.below n).2.used = d.used + 1 := rfl

@[simp] theorem below_prepared (d : Draws) (n : Nat) : (d.below n).2.prepared = d.prepared := rfl

@[simp] theorem skip_used (d : Draws) (m : Nat) : (d.skip m).used = d.used + m := rfl

@[simp] theorem skip_prepared (d : Draws) (m : Nat) : (d.skip m).prepared = d.prepared := rfl

theorem below_lt (d : Draws) {n : Nat} (h : 0 < n) : (d.below n).1 < n := Nat.mod_lt _ h

@[simp] theorem length_upcoming (d : Draws) (n m : Nat) : (d.upcoming n m).length = m := by
  simp [upcoming]

end Draws
end ReviewDesk
