import ReviewDesk.Time.Timestamp

/-!
# The clock

A clock is read one tick at a time. It shows universal time, starts at a given instant and moves on from each
reading to the next, by as much as its pace says: always by the same, or by more or less each time, not at all or
backwards. Where it is led out of the calendar it cannot be read, and the attempt is not counted.
-/
namespace ReviewDesk

/-- How many microseconds a clock moves on after each of its readings. -/
structure Pace where
  step : Nat → Int

namespace Pace

/-- A number is the pace of a clock that always moves on by the same. -/
instance : Coe Int Pace := ⟨fun step => ⟨fun _ => step⟩⟩

instance (n : Nat) : OfNat Pace n := ⟨⟨fun _ => n⟩⟩

/-- How far a clock has moved on after some readings. -/
def elapsed (p : Pace) : Nat → Int
  | 0 => 0
  | n + 1 => p.elapsed n + p.step n

end Pace

/-- A clock: the first reading, the pace, and the number of readings made. -/
structure Clock where
  start : Int
  pace : Pace
  ticks : Nat

namespace Clock

/-- What the next reading shows. -/
def now (c : Clock) : Timestamp := Timestamp.ofInstant (c.start + c.pace.elapsed c.ticks)

/-- One reading, and the clock after it. -/
def tick? (c : Clock) : Option (Timestamp × Clock) :=
  if c.now.isOnCalendar then some (c.now, { c with ticks := c.ticks + 1 }) else none

/-- A date, and the clock after it: the given date, or else a reading. -/
def dated? (c : Clock) : Option Timestamp → Option (Timestamp × Clock)
  | some t => some (t, c)
  | none => c.tick?

/-- What a reading shows is on the calendar, and it is counted. -/
theorem tick?_eq_some_iff (c d : Clock) (t : Timestamp) :
    c.tick? = some (t, d) ↔ c.now.isOnCalendar = true ∧ t = c.now ∧ d = { c with ticks := c.ticks + 1 } := by
  unfold tick?
  by_cases h : c.now.isOnCalendar = true <;> simp [h, eq_comm]

@[simp] theorem dated?_some (c : Clock) (t : Timestamp) : c.dated? (some t) = some (t, c) := rfl

@[simp] theorem dated?_none (c : Clock) : c.dated? none = c.tick? := rfl

/-- A clock that does not go backwards. -/
def Forward (c : Clock) : Prop := ∀ n, 0 ≤ c.pace.step n

/-- It shows later readings later. -/
theorem Forward.now_le_now {c : Clock} (h : c.Forward) (n : Nat) :
    c.now.instant ≤ ({ c with ticks := c.ticks + n } : Clock).now.instant := by
  have helapsed : c.pace.elapsed c.ticks ≤ c.pace.elapsed (c.ticks + n) := by
    induction n with
    | zero => exact Int.le_refl _
    | succ n ih =>
      have hstep := h (c.ticks + n)
      rw [← Nat.add_assoc, Pace.elapsed]
      omega
  simp only [now, Timestamp.instant_ofInstant]
  omega

end Clock
end ReviewDesk
