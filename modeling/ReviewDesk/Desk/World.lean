import ReviewDesk.Desk.Call
import ReviewDesk.Journal
import ReviewDesk.Random.Selection

/-!
# The world around a request

A request works on a world: the committed store, the working copy of the transaction in progress, the random
source, the clock, the faults that lie in wait, and the journal. A job changes the world and ends with an
answer or a failure; what it changed before it failed stays changed, apart from the working copy, which a
failed transaction throws away.

Main definitions: `ask` performs one call outside or inside the transaction, `transaction` runs a job as a
transaction.
-/
namespace ReviewDesk

/-- What a fault does in place of the operation that it strikes. -/
inductive Effect where
  | fail (e : Failure)
  | give (v : Substitute)
  deriving Repr

/-- A fault strikes once, when its place is passed for the time after `skip` passes. -/
structure Fault where
  point : Point
  skip : Nat
  effect : Effect
  deriving Repr

/-- The faults after one more is laid: it replaces the one that lay at its place. -/
def Fault.lay (f : Fault) (faults : List Fault) : List Fault :=
  f :: faults.filter fun g => g.point ≠ f.point

/-- What strikes at a place, and the faults left. A fault that strikes is gone; one that does not strike yet
counts the pass. -/
def Fault.strike (p : Point) : List Fault → Option Effect × List Fault
  | [] => (none, [])
  | f :: rest =>
    if f.point = p then
      match f.skip with
      | 0 => (some f.effect, rest)
      | n + 1 => (none, { f with skip := n } :: rest)
    else
      let (effect, rest) := strike p rest
      (effect, f :: rest)

@[simp] theorem Fault.strike_nil (p : Point) : Fault.strike p [] = (none, []) := rfl

/-- Everything that a request can see and change. -/
structure World (σ : Type) where
  store : σ
  work : Option σ
  draws : Draws
  clock : Clock
  faults : List Fault
  journal : Journal

/-- Whether a call goes to the committed store or to the working copy. -/
inductive Scope where
  | outside
  | inside
  deriving Repr, DecidableEq

namespace World

variable {σ : Type}

/-- The store that a call sees. -/
def seen (w : World σ) : Scope → σ
  | .outside => w.store
  | .inside => w.work.getD w.store

/-- The world after a call left a store behind. A failed call leaves no trace in the committed store. -/
def keep (w : World σ) (scope : Scope) (succeeded : Bool) (after : σ) : World σ :=
  match scope with
  | .outside => if succeeded then { w with store := after } else w
  | .inside => { w with work := some after }

/-- The world with one more event in the journal. -/
def note (w : World σ) (e : Event) : World σ := { w with journal := w.journal.note e }

@[simp] theorem note_store (w : World σ) (e : Event) : (w.note e).store = w.store := rfl

@[simp] theorem note_draws (w : World σ) (e : Event) : (w.note e).draws = w.draws := rfl

@[simp] theorem note_clock (w : World σ) (e : Event) : (w.note e).clock = w.clock := rfl

@[simp] theorem note_faults (w : World σ) (e : Event) : (w.note e).faults = w.faults := rfl

/-- The effect that strikes at a place, and the world after the place is passed. -/
def pass (w : World σ) (p : Point) : Option Effect × World σ :=
  let (effect, faults) := Fault.strike p w.faults
  (effect, { w with faults := faults })

/-- Without faults nothing strikes. -/
theorem pass_of_no_faults (w : World σ) (p : Point) (h : w.faults = []) : w.pass p = (none, w) := by
  cases w
  subst h
  rfl

end World

/-- A change of the world that ends with an answer or a failure. -/
def Job (σ α : Type) : Type := World σ → Except Failure α × World σ

namespace Job

variable {σ α β : Type}

instance : Monad (Job σ) where
  pure a := fun w => (.ok a, w)
  bind x f := fun w =>
    match x w with
    | (.ok a, w) => f a w
    | (.error e, w) => (.error e, w)

@[simp] theorem pure_apply (a : α) (w : World σ) : (pure a : Job σ α) w = (.ok a, w) := rfl

theorem bind_apply (x : Job σ α) (f : α → Job σ β) (w : World σ) :
    (x >>= f) w = match x w with
      | (.ok a, w) => f a w
      | (.error e, w) => (.error e, w) := rfl

/-- Ends with a failure. -/
def fail (e : Failure) : Job σ α := fun w => (.error e, w)

/-- Ends with a refusal in its usual words. -/
def refuse (why : Refusal) : Job σ α := fail (.refuse why)

@[simp] theorem fail_apply (e : Failure) (w : World σ) : (fail e : Job σ α) w = (.error e, w) := rfl

/-- Writes an event into the journal. -/
def note (e : Event) : Job σ Unit := fun w => (.ok (), w.note e)

/-- Reads the clock. -/
def now : Job σ Timestamp := fun w =>
  match w.clock.tick? with
  | some (t, clock) => (.ok t, { w with clock := clock })
  | none => (.error .offCalendar, w)

/-- Makes a random choice. -/
def choose (f : Draws → α × Draws) : Job σ α := fun w =>
  let (a, draws) := f w.draws
  (.ok a, { w with draws := draws })

/-- Takes a random entry out of a pool. -/
def take (pool : List α) : Job σ (Option α × List α) :=
  choose fun d =>
    let (taken, rest, d) := takeRandom pool d
    ((taken, rest), d)

/-- Ends as the given outcome says. -/
def ofExcept (outcome : Except Failure α) : Job σ α := fun w => (outcome, w)

@[simp] theorem ofExcept_ok (a : α) : (ofExcept (.ok a) : Job σ α) = pure a := rfl

/-- `act`, unless a fault strikes at the place `p`: the fault fails, or what it gives is dealt with by
`instead`. -/
def guarded (p : Point) (instead : Substitute → Job σ α) (act : Job σ α) : Job σ α := fun w =>
  match w.pass p with
  | (none, w) => act w
  | (some (.fail e), w) => (.error e, w)
  | (some (.give v), w) => instead v w

/-- Without faults nothing stands in the way. -/
theorem guarded_of_no_faults (p : Point) (instead : Substitute → Job σ α) (act : Job σ α) (w : World σ)
    (h : w.faults = []) : guarded p instead act w = act w := by
  simp [guarded, World.pass_of_no_faults w p h]

/-- `act`, while the fault at the place `p` is laid aside and neither strikes nor counts. -/
def sparing (p : Point) (act : Job σ α) : Job σ α := fun w =>
  let (outcome, w') := act { w with faults := w.faults.filter fun f => f.point ≠ p }
  (outcome, { w' with faults := w'.faults ++ w.faults.filter fun f => f.point = p })

/-- Without faults there is none to lay aside. -/
theorem sparing_of_no_faults (p : Point) (act : Job σ α) (w : World σ) (h : w.faults = []) :
    sparing p act w = act w := by
  cases w
  subst h
  simp [sparing]

/-- Refuses with `taken` if `look` finds something; `absent` is the refusal by which it tells that there is
nothing. -/
def ensureAbsent (look : Job σ α) (absent taken : Refusal) : Job σ Unit := fun w =>
  match look w with
  | (.ok _, w) => (.error (.refuse taken), w)
  | (.error (.refused why note), w) => (if why = absent then .ok () else .error (.refused why note), w)
  | (.error e, w) => (.error e, w)

variable [Gateway σ]

/-- A call on the store itself. A storage operation that failed is reported in the journal. -/
def perform {s : Shape} (scope : Scope) (c : Call s) : Job σ s.Answer := fun w =>
  let ((answer, after), clock) := c.on (w.seen scope) w.clock
  let w := { w with clock := clock }
  match answer with
  | .ok a => (.ok a, w.keep scope true after)
  | .error e =>
    let w := w.keep scope false after
    match e with
    | .storage operation => (.error e, w.note (.storageFailed operation ""))
    | .storageBecause operation cause => (.error e, w.note (.storageFailed operation cause.text))
    | _ => (.error e, w)

/-- A call whose own place is passed. Where the active members of a team are picked out of all its members, the
place of that reading is passed as well. -/
def reach {s : Shape} (scope : Scope) (c : Call s) : Job σ s.Answer :=
  match s, c with
  | _, .activeMembers team except =>
    let pick (v : Substitute) : Job σ (List User) := do
      let us ← ofExcept ((Shape.users.given v).each "is_active")
      return us.filter fun u => u.active && some u.id ≠ except
    if Gateway.picksActive σ then guarded .members pick (perform scope (.activeMembers team except))
    else perform scope (.activeMembers team except)
  | _, c => perform scope c

/-- A call, which a fault may strike: what is given in answer to it. -/
def ask {s : Shape} (scope : Scope) (c : Call s) : Job σ (Given s.Answer) :=
  guarded c.point (fun v => pure (s.given v)) do return .own (← reach scope c)

/-- A call whose answer is used at once, from the part of that name on. -/
def look {s : Shape} (part : String) (scope : Scope) (c : Call s) : Job σ s.Answer := do
  ofExcept ((← ask scope c).part part)

/-- A call that is not made for its answer. -/
def tell (scope : Scope) (c : Call .nothing) : Job σ Unit := do
  let _ ← ask scope c

end Job

namespace World

variable {σ : Type}

/-- A transaction begins with a copy of the committed store. -/
def begin (w : World σ) : World σ := { w with work := some w.store }

/-- A transaction that ends normally replaces the committed store. -/
def commit [Gateway σ] (w : World σ) : World σ :=
  { w with store := Gateway.settle w.store (w.work.getD w.store), work := none }

/-- A transaction that fails leaves the committed store as it is. What the caller gets to see is the failure,
or, for a failure of the driver, that the transaction could not be committed. -/
def rollBack [Gateway σ] (w : World σ) (e : Failure) : Failure × World σ :=
  let w := { w with work := none }
  if Gateway.reportsDriver σ && e.isDriver then
    (.storageBecause "commit tx" e, w.note (.transactionFailed e.text))
  else (e, w)

@[simp] theorem begin_store (w : World σ) : w.begin.store = w.store := rfl

/-- A transaction that fails does not touch the committed store. -/
@[simp] theorem rollBack_store [Gateway σ] (w : World σ) (e : Failure) :
    (w.rollBack e).2.store = w.store := by
  unfold rollBack
  split <;> rfl

end World

namespace Job

variable {σ α : Type} [Gateway σ]

/-- A job as a transaction, once it has begun for certain. -/
def transact (body : Job σ α) : Job σ α := fun w =>
  match body w.begin with
  | (.ok a, w) => (.ok a, w.commit)
  | (.error e, w) =>
    let (e, w) := w.rollBack e
    (.error e, w)

/-- A job as a transaction, which a fault may keep from beginning. -/
def transaction (body : Job σ (Given α)) : Job σ (Given α) :=
  guarded .transaction (fun v => pure (.foreign v)) (transact body)

/-- A job as a transaction whose answer does not matter. -/
def silently (body : Job σ Unit) : Job σ Unit :=
  guarded .silentTransaction (fun _ => pure ()) do
    let _ ← transaction do return .own (← body)

end Job
end ReviewDesk
