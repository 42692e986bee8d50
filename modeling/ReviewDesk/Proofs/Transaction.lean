import ReviewDesk.Desk.World
import ReviewDesk.Proofs.Lawful

/-!
# Jobs inside a transaction

Where no fault lies in wait, a job inside a transaction changes three things only: the working copy,
the draws and the number of readings of the clock. It ends with an answer or with a failure, and the
transaction around it commits the working copy in the one case and leaves the store as it was in the
other.

Main definition: `Job.Ends` says what a job comes to from given values of the three. It is put
together along the steps of the job, one rule for each kind of call.
-/
namespace ReviewDesk

/-- The clock after some more readings. -/
def Clock.after (k : Clock) (n : Nat) : Clock := { k with ticks := k.ticks + n }

namespace World

variable {σ : Type}

/-- The inside of a transaction that began in a world. -/
def inside (w : World σ) (s : σ) (d : Draws) (n : Nat) : World σ :=
  { w with work := some s, draws := d, clock := w.clock.after n }

/-- What a transaction leaves that began in a world. -/
def left (w : World σ) (s : σ) (d : Draws) (n : Nat) : World σ :=
  { w with store := s, work := none, draws := d, clock := w.clock.after n }

/-- Two worlds that a request cannot tell apart: neither a journal nor the copy of a transaction
that is over makes a difference to what comes. -/
structure Like (w w' : World σ) : Prop where
  store : w.store = w'.store
  draws : w.draws = w'.draws
  clock : w.clock = w'.clock
  faults : w.faults = w'.faults

@[refl] theorem Like.refl (w : World σ) : w.Like w := ⟨rfl, rfl, rfl, rfl⟩

theorem Like.symm {w w' : World σ} (h : w.Like w') : w'.Like w :=
  ⟨h.store.symm, h.draws.symm, h.clock.symm, h.faults.symm⟩

theorem Like.trans {u v w : World σ} (h : u.Like v) (h' : v.Like w) : u.Like w :=
  ⟨h.store.trans h'.store, h.draws.trans h'.draws, h.clock.trans h'.clock, h.faults.trans h'.faults⟩

theorem like_note (w : World σ) (e : Event) : (w.note e).Like w := ⟨rfl, rfl, rfl, rfl⟩

theorem begin_eq (w : World σ) : w.begin = w.inside w.store w.draws 0 := rfl

theorem commit_inside [Gateway σ] [LawfulStore σ] (w : World σ) {s : σ}
    (hs : LawfulStore.Sound s) (d : Draws)
    (n : Nat) : (w.inside s d n).commit = w.left s d n := by
  have hsettle : Gateway.settle w.store s = s := LawfulStore.settle_sound w.store hs
  show (⟨Gateway.settle w.store s, none, d, w.clock.after n, w.faults, w.journal⟩ : World σ) = _
  rw [hsettle]
  rfl

theorem rollBack_inside [Gateway σ] (w : World σ) {e : Failure} (he : e.isDriver = false)
    (s : σ) (d : Draws)
    (n : Nat) : (w.inside s d n).rollBack e = (e, w.left w.store d n) := by
  unfold rollBack
  rw [he, Bool.and_false]
  rfl

end World

/-- A failure that neither the store nor the driver reported. -/
def Failure.Plain : Failure → Prop
  | .refused _ _ | .unwritable _ | .offCalendar | .incomparable => True
  | _ => False

theorem Failure.Plain.isDriver_eq {e : Failure} (h : e.Plain) : e.isDriver = false := by
  cases e <;> first | rfl | cases h

theorem Denied.plain {admitted : Prop} {why : Refusal} {e : Failure} (h : Denied admitted why e) :
    e.Plain := by
  rcases h with ⟨-, rfl⟩ | ⟨-, gap, rfl⟩
  · trivial
  · trivial

namespace Job

variable {σ α β : Type}

section Calls

variable [Gateway σ] {sh : Shape}

/-- Without faults a call is performed, however it is reached. -/
theorem reach_of_no_faults (scope : Scope) (c : Call sh) {w : World σ} (h : w.faults = []) :
    reach scope c w = perform scope c w := by
  cases c with
  | activeMembers team except =>
    unfold reach
    simp only
    split
    · exact guarded_of_no_faults _ _ _ w h
    · rfl
  | _ => rfl

/-- A call that ends with an answer or with a plain failure leaves nothing in the journal. -/
theorem ask_plain (scope : Scope) (c : Call sh) {w : World σ} (h : w.faults = [])
    {r : Except Failure sh.Answer}
    {s' : σ} {k : Clock} (hc : c.on (w.seen scope) w.clock = ((r, s'), k))
    (hr : ∀ e, r = .error e → e.Plain) :
    ask scope c w = (r.map .own, ({ w with clock := k } : World σ).keep scope r.toBool s') := by
  rw [ask, guarded_of_no_faults _ _ _ w h, bind_apply, reach_of_no_faults scope c h, perform, hc]
  cases r with
  | ok a => rfl
  | error e =>
    have he := hr e rfl
    cases e with
    | storage operation => cases he
    | storageBecause operation cause => cases he
    | _ => rfl

/-- A reading outside a transaction leaves everything as it is. -/
theorem ask_outside (c : Call sh) {w : World σ} (h : w.faults = []) {r : Except Failure sh.Answer}
    (hc : c.on w.store w.clock = ((r, w.store), w.clock)) (hr : ∀ e, r = .error e → e.Plain) :
    ask .outside c w = (r.map .own, w) := by
  rw [ask_plain .outside c h hc hr]
  cases r <;> rfl

/-- A call inside a transaction leaves a working copy. -/
theorem ask_inside (c : Call sh) {w : World σ} (h : w.faults = []) (s : σ) (d : Draws) (n : Nat)
    {r : Except Failure sh.Answer} {s' : σ}
    (hc : c.on s (w.clock.after n) = ((r, s'), w.clock.after n))
    (hr : ∀ e, r = .error e → e.Plain) :
    ask .inside c (w.inside s d n) = (r.map .own, w.inside s' d n) := by
  have hinside : (w.inside s d n).faults = [] := h
  rw [ask_plain .inside c hinside hc hr]
  rfl

end Calls

/-- What a job comes to inside a transaction of a world, from a working copy, draws and a number of
readings of the clock: it answers and leaves others, or it breaks off with a failure. -/
def Ends (x : Job σ α) (w : World σ) (s : σ) (d : Draws) (n : Nat)
    (good : α → σ → Draws → Nat → Prop)
    (bad : Failure → Draws → Nat → Prop) : Prop :=
  (∃ a s' d' n', x (w.inside s d n) = (.ok a, w.inside s' d' n') ∧ good a s' d' n') ∨
    ∃ e s' d' n', x (w.inside s d n) = (.error e, w.inside s' d' n') ∧ bad e d' n'

section Rules

variable {w : World σ} {s : σ} {d : Draws} {n : Nat} {good : α → σ → Draws → Nat → Prop}
    {bad : Failure → Draws → Nat → Prop}

theorem Ends.mono {x : Job σ α} {good' : α → σ → Draws → Nat → Prop}
    {bad' : Failure → Draws → Nat → Prop}
    (h : x.Ends w s d n good bad) (hg : ∀ a s d n, good a s d n → good' a s d n)
    (hb : ∀ e d n, bad e d n → bad' e d n) :
    x.Ends w s d n good' bad' := by
  rcases h with ⟨a, s', d', n', hx, ha⟩ | ⟨e, s', d', n', hx, he⟩
  · exact .inl ⟨a, s', d', n', hx, hg a s' d' n' ha⟩
  · exact .inr ⟨e, s', d', n', hx, hb e d' n' he⟩

theorem ends_pure {a : α} (h : good a s d n) : (pure a : Job σ α).Ends w s d n good bad :=
  .inl ⟨a, s, d, n, rfl, h⟩

theorem ends_fail {e : Failure} (h : bad e d n) : (fail e : Job σ α).Ends w s d n good bad :=
  .inr ⟨e, s, d, n, rfl, h⟩

/-- Jobs one after the other: the second goes on from wherever the first ends. -/
theorem Ends.bind {x : Job σ β} {f : β → Job σ α} {mid : β → σ → Draws → Nat → Prop}
    (h : x.Ends w s d n mid bad) (hf : ∀ b s d n, mid b s d n → (f b).Ends w s d n good bad) :
    (x >>= f).Ends w s d n good bad := by
  rcases h with ⟨b, s', d', n', hx, hb⟩ | ⟨e, s', d', n', hx, he⟩
  · rw [Ends, bind_apply, hx]
    exact hf b s' d' n' hb
  · refine .inr ⟨e, s', d', n', ?_, he⟩
    rw [bind_apply, hx]

theorem ends_choose {f : Draws → α × Draws} (h : good (f d).1 s (f d).2 n) :
    (choose f : Job σ α).Ends w s d n good bad :=
  .inl ⟨(f d).1, s, (f d).2, n, rfl, h⟩

/-- The clock shows its next reading, if that is on the calendar. -/
theorem ends_now {good : Timestamp → σ → Draws → Nat → Prop}
    (h : good (w.clock.after n).now s d (n + 1))
    (hb : (w.clock.after n).now.isOnCalendar = false → bad .offCalendar d n) :
    (now : Job σ Timestamp).Ends w s d n good bad := by
  have hclock : (w.inside s d n).clock = w.clock.after n := rfl
  by_cases hc : (w.clock.after n).now.isOnCalendar = true
  · have htick : (w.clock.after n).tick? = some ((w.clock.after n).now, w.clock.after (n + 1)) :=
      ((w.clock.after n).tick?_eq_some_iff _ _).2 ⟨hc, rfl, rfl⟩
    refine .inl ⟨(w.clock.after n).now, s, d, n + 1, ?_, h⟩
    rw [now, hclock, htick]
    rfl
  · have htick : (w.clock.after n).tick? = none := if_neg hc
    refine .inr ⟨.offCalendar, s, d, n, ?_, hb (by simpa using hc)⟩
    rw [now, hclock, htick]

end Rules

/-- What a job can fail with in a world. -/
def Fails (x : Job σ α) (w : World σ) (bad : Failure → Prop) : Prop :=
  ∀ e w', x w = (.error e, w') → bad e

theorem Fails.mono {x : Job σ α} {bad bad' : Failure → Prop} (h : x.Fails w bad)
    (hb : ∀ e, bad e → bad' e) : x.Fails w bad' := fun e w' hx => hb e (h e w' hx)

/-- Another form of the answer is no reason to fail. -/
theorem Fails.map {x : Job σ β} {bad : Failure → Prop} (h : x.Fails w bad) (f : β → α) :
    (do return f (← x) : Job σ α).Fails w bad := by
  intro e w' hx
  rw [bind_apply] at hx
  rcases hxw : x w with ⟨e' | b, w''⟩
  · rw [hxw] at hx
    cases hx
    exact h e w' hxw
  · rw [hxw] at hx
    cases hx

section Answers

variable [Gateway σ] {sh : Shape} {c : Call sh} {w : World σ} {s : σ} {d : Draws} {n : Nat}
variable {good : Given sh.Answer → σ → Draws → Nat → Prop} {bad : Failure → Draws → Nat → Prop}
variable {present admitted : Prop} {absent : Refusal} {found : sh.Answer → Prop}
    {r : Except Failure sh.Answer}

theorem Lookup.plain {α : Type} {found : α → Prop} {r : Except Failure α}
    (h : Lookup present admitted absent found r) (e : Failure) (he : r = .error e) : e.Plain := by
  rcases h.found_or_denied with ⟨-, a, rfl, -⟩ | ⟨-, e', rfl, hdenied⟩
  · cases he
  · cases he
    exact hdenied.plain

theorem Listing.plain {α : Type} {found : α → Prop} {r : Except Failure α}
    (h : Listing admitted found r) (e : Failure) (he : r = .error e) : e.Plain := by
  rcases h with ⟨-, a, rfl, -⟩ | ⟨-, gap, rfl⟩
  · cases he
  · cases he
    trivial

/-- Something is looked for. -/
theorem ends_lookup (hw : w.faults = []) (hc : ∀ k, c.on s k = ((r, s), k))
    (h : Lookup present admitted absent found r)
    (hgood : present → ∀ a, found a → good (.own a) s d n)
    (hbad : ¬ present → ∀ e, Denied admitted absent e → bad e d n) :
    (ask .inside c).Ends w s d n good bad := by
  have hx := ask_inside c hw s d n (hc _) (Lookup.plain h)
  rcases h.found_or_denied with ⟨hp, a, rfl, ha⟩ | ⟨hp, e, rfl, he⟩
  · exact .inl ⟨.own a, s, d, n, hx, hgood hp a ha⟩
  · exact .inr ⟨e, s, d, n, hx, hbad hp e he⟩

/-- Something is looked for and used at once. -/
theorem ends_look {good : sh.Answer → σ → Draws → Nat → Prop} (part : String) (hw : w.faults = [])
    (hc : ∀ k, c.on s k = ((r, s), k)) (h : Lookup present admitted absent found r)
    (hgood : present → ∀ a, found a → good a s d n)
    (hbad : ¬ present → ∀ e, Denied admitted absent e → bad e d n) :
    (look part .inside c).Ends w s d n good bad := by
  have hask : (ask .inside c).Ends w s d n
      (fun g s' d' n' => ∃ a, g = .own a ∧ good a s' d' n') bad :=
    ends_lookup hw hc h (fun hp a ha => ⟨a, rfl, hgood hp a ha⟩) hbad
  apply hask.bind
  rintro _ s' d' n' ⟨a, rfl, ha⟩
  exact ends_pure ha

/-- Something is listed. -/
theorem ends_listing (hw : w.faults = []) (hc : ∀ k, c.on s k = ((r, s), k))
    (h : Listing admitted found r)
    (hgood : ∀ a, found a → good (.own a) s d n)
    (hgap : ¬ admitted → ∀ gap, bad (.unwritable gap) d n) :
    (ask .inside c).Ends w s d n good bad := by
  have hx := ask_inside c hw s d n (hc _) (Listing.plain h)
  rcases h with ⟨-, a, rfl, ha⟩ | ⟨hn, gap, rfl⟩
  · exact .inl ⟨.own a, s, d, n, hx, hgood a ha⟩
  · exact .inr ⟨_, s, d, n, hx, hgap hn gap⟩

/-- Something is changed. -/
theorem ends_change {c : Call .nothing} {good : Unit → σ → Draws → Nat → Prop} {wanted : σ → Prop}
    {r : Except Failure Unit × σ} (hw : w.faults = [])
    (hc : c.on s (w.clock.after n) = (r, w.clock.after n))
    (h : Change admitted wanted r) (hgood : ∀ s', wanted s' → good () s' d n)
    (hgap : ¬ admitted → ∀ gap, bad (.unwritable gap) d n) :
    (tell .inside c).Ends w s d n good bad := by
  rcases h with ⟨-, s', rfl, hs⟩ | ⟨hn, gap, s', rfl⟩
  · have hx := ask_inside c hw s d n hc (fun _ he => by cases he)
    refine .inl ⟨(), s', d, n, ?_, hgood s' hs⟩
    rw [tell, bind_apply, hx]
    rfl
  · have hx := ask_inside c hw s d n hc (fun _ he => by cases he; trivial)
    refine .inr ⟨.unwritable gap, s', d, n, ?_, hgap hn gap⟩
    rw [tell, bind_apply, hx]
    rfl

/-- Something is not changed, since the store refuses. -/
theorem ends_refusal {c : Call .nothing} {good : Unit → σ → Draws → Nat → Prop}
    {e : Failure} {s' : σ}
    (hw : w.faults = []) (hc : c.on s (w.clock.after n) = ((.error e, s'), w.clock.after n))
    (he : e.Plain)
    (h : bad e d n) : (tell .inside c).Ends w s d n good bad := by
  have hx := ask_inside c hw s d n hc (fun _ h => by cases h; exact he)
  refine .inr ⟨e, s', d, n, ?_, h⟩
  rw [tell, bind_apply, hx]
  rfl

end Answers

/-- How a job comes out that begins with a transaction: it answers and leaves a store, or it fails
and leaves the store as it was. -/
def Settles (x : Job σ α) (w : World σ) (good : α → σ → Draws → Nat → Prop)
    (bad : Failure → Draws → Nat → Prop) :
    Prop :=
  (∃ a s d n w', x w = (.ok a, w') ∧ w'.Like (w.left s d n) ∧ good a s d n) ∨
    ∃ e d n w', x w = (.error e, w') ∧ w'.Like (w.left w.store d n) ∧ bad e d n

theorem Settles.mono {x : Job σ α} {w : World σ} {good good' : α → σ → Draws → Nat → Prop}
    {bad bad' : Failure → Draws → Nat → Prop} (h : x.Settles w good bad)
    (hg : ∀ a s d n, good a s d n → good' a s d n) (hb : ∀ e d n, bad e d n → bad' e d n) :
    x.Settles w good' bad' := by
  rcases h with ⟨a, s, d, n, w', hx, hlike, ha⟩ | ⟨e, d, n, w', hx, hlike, he⟩
  · exact .inl ⟨a, s, d, n, w', hx, hlike, hg a s d n ha⟩
  · exact .inr ⟨e, d, n, w', hx, hlike, hb e d n he⟩

theorem Settles.fails {x : Job σ α} {w : World σ} {good : α → σ → Draws → Nat → Prop}
    {bad : Failure → Draws → Nat → Prop} {bad' : Failure → Prop} (h : x.Settles w good bad)
    (hb : ∀ e d n, bad e d n → bad' e) : x.Fails w bad' := by
  intro e w' hx
  rcases h with ⟨a, s, d, n, w'', hx', -⟩ | ⟨e', d, n, w'', hx', -, he⟩
  · rw [hx'] at hx
    cases hx
  · rw [hx'] at hx
    cases hx
    exact hb _ d n he

section Transactions

variable [Gateway σ] [LawfulStore σ] {w : World σ} {bad : Failure → Draws → Nat → Prop}

/-- A transaction commits what its body leaves, or leaves the store as it was. -/
theorem Ends.transact {body : Job σ α} {good : α → σ → Draws → Nat → Prop}
    (h : body.Ends w w.store w.draws 0 good bad)
    (hg : ∀ a s d n, good a s d n → LawfulStore.Sound s)
    (hb : ∀ e d n, bad e d n → e.Plain) : (transact body).Settles w good bad := by
  unfold Settles Job.transact
  rw [w.begin_eq]
  rcases h with ⟨a, s, d, n, hx, ha⟩ | ⟨e, s, d, n, hx, he⟩
  · rw [hx]
    have hcommit := w.commit_inside (hg a s d n ha) d n
    exact .inl ⟨a, s, d, n, _, congrArg (Prod.mk _) hcommit, .refl _, ha⟩
  · rw [hx]
    refine .inr ⟨e, d, n, w.left w.store d n, ?_, .refl _, he⟩
    show ((fun r : Failure × World σ => (Except.error r.1, r.2)) ((w.inside s d n).rollBack e)) = _
    rw [w.rollBack_inside (hb e d n he).isDriver_eq]

theorem Ends.transaction {body : Job σ (Given α)} {good : Given α → σ → Draws → Nat → Prop}
    (hw : w.faults = [])
    (h : body.Ends w w.store w.draws 0 good bad)
    (hg : ∀ a s d n, good a s d n → LawfulStore.Sound s)
    (hb : ∀ e d n, bad e d n → e.Plain) : (transaction body).Settles w good bad := by
  have hguard : Job.transaction body w = Job.transact body w := guarded_of_no_faults _ _ _ w hw
  unfold Settles
  rw [hguard]
  exact h.transact hg hb

/-- A silent transaction that meets no fault is one like any other. -/
theorem Ends.silently {body : Job σ Unit} {good : Unit → σ → Draws → Nat → Prop}
    (hw : w.faults = [])
    (h : body.Ends w w.store w.draws 0 good bad)
    (hg : ∀ a s d n, good a s d n → LawfulStore.Sound s)
    (hb : ∀ e d n, bad e d n → e.Plain) : (silently body).Settles w good bad := by
  have hbody : (do return .own (← body) : Job σ (Given Unit)).Ends w w.store w.draws 0
      (fun _ s d n => good () s d n) bad :=
    h.bind fun _ _ _ _ ha => ends_pure ha
  have hguard : Job.silently body w =
      (do let _ ← Job.transaction (do return .own (← body)) : Job σ Unit) w :=
      guarded_of_no_faults _ _ _ w hw
  unfold Settles
  rw [hguard, bind_apply]
  rcases hbody.transaction hw (fun _ => hg ()) hb with
    ⟨a, s, d, n, w', hx, hlike, ha⟩ | ⟨e, d, n, w', hx, hlike, he⟩
  · rw [hx]
    exact .inl ⟨(), s, d, n, w', rfl, hlike, ha⟩
  · rw [hx]
    exact .inr ⟨e, d, n, w', rfl, hlike, he⟩

omit [Gateway σ] [LawfulStore σ] in
/-- What follows a transaction changes nothing that counts, and does not fail if the transaction
changed the store. -/
theorem Settles.bind_or_fail {x : Job σ β} {f : β → Job σ α} {mid : β → σ → Draws → Nat → Prop}
    {good : α → σ → Draws → Nat → Prop} (h : x.Settles w mid bad)
    (hf : ∀ b s d n, mid b s d n → ∀ w', w'.Like (w.left s d n) →
      (∃ a w'', f b w' = (.ok a, w'') ∧ w''.Like w' ∧ good a s d n) ∨
        ∃ e w'', f b w' = (.error e, w'') ∧ w''.Like w' ∧ s = w.store ∧ bad e d n) :
        (x >>= f).Settles w good bad := by
  unfold Settles
  rw [bind_apply]
  rcases h with ⟨b, s, d, n, w', hx, hlike, hb⟩ | ⟨e, d, n, w', hx, hlike, he⟩
  · rw [hx]
    rcases hf b s d n hb w' hlike with
      ⟨a, w'', hfw, hlike', ha⟩ | ⟨e, w'', hfw, hlike', rfl, he⟩
    · exact .inl ⟨a, s, d, n, w'', hfw, hlike'.trans hlike, ha⟩
    · exact .inr ⟨e, d, n, w'', hfw, hlike'.trans hlike, he⟩
  · rw [hx]
    exact .inr ⟨e, d, n, w', rfl, hlike, he⟩

omit [Gateway σ] [LawfulStore σ] in
/-- What follows a transaction does not fail and changes nothing that counts. -/
theorem Settles.bind {x : Job σ β} {f : β → Job σ α} {mid : β → σ → Draws → Nat → Prop}
    {good : α → σ → Draws → Nat → Prop} (h : x.Settles w mid bad)
    (hf : ∀ b s d n, mid b s d n → ∀ w', w'.Like (w.left s d n) →
      ∃ a w'', f b w' = (.ok a, w'') ∧ w''.Like w' ∧ good a s d n) :
        (x >>= f).Settles w good bad :=
  h.bind_or_fail fun b s d n hb w' hlike => .inl (hf b s d n hb w' hlike)

end Transactions

end Job
end ReviewDesk
