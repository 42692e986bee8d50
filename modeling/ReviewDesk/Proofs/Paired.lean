import ReviewDesk.Desk.UseCase
import ReviewDesk.Proofs.Selection
import ReviewDesk.Proofs.Store.Mirroring
import ReviewDesk.Proofs.Transaction

/-!
# Jobs on a store and on its mirror

Twin worlds differ in nothing but the store: one has records, the other tables that mirror them. A
job on twin worlds without faults does the same in both. It gives the same answer, apart from the
offsets of dates, or breaks off with the same failure, and leaves twin worlds. This is shown along
the steps of a job, one rule for each kind of step.

Main result: every use case looks around in twin worlds with the same result, and what is pending
then does the same in any twin worlds.
-/
namespace ReviewDesk

open RelationalStore (Writable)

/-- Two worlds that differ in the store only, as seen from outside or inside a transaction, where
no fault lies in wait. -/
structure World.Twin (scope : Scope) (w : World KeyedStore) (v : World RelationalStore) : Prop where
  store : Mirrors w.store v.store
  seen : Mirrors (w.seen scope) (v.seen scope)
  draws : v.draws = w.draws
  clock : v.clock = w.clock
  faults : w.faults = [] ∧ v.faults = []

namespace World.Twin

variable {scope : Scope} {w : World KeyedStore} {v : World RelationalStore}

theorem outside (h : w.Twin scope v) : w.Twin .outside v :=
  ⟨h.store, h.store, h.draws, h.clock, h.faults⟩

theorem note (h : w.Twin scope v) (e e' : Event) : (w.note e).Twin scope (v.note e') := by
  cases scope <;> exact ⟨h.store, h.seen, h.draws, h.clock, h.faults⟩

theorem keep (h : w.Twin scope v) {k : KeyedStore} {r : RelationalStore} (hkr : Mirrors k r) :
    (w.keep scope true k).Twin scope (v.keep scope true r) := by
  cases scope with
  | outside => exact ⟨hkr, hkr, h.draws, h.clock, h.faults⟩
  | inside => exact ⟨h.store, hkr, h.draws, h.clock, h.faults⟩

/-- A call that fails leaves the committed store as it is. -/
theorem keep_failed (h : w.Twin scope v) (k : KeyedStore) (r : RelationalStore) :
    (w.keep scope false k).Twin .outside (v.keep scope false r) := by
  cases scope <;> exact ⟨h.store, h.store, h.draws, h.clock, h.faults⟩

theorem begin (h : w.Twin .outside v) : w.begin.Twin .inside v.begin :=
  ⟨h.store, h.store, h.draws, h.clock, h.faults⟩

theorem commit (h : w.Twin .inside v) : w.commit.Twin .outside v.commit := by
  have hsettled : Mirrors w.commit.store v.commit.store := by
    have hv : v.commit.store = v.seen .inside := h.seen.settle v.store
    rw [hv]
    exact h.seen
  exact ⟨hsettled, hsettled, h.draws, h.clock, h.faults⟩

/-- A failure of another kind than the driver's is told as it is. -/
theorem rollBack (h : w.Twin .outside v) {e : Failure} (he : e.isDriver = false) :
    ∃ w' v', w.rollBack e = (e, w') ∧ v.rollBack e = (e, v') ∧ w'.Twin .outside v' := by
  have hv : v.rollBack e = (e, { v with work := none }) := by
    rw [World.rollBack, he, Bool.and_false]
    rfl
  exact ⟨{ w with work := none }, _, rfl, hv, h.store, h.store, h.draws, h.clock, h.faults⟩

end World.Twin

/-- What a call gives on a store and on its mirror. -/
def Shape.Shown (s : Shape) (x y : Given s.Answer) : Prop :=
  ∃ a, x = .own a ∧ y = .own (s.wallOnly a) ∧ s.Written a

namespace Job

variable {α β γ δ : Type} {scope : Scope}

/-- Two jobs that do the same in twin worlds: their answers are related, or their failures are the
same and do not stem from the driver. -/
def Paired (scope : Scope) (x : Job KeyedStore α) (y : Job RelationalStore β) (R : α → β → Prop) :
    Prop :=
  ∀ w v, w.Twin scope v →
    (∃ a b w' v', x w = (.ok a, w') ∧ y v = (.ok b, v') ∧ w'.Twin scope v' ∧ R a b) ∨
      ∃ e w' v', x w = (.error e, w') ∧ y v = (.error e, v') ∧ w'.Twin .outside v' ∧
        e.isDriver = false

section Rules

variable {x : Job KeyedStore α} {y : Job RelationalStore β} {R : α → β → Prop}

theorem paired_pure {a : α} {b : β} (h : R a b) : (pure a : Job _ α).Paired scope (pure b) R :=
  fun w v ht => .inl ⟨a, b, w, v, rfl, rfl, ht, h⟩

theorem paired_fail {e : Failure} (he : e.isDriver = false) :
    (fail e : Job _ α).Paired scope (fail e : Job _ β) R :=
  fun w v ht => .inr ⟨e, w, v, rfl, rfl, ht.outside, he⟩

/-- What is at hand is used at once. -/
theorem paired_ofExcept {a : α} {b : β} {f : α → Job KeyedStore γ} {g : β → Job RelationalStore δ}
    {S : γ → δ → Prop} (h : (f a).Paired scope (g b) S) :
    (ofExcept (.ok a) >>= f).Paired scope (ofExcept (.ok b) >>= g) S := h

/-- Jobs one after the other: what follows need only be paired for related answers. -/
theorem Paired.bind {f : α → Job KeyedStore γ} {g : β → Job RelationalStore δ} {S : γ → δ → Prop}
    (h : x.Paired scope y R) (hf : ∀ a b, R a b → (f a).Paired scope (g b) S) :
    (x >>= f).Paired scope (y >>= g) S := by
  intro w v ht
  rw [bind_apply, bind_apply]
  rcases h w v ht with ⟨a, b, w', v', hx, hy, ht', hab⟩ | ⟨e, w', v', hx, hy, ht', he⟩
  · rw [hx, hy]
    exact hf a b hab w' v' ht'
  · rw [hx, hy]
    exact .inr ⟨e, w', v', rfl, rfl, ht', he⟩

theorem paired_note (e e' : Event) :
    (note e : Job _ Unit).Paired scope (note e' : Job _ Unit) fun _ _ => True :=
  fun w v ht => .inl ⟨(), (), w.note e, v.note e', rfl, rfl, ht.note e e', trivial⟩

/-- The clock shows universal time. -/
theorem paired_now : (now : Job _ Timestamp).Paired scope (now : Job _ Timestamp)
    fun t t' => t' = t ∧ t.offset = some 0 := by
  intro w v ht
  rw [now, now, ht.clock]
  cases hc : w.clock.tick? with
  | none => exact .inr ⟨.offCalendar, w, v, rfl, rfl, ht.outside, rfl⟩
  | some reading =>
    obtain ⟨t, clock⟩ := reading
    obtain ⟨-, rfl, rfl⟩ := (w.clock.tick?_eq_some_iff _ _).1 hc
    refine .inl ⟨_, _, _, _, rfl, rfl, ?_, rfl, rfl⟩
    cases scope <;> exact ⟨ht.store, ht.seen, ht.draws, rfl, ht.faults⟩

theorem paired_choose {f : ReviewDesk.Draws → α × ReviewDesk.Draws} {P : α → Prop} (h : ∀ d, P (f d).1) :
    (choose f : Job _ α).Paired scope (choose f : Job _ α) fun a b => b = a ∧ P a := by
  intro w v ht
  have hv : choose f v = (.ok (f w.draws).1, { v with draws := (f w.draws).2 }) := by
    rw [choose, ht.draws]
  refine .inl ⟨_, _, _, _, rfl, hv, ?_, rfl, h w.draws⟩
  cases scope <;> exact ⟨ht.store, ht.seen, rfl, ht.clock, ht.faults⟩

/-- What is taken at random, and what is left. -/
theorem paired_take (pool : List α) :
    (take pool : Job _ (Option α × List α)).Paired scope (take pool : Job _ (Option α × List α))
      fun a b => b = a ∧ (∀ x ∈ a.1, x ∈ pool) ∧ ∀ x ∈ a.2, x ∈ pool :=
  paired_choose fun d => mem_of_takeRandom pool d

/-- The same branch is taken on both sides. -/
theorem Paired.ite {c c' : Prop} [Decidable c] [Decidable c'] (hc : c' ↔ c)
    {x' : Job KeyedStore α} {y' : Job RelationalStore β} (h : c → x.Paired scope y R)
    (h' : ¬ c → x'.Paired scope y' R) :
    (if c then x else x').Paired scope (if c' then y else y') R := by
  by_cases hif : c
  · rw [if_pos hif, if_pos (hc.2 hif)]
    exact h hif
  · rw [if_neg hif, if_neg fun hif' => hif (hc.1 hif')]
    exact h' hif

end Rules

section Calls

variable {s : Shape}

/-- A call gives the same in twin worlds. -/
theorem paired_ask (c : Call s) (hc : c.Plain) :
    (ask scope c : Job KeyedStore _).Paired scope (ask scope c) s.Shown := by
  intro w v ht
  obtain ⟨x, y, hx, hy, hmatch⟩ := RelationalStore.on_matched hc ht.seen w.clock
  rw [← ht.clock] at hy
  rcases hmatch with ⟨a, k, r, rfl, rfl, ha, hkr⟩ | ⟨e, k, r, rfl, rfl, he⟩
  · exact .inl ⟨.own a, .own (s.wallOnly a), _, _,
      ask_plain scope c ht.faults.1 hx (fun _ h => by cases h),
      ask_plain scope c ht.faults.2 hy (fun _ h => by cases h), ht.keep hkr, a, rfl, rfl, ha⟩
  · exact .inr ⟨e, _, _,
      ask_plain scope c ht.faults.1 hx (fun _ h => by cases h; exact he),
      ask_plain scope c ht.faults.2 hy (fun _ h => by cases h; exact he), ht.keep_failed k r,
      he.isDriver_eq⟩

theorem paired_look (part : String) (c : Call s) (hc : c.Plain) :
    (look part scope c : Job KeyedStore _).Paired scope (look part scope c)
      fun a b => b = s.wallOnly a ∧ s.Written a := by
  refine (paired_ask c hc).bind ?_
  rintro _ _ ⟨a, rfl, rfl, ha⟩
  exact paired_pure ⟨rfl, ha⟩

theorem paired_tell (c : Call .nothing) (hc : c.Plain) :
    (tell scope c : Job KeyedStore _).Paired scope (tell scope c) fun _ _ => True :=
  (paired_ask c hc).bind fun _ _ _ => paired_pure trivial

/-- What must not be there is there on both sides, or on none. -/
theorem paired_ensureAbsent (c : Call s) (hc : c.Plain) (absent taken : Refusal) :
    (ensureAbsent (ask .outside c : Job KeyedStore _) absent taken).Paired .outside
      (ensureAbsent (ask .outside c) absent taken) fun _ _ => True := by
  intro w v ht
  unfold ensureAbsent
  rcases paired_ask c hc w v ht with ⟨a, b, w', v', hx, hy, ht', -⟩ | ⟨e, w', v', hx, hy, ht', he⟩
  · rw [hx, hy]
    exact .inr ⟨.refuse taken, w', v', rfl, rfl, ht', rfl⟩
  · rw [hx, hy]
    cases e with
    | refused why note =>
      by_cases hwhy : why = absent
      · simp only [if_pos hwhy]
        exact .inl ⟨(), (), w', v', rfl, rfl, ht', trivial⟩
      · simp only [if_neg hwhy]
        exact .inr ⟨_, w', v', rfl, rfl, ht', he⟩
    | _ => exact .inr ⟨_, w', v', rfl, rfl, ht', he⟩

end Calls

section Transactions

/-- A transaction commits on both sides or on none. -/
theorem Paired.transaction {x : Job KeyedStore (Given α)} {y : Job RelationalStore (Given β)}
    {R : Given α → Given β → Prop} (h : x.Paired .inside y R) :
    (transaction x).Paired .outside (transaction y) R := by
  intro w v ht
  have hw : Job.transaction x w = transact x w := guarded_of_no_faults _ _ _ w ht.faults.1
  have hv : Job.transaction y v = transact y v := guarded_of_no_faults _ _ _ v ht.faults.2
  rw [hw, hv, transact, transact]
  rcases h w.begin v.begin ht.begin with
    ⟨a, b, w', v', hx, hy, ht', hab⟩ | ⟨e, w', v', hx, hy, ht', he⟩
  · rw [hx, hy]
    exact .inl ⟨a, b, w'.commit, v'.commit, rfl, rfl, ht'.commit, hab⟩
  · rw [hx, hy]
    obtain ⟨w'', v'', hw', hv', ht''⟩ := ht'.rollBack he
    simp only [hw', hv']
    exact .inr ⟨e, w'', v'', rfl, rfl, ht'', he⟩

theorem Paired.silently {x : Job KeyedStore Unit} {y : Job RelationalStore Unit}
    {R : Unit → Unit → Prop} (h : x.Paired .inside y R) :
    (silently x).Paired .outside (silently y) fun _ _ => True := by
  have hbody : (do return .own (← x) : Job KeyedStore (Given Unit)).Paired .inside
      (do return .own (← y) : Job RelationalStore (Given Unit)) fun _ _ => True :=
    h.bind fun _ _ _ => paired_pure trivial
  intro w v ht
  have hw : Job.silently x w = (do let _ ← Job.transaction do return .own (← x) : Job _ Unit) w :=
    guarded_of_no_faults _ _ _ w ht.faults.1
  have hv : Job.silently y v = (do let _ ← Job.transaction do return .own (← y) : Job _ Unit) v :=
    guarded_of_no_faults _ _ _ v ht.faults.2
  rw [hw, hv]
  exact hbody.transaction.bind (fun _ _ _ => paired_pure trivial) w v ht

end Transactions

end Job
end ReviewDesk
