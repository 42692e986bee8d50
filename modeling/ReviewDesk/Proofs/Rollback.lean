import ReviewDesk.Proofs.Propagating

/-!
# Failures in transactions

A failure that strikes within a transaction ends it, and the committed store is what it was. The
caller gets the failure itself, unless it is one of the driver and the store reports those as a
failed commit. What follows the transaction makes no call, so that this is true of the rest of every
request that does not read back what it has committed.
-/
namespace ReviewDesk

/-- What becomes of a failure that escapes a transaction. -/
def Failure.escaped (σ : Type) [Gateway σ] (e : Failure) : Failure :=
  if Gateway.reportsDriver σ && e.isDriver then .storageBecause "commit tx" e else e

/-- What becomes of a failure that strikes at a place of a transaction: at its beginning it has
nothing to escape from. -/
def Failure.surfaced (σ : Type) [Gateway σ] (p : Point) (e : Failure) : Failure :=
  if p.isCall then e.escaped σ else e

namespace World

variable {σ : Type} [Gateway σ]

theorem rollBack_fst (w : World σ) (e : Failure) : (w.rollBack e).1 = e.escaped σ := by
  unfold rollBack Failure.escaped
  split <;> rfl

theorem rollBack_faults (w : World σ) (e : Failure) : (w.rollBack e).2.faults = w.faults := by
  unfold rollBack
  split <;> rfl

theorem rollBack_facing (w : World σ) (fs : List Fault) (e : Failure) :
    (w.facing fs).rollBack e = ((w.rollBack e).1, (w.rollBack e).2.facing fs) := by
  unfold rollBack
  split <;> rfl

theorem rollBack_writing (w : World σ) (j : Journal) (e : Failure) :
    ∃ j', (w.writing j).rollBack e = ((w.rollBack e).1, (w.rollBack e).2.writing j') := by
  unfold rollBack
  split <;> exact ⟨_, rfl⟩

/-- All that a transaction that fails may write down is that it failed. -/
theorem rollBack_journal (w : World σ) (e : Failure) :
    ∃ more, (w.rollBack e).2.journal.written = more ++ w.journal.written ∧
      ∀ entry ∈ more, ∃ cause, entry.event = .transactionFailed cause := by
  unfold rollBack
  split
  · by_cases hlevel :
        w.journal.level.rank ≤ (Event.transactionFailed e.text).record.level.rank
    · refine ⟨[⟨.transactionFailed e.text, w.journal.request⟩], ?_, fun entry hmem => ?_⟩
      · simp [note, Journal.note, hlevel]
      · obtain rfl := List.mem_singleton.1 hmem
        exact ⟨e.text, rfl⟩
    · refine ⟨[], ?_, fun _ hmem => absurd hmem List.not_mem_nil⟩
      simp [note, Journal.note, hlevel]
  · exact ⟨[], rfl, fun _ hmem => absurd hmem List.not_mem_nil⟩

end World

/-- A storage failure escapes as it is. -/
theorem Failure.escaped_of_operation (σ : Type) [Gateway σ] {e : Failure} {operation : Text}
    (h : e.operation? = some operation) : e.escaped σ = e := by
  have hdriver : e.isDriver = false := by cases e <;> first | rfl | cases h
  rw [escaped, hdriver, Bool.and_false]
  rfl

namespace Job

variable {σ α β : Type} [Gateway σ]

/-- A job that ends a request: a failure that strikes in its course leaves the committed store as it
was. -/
structure Closing (x : Job σ α) : Prop extends x.Faithful where
  clean : ∀ w, w.faults = [] → (x w).2.faults = []
  meets : ∀ w p n e, x.Meets w p n e fun e' w' => e' = e.surfaced σ p ∧ w'.store = w.store

section Rules

variable {x : Job σ α}

/-- Nothing can strike in what follows. -/
theorem Closing.bind {f : α → Job σ β} (hx : x.Closing) (hf : ∀ a, (f a).Quiet) :
    (x >>= f).Closing where
  toFaithful := hx.toFaithful.bind fun a => (hf a).toFaithful
  clean := clean_bind hx.clean fun a w hw => ((hf a).clean w).trans hw
  meets w p n e :=
    (hx.meets w p n e).bind (hx.clean _ rfl) fun a _ _ _ => (hf a).ignoresFaults.meets

/-- The beginning of a transaction is no call. -/
theorem Closing.guarded {q : Point} (hq : q.isCall = false) {instead : Substitute → Job σ α}
    (hinstead : ∀ v, (instead v).Quiet) (hx : x.Closing) : (guarded q instead x).Closing where
  toFaithful := faithful_guarded (fun v => (hinstead v).toFaithful) hx.toFaithful
  clean w hw := by
    rw [guarded_of_no_faults _ _ _ w hw]
    exact hx.clean w hw
  meets w p n e := by
    refine guarded_meets (fun m => hx.meets w p m e) fun hpq => ⟨?_, rfl⟩
    rw [Failure.surfaced, hpq, hq]
    rfl

end Rules

section Transactions

variable {body : Job σ α}

/-- A transaction that fails leaves no trace. -/
theorem transact_error (h : body.Propagates fun _ _ => False) {w w' : World σ} {e : Failure}
    (hx : transact body w = (.error e, w')) : w'.store = w.store := by
  have hstill := h.still w.begin
  rw [transact] at hx
  rcases hr : body w.begin with ⟨e' | a, w₁⟩ <;> rw [hr] at hx hstill
  · have hw' : (w₁.rollBack e').2 = w' := congrArg Prod.snd hx
    rw [← hw', World.rollBack_store]
    exact hstill
  · cases hx

theorem closing_transact (h : body.Propagates fun _ _ => False) : (transact body).Closing where
  clean w hw := by
    have hclean := h.clean w.begin hw
    rw [transact]
    rcases hr : body w.begin with ⟨e | a, w'⟩ <;> rw [hr] at hclean
    · exact (w'.rollBack_faults e).trans hclean
    · exact hclean
  meets w p n e := by
    have hbegin (fs : List Fault) : (w.facing fs).begin = w.begin.facing fs := rfl
    rcases h.meets_any w.begin p n e with ⟨m, hsame⟩ | ⟨e', w', hstruck, hw', hcall, rfl⟩
    · refine .inl ⟨m, ?_⟩
      rw [transact, transact, hbegin, hbegin, hsame]
      rcases body (w.begin.facing []) with ⟨e' | a, w'⟩
      · simp only [World.rollBack_facing]
      · rfl
    · have hstill := h.still (w.begin.facing [⟨p, n, .fail e'⟩])
      rw [hstruck] at hstill
      refine .inr ⟨e'.escaped σ, (w'.rollBack e').2, ?_, (w'.rollBack_faults e').trans hw', ?_, ?_⟩
      · rw [transact, hbegin, hstruck, ← World.rollBack_fst w' e']
      · rw [Failure.surfaced, if_pos hcall]
      · rw [World.rollBack_store]
        exact hstill
  ignoresJournal w j := by
    obtain ⟨j', hj'⟩ := h.ignoresJournal w.begin j
    have hbegin : (w.writing j).begin = w.begin.writing j := rfl
    rw [transact, transact, hbegin, hj']
    rcases body w.begin with ⟨e | a, w'⟩
    · obtain ⟨j'', hj''⟩ := w'.rollBack_writing j' e
      refine ⟨j'', ?_⟩
      simp only [hj'']
    · exact ⟨j', rfl⟩
  tells w := by
    obtain ⟨new, hnew, htold⟩ := h.tells w.begin
    rw [transact]
    rcases hr : body w.begin with ⟨e | a, w'⟩ <;> rw [hr] at hnew htold
    · obtain ⟨more, hmore, hfailed⟩ := w'.rollBack_journal e
      refine ⟨more ++ new, ?_, fun entry hmem operation cause hevent => ?_⟩
      · show (w'.rollBack e).2.journal.written = _
        rw [hmore, hnew, List.append_assoc]
        rfl
      · rcases List.mem_append.1 hmem with hmem | hmem
        · obtain ⟨cause', hcause⟩ := hfailed entry hmem
          rw [hcause] at hevent
          cases hevent
        · obtain ⟨_, he, hoperation⟩ := htold entry hmem operation cause hevent
          cases he
          refine ⟨e, ?_, hoperation⟩
          show Except.error (w'.rollBack e).1 = _
          rw [World.rollBack_fst, Failure.escaped_of_operation σ hoperation]
    · exact ⟨new, hnew, fun entry hmem operation cause hevent => by
        obtain ⟨_, he, -⟩ := htold entry hmem operation cause hevent
        cases he⟩

theorem closing_transaction {body : Job σ (Given α)} (h : body.Propagates fun _ _ => False) :
    (transaction body).Closing :=
  (closing_transact h).guarded rfl fun _ => quiet_pure _

theorem closing_silently {body : Job σ Unit} (h : body.Propagates fun _ _ => False) :
    (silently body).Closing := by
  have hbody : (do return .own (← body) : Job σ (Given Unit)).Propagates fun _ _ => False :=
    h.bind fun _ => propagates_pure _
  exact ((closing_transaction hbody).bind fun _ => quiet_pure _).guarded rfl fun _ => quiet_pure _

end Transactions

end Job
end ReviewDesk
