import ReviewDesk.Proofs.Closing
import ReviewDesk.Proofs.Course
import ReviewDesk.Proofs.Store.Enduring
import ReviewDesk.Proofs.Store.Relational

/-!
# Requests are atomic

Whatever fails in the course of a request, the request has changed nothing if it is answered with an
error. The one exception is a switch whose last reading fails: the switch is committed by then. The
failure is what the caller gets, apart from a refusal that is hoped for, and apart from a failure of
the driver that escapes a transaction of a store that reports those as failed commits.
-/
namespace ReviewDesk

open Job

/-- Whether a failure that lies in wait is met by the reading with which a switch ends. -/
def UseCase.ReadsBack : UseCase → Point → Nat → Prop
  | .switch _ _, p, n => p = .user ∧ n = 2
  | _, _, _ => False

section Requests

variable {σ : Type} [Gateway σ] {u : UseCase} {w : World σ} {p : Point} {n : Nat} {e : Failure}

/-- The world after some kinds of things were taken away from under its store. -/
def World.lacking (w : World σ) (lost : List Kind) : World σ :=
  { w with store := lost.foldl (fun s kind => (Gateway.lose kind s).2) w.store }

/-- What the caller gets of a failure that a request meets: the failure as it is, unless it is met
within the transaction. -/
inductive UseCase.Surfaces (u : UseCase) (w : World σ) (p : Point) (n : Nat) (e : Failure) :
    Failure → Prop
  | looking (h : (u.plan (w.facing [⟨p, n, .fail e⟩])).1.toBool = false) : Surfaces u w p n e e
  | beginning (h : p.isCall = false) : Surfaces u w p n e e
  | within (h : Plan.isPending (u.plan (w.facing [⟨p, n, .fail e⟩])).1 = true)
    (hcall : p.isCall = true) (hback : ¬ u.ReadsBack p n) : Surfaces u w p n e (e.escaped σ)
  | readBack (h : u.ReadsBack p n) : Surfaces u w p n e e

/-- How a request stands a failure that lies in wait for it. -/
structure UseCase.Atomic (u : UseCase) (w : World σ) (p : Point) (n : Nat) (e : Failure) : Prop where
  /-- If nothing lies in wait, an error leaves everything as it was. -/
  alone : ∀ e' w', u.run (w.facing []) = (.error e', w') → w'.store = w.store
  /-- So it does if the failure lies in wait, unless it is met when a switch is read back. -/
  unchanged : ∀ e' w', u.run (w.facing [⟨p, n, .fail e⟩]) = (.error e', w') →
    w'.store = w.store ∨ u.ReadsBack p n ∧ e' = e ∧
      ∃ reply w'', u.run (w.facing []) = (.ok reply, w'') ∧ w'.store = w''.store
  /-- The failure is not met, or it is the refusal that is hoped for, or it reaches the caller. -/
  surfaced :
    (∃ m, u.run (w.facing [⟨p, n, .fail e⟩]) =
      ((u.run (w.facing [])).1, (u.run (w.facing [])).2.facing [⟨p, m, .fail e⟩])) ∨
    (n = 0 ∧ u.Absorbs p e) ∨
    ∃ e' w', u.run (w.facing [⟨p, n, .fail e⟩]) = (.error e', w') ∧ u.Surfaces w p n e e'
  /-- A storage failure that is reported in the course of the request reaches the caller. -/
  told : (u.run : Job σ Reply).Tells

theorem UseCase.eq_switch_of_undertakes {id : Text} {active : Bool}
    (h : u.Undertakes (.switch id active)) : u = .switch id active := by
  cases u with
  | switch user active' =>
    cases h
    rfl
  | opening | departAll =>
    obtain ⟨_, h⟩ := h
    cases h
  | _ => cases h

/-- A failure that does not meet a reading back surfaces as transactions let it. -/
theorem UseCase.surfaces_of_pending
    (h : Plan.isPending (u.plan (w.facing [⟨p, n, .fail e⟩])).1 = true)
    (hback : ¬ u.ReadsBack p n) : u.Surfaces w p n e (e.surfaced σ p) := by
  rw [Failure.surfaced]
  split
  case isTrue hcall => exact .within h hcall hback
  case isFalse hcall => exact .beginning (by simpa using hcall)

/-- What comes of a failure that looking around has got past. -/
theorem rest_meets [EnduringStore σ] {t : Undertaking} {w₁ : World σ} {m : Nat}
    (hu : u.Undertakes t) (hplan : u.plan (w.facing [⟨p, n, .fail e⟩]) =
      (.ok (.pending t.rest), w₁.facing [⟨p, m, .fail e⟩])) :
    t.rest.Meets w₁ p m e fun e' w' => u.Surfaces w p n e e' ∧ (w'.store = w₁.store ∨
      u.ReadsBack p n ∧ e' = e ∧
        ∃ reply w'', t.rest (w₁.facing []) = (.ok reply, w'') ∧ w'.store = w''.store) := by
  have hpending : Plan.isPending (u.plan (w.facing [⟨p, n, .fail e⟩])).1 = true := by
    rw [hplan]
    rfl
  by_cases ht : ∃ id active, t = .switch id active
  · obtain ⟨id, active, rfl⟩ := ht
    obtain rfl := UseCase.eq_switch_of_undertakes hu
    have hcount : p = .user → n = m + 1 := by
      rintro rfl
      have hpasses := passes_plan_switch id active (w.facing [⟨.user, n, .fail e⟩]) n e rfl
      rw [hplan] at hpasses
      rcases hpasses with ⟨m', hm, hn⟩ | ⟨-, hfailed⟩
      · cases hm
        exact hn rfl
      · cases hfailed
    refine (switch_meets id active w₁ p m e).mono ?_
    rintro e' w' (⟨rfl, hstore, hnot⟩ | ⟨⟨rfl, rfl⟩, rfl, hcommitted⟩)
    · refine ⟨UseCase.surfaces_of_pending hpending ?_, .inl hstore⟩
      rintro ⟨rfl, rfl⟩
      exact hnot ⟨rfl, by simpa using (hcount rfl).symm⟩
    · have hback : (UseCase.switch id active).ReadsBack .user n := ⟨rfl, hcount rfl⟩
      exact ⟨.readBack hback, .inr ⟨hback, rfl, hcommitted⟩⟩
  · have hback : ¬ u.ReadsBack p n := by
      cases u with
      | switch user active => exact fun _ => ht ⟨user, active, hu⟩
      | _ => exact id
    refine Meets.mono ((closing_rest fun id active h => ht ⟨id, active, h⟩).meets w₁ p m e) ?_
    rintro e' w' ⟨rfl, hstore⟩
    exact ⟨UseCase.surfaces_of_pending hpending hback, .inl hstore⟩

/-- What comes of a failure that a request does not take for an answer. -/
theorem run_meets [EnduringStore σ] (h : ¬ (n = 0 ∧ u.Absorbs p e)) :
    (u.run : Job σ Reply).Meets w p n e fun e' w' => u.Surfaces w p n e e' ∧ (w'.store = w.store ∨
      u.ReadsBack p n ∧ e' = e ∧
        ∃ reply w'', u.run (w.facing []) = (.ok reply, w'') ∧ w'.store = w''.store) := by
  have hstill := (propagates_plan u).still (w.facing [])
  have hclean := (propagates_plan u).clean (w.facing []) rfl
  rcases plan_meets (w := w) u h with ⟨m, hsame⟩ | ⟨e', w', hplan, hw', -, rfl⟩
  · refine meets_bind_same hsame hclean fun plan w₁ hplan => ?_
    rw [hplan] at hsame hstill hclean
    cases plan with
    | finished a => exact (quiet_pure a).ignoresFaults.meets
    | pending rest =>
      obtain ⟨t, hu, rfl⟩ := plan_returns u _ _ _ hplan rest rfl
      refine (rest_meets hu hsame).mono ?_
      rintro e' w' ⟨hsurfaces, hstore | ⟨hback, rfl, reply, w'', hrest, hstore⟩⟩
      · exact ⟨hsurfaces, .inl (hstore.trans hstill)⟩
      · refine ⟨hsurfaces, .inr ⟨hback, rfl, reply, w'', ?_, hstore⟩⟩
        rw [World.facing_self hclean] at hrest
        rw [UseCase.run, bind_apply, hplan]
        exact hrest
  · have hstill' := (propagates_plan u).still (w.facing [⟨p, n, .fail e'⟩])
    rw [hplan] at hstill'
    refine .inr ⟨e', w', ?_, hw', .looking ?_, .inl hstill'⟩
    · rw [UseCase.run, bind_apply, hplan]
    · rw [hplan]
      rfl

/-- What is left to do where a failure may still lie in wait. -/
theorem rest_safe_of_closing [EnduringStore σ] {t : Undertaking} (ht : (t.rest : Job σ Reply).Closing)
    (hw : w.faults = [] ∨ ∃ m, w.faults = [⟨p, m, .fail e⟩]) (hdates : ShowsDates w.store) :
    t.rest.Safe w := by
  rcases hw with hw | ⟨m, hw⟩
  · exact t.rest_safe hw hdates
  · rw [← World.facing_self hw]
    rcases ht.meets w p m e with ⟨m', hsame⟩ | ⟨e', w', hstruck, -, -, hstore⟩
    · exact (t.rest_safe (w := w.facing []) rfl hdates).of_same hsame
    · intro e'' w'' hrest
      rw [hrest] at hstruck
      cases hstruck
      exact hstore

/-- Looking around changes nothing, so that it is up to what is left to do. -/
theorem run_safe_of_rest
    (hrest : ∀ t w₁, u.Undertakes t → (u.plan w).2 = w₁ → w₁.store = w.store → t.rest.Safe w₁) :
    u.run.Safe w := by
  intro e' w' h
  have hstill := (propagates_plan u).still w
  rcases bind_error h with hplan | ⟨plan, w₁, hplan, hfinish⟩
  · rwa [hplan] at hstill
  · rw [hplan] at hstill
    cases plan with
    | finished a => cases hfinish
    | pending rest =>
      obtain ⟨t, hu, rfl⟩ := plan_returns u _ _ _ hplan rest rfl
      exact (hrest t w₁ hu (congrArg Prod.snd hplan) hstill e' w' hfinish).trans hstill

theorem run_safe [EnduringStore σ] (u : UseCase) (hw : w.faults = [])
    (hdates : ShowsDates w.store) : u.run.Safe w := by
  refine run_safe_of_rest fun t w₁ _ hplan hstore => t.rest_safe ?_ (hstore ▸ hdates)
  exact hplan ▸ (propagates_plan u).clean w hw

/-- A refusal that is hoped for is met when looking around, if it is met at all. -/
theorem run_safe_of_absorbs [EnduringStore σ] (ha : u.Absorbs p e) (n : Nat)
    (hdates : ShowsDates w.store) : u.run.Safe (w.facing [⟨p, n, .fail e⟩]) := by
  refine run_safe_of_rest fun t w₁ hu hplan hstore => ?_
  have hclosing : (t.rest : Job σ Reply).Closing := by
    refine closing_rest fun id active => ?_
    rintro rfl
    obtain rfl := UseCase.eq_switch_of_undertakes hu
    exact ha
  refine rest_safe_of_closing hclosing (p := p) (e := e) ?_ (hstore ▸ hdates)
  exact hplan ▸ (propagates_plan u).lone w p n e

/-- A request stands every failure that lies in wait for it, as long as what is merged has a
date. -/
theorem ShowsDates.atomic [EnduringStore σ] (h : ShowsDates w.store) (u : UseCase) (p : Point)
    (n : Nat) (e : Failure) : u.Atomic w p n e where
  alone := run_safe u (w := w.facing []) rfl h
  unchanged e' w' hrun := by
    by_cases ha : n = 0 ∧ u.Absorbs p e
    · exact .inl (run_safe_of_absorbs ha.2 n h e' w' hrun)
    · rcases run_meets (w := w) ha with ⟨m, hsame⟩ | ⟨e'', w'', hstruck, -, hsurfaces, hstore⟩
      · exact .inl ((run_safe u (w := w.facing []) rfl h).of_same hsame e' w' hrun)
      · rw [hrun] at hstruck
        cases hstruck
        exact hstore
  surfaced := by
    by_cases ha : n = 0 ∧ u.Absorbs p e
    · exact .inr (.inl ha)
    · rcases run_meets (w := w) ha with hsame | ⟨e', w', hstruck, -, hsurfaces, -⟩
      · exact .inl hsame
      · exact .inr (.inr ⟨e', w', hstruck, hsurfaces⟩)
  told := (faithful_run u).tells

/-- A loss brings nothing new to be shown. -/
theorem ShowsDates.lacking [EnduringStore σ] (h : ShowsDates w.store) (lost : List Kind) :
    ShowsDates (w.lacking lost).store := by
  show ShowsDates (lost.foldl (fun s kind => (Gateway.lose kind s).2) w.store)
  generalize w.store = s at h
  induction lost generalizing s with
  | nil => exact h
  | cons kind lost ih =>
    refine ih _ fun id p hread hmerged => h id p ?_ hmerged
    exact EnduringStore.pullRequest_lose hread

section Reaching

variable [LawfulStore σ]

/-- What an orderly store shows as merged has a date. -/
theorem Orderly.showsDates (h : Orderly w) : ShowsDates w.store := by
  intro id p hread hmerged
  rcases LawfulStore.pullRequest_lookup id h.sound with ⟨-, q, hq, i, hi, -, rfl⟩ | ⟨-, -, hq⟩ | ⟨-, -, _, hq⟩
  · rw [hread] at hq
    cases hq
    exact (h.consistent.merged_iff i hi).2 hmerged
  · rw [hread] at hq
    cases hq
  · rw [hread] at hq
    cases hq

/-- In every reachable world, whatever is lost from its store by then, every request stands every
failure that lies in wait for it. -/
theorem run_atomic [EnduringStore σ] (hw : Reachable w) (lost : List Kind) (u : UseCase) (p : Point)
    (n : Nat) (e : Failure) : u.Atomic (w.lacking lost) p n e :=
  (hw.orderly.showsDates.lacking lost).atomic u p n e

end Reaching

end Requests

/-- A team is founded, and the driver fails when the members are put in after the team was saved. -/
theorem run_atomic_of_founding :
    let w := World.initial RelationalStore (.ofList []) ⟨0, 1, 0⟩ .info
    let u := UseCase.found ⟨"T", [⟨"a", "Ann", none, true⟩]⟩
    let e := Failure.driver "gone"
    Reachable w ∧ u.Atomic (w.lacking [.assignments]) .putUsers 0 e ∧
      (u.run ((w.lacking [.assignments]).facing [⟨.putUsers, 0, .fail e⟩])).1 =
        .error (.storageBecause "commit tx" e) := by
  intro w u e
  have hw : Reachable w := reachable_initial _ _ _
  refine ⟨hw, run_atomic hw _ _ _ _ _, ?_⟩
  rfl

end ReviewDesk
