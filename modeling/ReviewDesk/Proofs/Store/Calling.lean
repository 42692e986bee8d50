import ReviewDesk.Proofs.Calling
import ReviewDesk.Proofs.Store.Keyed
import ReviewDesk.Proofs.Store.Relational

/-!
# Both stores are closed under calls

A call that fails leaves the keyed store as it is. A statement that fails leaves the tables of the
relational store as they are, so that a call of several statements that fails has carried out the
first of them, each of which leads to sound tables. Only an insertion that fails breaks a transaction
off.
-/
namespace ReviewDesk

namespace KeyedStore

/-- Nothing that fails has changed anything. -/
theorem eq_of_failed {sh : Shape} {c : Call sh} {s s' : KeyedStore} {k k' : Clock} {e : Failure}
    (h : c.on s k = ((.error e, s'), k')) : s' = s := by
  cases c with
  | saveTeam t =>
    have hsave : s.saveTeam t = (.error e, s') := congrArg Prod.fst h
    unfold saveTeam at hsave
    split at hsave
    · cases hsave
      rfl
    · cases hsave
  | savePullRequest p =>
    have hsave : s.savePullRequest p k = ((.error e, s'), k') := h
    unfold savePullRequest at hsave
    split at hsave
    · cases hsave
      rfl
    · split at hsave
      · cases hsave
        rfl
      · cases hsave
  | putUsers | setActivity | deactivate | updatePullRequest | assign | replaceReviewer
  | removeReviewer => cases h
  | _ => exact (congrArg (fun x => x.1.2) h).symm

/-- Every copy can be committed. -/
theorem not_brokenOff (s : KeyedStore) : ¬ BrokenOff s := by
  intro h
  have hempty : s = empty := h empty
  have hother : s = ⟨[.ofString ""], [], [], []⟩ := h _
  cases hempty.symm.trans hother

instance : ClosedStore KeyedStore where
  failed_on hs h := .inl (eq_of_failed h ▸ hs)
  brokenOff_on h _ := absurd h (not_brokenOff _)

end KeyedStore

namespace RelationalStore

variable {α : Type} {s s' : RelationalStore} {operation : Text} {table : Option (List α)}
    {texts : List Text} {f : List α → RelationalStore} {e : Failure}

theorem brokenOff_iff : BrokenOff s ↔ s.progress ≠ .going := by
  constructor
  · intro h hgoing
    have hsame (before : RelationalStore) : s = before := (if_pos hgoing).symm.trans (h before)
    cases (hsame empty).symm.trans (hsame { empty with teams := none })
  · exact fun h before => if_neg h

section Statements

/-- A statement that fails leaves everything as it is. -/
theorem eq_of_change (h : s.change operation table texts f = (.error e, s')) : s' = s := by
  unfold change at h
  split at h
  · cases h
  · cases h
    rfl

theorem progress_of_insertion {taken : List α → Bool} {refusal : Refusal}
    (h : s.insertion operation table texts taken refusal f = (.error e, s')) :
    s'.progress ≠ .going := by
  unfold insertion at h
  split at h
  · dsimp only at h
    split at h
    · cases h
    · cases h
      exact nofun
  · cases h
    exact nofun
  · cases h
    exact nofun

/-- No statement reaches a table after the transaction has broken off. -/
theorem change_of_brokenOff (h : s.progress ≠ .going) :
    (s.change operation table texts f).2 = s := by
  rcases hc : s.change operation table texts f with ⟨e | _, s'⟩
  · exact eq_of_change hc
  · obtain ⟨rows, hgoing, -⟩ := change_eq_ok hc
    exact absurd hgoing h

theorem insertion_of_brokenOff {taken : List α → Bool} {refusal : Refusal}
    (h : s.progress ≠ .going) :
    (s.insertion operation table texts taken refusal f).2.progress ≠ .going := by
  unfold insertion
  split
  · next hgoing => exact absurd hgoing h
  · exact nofun
  · exact nofun

end Statements

/-- Users are switched one by one, and those before the one that fails are switched. -/
theorem sound_of_setActivity {us : List User} (hs : Sound s)
    (h : s.setActivity us = (.error e, s')) : Sound s' := by
  induction us generalizing s with
  | nil => cases h
  | cons u us ih =>
    rw [setActivity] at h
    split at h
    · next s₁ hchange =>
      have hone : s.setActivity [u] = (.ok (), s₁) := by
        rw [setActivity, hchange]
        rfl
      exact ih ((setActivity_change hs [u]).of_ok hone).1 h
    · exact eq_of_change h ▸ hs

/-- The old reviewer may be taken off where the new one cannot be put in. -/
theorem sound_of_replaceReviewer {id old new : Text} (hs : Sound s)
    (h : s.replaceReviewer id old new = (.error e, s')) : Sound s' := by
  unfold replaceReviewer at h
  dsimp only at h
  split at h
  · next s₁ hchange =>
    rw [eq_of_change h]
    cases hs with | intro hu hr hp hwt hwu hwr =>
    obtain ⟨pairs, -, htable, rfl⟩ := change_eq_ok hchange
    cases htable
    exact .intro hu hr (hp.filter _) hwt hwu hwr
  · exact eq_of_change h ▸ hs

theorem failed_on {sh : Shape} {c : Call sh} {k k' : Clock} (hs : Sound s)
    (h : c.on s k = ((.error e, s'), k')) : Sound s' ∨ c.Inserts ∧ s'.progress ≠ .going := by
  have hstatement (hsame : s' = s) : Sound s' ∨ c.Inserts ∧ s'.progress ≠ .going :=
    .inl (hsame ▸ hs)
  cases c with
  | saveTeam t => exact .inr ⟨trivial, progress_of_insertion (congrArg Prod.fst h)⟩
  | savePullRequest p =>
    have hsave : s.savePullRequest p k = ((.error e, s'), k') := h
    unfold savePullRequest at hsave
    split at hsave
    · cases hsave
      exact .inl hs
    · exact .inr ⟨trivial, progress_of_insertion (congrArg Prod.fst hsave)⟩
  | putUsers us =>
    have hput : s.putUsers us = (.error e, s') := congrArg Prod.fst h
    unfold putUsers at hput
    split at hput
    · cases hput
    · exact hstatement (eq_of_change hput)
  | setActivity us => exact .inl (sound_of_setActivity hs (congrArg Prod.fst h))
  | deactivate ids =>
    have hswitch : s.deactivate ids = (.error e, s') := congrArg Prod.fst h
    unfold deactivate at hswitch
    split at hswitch
    · cases hswitch
    · exact hstatement (eq_of_change hswitch)
  | updatePullRequest p => exact hstatement (eq_of_change (congrArg Prod.fst h))
  | assign id ids =>
    have hassign : s.assign id ids = (.error e, s') := congrArg Prod.fst h
    unfold assign at hassign
    split at hassign
    · cases hassign
    · exact hstatement (eq_of_change hassign)
  | replaceReviewer id old new => exact .inl (sound_of_replaceReviewer hs (congrArg Prod.fst h))
  | removeReviewer id old => exact hstatement (eq_of_change (congrArg Prod.fst h))
  | _ => exact hstatement (congrArg (fun x => x.1.2) h).symm

/-- What has broken off stays so. -/
theorem progress_on {sh : Shape} (c : Call sh) (k : Clock) (hb : s.progress ≠ .going) :
    (c.on s k).1.2.progress ≠ .going := by
  have hstatement {x : RelationalStore} (hsame : x = s) : x.progress ≠ .going := hsame ▸ hb
  cases c with
  | saveTeam t => exact insertion_of_brokenOff hb
  | savePullRequest p =>
    show (s.savePullRequest p k).1.2.progress ≠ .going
    unfold savePullRequest
    split
    · exact hb
    · exact insertion_of_brokenOff hb
  | putUsers us =>
    show (s.putUsers us).2.progress ≠ .going
    unfold putUsers
    split
    · exact hb
    · exact hstatement (change_of_brokenOff hb)
  | setActivity us =>
    show (s.setActivity us).2.progress ≠ .going
    cases us with
    | nil => exact hb
    | cons u us =>
      rw [setActivity]
      split
      · next s₁ hchange =>
        obtain ⟨rows, hgoing, -⟩ := change_eq_ok hchange
        exact absurd hgoing hb
      · exact hstatement (change_of_brokenOff hb)
  | deactivate ids =>
    show (s.deactivate ids).2.progress ≠ .going
    unfold deactivate
    split
    · exact hb
    · exact hstatement (change_of_brokenOff hb)
  | updatePullRequest p => exact hstatement (change_of_brokenOff hb)
  | assign id ids =>
    show (s.assign id ids).2.progress ≠ .going
    unfold assign
    split
    · exact hb
    · exact hstatement (change_of_brokenOff hb)
  | replaceReviewer id old new =>
    show (s.replaceReviewer id old new).2.progress ≠ .going
    unfold replaceReviewer
    dsimp only
    split
    · next s₁ hchange =>
      obtain ⟨rows, hgoing, -⟩ := change_eq_ok hchange
      exact absurd hgoing hb
    · exact hstatement (change_of_brokenOff hb)
  | removeReviewer id old => exact hstatement (change_of_brokenOff hb)
  | _ => exact hb

instance : ClosedStore RelationalStore where
  failed_on hs h := (failed_on hs h).imp id fun ⟨hinserts, hb⟩ => ⟨hinserts, brokenOff_iff.2 hb⟩
  brokenOff_on {sh c s s' k k' r} hb h := by
    have hprogress := progress_on c k (brokenOff_iff.1 hb)
    rw [h] at hprogress
    exact brokenOff_iff.2 hprogress

end RelationalStore
end ReviewDesk
