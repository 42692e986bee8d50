import Mathlib
import ReviewDesk.Proofs.Scene
import ReviewDesk.Proofs.Steady

/-!
# What is committed and what is reported of it

A commit is told by the use case whose transaction it is, by what the use case had left to do, by
the random source that the transaction began with, and by the contents of the store before and after
it. `Event.Describes` says which event reports a commit; there is one for each commit. Whatever
failures lie in wait, carrying an undertaking out adds the report of its commit to the journal if its
transaction is committed, and nothing otherwise; there is one lemma for each undertaking, and
`Undertaking.audited_bind` is what they have in common.
-/
namespace ReviewDesk

/-- A transaction of a use case that was committed. -/
structure Commit where
  useCase : UseCase
  undertaking : Undertaking
  draws : Draws
  before : Contents
  after : Contents

/-- Commits that lead from contents to others, each going on where the one before it ended. -/
inductive Commit.Chain : Contents → List Commit → Contents → Prop
  | nil (c : Contents) : Chain c [] c
  | cons {k : Commit} {ks : List Commit} {c : Contents} (tail : Chain k.after ks c) :
    Chain k.before (k :: ks) c

theorem Commit.Chain.append {a b c : Contents} {ks ks' : List Commit} (h : Chain a ks b)
    (h' : Chain b ks' c) : Chain a (ks ++ ks') c := by
  induction h with
  | nil => exact h'
  | cons _ ih => exact .cons (ih h')

/-- In a commit a reviewer of a pull request makes way for whoever is drawn from those who may take
over, or for nobody if there are none. -/
structure Commit.Relieves (c : Commit) (i : Item) (old : Text) (next : Option Text) : Prop where
  chosen : ∃ drawn, Chosen (c.before.successors old i.author).sort c.draws next drawn
  reviewing : old ∈ c.before.reviewers i.id
  old_notMem : old ∉ c.after.reviewers i.id
  contents_eq : c.after = c.before.setReviewers i.id
    ((c.before.reviewers i.id).erase old ∪ next.toFinset)

/-- Whether an event reports a commit. The undertaking tells who leaves, the random source who takes
over from a reviewer, and the contents afterwards all the rest. -/
def Event.Reports (e : Event) (c : Commit) : Prop :=
  match c.undertaking with
  | .found t => t.name ∈ c.after.teams ∧ e = .teamCreated t.name (c.after.staff t.name).card
  | .depart team leaving => leaving.Nodup ∧ (∀ id ∈ leaving, id ∈ c.before.userIds) ∧
      c.after.users = (c.before.switch leaving.toFinset false).users ∧
      e = .usersDeactivated team leaving (c.before.lapsed c.after).card
  | .switch id active => c.after = c.before.switch {id} active ∧ e = .activityChanged id active
  | .opening id name author _ => ∃ i ∈ c.after.items, i.id = id ∧ i.name = name ∧
      i.author = author ∧ e = .pullRequestCreated id author (c.after.shown i).reviewers
  | .merge id => ∃ i ∈ c.after.items, i.id = id ∧ i.status = .merged ∧
      ∃ t, i.merged = some t ∧ e = .pullRequestMerged id t
  | .reassign id old => ∃ i ∈ c.before.items, i.id = id ∧ ∃ next, c.Relieves i old next ∧
      e = .reviewerReassigned id old (.ofText? next)

/-- Whether an event reports a commit of what its use case had left to do. -/
def Event.Describes (e : Event) (c : Commit) : Prop :=
  c.useCase.Undertakes c.undertaking ∧ e.Reports c

namespace Job

variable {σ α β γ : Type}

theorem bind_assoc (x : Job σ α) (f : α → Job σ β) (g : β → Job σ γ) :
    x >>= f >>= g = x >>= fun a => f a >>= g := by
  funext w
  rw [bind_apply, bind_apply, bind_apply]
  rcases x w with ⟨e | a, w'⟩ <;> rfl

/-- A job that reports an event first, and nothing more. -/
def Announces (x : Job σ α) (e : Event) : Prop :=
  e.isReport = true ∧ ∃ y : Job σ α, y.ReportsNothing ∧ (∀ w, (y w).2.store = w.store) ∧
    ∀ w, x w = y (w.note e)

/-- A report with nothing but an answer after it. -/
theorem announces_pure {x : Job σ α} {e : Event} (he : e.isReport = true) (a : α)
    (h : ∀ w, x w = (.ok a, w.note e)) : x.Announces e :=
  ⟨he, pure a, (steady_pure a).reportsNothing, fun _ => rfl, h⟩

/-- What a transaction has committed: where failures are all that lies in wait, it was committed if
it ended well. -/
def commits [Gateway σ] [LawfulStore σ] (x : Job σ α) (u : UseCase) (t : Undertaking)
    (w : World σ) : List Commit :=
  match x w with
  | (.ok _, w') =>
    [⟨u, t, w.draws, LawfulStore.contents w.store, LawfulStore.contents w'.store⟩]
  | (.error _, _) => []

end Job

open Job LawfulStore

variable {σ : Type} [Gateway σ] [LawfulStore σ]

/-- What an undertaking has committed that was left to do of a use case. -/
def Undertaking.commits (t : Undertaking) (u : UseCase) (w : World σ) : List Commit :=
  match t with
  | .found team => (transaction (Roster.foundNow team)).commits u t w
  | .switch id active => (silently (Roster.switchNow id active)).commits u t w
  | .depart team leaving => (transaction (Departure.departNow team leaving)).commits u t w
  | .opening id name author reviewers =>
    (transaction (Review.openNow id name author reviewers)).commits u t w
  | .merge id => (transaction (Review.mergeNow id)).commits u t w
  | .reassign id old => (transaction (Review.reassignNow id old)).commits u t w

/-- A world in which failures may lie in wait, with a sound store that holds consistent contents,
and with a journal in which reports are written. -/
structure Auditable (w : World σ) : Prop where
  raising : w.Raising
  sound : Sound w.store
  consistent : (contents w.store).Consistent
  level : w.journal.level.rank ≤ Level.info.rank

/-- From one world to another nothing was lost, the given commits lead there, and what was reported is
what was committed, in this order. -/
structure Audited (w w' : World σ) (cs : List Commit) : Prop where
  auditable : Auditable w'
  precedes : (contents w.store).Precedes (contents w'.store)
  chain : Commit.Chain (contents w.store) cs (contents w'.store)
  reports : ∃ es, w'.journal.reports = w.journal.reports ++ es ∧ es.Forall₂ Event.Describes cs

section Stretches

variable {u v w w' : World σ} {cs cs' : List Commit}

theorem Audited.trans (h : Audited u v cs) (h' : Audited v w cs') : Audited u w (cs ++ cs') := by
  obtain ⟨es, hes, hdescribes⟩ := h.reports
  obtain ⟨es', hes', hdescribes'⟩ := h'.reports
  refine ⟨h'.auditable, h.precedes.trans h'.precedes, h.chain.append h'.chain, es ++ es', ?_, ?_⟩
  · rw [hes', hes, List.append_assoc]
  · exact List.rel_append hdescribes hdescribes'

/-- Where nothing is reported and the store is left alone, nothing was committed. -/
theorem Auditable.sameReports (h : Auditable w) (hh : w.SameReports w')
    (hstore : w'.store = w.store) : Audited w w' [] where
  auditable := ⟨hh.raising, hstore ▸ h.sound, hstore ▸ h.consistent, hh.level ▸ h.level⟩
  precedes := by rw [hstore]
  chain := hstore ▸ .nil _
  reports := ⟨[], by rw [hh.reports, List.append_nil], .nil⟩

/-- It does not matter which of the failures lie in wait. -/
theorem Auditable.facing (h : Auditable w) {fs : List Fault} (hfs : (w.facing fs).Raising) :
    Audited w (w.facing fs) [] :=
  h.sameReports ⟨rfl, rfl, hfs⟩ rfl

end Stretches

namespace Undertaking

variable {w : World σ} {u : UseCase} {t : Undertaking}

/-- What follows a transaction reports what the transaction has committed. -/
theorem audited_bind {γ : Type} {x : Job σ γ} {f : γ → Job σ Reply} (h : Auditable w)
    (ha : t.Advised (contents w.store)) (hu : u.Undertakes t) (hrest : t.rest = x >>= f)
    (hx : x.Steady)
    (hfailed : ∀ e w', x w = (.error e, w') → w'.store = w.store)
    {good : γ → σ → Draws → Nat → Prop} {bad : Failure → Draws → Nat → Prop}
    (hsettles : x.Settles (w.facing []) good bad)
    (hgood : ∀ g s d n, good g s d n → Sound s ∧
      t.Effect (keep σ) w.clock.now (contents w.store) (contents s) ∧
      ∃ e, e.Reports ⟨u, t, w.draws, contents w.store, contents s⟩ ∧ (f g).Announces e) :
    Audited w (t.rest w).2 (x.commits u t w) := by
  have hsilent := hx.reportsNothing w h.raising
  rw [hrest, bind_apply, Job.commits]
  rcases hr : x w with ⟨e | g, w'⟩ <;> rw [hr] at hsilent
  · exact h.sameReports hsilent (hfailed e w' hr)
  · -- What ends well here ends in the same way where nothing lies in wait.
    have hclear := hx.braves w g w' h.raising hr
    rcases hsettles with ⟨g', s, d, n, w'', hx', hlike, hg⟩ | ⟨e, d, n, w'', hx', -⟩
    · rw [hclear] at hx'
      obtain ⟨rfl, rfl⟩ : g = g' ∧ w'.facing [] = w'' := by
        cases hx'
        exact ⟨rfl, rfl⟩
      obtain rfl : w'.store = s := hlike.store
      obtain ⟨hs, he, e, hreports, hreport, y, hy, hstill, hfg⟩ := hgood g _ d n hg
      have hlevel : w'.journal.level.rank ≤ Level.info.rank := hsilent.level ▸ h.level
      have hnoted : (w'.note e).SameReports (y (w'.note e)).2 := hy _ hsilent.raising
      have hstore : (y (w'.note e)).2.store = w'.store := hstill _
      have hconsistent := he.consistent h.consistent (injOn_item h.sound) ha
      have hauditable : Auditable (w'.note e) :=
        ⟨hsilent.raising, hs, hconsistent, (Journal.note_level _ _).symm ▸ hlevel⟩
      show Audited w (f g w').2 [⟨u, t, w.draws, contents w.store, contents w'.store⟩]
      rw [hfg]
      refine ⟨(hauditable.sameReports hnoted hstore).auditable, ?_, ?_, [e], ?_,
        .cons ⟨hu, hreports⟩ .nil⟩
      · rw [hstore]
        exact he.precedes
      · rw [hstore]
        exact .cons (k := ⟨u, t, w.draws, contents w.store, contents w'.store⟩) (.nil _)
      · rw [hnoted.reports, World.note, Journal.reports_note hreport hlevel, hsilent.reports]
    · rw [hclear] at hx'
      cases hx'

theorem found_audited (h : Auditable w) (t : Team) (ha : (found t).Advised (contents w.store)) :
    Audited w ((found t).rest w).2 ((found t).commits (.found t) w) := by
  have hends := foundNow_ends (w := w.facing []) rfl h.sound t
  refine audited_bind h ha rfl (bind_assoc _ _ _) (steady_transaction (steady_foundNow t))
    (fun _ _ => h.raising.transaction_error (propagates_foundNow t))
    (hends.transaction rfl (fun _ _ _ _ h => h.2.1) ?_) ?_
  · rintro e d n (⟨-, rfl, -⟩ | ⟨-, -, gap, rfl⟩)
    · trivial
    · trivial
  · rintro g s d n ⟨⟨us, rfl, hroll⟩, hs, he⟩
    refine ⟨hs, he, .teamCreated t.name us.length, ⟨?_, ?_⟩, ?_⟩
    · rw [he.2]
      simp [Contents.addTeam]
    · rw [← List.length_map User.id, hroll.1, Finset.length_sort]
    · exact announces_pure rfl (.team ⟨t.name, us⟩) fun _ => rfl

/-- The report of a switch is written before the user is read back. -/
theorem switch_audited (h : Auditable w) (id : Text) (active : Bool)
    (ha : (switch id active).Advised (contents w.store)) :
    Audited w ((switch id active).rest w).2
      ((switch id active).commits (.switch id active) w) := by
  have hends := switchNow_ends (w := w.facing []) rfl h.sound id active ha
  refine audited_bind h ha rfl (bind_assoc _ _ _) (steady_silently (steady_switchNow id active))
    (fun _ _ => h.raising.silently_error (propagates_switchNow id active))
    (hends.silently rfl (fun _ _ _ _ h => h.1) fun _ _ _ h => h.elim) ?_
  rintro - s d n ⟨hs, hc⟩
  have hback : (do return (← ask .outside (.user id)).reply .user : Job σ Reply).Propagates
      fun _ _ => False :=
    (propagates_ask (.inr fun _ _ => rfl)).bind fun _ => propagates_pure _
  refine ⟨hs, hc, .activityChanged id active, ⟨hc, rfl⟩, rfl, _, ?_, hback.still, fun _ => rfl⟩
  exact (steady_ask _ _).reportsNothing.bind fun _ => (steady_pure _).reportsNothing

theorem opening_audited (h : Auditable w) (id name author : Text) (reviewers : List Text)
    (ha : (opening id name author reviewers).Advised (contents w.store)) :
    Audited w ((opening id name author reviewers).rest w).2
      ((opening id name author reviewers).commits (.opening id name author) w) := by
  have hends := openNow_ends (w := w.facing []) rfl h.sound id name author reviewers
  refine audited_bind h ha ⟨reviewers, rfl⟩ (bind_assoc _ _ _)
    (steady_transaction (steady_openNow id name author reviewers))
    (fun _ _ => h.raising.transaction_error (propagates_openNow id name author reviewers))
    (hends.transaction rfl (fun _ _ _ _ h => h.2.1) fun _ _ _ h => h.plain) ?_
  rintro g s d n ⟨⟨i, hi, hid, rfl⟩, hs, -, -, he⟩
  obtain ⟨hfree, hc⟩ := he
  -- The pull request that is read back is the one that was put in, since its id was free.
  obtain rfl : i = ⟨id, name, author, .opened, keep σ w.clock.now, none⟩ := by
    rw [hc] at hi
    rcases (Contents.mem_addItem _ _ i).1 hi with rfl | hi
    · rfl
    · exact absurd (((contents w.store).mem_itemIds id).2 ⟨i, hi, hid⟩) hfree
  refine ⟨hs, ⟨hfree, hc⟩, .pullRequestCreated id author ((contents s).shown _).reviewers,
    ⟨_, hi, rfl, rfl, rfl, rfl⟩, ?_⟩
  exact announces_pure rfl (.pullRequest ((contents s).shown _)) fun _ => rfl

/-- A pull request that is found merged is merged by a commit that changes nothing. -/
theorem merge_audited (h : Auditable w) (id : Text) (ha : (merge id).Advised (contents w.store)) :
    Audited w ((merge id).rest w).2 ((merge id).commits (.merge id) w) := by
  have hends := mergeNow_ends (w := w.facing []) rfl h.sound id
  refine audited_bind h ha rfl (bind_assoc _ _ _) (steady_transaction (steady_mergeNow id))
    (fun _ _ => h.raising.transaction_error (propagates_mergeNow id))
    (hends.transaction rfl (fun _ _ _ _ h => h.2.1) fun _ _ _ h => h.plain) ?_
  rintro g s d n ⟨⟨i, hi, hid, hm, rfl, -⟩, hs, he, -⟩
  have hconsistent : (contents s).Consistent := he.consistent h.consistent (injOn_item h.sound) ha
  obtain ⟨t, ht⟩ := Option.isSome_iff_exists.1 ((hconsistent.merged_iff i hi).2 hm)
  refine ⟨hs, he, .pullRequestMerged id t, ⟨i, hi, hid, hm, t, ht, rfl⟩, ?_⟩
  refine announces_pure rfl (.pullRequest ((contents s).shown i)) fun v => ?_
  have hshown : ((contents s).shown i).merged = some t := ht
  show (replying .pullRequest (Review.announceMerge id ((contents s).shown i))) v = _
  rw [replying, Review.announceMerge, hshown]
  rfl

theorem reassign_audited (h : Auditable w) (id old : Text)
    (ha : (reassign id old).Advised (contents w.store)) :
    Audited w ((reassign id old).rest w).2 ((reassign id old).commits (.reassign id old) w) := by
  have hends := reassignNow_ends (w := w.facing []) rfl h.sound id old
  refine audited_bind h ha rfl (bind_assoc _ _ _) (steady_transaction (steady_reassignNow id old))
    (fun _ _ => h.raising.transaction_error (propagates_reassignNow id old))
    (hends.transaction rfl (fun _ _ _ _ ⟨_, _, _, _, _, _, hs, _⟩ => hs) fun _ _ _ h => h.1.plain)
    ?_
  rintro g s d n ⟨i, hi, rfl, hopen, next, rfl, hs, -, hrelief⟩
  have hold : old ∉ (contents s).reviewers i.id := by
    rw [hrelief.contents_eq, Contents.setReviewers_self, Finset.mem_union]
    rintro (hmem | hmem)
    · exact Finset.notMem_erase _ _ hmem
    · have hteammate := Finset.mem_of_mem_erase (hrelief.subset hmem)
      exact (((contents w.store).mem_teammates old old).1 hteammate).1 rfl
  refine ⟨hs, hrelief.effect hi hopen, .reviewerReassigned i.id old (.ofText? next),
    ⟨i, hi, rfl, next, ⟨⟨d, hrelief.chosen⟩, hrelief.reviewing, hold, hrelief.contents_eq⟩, rfl⟩,
    ?_⟩
  exact announces_pure rfl (.reassigned (.own ((contents s).shown i)) (.ofText? next)) fun _ => rfl

variable [ResilientStore σ]

/-- A departure reports as many entries as it has ended assignments. -/
theorem depart_audited (h : Auditable w) {team : Text} {leaving : List Text}
    (hnodup : leaving.Nodup) (hu : u.Undertakes (depart team leaving))
    (ha : (depart team leaving).Advised (contents w.store)) :
    Audited w ((depart team leaving).rest w).2 ((depart team leaving).commits u w) := by
  have hends := departNow_ends (w := w.facing []) team leaving rfl h.sound
    (opened_of_resilient (w := w.facing []) rfl h.sound team) ha.1 ha.2
  refine audited_bind h ha hu (bind_assoc _ _ _)
    (steady_transaction (steady_departNow team leaving))
    (fun _ _ => h.raising.transaction_error (propagates_departNow team leaving))
    (hends.transaction rfl (fun _ _ _ _ ⟨_, _, _, _, _, hs, _⟩ => hs) fun _ _ _ h => h) ?_
  rintro g s d n ⟨is, rs, -, haccount, rfl, hs, -⟩
  have heffect : (depart team leaving).Effect (keep σ) w.clock.now (contents w.store) (contents s) :=
    haccount.effect
  refine ⟨hs, heffect, .usersDeactivated team leaving rs.length,
    ⟨hnodup, ha.2, heffect.2.1, congrArg _ haccount.card_lapsed.symm⟩, ?_⟩
  exact announces_pure rfl (.deactivation ⟨team, leaving, .own rs⟩) fun _ => rfl

end Undertaking

end ReviewDesk
