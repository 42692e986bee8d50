import ReviewDesk.Proofs.Consistent
import ReviewDesk.Proofs.Looking

/-!
# What transactions make of a store

Each undertaking other than a departure, from the first call of its transaction to the answer. The
transaction checks for itself what looking around checked, and where it finds otherwise it fails as
looking around would have.
-/
namespace ReviewDesk

/-- Whether a store cannot keep some text of a team that is to be founded. -/
def Team.Unkept (σ : Type) [Gateway σ] [LawfulStore σ] (t : Team) : Prop :=
  ¬ (LawfulStore.Admits σ t.name ∧
    ∀ u ∈ t.members, LawfulStore.Admits σ u.id ∧ LawfulStore.Admits σ u.name)

/-- The texts of the members are texts of the team. -/
theorem Team.admits_membersOf {σ : Type} [Gateway σ] [LawfulStore σ] {t : Team}
    (h : LawfulStore.Admits σ t.name ∧
      ∀ u ∈ t.members, LawfulStore.Admits σ u.id ∧ LawfulStore.Admits σ u.name) :
    ∀ u ∈ Roster.membersOf t, LawfulStore.Admits σ u.id ∧ LawfulStore.Admits σ u.name ∧
      ∀ x ∈ u.team, LawfulStore.Admits σ x := by
  intro u hu
  obtain ⟨v, hv, rfl⟩ := List.mem_map.1 hu
  obtain ⟨hid, hname⟩ := h.2 v hv
  exact ⟨hid, hname, by simpa using h.1⟩

namespace Undertaking

open Job LawfulStore

variable {σ : Type} [Gateway σ] [LawfulStore σ] {w : World σ}

/-- A team is founded, unless there is one of that name by now or a text cannot be kept. It is read
back with the members that it has by then. -/
theorem foundNow_ends (hw : w.faults = []) (hs : Sound w.store) (t : Team) :
    (Roster.foundNow t).Ends w w.store w.draws 0
      (fun g s _ _ => (∃ us, g = .own ⟨t.name, us⟩ ∧
          (contents s).Roll ((contents s).staff t.name) us) ∧ Sound s ∧
        (found t).Effect (keep σ) w.clock.now (contents w.store) (contents s))
      (fun e d n =>
        (t.name ∈ (contents w.store).teams ∧ e = .refuse .teamExists ∧ d = w.draws ∧ n = 0) ∨
          t.name ∉ (contents w.store).teams ∧ t.Unkept σ ∧ ∃ gap, e = .unwritable gap) := by
  unfold Roster.foundNow
  by_cases ht : t.name ∈ (contents w.store).teams
  · obtain ⟨s', hs'⟩ := saveTeam_taken ⟨t.name, []⟩ hs ht
    have hsave : (tell .inside (.saveTeam ⟨t.name, []⟩)).Ends w w.store w.draws 0
        (fun _ _ _ _ => False)
        (fun e d n =>
          (t.name ∈ (contents w.store).teams ∧ e = .refuse .teamExists ∧ d = w.draws ∧ n = 0) ∨
            t.name ∉ (contents w.store).teams ∧ t.Unkept σ ∧ ∃ gap, e = .unwritable gap) :=
      ends_refusal hw (congrArg (·, w.clock.after 0) hs') trivial (.inl ⟨ht, rfl, rfl, rfl⟩)
    exact hsave.bind fun _ _ _ _ h => h.elim
  · -- From here on the name is free, and only a text can be in the way.
    refine Ends.mono ?_ (fun _ _ _ _ h => h)
      fun e _ _ (h : t.Unkept σ ∧ ∃ gap, e = .unwritable gap) => .inr ⟨ht, h⟩
    have hsave : (tell .inside (.saveTeam ⟨t.name, []⟩)).Ends w w.store w.draws 0
        (fun _ s _ _ => Sound s ∧ contents s = (contents w.store).addTeam t.name)
        (fun e _ _ => t.Unkept σ ∧ ∃ gap, e = .unwritable gap) :=
      ends_change hw rfl (saveTeam_change ⟨t.name, []⟩ hs ht) (fun _ h => h)
        fun hn gap => ⟨fun h => hn h.1, gap, rfl⟩
    apply hsave.bind
    rintro - s d n ⟨hs₁, hc₁⟩
    have hput : (tell .inside (.putUsers (Roster.membersOf t))).Ends w s d n
        (fun _ s' _ _ => Sound s' ∧
          contents s' = ((contents w.store).addTeam t.name).putUsers (Roster.membersOf t))
        (fun e _ _ => t.Unkept σ ∧ ∃ gap, e = .unwritable gap) := by
      refine ends_change hw rfl (putUsers_change (Roster.membersOf t) hs₁) ?_
        fun hn gap => ⟨fun h => hn (Team.admits_membersOf h), gap, rfl⟩
      rintro s' ⟨hs₂, hc₂⟩
      exact ⟨hs₂, hc₂.trans (by rw [hc₁])⟩
    apply hput.bind
    rintro - s' d' n' ⟨hs₂, hc₂⟩
    have hthere : t.name ∈ (contents s').teams := by
      rw [hc₂]
      simp [Contents.addTeam]
    refine ends_lookup hw (fun _ => rfl) (team_lookup t.name hs₂) ?_ fun hn => absurd hthere hn
    rintro - ⟨_, us⟩ ⟨rfl, hroll⟩
    exact ⟨⟨us, rfl, hroll⟩, hs₂, ht, hc₂⟩

/-- A user who is there is switched. -/
theorem switchNow_ends (hw : w.faults = []) (hs : Sound w.store) (id : Text) (active : Bool)
    (hid : id ∈ (contents w.store).userIds) :
    (Roster.switchNow id active).Ends w w.store w.draws 0
      (fun _ s _ _ => Sound s ∧ contents s = (contents w.store).switch {id} active)
        (fun _ _ _ => False) := by
  have huser : (look "is_active" .inside (.user id) : Job σ User).Ends w w.store w.draws 0
      (fun u s _ _ => u.id = id ∧ s = w.store) (fun _ _ _ => False) :=
    ends_look "is_active" hw (fun _ => rfl) (user_lookup id hs) (fun _ u hu => ⟨hu.2, rfl⟩)
      fun hn => absurd hid hn
  apply huser.bind
  rintro u s d n ⟨rfl, rfl⟩
  exact ends_change hw rfl (setActivity_change [{ u with active := active }] hs) (fun s' hs' => hs')
    fun hn _ => hn (by simpa using admits_user hs u.id hid)

/-- What keeps a pull request from being opened: the clock is off the calendar, the id is taken, a
text cannot be kept, or somebody reviews it who is not there. Where the id is taken the store says
for itself why it does not save another pull request. -/
def Unopened (w : World σ) (id name author : Text) (reviewers : List Text) (e : Failure) : Prop :=
  (e = .offCalendar ∧ w.clock.now.isOnCalendar = false) ∨
    (id ∈ (contents w.store).itemIds ∧ e.Plain ∧ ∃ s', Gateway.savePullRequest
      ⟨id, name, author, .opened, [], some w.clock.now, none⟩ w.store (w.clock.after 1) =
        ((.error e, s'), w.clock.after 1)) ∨
    (¬ (Admits σ id ∧ Admits σ name ∧ Admits σ author) ∧ ∃ gap, e = .unwritable gap) ∨
    (∃ r ∈ reviewers, r ∉ (contents w.store).userIds) ∧ e.Plain

theorem Unopened.plain {id name author : Text} {reviewers : List Text} {e : Failure}
    (h : Unopened w id name author reviewers e) : e.Plain := by
  rcases h with ⟨rfl, -⟩ | ⟨-, h, -⟩ | ⟨-, gap, rfl⟩ | ⟨-, h⟩
  · trivial
  · exact h
  · trivial
  · exact h

/-- A pull request is opened under an id that is new. -/
theorem openNow_ends (hw : w.faults = []) (hs : Sound w.store) (id name author : Text)
    (reviewers : List Text) :
    (Review.openNow id name author reviewers).Ends w w.store w.draws 0
      (fun g s d n => (∃ i ∈ (contents s).items, i.id = id ∧ g = .own ((contents s).shown i)) ∧
        Sound s ∧ d = w.draws ∧ n = 1 ∧
        (opening id name author reviewers).Effect (keep σ) w.clock.now (contents w.store)
          (contents s))
      (fun e _ _ => Unopened w id name author reviewers e) := by
  have hnow : (now : Job σ Timestamp).Ends w w.store w.draws 0
      (fun t s d n => t = w.clock.now ∧ s = w.store ∧ d = w.draws ∧ n = 1)
      (fun e _ _ => Unopened w id name author reviewers e) :=
    ends_now ⟨rfl, rfl, rfl, rfl⟩ fun hoff => .inl ⟨rfl, hoff⟩
  apply hnow.bind
  rintro _ _ _ _ ⟨rfl, rfl, rfl, rfl⟩
  let p : PullRequest := ⟨id, name, author, .opened, [], some w.clock.now, none⟩
  by_cases hid : id ∈ (contents w.store).itemIds
  · obtain ⟨e, s', hs', he⟩ := savePullRequest_taken p (w.clock.after 1) hs rfl hid
    have hplain : e.Plain := by
      rcases he with rfl | ⟨gap, rfl⟩
      · trivial
      · trivial
    have hsave : (tell .inside (.savePullRequest p)).Ends w w.store w.draws 1 (fun _ _ _ _ => False)
        (fun e _ _ => Unopened w id name author reviewers e) :=
      ends_refusal hw hs' hplain (.inr (.inl ⟨hid, hplain, s', hs'⟩))
    exact hsave.bind fun _ _ _ _ h => h.elim
  · obtain ⟨r, hr, hchange⟩ := savePullRequest_change p w.clock.now (w.clock.after 1) hs rfl hid
    let opened := (contents w.store).addItem ⟨id, name, author, .opened, keep σ w.clock.now, none⟩
    have hsave : (tell .inside (.savePullRequest p)).Ends w w.store w.draws 1
        (fun _ s d n => Sound s ∧ contents s = opened ∧ d = w.draws ∧ n = 1)
        (fun e _ _ => Unopened w id name author reviewers e) :=
      ends_change hw hr hchange (fun s' hs' => ⟨hs'.1, hs'.2, rfl, rfl⟩)
        fun hn gap => .inr (.inr (.inl ⟨hn, gap, rfl⟩))
    apply hsave.bind
    rintro - s _ _ ⟨hs₁, hc₁, rfl, rfl⟩
    have hadmits : Admits σ id := by
      refine (admits_item hs₁ ⟨id, name, author, .opened, keep σ w.clock.now, none⟩ ?_).1
      rw [hc₁]
      simp [opened, Contents.addItem]
    have hassign : (tell .inside (.assign id reviewers)).Ends w s w.draws 1
        (fun _ s d n => Sound s ∧ d = w.draws ∧ n = 1 ∧
          contents s = opened.setReviewers id
            ((contents w.store).reviewers id ∪ reviewers.toFinset))
        (fun e _ _ => Unopened w id name author reviewers e) := by
      refine ends_change hw rfl (assign_change id reviewers hs₁) ?_ fun hn _ => ?_
      rotate_left
      · refine .inr (.inr (.inr ⟨?_, trivial⟩))
        by_contra hall
        refine hn (.inr ⟨hadmits, fun r hr => admits_user hs r ?_⟩)
        by_contra hstranger
        exact hall ⟨r, hr, hstranger⟩
      rintro s' ⟨hs', hc'⟩
      exact ⟨hs', rfl, rfl, hc'.trans (by rw [hc₁]; rfl)⟩
    apply hassign.bind
    rintro - s _ _ ⟨hs₂, rfl, rfl, hc₂⟩
    have hthere : id ∈ (contents s).itemIds := by
      rw [hc₂, Contents.itemIds_setReviewers, Contents.itemIds_addItem]
      exact Finset.mem_insert_self _ _
    refine ends_lookup hw (fun _ => rfl) (pullRequest_lookup id hs₂) ?_ fun hn => absurd hthere hn
    rintro _ p ⟨i, hi, hid', hp⟩
    exact ⟨⟨i, hi, hid', congrArg Given.own hp⟩, hs₂, rfl, rfl, hid, hc₂⟩

/-- An open pull request with the id is merged by the change that a merge makes. -/
theorem merged_of_merge {c : Contents} {id : Text}
    (h : ∀ i ∈ c.items, i.id = id → i.status = .opened)
    (t : Timestamp) {j : Item}
    (hj : j ∈ (c.updateItem id fun i => { i with status := .merged, merged := some t }).items)
    (hid : j.id = id) : j.status = .merged ∧ j.merged = some t := by
  obtain ⟨k, hk, rfl⟩ := (c.mem_updateItem id _ j).1 hj
  by_cases hopen : k.id = id ∧ k.status = .opened
  · rw [if_pos hopen]
    exact ⟨rfl, rfl⟩
  · rw [if_neg hopen] at hid
    exact absurd ⟨hid, h k hk hid⟩ hopen

/-- What a transaction comes to that looks for a pull request first. -/
theorem look_ends (hw : w.faults = []) (hs : Sound w.store) {id : Text}
    {bad : Failure → Draws → Nat → Prop}
    (hbad : id ∉ (contents w.store).itemIds →
      ∀ e, Denied (Admits σ id) .pullRequestNotFound e → bad e w.draws 0) :
    (look "status" .inside (.pullRequest id) : Job σ PullRequest).Ends w w.store w.draws 0
      (fun p s d n => (∃ i ∈ (contents w.store).items, i.id = id ∧ p = (contents w.store).shown i) ∧
        s = w.store ∧ d = w.draws ∧ n = 0) bad :=
  ends_look "status" hw (fun _ => rfl) (pullRequest_lookup id hs)
    (fun _ _ hp => ⟨hp, rfl, rfl, rfl⟩) hbad

/-- What keeps a pull request from being merged that is not merged: it is not there, or the clock is
off the calendar. -/
def Unmerged (w : World σ) (id : Text) (e : Failure) : Prop :=
  (∀ i ∈ (contents w.store).items, i.id = id → i.status = .opened) ∧
    ((id ∉ (contents w.store).itemIds ∧ Denied (Admits σ id) .pullRequestNotFound e) ∨
      (e = .offCalendar ∧ w.clock.now.isOnCalendar = false))

theorem Unmerged.plain {id : Text} {e : Failure} (h : Unmerged w id e) : e.Plain := by
  rcases h with ⟨-, ⟨-, h⟩ | ⟨rfl, -⟩⟩
  · exact h.plain
  · trivial

/-- A pull request is merged, unless it is merged by now. It is dated, unless it was found
merged. -/
theorem mergeNow_ends (hw : w.faults = []) (hs : Sound w.store) (id : Text) :
    (Review.mergeNow id).Ends w w.store w.draws 0
      (fun g s d n => (∃ i ∈ (contents s).items, i.id = id ∧ i.status = .merged ∧
          g = .own ((contents s).shown i) ∧ (s = w.store ∨ i.merged.isSome = true)) ∧ Sound s ∧
        (merge id).Effect (keep σ) w.clock.now (contents w.store) (contents s) ∧
        ∀ i ∈ (contents w.store).items, i.id = id → i.status = .merged →
          g = .own ((contents w.store).shown i) ∧ s = w.store ∧ d = w.draws ∧ n = 0)
      (fun e _ _ => Unmerged w id e) := by
  unfold Review.mergeNow
  refine (look_ends hw hs fun hn e he => ⟨fun i hi hid =>
    absurd (((contents w.store).mem_itemIds id).2 ⟨i, hi, hid⟩) hn, .inl ⟨hn, he⟩⟩).bind ?_
  rintro _ _ _ _ ⟨⟨i, hi, rfl, rfl⟩, rfl, rfl, rfl⟩
  have hsame {j : Item} (hj : j ∈ (contents w.store).items) (h : j.id = i.id) : j = i :=
    injOn_item hs hj hi h
  split
  · next hm =>
    refine ends_pure ⟨⟨i, hi, rfl, hm, rfl, .inl rfl⟩, hs, .inl rfl, fun j hj hji _ => ?_⟩
    rw [hsame hj hji]
    exact ⟨rfl, rfl, rfl, rfl⟩
  · next hm =>
    have hopen (j : Item) (hj : j ∈ (contents w.store).items) (hji : j.id = i.id) :
        j.status = .opened := by
      rw [hsame hj hji]
      exact Status.eq_opened hm
    have hnow : (now : Job σ Timestamp).Ends w w.store w.draws 0
        (fun t s _ _ => t = w.clock.now ∧ s = w.store) (fun e _ _ => Unmerged w i.id e) :=
      ends_now ⟨rfl, rfl⟩ fun hoff => ⟨hopen, .inr ⟨rfl, hoff⟩⟩
    apply hnow.bind
    rintro _ _ d n ⟨rfl, rfl⟩
    let p : PullRequest :=
      { (contents w.store).shown i with status := .merged, merged := some w.clock.now }
    let after := (contents w.store).updateItem i.id fun j =>
      { j with status := .merged, merged := some (keep σ w.clock.now) }
    have hupdate : (tell .inside (.updatePullRequest p)).Ends w w.store d n
        (fun _ s _ _ => Sound s ∧ contents s = after) (fun e _ _ => Unmerged w i.id e) := by
      refine ends_change hw rfl (updatePullRequest_change p hs) ?_
        fun hn _ => absurd (admits_item hs i hi) hn
      rintro s' ⟨hs', hc'⟩
      refine ⟨hs', hc'.trans (Contents.updateItem_congr _ fun j hj hji => ?_)⟩
      rw [hsame hj hji]
      rfl
    apply hupdate.bind
    rintro - s d n ⟨hs₁, hc₁⟩
    have hthere : i.id ∈ (contents s).itemIds := by
      have hids : after.itemIds = (contents w.store).itemIds :=
        Contents.itemIds_updateItem _ _ _ fun _ => rfl
      rw [hc₁, hids]
      exact ((contents w.store).mem_itemIds i.id).2 ⟨i, hi, rfl⟩
    refine ends_lookup hw (fun _ => rfl) (pullRequest_lookup i.id hs₁) (fun _ p hp => ?_)
      fun hn => absurd hthere hn
    obtain ⟨j, hj, hji, rfl⟩ := hp
    have hmerged := merged_of_merge hopen _ (hc₁ ▸ hj) hji
    refine ⟨⟨j, hj, hji, hmerged.1, rfl, .inr (by rw [hmerged.2]; rfl)⟩, hs₁, .inr hc₁,
      fun k hk hki hm => ?_⟩
    rw [hopen k hk hki] at hm
    cases hm

/-- The members of a team whom a transaction draws from are those of its working copy. -/
theorem teammates_ends {s : σ} (hw : w.faults = []) (hs : Sound s) (d : Draws) (n : Nat)
    (team : Option Text)
    (except : Text) :
    (Review.teammates .inside team except).Ends w s d n
      (fun ids s' d' n' => ids = ((contents s).others team except).sort ∧ s' = s ∧ d' = d ∧ n' = n)
      (fun e d' n' => (¬ (Admits σ except ∧ ∀ name ∈ team, Admits σ name) ∧ e.Plain) ∧
        d' = d ∧ n' = n) := by
  cases team with
  | none => exact ends_pure ⟨by simp [Contents.others], rfl, rfl, rfl⟩
  | some name =>
    have hask :
        (ask .inside (.activeMembers name (some except)) : Job σ (Given (List User))).Ends w s d n
          (fun us s' d' n' => us.ids = .ok ((contents s).others (some name) except).sort ∧
            s' = s ∧ d' = d ∧ n' = n)
          (fun e d' n' => (¬ (Admits σ except ∧ ∀ x ∈ some name, Admits σ x) ∧ e.Plain) ∧
            d' = d ∧ n' = n) := by
      refine ends_listing hw (fun _ => rfl) (activeMembers_listing name (some except) hs)
        (fun us hus => ?_)
        (fun hn _ => ⟨⟨fun h => hn ⟨h.2 name rfl, by simpa using h.1⟩, trivial⟩, rfl, rfl⟩)
      refine ⟨?_, rfl, rfl, rfl⟩
      rw [Given.ids_own, hus.1]
      rfl
    apply hask.bind
    rintro us _ _ _ ⟨hus, rfl, rfl, rfl⟩
    rw [hus]
    exact ends_pure ⟨rfl, rfl, rfl, rfl⟩

/-- Somebody takes over who is taken out of a pool, or nobody where the pool is empty. -/
theorem hand_ends {s : σ} (hw : w.faults = []) (hs : Sound s) (d : Draws) (n : Nat) (id old : Text)
    (next : Option Text) :
    (Review.hand id old next).Ends w s d n
      (fun _ s' d' n' => d' = d ∧ n' = n ∧ Sound s' ∧ contents s' =
        (contents s).setReviewers id (((contents s).reviewers id).erase old ∪ next.toFinset))
      (fun e _ _ => ¬ (Admits σ id ∧ Admits σ old ∧ ∀ new ∈ next, Admits σ new) ∧ e.Plain) := by
  cases next with
  | none =>
    refine ends_change hw rfl (removeReviewer_change id old hs) ?_ fun hn _ =>
      ⟨fun h => hn ⟨h.1, h.2.1⟩, trivial⟩
    rintro s' ⟨hs', hc'⟩
    exact ⟨rfl, rfl, hs', hc'.trans (by simp)⟩
  | some new =>
    refine ends_change hw rfl (replaceReviewer_change id old new hs) ?_
      fun hn _ => ⟨fun h => hn ⟨h.1, h.2.1, h.2.2 new rfl⟩, trivial⟩
    rintro s' ⟨hs', hc'⟩
    refine ⟨rfl, rfl, hs', hc'.trans ?_⟩
    rw [Option.toFinset_some, Finset.union_comm, ← Finset.insert_eq]

omit [Gateway σ] [LawfulStore σ] in
/-- Somebody is taken out of a pool, unless it is empty. -/
theorem take_ends (s : σ) (d : Draws) (n : Nat) (pool : List Text)
    {bad : Failure → Draws → Nat → Prop} :
    (take pool).Ends w s d n
      (fun r s' d' n' => s' = s ∧ n' = n ∧ Chosen pool d r.1 d' ∧
        (pool.Nodup → Taken pool r.1 r.2)) bad :=
  ends_choose ⟨rfl, rfl, takeRandom_chosen pool d, fun hpool => takeRandom_taken hpool d⟩

/-- A reviewer is relieved on a pull request: somebody is chosen from the successors, in the
ascending order of their ids, and takes over. -/
structure Relief (w : World σ) (i : Item) (old : Text) (next : Option Text) (s : σ) (d : Draws) :
    Prop where
  reviewing : old ∈ (contents w.store).reviewers i.id
  chosen : Chosen ((contents w.store).successors old i.author).sort w.draws next d
  contents_eq : contents s = (contents w.store).setReviewers i.id
    (((contents w.store).reviewers i.id).erase old ∪ next.toFinset)

theorem Relief.subset {i : Item} {old : Text} {next : Option Text} {s : σ} {d : Draws}
    (h : Relief w i old next s d) :
    next.toFinset ⊆ (contents w.store).successors old i.author := by
  have hsub := h.chosen.subset
  rwa [Finset.sort_toFinset] at hsub

/-- Relieving a reviewer of an open pull request is what a reassignment does. -/
theorem Relief.effect {i : Item} {old : Text} {next : Option Text} {s : σ} {d : Draws}
    {now : Timestamp} (h : Relief w i old next s d) (hi : i ∈ (contents w.store).items)
    (hopen : i.status = .opened) :
    (reassign i.id old).Effect (keep σ) now (contents w.store) (contents s) := by
  have hcard := h.chosen.card
  rw [Finset.length_sort] at hcard
  exact ⟨i, hi, rfl, by rw [hopen]; nofun, h.reviewing, next.toFinset, h.subset, hcard,
    h.contents_eq⟩

/-- What keeps a reviewer from being relieved: the pull request is not there, or it is merged, or it
is not reviewed by that person, or it is by somebody who is not there or whose team the store cannot
keep. -/
def Withheld (w : World σ) (id old : Text) (e : Failure) : Prop :=
  (id ∉ (contents w.store).itemIds ∧ Denied (Admits σ id) .pullRequestNotFound e) ∨
    ∃ i ∈ (contents w.store).items, i.id = id ∧
      ((i.status = .merged ∧ e = .refuse .alreadyMerged) ∨
        (i.status = .opened ∧ old ∉ (contents w.store).reviewers id ∧ e = .refuse .notReviewer) ∨
        (i.status = .opened ∧ old ∈ (contents w.store).reviewers id ∧ e.Plain ∧
          ¬ ∃ v ∈ (contents w.store).users, v.id = old ∧ ∀ name ∈ v.team, Admits σ name))

theorem Withheld.plain {id old : Text} {e : Failure} (h : Withheld w id old e) : e.Plain := by
  rcases h with ⟨-, h⟩ | ⟨i, -, -, ⟨-, rfl⟩ | ⟨-, -, rfl⟩ | ⟨-, -, h, -⟩⟩
  · exact h.plain
  · trivial
  · trivial
  · exact h

section Relieving

variable {α : Type} {i : Item} {old : Text}

/-- It is asked whether somebody reviews a pull request. -/
theorem reviewing_ends (hw : w.faults = []) (hs : Sound w.store) (hi : i ∈ (contents w.store).items)
    (old : Text) {f : Bool → Job σ α} {good : α → σ → Draws → Nat → Prop}
    {bad : Failure → Draws → Nat → Prop}
    (hf : (f (decide (old ∈ (contents w.store).reviewers i.id))).Ends w w.store w.draws 0 good bad) :
    (ask .inside (.reviewers i.id) >>= fun assigned : Given (List Text) =>
      ofExcept (assigned.holds old) >>= f).Ends w w.store w.draws 0 good bad := by
  have hreviewers : (ask .inside (.reviewers i.id) : Job σ (Given (List Text))).Ends w
      w.store w.draws 0
      (fun g s d n => g = .own ((contents w.store).reviewers i.id).sort ∧ s = w.store ∧
        d = w.draws ∧ n = 0) bad :=
    ends_listing hw (fun _ => rfl) (reviewers_listing i.id hs)
      (fun _ hr => ⟨congrArg Given.own hr, rfl, rfl, rfl⟩)
      fun hn _ => absurd (admits_item hs i hi).1 hn
  apply hreviewers.bind
  rintro _ _ _ _ ⟨rfl, rfl, rfl, rfl⟩
  have hholds : (ofExcept ((Given.own ((contents w.store).reviewers i.id).sort).holds old) :
      Job σ Bool).Ends w w.store w.draws 0
      (fun b s d n => b = decide (old ∈ (contents w.store).reviewers i.id) ∧ s = w.store ∧
        d = w.draws ∧ n = 0) bad := by
    rw [Given.holds_own]
    exact ends_pure ⟨by simp, rfl, rfl, rfl⟩
  apply hholds.bind
  rintro _ _ _ _ ⟨rfl, rfl, rfl, rfl⟩
  exact hf

/-- Whoever was chosen takes over, and the pull request is read back. -/
theorem succession_ends (hw : w.faults = []) (hs : Sound w.store)
    (hi : i ∈ (contents w.store).items) (hold : old ∈ (contents w.store).reviewers i.id)
    (hadmits : Admits σ old) {next : Option Text} {d : Draws}
    (hchosen : Chosen ((contents w.store).successors old i.author).sort w.draws next d)
    {bad : Failure → Draws → Nat → Prop} :
    (Review.hand i.id old next >>= fun _ => ask .inside (.pullRequest i.id) >>= fun updated =>
      return .own (updated, next) : Job σ (Given (Given PullRequest × Option Text))).Ends w w.store d 0
      (fun g s d' n => g = .own (.own ((contents s).shown i), next) ∧ Sound s ∧ n = 0 ∧
        Relief w i old next s d') bad := by
  have hpeople : Admits σ i.id ∧ Admits σ old ∧ ∀ new ∈ next, Admits σ new := by
    refine ⟨(admits_item hs i hi).1, hadmits, fun new hnew => admits_user hs new ?_⟩
    have hmem := hchosen.subset (Option.mem_toFinset.2 hnew)
    rw [Finset.sort_toFinset] at hmem
    exact (contents w.store).successors_subset_userIds old i.author hmem
  apply ((hand_ends hw hs d 0 i.id old next).mono (fun _ _ _ _ h => h)
    fun e _ _ he => absurd hpeople he.1).bind
  rintro - s d _ ⟨rfl, rfl, hs₁, hc₁⟩
  have hitem : i ∈ (contents s).items := by
    rw [hc₁]
    exact hi
  have hanswer : (ask .inside (.pullRequest i.id) : Job σ (Given PullRequest)).Ends w s d 0
      (fun g s' d' n' => g = .own ((contents s).shown i) ∧ s' = s ∧ d' = d ∧ n' = 0) bad := by
    refine ends_lookup hw (fun _ => rfl) (pullRequest_lookup i.id hs₁) ?_ fun hn =>
      absurd (((contents s).mem_itemIds i.id).2 ⟨i, hitem, rfl⟩) hn
    rintro - p ⟨j, hj, hji, rfl⟩
    obtain rfl : j = i := injOn_item hs₁ hj hitem hji
    exact ⟨rfl, rfl, rfl, rfl⟩
  apply hanswer.bind
  rintro _ _ _ _ ⟨rfl, rfl, rfl, rfl⟩
  exact ends_pure ⟨rfl, hs₁, rfl, hold, hchosen, hc₁⟩

/-- Somebody who reviews an open pull request is relieved, unless they are not there or the store
cannot keep their team. -/
theorem relief_ends (hw : w.faults = []) (hs : Sound w.store) (hi : i ∈ (contents w.store).items)
    (hopen : i.status = .opened) (hold : old ∈ (contents w.store).reviewers i.id) :
    (do
      let reviewer ← look "team_name" .inside (.user old)
      let candidates ← Review.teammates .inside reviewer.team i.author
      let (successor, _) ← take (candidates.filter (· ≠ old))
      Review.hand i.id old successor
      let updated ← ask .inside (.pullRequest i.id)
      return .own (updated, successor) :
      Job σ (Given (Given PullRequest × Option Text))).Ends w w.store w.draws 0
      (fun g s d n => ∃ next, g = .own (.own ((contents s).shown i), next) ∧ Sound s ∧ n = 0 ∧
        Relief w i old next s d)
      (fun e d n => Withheld w i.id old e ∧ d = w.draws ∧ n = 0) := by
  have hwithheld {e : Failure} (he : e.Plain)
      (h : ¬ ∃ v ∈ (contents w.store).users, v.id = old ∧ ∀ name ∈ v.team, Admits σ name) :
      Withheld w i.id old e :=
    .inr ⟨i, hi, rfl, .inr (.inr ⟨hopen, hold, he, h⟩)⟩
  have huser : (look "team_name" .inside (.user old) : Job σ User).Ends w w.store w.draws 0
      (fun v s d n => (v ∈ (contents w.store).users ∧ v.id = old) ∧ s = w.store ∧
        d = w.draws ∧ n = 0)
      (fun e d n => Withheld w i.id old e ∧ d = w.draws ∧ n = 0) := by
    refine ends_look "team_name" hw (fun _ => rfl) (user_lookup old hs)
      (fun _ v hv => ⟨hv, rfl, rfl, rfl⟩) fun hn e he => ⟨hwithheld he.plain ?_, rfl, rfl⟩
    rintro ⟨v, hv, hid, -⟩
    exact hn (((contents w.store).mem_userIds old).2 ⟨v, hv, hid⟩)
  apply huser.bind
  rintro v _ _ _ ⟨⟨hv, rfl⟩, rfl, rfl, rfl⟩
  have hteam : (Review.teammates .inside v.team i.author).Ends w w.store w.draws 0
      (fun ids s d n => ids = ((contents w.store).others v.team i.author).sort ∧
        s = w.store ∧ d = w.draws ∧ n = 0)
      (fun e d n => Withheld w i.id v.id e ∧ d = w.draws ∧ n = 0) := by
    refine (teammates_ends hw hs w.draws 0 v.team i.author).mono (fun _ _ _ _ h => h) ?_
    rintro e d n ⟨⟨hn, he⟩, hd, hn₀⟩
    refine ⟨hwithheld he ?_, hd, hn₀⟩
    rintro ⟨u, hu, huv, hadmitsTeam⟩
    obtain rfl : u = v := injOn_user hs hu hv huv
    exact hn ⟨(admits_item hs i hi).2.2, hadmitsTeam⟩
  apply hteam.bind
  rintro _ _ _ _ ⟨rfl, rfl, rfl, rfl⟩
  have hpool : (((contents w.store).others v.team i.author).sort).filter
      (fun id => decide (id ≠ v.id)) = ((contents w.store).successors v.id i.author).sort := by
    rw [Rows.filter_sort, Contents.successors_eq (injOn_user hs) hv, ← Finset.filter_ne']
  rw [hpool]
  apply (take_ends w.store _ _ _).bind
  rintro ⟨next, rest⟩ _ d _ ⟨rfl, rfl, hchosen, -⟩
  have hadmits : Admits σ v.id :=
    admits_user hs v.id (((contents w.store).mem_userIds v.id).2 ⟨v, hv, rfl⟩)
  exact (succession_ends hw hs hi hold hadmits hchosen).mono (fun _ _ _ _ h => ⟨next, h⟩)
    fun _ _ _ h => h

/-- A reviewer is relieved, unless something is in the way. That is found out before anything is
drawn. -/
theorem reassignNow_ends (hw : w.faults = []) (hs : Sound w.store) (id old : Text) :
    (Review.reassignNow id old).Ends w w.store w.draws 0
      (fun g s d n => ∃ i ∈ (contents w.store).items, i.id = id ∧ i.status = .opened ∧
        ∃ next, g = .own (.own ((contents s).shown i), next) ∧ Sound s ∧ n = 0 ∧
          Relief w i old next s d)
      (fun e d n => Withheld w id old e ∧ d = w.draws ∧ n = 0) := by
  unfold Review.reassignNow
  refine (look_ends hw hs fun hn e he => ⟨.inl ⟨hn, he⟩, rfl, rfl⟩).bind ?_
  rintro _ _ _ _ ⟨⟨i, hi, rfl, rfl⟩, rfl, rfl, rfl⟩
  have hstatus : ((contents w.store).shown i).status = i.status := rfl
  simp only [hstatus]
  by_cases hm : i.status = .merged
  · rw [if_pos hm]
    exact ends_fail ⟨.inr ⟨i, hi, rfl, .inl ⟨hm, rfl⟩⟩, rfl, rfl⟩
  · have hopen : i.status = .opened := Status.eq_opened hm
    rw [if_neg hm]
    apply reviewing_ends hw hs hi old
    by_cases hold : old ∈ (contents w.store).reviewers i.id
    · simp only [hold, decide_true, Bool.not_true, Bool.false_eq_true, if_false]
      exact (relief_ends hw hs hi hopen hold).mono
        (fun _ _ _ _ ⟨next, h⟩ => ⟨i, hi, rfl, hopen, next, h⟩) fun _ _ _ h => h
    · simp only [hold, decide_false, Bool.not_false, if_true]
      exact ends_fail ⟨.inr ⟨i, hi, rfl, .inr (.inl ⟨hopen, hold, rfl⟩)⟩, rfl, rfl⟩

end Relieving

/-- What keeps a reviewer from being relieved. In a consistent store nothing else does than that a
pull request which is there is merged or not reviewed by that person. -/
def Unrelieved (w : World σ) (id : Text) (e : Failure) (d : Draws) (n : Nat) : Prop :=
  e.Plain ∧
    (∀ i ∈ (contents w.store).items, i.id = id → i.status = .merged →
      e = .refuse .alreadyMerged ∧ d = w.draws ∧ n = 0) ∧
    ((contents w.store).Consistent → id ∈ (contents w.store).itemIds →
      e = .refuse .alreadyMerged ∨ e = .refuse .notReviewer)

theorem Withheld.unrelieved (hs : Sound w.store) {id old : Text} {e : Failure}
    (h : Withheld w id old e) : Unrelieved w id e w.draws 0 := by
  refine ⟨h.plain, fun j hj hji hm => ⟨?_, rfl, rfl⟩, fun hc hid => ?_⟩
  · rcases h with ⟨hn, -⟩ | ⟨i, hi, rfl, h⟩
    · exact absurd (((contents w.store).mem_itemIds id).2 ⟨j, hj, hji⟩) hn
    · obtain rfl : j = i := injOn_item hs hj hi hji
      rcases h with ⟨-, rfl⟩ | ⟨hopen, -⟩ | ⟨hopen, -⟩
      · rfl
      · rw [hopen] at hm
        cases hm
      · rw [hopen] at hm
        cases hm
  · rcases h with ⟨hn, -⟩ | ⟨i, -, rfl, ⟨-, rfl⟩ | ⟨-, -, rfl⟩ | ⟨-, hold, -, hn⟩⟩
    · exact absurd hid hn
    · exact .inl rfl
    · exact .inr rfl
    · -- In consistent contents a reviewer is there, in a team that is there.
      obtain ⟨v, hv, rfl⟩ :=
        ((contents w.store).mem_userIds old).1 (hc.reviewers_subset i.id hold)
      obtain ⟨t, ht, hteam⟩ := hc.team_mem v hv
      exact absurd ⟨v, hv, rfl, by simpa [hteam] using admits_team hs t ht⟩ hn

omit [Gateway σ] [LawfulStore σ] in
/-- A job whose answer is given as a reply comes out as the job does. -/
theorem replying_settles {α : Type} {f : α → Reply} {x : Job σ α}
    {good : Reply → σ → Draws → Nat → Prop}
    {bad : Failure → Draws → Nat → Prop} (h : x.Settles w (fun a s d n => good (f a) s d n) bad) :
    (replying f x).Settles w good bad :=
  h.bind fun a _ _ _ ha w' _ => ⟨f a, w', rfl, .refl w', ha⟩

/-- What is answered where a team is founded is the team with the members that it has then. -/
theorem found_settles_shown (hw : w.faults = []) (hs : Sound w.store) (t : Team) :
    (found t).rest.Settles w
      (fun r s _ _ => (∃ us, r = .team ⟨t.name, us⟩ ∧
          (contents s).Roll ((contents s).staff t.name) us) ∧ Sound s ∧
        (found t).Effect (keep σ) w.clock.now (contents w.store) (contents s))
      (fun e d n =>
        (t.name ∈ (contents w.store).teams ∧ e = .refuse .teamExists ∧ d = w.draws ∧ n = 0) ∨
          t.name ∉ (contents w.store).teams ∧ t.Unkept σ ∧ ∃ gap, e = .unwritable gap) := by
  have htransaction := (foundNow_ends hw hs t).transaction hw (fun _ _ _ _ h => h.2.1) <| by
    rintro e d n (⟨-, rfl, -⟩ | ⟨-, -, gap, rfl⟩)
    · trivial
    · trivial
  refine replying_settles (htransaction.bind fun g s d n hg w' _ => ?_)
  obtain ⟨⟨us, rfl, hroll⟩, hs', he⟩ := hg
  exact ⟨⟨t.name, us⟩, _, rfl, w'.like_note _, ⟨us, rfl, hroll⟩, hs', he⟩

theorem found_settles (hw : w.faults = []) (hs : Sound w.store) (t : Team) :
    (found t).rest.Settles w
      (fun _ s _ _ => Sound s ∧ (found t).Effect (keep σ) w.clock.now (contents w.store)
        (contents s))
      (fun e d n =>
        (t.name ∈ (contents w.store).teams ∧ e = .refuse .teamExists ∧ d = w.draws ∧ n = 0) ∨
          t.name ∉ (contents w.store).teams ∧ t.Unkept σ ∧ ∃ gap, e = .unwritable gap) :=
  (found_settles_shown hw hs t).mono (fun _ _ _ _ h => h.2) fun _ _ _ h => h

/-- A user who is there is switched, and nothing can be in the way. -/
theorem switch_settles (hw : w.faults = []) (hs : Sound w.store) (id : Text) (active : Bool)
    (hid : id ∈ (contents w.store).userIds) :
    (switch id active).rest.Settles w
      (fun _ s _ _ => Sound s ∧ (switch id active).Effect (keep σ) w.clock.now (contents w.store)
        (contents s))
      (fun _ _ _ => False) := by
  have hsilent := (switchNow_ends hw hs id active hid).silently hw (fun _ _ _ _ h => h.1)
    fun _ _ _ h => h.elim
  refine replying_settles (hsilent.bind fun _ s d n hg w' hlike => ?_)
  obtain ⟨hs', hc'⟩ := hg
  have hstore : (w'.note (.activityChanged id active)).store = s := hlike.store
  have hsound : Sound (w'.note (.activityChanged id active)).store := hstore ▸ hs'
  have hmem : id ∈ (contents (w'.note (.activityChanged id active)).store).userIds := by
    rw [hstore, hc', Contents.userIds_switch]
    exact hid
  have hfaults : (w'.note (.activityChanged id active)).faults = [] := hlike.faults.trans hw
  rcases looks_user hfaults hsound id with ⟨u, hu, -⟩ | ⟨_, _, hn, -⟩
  · exact ⟨u, _, hu, w'.like_note _, hs', hc'⟩
  · exact absurd hmem hn

/-- What is answered to an opening is the pull request as it is left. The clock is read once. -/
theorem opening_settles_shown (hw : w.faults = []) (hs : Sound w.store) (id name author : Text)
    (reviewers : List Text) :
    (opening id name author reviewers).rest.Settles w
      (fun r s d n => (∃ i ∈ (contents s).items, i.id = id ∧
        r = .pullRequest ((contents s).shown i)) ∧ Sound s ∧ d = w.draws ∧ n = 1 ∧
        (opening id name author reviewers).Effect (keep σ) w.clock.now (contents w.store)
          (contents s))
      (fun e _ _ => Unopened w id name author reviewers e) := by
  have htransaction := (openNow_ends hw hs id name author reviewers).transaction hw
    (fun _ _ _ _ h => h.2.1)
    fun _ _ _ h => h.plain
  refine replying_settles (htransaction.bind fun g s d n hg w' _ => ?_)
  obtain ⟨⟨i, hi, hid, rfl⟩, hs', rfl, rfl, he⟩ := hg
  exact ⟨(contents s).shown i, _, rfl, w'.like_note _, ⟨i, hi, hid, rfl⟩, hs', rfl, rfl, he⟩

theorem opening_settles (hw : w.faults = []) (hs : Sound w.store) (id name author : Text)
    (reviewers : List Text) :
    (opening id name author reviewers).rest.Settles w
      (fun r s d _ => (∃ i ∈ (contents s).items, i.id = id ∧
        r = .pullRequest ((contents s).shown i)) ∧ Sound s ∧
        d = w.draws ∧
        (opening id name author reviewers).Effect (keep σ) w.clock.now (contents w.store)
          (contents s))
      (fun e _ _ => Unopened w id name author reviewers e) :=
  (opening_settles_shown hw hs id name author reviewers).mono
    (fun _ _ _ _ ⟨hshown, hs', hd, _, he⟩ => ⟨hshown, hs', hd, he⟩) fun _ _ _ h => h

/-- What is answered to a merge is the merged pull request. One that was stored as merged without a
date of its merge cannot be announced. -/
theorem merge_settles_shown (hw : w.faults = []) (hs : Sound w.store) (id : Text) :
    (merge id).rest.Settles w
      (fun r s d n => (∃ i ∈ (contents s).items, i.id = id ∧ i.status = .merged ∧
          r = .pullRequest ((contents s).shown i)) ∧ Sound s ∧
        (merge id).Effect (keep σ) w.clock.now (contents w.store) (contents s) ∧
        ∀ i ∈ (contents w.store).items, i.id = id → i.status = .merged →
          r = .pullRequest ((contents w.store).shown i) ∧ s = w.store ∧ d = w.draws ∧ n = 0)
      (fun e _ _ => Unmerged w id e ∨
          ∃ i ∈ (contents w.store).items, i.status = .merged ∧ i.merged = none) := by
  have htransaction := (mergeNow_ends hw hs id).transaction hw (fun _ _ _ _ h => h.2.1)
    fun _ _ _ h => h.plain
  refine replying_settles ((htransaction.mono (fun _ _ _ _ h => h)
    fun _ _ _ h => .inl h).bind_or_fail fun g s d n hg w' _ => ?_)
  obtain ⟨⟨i, hi, hid, hm, rfl, hdated⟩, hs', he, hstill⟩ := hg
  show (∃ a w'', Review.announceMerge id ((contents s).shown i) w' = (.ok a, w'') ∧ _) ∨
    ∃ e w'', Review.announceMerge id ((contents s).shown i) w' = (.error e, w'') ∧ _
  have hshown : ((contents s).shown i).merged = i.merged := rfl
  rw [Review.announceMerge, hshown]
  cases hdate : i.merged with
  | some t =>
    refine .inl ⟨(contents s).shown i, _, rfl, w'.like_note _, ⟨i, hi, hid, hm, rfl⟩, hs', he,
      fun j hj hji hjm => ?_⟩
    obtain ⟨hg, hrest⟩ := hstill j hj hji hjm
    exact ⟨congrArg Reply.pullRequest (Given.own.inj hg), hrest⟩
  | none =>
    rcases hdated with rfl | hsome
    · exact .inr ⟨_, w', rfl, .refl w', rfl, .inr ⟨i, hi, hm, hdate⟩⟩
    · rw [hdate] at hsome
      cases hsome

/-- The answer to a merge shows the pull request as it is left. -/
theorem merge_shows (hw : w.faults = []) (hs : Sound w.store) (id : Text) {r : Reply}
    (hr : ((merge id).rest w).1 = .ok r) :
    (contents ((merge id).rest w).2.store).ShowsMerged id r := by
  rcases merge_settles_shown hw hs id with
    ⟨a, s, d, n, w', hrest, hlike, hshown, -⟩ | ⟨e, d, n, w', hrest, -⟩
  · have hstore : w'.store = s := hlike.store
    rw [hrest] at hr ⊢
    cases hr
    rw [hstore]
    exact hshown
  · rw [hrest] at hr
    cases hr

theorem merge_settles (hw : w.faults = []) (hs : Sound w.store) (hc : (contents w.store).Consistent)
    (id : Text) :
    (merge id).rest.Settles w
      (fun r s d n => Sound s ∧ (merge id).Effect (keep σ) w.clock.now (contents w.store)
        (contents s) ∧
        ∀ i ∈ (contents w.store).items, i.id = id → i.status = .merged →
          r = .pullRequest ((contents w.store).shown i) ∧ s = w.store ∧ d = w.draws ∧ n = 0)
      (fun e _ _ => Unmerged w id e) := by
  refine (merge_settles_shown hw hs id).mono (fun _ _ _ _ h => h.2) ?_
  rintro e d n (h | ⟨i, hi, hm, hdate⟩)
  · exact h
  · have hsome := (hc.merged_iff i hi).2 hm
    rw [hdate] at hsome
    cases hsome

/-- What is answered to a reassignment is the pull request as it is left, and who took over. -/
theorem reassign_settles_shown (hw : w.faults = []) (hs : Sound w.store) (id old : Text) :
    (reassign id old).rest.Settles w
      (fun r s d n => ∃ i ∈ (contents w.store).items, i.id = id ∧ i.status = .opened ∧
        ∃ next, r = .reassigned (.own ((contents s).shown i)) (.ofText? next) ∧ Sound s ∧ n = 0 ∧
          Relief w i old next s d)
      (fun e d n => Withheld w id old e ∧ d = w.draws ∧ n = 0) := by
  have htransaction := (reassignNow_ends hw hs id old).transaction hw
    (fun _ _ _ _ ⟨_, _, _, _, _, _, h, _⟩ => h) fun _ _ _ h => h.1.plain
  refine replying_settles (htransaction.bind fun g s d n hg w' _ => ?_)
  obtain ⟨i, hi, hid, hopen, next, rfl, hrest⟩ := hg
  exact ⟨(.own ((contents s).shown i), .ofText? next), _, rfl, w'.like_note _, i, hi, hid, hopen,
    next, rfl, hrest⟩

theorem reassign_settles (hw : w.faults = []) (hs : Sound w.store) (id old : Text) :
    (reassign id old).rest.Settles w
      (fun _ s _ _ => Sound s ∧ (reassign id old).Effect (keep σ) w.clock.now (contents w.store)
        (contents s))
      (fun e d n => Unrelieved w id e d n) := by
  refine (reassign_settles_shown hw hs id old).mono ?_ ?_
  · rintro _ s d n ⟨i, hi, rfl, hopen, next, -, hs', -, hrelief⟩
    exact ⟨hs', hrelief.effect hi hopen⟩
  · rintro e d n ⟨h, rfl, rfl⟩
    exact h.unrelieved hs

end Undertaking
end ReviewDesk
