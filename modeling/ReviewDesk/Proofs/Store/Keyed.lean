import Mathlib.Data.Finset.Dedup
import Mathlib.Data.List.Nodup
import ReviewDesk.Proofs.Lawful

/-!
# The keyed store is lawful

Its records are sound where each key occurs once and each set of reviewers holds nobody twice. It
keeps every text and every date as they are.
-/
namespace ReviewDesk.KeyedStore

/-- Each key occurs once, and nobody reviews a pull request twice. -/
structure Sound (s : KeyedStore) : Prop where
  users : (s.users.map User.id).Nodup
  items : (s.items.map Item.id).Nodup
  keys : (s.assignments.map Prod.fst).Nodup
  sets : ∀ a ∈ s.assignments, a.2.Nodup

def contents (s : KeyedStore) : Contents :=
  ⟨s.teams.toFinset, s.users.toFinset, s.items.toFinset, fun id => (s.assigned id).toFinset⟩

section Fields

variable (s : KeyedStore)

@[simp] theorem mem_contents_teams (t : Text) :
    t ∈ s.contents.teams ↔ t ∈ s.teams := by simp [contents]
@[simp] theorem mem_contents_users (u : User) :
    u ∈ s.contents.users ↔ u ∈ s.users := by simp [contents]
@[simp] theorem mem_contents_items (i : Item) :
    i ∈ s.contents.items ↔ i ∈ s.items := by simp [contents]
@[simp] theorem contents_reviewers (id : Text) :
    s.contents.reviewers id = (s.assigned id).toFinset := rfl

theorem mem_userIds (id : Text) : id ∈ s.contents.userIds ↔ id ∈ s.users.map User.id := by simp

theorem mem_itemIds (id : Text) : id ∈ s.contents.itemIds ↔ id ∈ s.items.map Item.id := by simp

end Fields

section Sets

/-- The reviewers of a pull request after one set was replaced. -/
theorem assigned_setAssigned (s : KeyedStore) (id other : Text) (reviewers : List Text) :
    (s.setAssigned id reviewers).assigned other =
      if id = other then reviewers else s.assigned other := by
  simp only [assigned, setAssigned, Rows.find?_upsert]
  split <;> rfl

theorem assigned_removeReviewer (s : KeyedStore) (id old other : Text) :
    (s.removeReviewer id old).assigned other =
      if id = other then eraseId (s.assigned other) old else s.assigned other := by
  simp only [assigned, removeReviewer]
  rw [Rows.find?_modify Prod.fst id other (fun a => (a.1, eraseId a.2 old)) (fun _ => rfl)]
  split
  · cases Rows.find? Prod.fst other s.assignments with
    | none => rfl
    | some a => rfl
  · rfl

theorem nodup_assigned {s : KeyedStore} (h : s.Sound) (id : Text) : (s.assigned id).Nodup := by
  unfold assigned
  cases hf : Rows.find? Prod.fst id s.assignments with
  | none => exact List.nodup_nil
  | some a => exact h.sets a ((Rows.find?_eq_some_iff Prod.fst id h.keys a).1 hf).1

theorem reviewers_eq {s : KeyedStore} (h : s.Sound) (id : Text) :
    s.reviewers id = (s.contents.reviewers id).sort := Rows.sortIds_eq_sort (nodup_assigned h id)

theorem view_eq {s : KeyedStore} (h : s.Sound) (i : Item) : s.view i = s.contents.shown i :=
  congrArg i.withReviewers (reviewers_eq h i.id)

theorem nodup_insertId {set : List Text} (h : set.Nodup) (id : Text) : (insertId set id).Nodup := by
  unfold insertId
  split
  · exact h
  · next hid => exact List.nodup_append.2 ⟨h, by simp, fun a ha b hb e => hid (by simp_all)⟩

@[simp] theorem toFinset_insertId (set : List Text) (id : Text) :
    (insertId set id).toFinset = insert id set.toFinset := by
  unfold insertId
  split
  · next hid => simp [hid]
  · simp

@[simp] theorem toFinset_eraseId (set : List Text) (id : Text) :
    (eraseId set id).toFinset = set.toFinset.erase id := by
  ext a
  simp [eraseId, and_comm]

theorem foldl_insertId {set : List Text} (h : set.Nodup) (ids : List Text) :
    (ids.foldl insertId set).Nodup ∧
      (ids.foldl insertId set).toFinset = set.toFinset ∪ ids.toFinset := by
  induction ids generalizing set with
  | nil => exact ⟨h, by simp⟩
  | cons id ids ih =>
    obtain ⟨hn, hs⟩ := ih (nodup_insertId h id)
    refine ⟨hn, hs.trans ?_⟩
    ext a
    simp

/-- A set of reviewers is replaced by one that holds nobody twice. -/
theorem sound_setAssigned {s : KeyedStore} (h : s.Sound) (id : Text) {reviewers : List Text}
    (hn : reviewers.Nodup) : (s.setAssigned id reviewers).Sound ∧
      (s.setAssigned id reviewers).contents = s.contents.setReviewers id reviewers.toFinset := by
  constructor
  · refine ⟨h.users, h.items, Rows.nodup_upsert Prod.fst _ h.keys, fun a ha => ?_⟩
    rcases (Rows.mem_upsert Prod.fst _ h.keys a).1 ha with rfl | ⟨ha, -⟩
    · exact hn
    · exact h.sets a ha
  · refine Contents.ext rfl rfl rfl (funext fun other => ?_)
    rw [contents_reviewers, assigned_setAssigned]
    by_cases hid : id = other
    · subst hid
      rw [if_pos rfl, Contents.setReviewers_self]
    · rw [if_neg hid, Contents.setReviewers_of_ne _ fun e => hid e.symm, contents_reviewers]

end Sets

section Readings

variable {s : KeyedStore}

theorem user_lookup (h : s.Sound) (id : Text) : Lookup (id ∈ s.contents.userIds) True .userNotFound
    (fun u => u ∈ s.contents.users ∧ u.id = id) (s.user id) := by
  unfold user user?
  cases hf : Rows.find? User.id id s.users with
  | none =>
    have hn := (Rows.find?_eq_none_iff User.id id s.users).1 hf
    exact .inr (.inl ⟨fun hi => hn ((mem_userIds s id).1 hi), trivial, rfl⟩)
  | some u =>
    obtain ⟨hu, hid⟩ := (Rows.find?_eq_some_iff User.id id h.users u).1 hf
    exact .inl ⟨(mem_userIds s id).2 (List.mem_map.2 ⟨u, hu, hid⟩), u, rfl, by simpa using hu, hid⟩

theorem pullRequest_lookup (h : s.Sound) (id : Text) :
    Lookup (id ∈ s.contents.itemIds) True .pullRequestNotFound
      (fun p => ∃ i ∈ s.contents.items, i.id = id ∧ p = s.contents.shown i) (s.pullRequest id) := by
  unfold pullRequest item?
  cases hf : Rows.find? Item.id id s.items with
  | none =>
    have hn := (Rows.find?_eq_none_iff Item.id id s.items).1 hf
    exact .inr (.inl ⟨fun hi => hn ((mem_itemIds s id).1 hi), trivial, rfl⟩)
  | some i =>
    obtain ⟨hi, hid⟩ := (Rows.find?_eq_some_iff Item.id id h.items i).1 hf
    exact .inl ⟨(mem_itemIds s id).2 (List.mem_map.2 ⟨i, hi, hid⟩), _, rfl,
      i, by simpa using hi, hid,
      view_eq h i⟩

/-- The users that are left of the sorted members of a team. -/
theorem roll_filter_members (h : s.Sound) (team : Text) (p : User → Bool) {ids : Finset Text}
    (hids : ∀ id, id ∈ ids ↔ ∃ u ∈ s.users, u.team = some team ∧ p u = true ∧ u.id = id) :
    s.contents.Roll ids ((s.members team).filter p) := by
  have hn : ((s.users.filter fun u => u.team = some team).map User.id).Nodup :=
    h.users.sublist (List.filter_sublist.map User.id)
  constructor
  · have hs := Rows.map_sublist_sortByKey User.id hn
      (List.filter_sublist (p := p) (l := s.members team))
    rw [hs]
    congr 1
    ext id
    simp [hids, members, and_assoc, and_comm, and_left_comm]
  · intro u hu
    simp only [members, List.mem_filter, Rows.mem_sortByKey] at hu
    simpa using hu.1.1

theorem roll_members (h : s.Sound) (team : Text) :
    s.contents.Roll (s.contents.staff team) (s.members team) := by
  have hall : (s.members team).filter (fun _ => true) = s.members team := List.filter_true _
  have hr := roll_filter_members h team (fun _ => true) fun id =>
    s.contents.mem_staff team id |>.trans (by simp)
  rwa [hall] at hr

theorem roll_activeMembers (h : s.Sound) (team : Text) (except : Option Text) :
    s.contents.Roll ((s.contents.active team).filter fun id => some id ≠ except)
      (s.activeMembers team except) := by
  refine roll_filter_members h team (fun u => u.active && some u.id ≠ except) fun id => ?_
  simp only [Finset.mem_filter, Contents.mem_active, mem_contents_users, Bool.and_eq_true,
    decide_eq_true_eq]
  constructor
  · rintro ⟨⟨u, hu, ht, ha, rfl⟩, hne⟩
    exact ⟨u, hu, ht, ⟨ha, hne⟩, rfl⟩
  · rintro ⟨u, hu, ht, ⟨ha, hne⟩, rfl⟩
    exact ⟨⟨u, hu, ht, ha, rfl⟩, hne⟩

theorem team_lookup (h : s.Sound) (name : Text) :
    Lookup (name ∈ s.contents.teams) True .teamNotFound
    (fun t => t.name = name ∧ s.contents.Roll (s.contents.staff name) t.members) (s.team name) := by
  unfold team
  split
  · next ht => exact .inl ⟨by simpa using ht, _, rfl, rfl, roll_members h name⟩
  · next ht => exact .inr (.inl ⟨by simpa using ht, trivial, rfl⟩)

theorem isOpenIn_iff (h : s.Sound) (team : Text) (i : Item) :
    s.isOpenIn team i = true ↔ i.status = .opened ∧ i.author ∈ s.contents.active team := by
  simp only [isOpenIn, user?, Contents.mem_active, mem_contents_users]
  cases hf : Rows.find? User.id i.author s.users with
  | none =>
    have hn := (Rows.find?_eq_none_iff User.id i.author s.users).1 hf
    simp only [Bool.false_eq_true, false_iff, not_and]
    rintro - ⟨u, hu, -, -, hid⟩
    exact hn (List.mem_map.2 ⟨u, hu, hid⟩)
  | some u =>
    obtain ⟨hu, hid⟩ := (Rows.find?_eq_some_iff User.id i.author h.users u).1 hf
    simp only [Bool.and_eq_true, decide_eq_true_eq]
    constructor
    · rintro ⟨⟨ht, ha⟩, ho⟩
      exact ⟨ho, u, hu, ht, ha, hid⟩
    · rintro ⟨ho, v, hv, ht, ha, hvid⟩
      have hvu : v = u := List.inj_on_of_nodup_map h.users hv hu (hvid.trans hid.symm)
      subst hvu
      exact ⟨⟨ht, ha⟩, ho⟩

theorem isOpenIn_eq (h : s.Sound) (team : Text) (i : Item) : s.isOpenIn team i =
    decide (i.status = .opened ∧ i.author ∈ s.contents.active team) := by
  rw [Bool.eq_iff_iff, isOpenIn_iff h, decide_eq_true_eq]

theorem comparable_filter (hc : s.contents.Comparable) (p : Item → Bool) :
    comparable (s.items.filter p) = true := by
  simp only [comparable, Bool.or_eq_true, List.all_eq_true, List.mem_filter,
    Option.isNone_iff_eq_none]
  rcases hc with hc | hc
  · exact .inl fun i hi => hc i (by simpa using hi.1)
  · exact .inr fun i hi => hc i (by simpa using hi.1)

/-- The open pull requests of the team in their order, if there is one. -/
theorem openPullRequests_spec (h : s.Sound) (team : Text) {ps : List PullRequest}
    (hps : ps = (Rows.latestFirst (fun i => i.created.instant)
      (s.items.filter (s.isOpenIn team))).map fun i => i.withReviewers []) :
    (ps.map PullRequest.id).Nodup ∧ ∀ p, p ∈ ps ↔ ∃ i ∈ s.contents.items,
      i.status = .opened ∧ i.author ∈ s.contents.active team ∧ p = i.withReviewers [] := by
  subst hps
  obtain ⟨hnodup, hmem⟩ := Rows.listed_latestFirst Item.id PullRequest.id
    (fun i => i.withReviewers []) (fun _ => rfl) (fun i => i.created.instant) (s.isOpenIn team)
    h.items
  refine ⟨hnodup, fun p => (hmem p).trans ?_⟩
  simp only [isOpenIn_iff h, mem_contents_items, and_assoc]

theorem openPullRequests_listing (h : s.Sound) (team : Text) (hc : s.contents.Comparable) :
    Listing True (fun ps => (ps.map PullRequest.id).Nodup ∧ ∀ p, p ∈ ps ↔ ∃ i ∈ s.contents.items,
      i.status = .opened ∧ i.author ∈ s.contents.active team ∧ p = i.withReviewers [])
      (s.openPullRequests team) := by
  refine .inl ⟨trivial, _, ?_, openPullRequests_spec h team rfl⟩
  simp only [openPullRequests, latestFirst, comparable_filter hc, if_true]
  rfl

theorem reviewers_listing (h : s.Sound) (id : Text) :
    Listing True (fun rs => rs = (s.contents.reviewers id).sort) (Gateway.reviewers id s) :=
  .inl ⟨trivial, _, rfl, reviewers_eq h id⟩

theorem reviewersOf_listing (h : s.Sound) (ids : List Text) : Listing (∀ id ∈ ids, True)
    (fun batch => batch = ids.eraseDups.map fun id => (id, (s.contents.reviewers id).sort))
    (Gateway.reviewersOf ids s) :=
  .inl ⟨fun _ _ => trivial, _, rfl, List.map_congr_left fun id _ =>
    congrArg (Prod.mk id) (reviewers_eq h id)⟩

theorem snapshot_listing (h : s.Sound) : ∃ shot, Gateway.snapshot s = .ok shot ∧
    (∀ t, t ∈ shot.teams ↔ t ∈ s.contents.teams) ∧ (∀ u, u ∈ shot.users ↔ u ∈ s.contents.users) ∧
    (∀ p, p ∈ shot.pullRequests ↔ ∃ i ∈ s.contents.items, p = i.withReviewers []) ∧
    ∀ a, a ∈ shot.assignments ↔ ∃ id, (s.contents.reviewers id).Nonempty ∧
      a = (id, (s.contents.reviewers id).sort) := by
  have hassigned {a : Text × List Text} (ha : a ∈ s.assignments) : s.assigned a.1 = a.2 := by
    simp [assigned, (Rows.find?_eq_some_iff Prod.fst a.1 h.keys a).2 ⟨ha, rfl⟩]
  refine ⟨s.snapshot, rfl, fun t => by simp [snapshot, Rows.sortIds], fun u => by simp [snapshot],
    fun p => by simp [snapshot, eq_comm], fun a => ?_⟩
  simp only [snapshot, List.mem_map, Rows.mem_sortByKey, List.mem_filter, decide_eq_true_eq]
  constructor
  · rintro ⟨b, ⟨hb, hne⟩, rfl⟩
    have hbs := Rows.sortIds_eq_sort (h.sets b hb)
    refine ⟨b.1, ?_, ?_⟩
    · rw [contents_reviewers, hassigned hb]
      exact List.toFinset_nonempty_iff _ |>.2 hne
    · rw [contents_reviewers, hassigned hb, hbs]
  · rintro ⟨id, hne, rfl⟩
    rw [contents_reviewers] at hne
    cases hf : Rows.find? Prod.fst id s.assignments with
    | none => simp [assigned, hf] at hne
    | some b =>
      obtain ⟨hb, hid⟩ := (Rows.find?_eq_some_iff Prod.fst id h.keys b).1 hf
      subst hid
      rw [hassigned hb] at hne
      exact ⟨b, ⟨hb, (List.toFinset_nonempty_iff _).1 hne⟩, by
        rw [contents_reviewers, hassigned hb, Rows.sortIds_eq_sort (h.sets b hb)]⟩

end Readings

section Changes

variable {s : KeyedStore}

theorem saveTeam_eq (s : KeyedStore) (t : Team) (ht : t.name ∉ s.contents.teams) :
    s.saveTeam t = (.ok (), { s with teams := s.teams ++ [t.name] }) ∧
      contents { s with teams := s.teams ++ [t.name] } = s.contents.addTeam t.name := by
  constructor
  · simp_all [saveTeam]
  · refine Contents.ext ?_ rfl rfl rfl
    ext name
    simp [contents, Contents.addTeam]

theorem putUsers_sound (h : s.Sound) (us : List User) :
    (s.putUsers us).Sound ∧ (s.putUsers us).contents = s.contents.putUsers us := by
  induction us generalizing s with
  | nil => exact ⟨h, rfl⟩
  | cons u us ih =>
    have hput : s.putUsers (u :: us) =
        ({ s with users := Rows.upsert User.id u s.users } : KeyedStore).putUsers us :=
      rfl
    have hone : contents { s with users := Rows.upsert User.id u s.users } =
        s.contents.putUser u := by
      refine Contents.ext rfl ?_ rfl rfl
      ext v
      simp [contents, Rows.mem_upsert User.id u h.users, Contents.putUser]
    obtain ⟨hs, hc⟩ := @ih { s with users := Rows.upsert User.id u s.users }
      ⟨Rows.nodup_upsert User.id u h.users, h.items, h.keys, h.sets⟩
    rw [hput]
    refine ⟨hs, hc.trans ?_⟩
    rw [hone]
    rfl

theorem setActivity_sound (h : s.Sound) (us : List User) : (s.setActivity us).Sound ∧
    (s.setActivity us).contents = us.foldl (fun c u => c.switch {u.id} u.active) s.contents := by
  induction us generalizing s with
  | nil => exact ⟨h, rfl⟩
  | cons u us ih =>
    let change (r : User) : User := { r with active := u.active }
    let users := Rows.modify User.id u.id change s.users
    have hset : s.setActivity (u :: us) = ({ s with users := users } : KeyedStore).setActivity us :=
      rfl
    have hkeys : users.map User.id = s.users.map User.id :=
      Rows.map_key_modify User.id u.id change (fun _ => rfl) s.users
    have hone : contents { s with users := users } = s.contents.switch {u.id} u.active := by
      refine Contents.ext rfl ?_ rfl rfl
      ext v
      simp [contents, users, change, Rows.mem_modify, Contents.switch]
    obtain ⟨hs, hc⟩ := @ih { s with users := users } ⟨hkeys ▸ h.users, h.items, h.keys, h.sets⟩
    rw [hset]
    refine ⟨hs, hc.trans ?_⟩
    rw [hone]
    rfl

theorem deactivate_sound (h : s.Sound) (ids : List Text) : (s.deactivate ids).Sound ∧
    (s.deactivate ids).contents = s.contents.switch ids.toFinset false := by
  have hkeys : (s.deactivate ids).users.map User.id = s.users.map User.id := by
    simp only [deactivate, List.map_map]
    refine List.map_congr_left fun u _ => ?_
    simp only [Function.comp_apply]
    split <;> rfl
  refine ⟨⟨hkeys ▸ h.users, h.items, h.keys, h.sets⟩, Contents.ext rfl ?_ rfl rfl⟩
  ext v
  simp [contents, deactivate, Contents.switch]

theorem savePullRequest_taken (s : KeyedStore) (p : PullRequest) (k : Clock)
    (hp : p.id ∈ s.contents.itemIds) :
    s.savePullRequest p k = ((.error (.refuse .pullRequestExists), s), k) := by
  unfold savePullRequest item?
  cases hf : Rows.find? Item.id p.id s.items with
  | none =>
    exact absurd ((mem_itemIds s p.id).1 hp) ((Rows.find?_eq_none_iff Item.id p.id s.items).1 hf)
  | some i => rfl

theorem savePullRequest_sound (h : s.Sound) (p : PullRequest) (t : Timestamp) (k : Clock)
    (ht : p.created = some t) (hp : p.id ∉ s.contents.itemIds) :
    ∃ s', s.savePullRequest p k = ((.ok (), s'), k) ∧
      s' = { s with items := s.items ++ [⟨p.id, p.name, p.author, p.status, t, p.merged⟩] } ∧
      s'.Sound ∧
      s'.contents = s.contents.addItem ⟨p.id, p.name, p.author, p.status, t, p.merged⟩ := by
  have hn : p.id ∉ s.items.map Item.id := fun hm => hp ((mem_itemIds s p.id).2 hm)
  have hf : s.item? p.id = none := (Rows.find?_eq_none_iff Item.id p.id s.items).2 hn
  refine ⟨{ s with items := s.items ++ [⟨p.id, p.name, p.author, p.status, t, p.merged⟩] }, ?_,
    rfl, ⟨h.users, ?_, h.keys, h.sets⟩, Contents.ext rfl rfl ?_ rfl⟩
  · simp [savePullRequest, hf, ht]
  · rw [List.map_append, List.nodup_append]
    exact ⟨h.items, by simp, fun a ha b hb e => hn (by simp_all)⟩
  · ext i
    simp [contents, Contents.addItem]

theorem updatePullRequest_sound (h : s.Sound) (p : PullRequest) : (s.updatePullRequest p).Sound ∧
    (s.updatePullRequest p).contents = s.contents.updateItem p.id fun i =>
      { i with name := p.name, author := p.author, status := p.status, merged := p.merged } := by
  constructor
  · refine ⟨h.users, ?_, h.keys, h.sets⟩
    simp only [updatePullRequest]
    rw [Rows.map_key_modify]
    · exact h.items
    · intro i
      split <;> rfl
  · refine Contents.ext rfl rfl ?_ rfl
    ext i
    simp only [updatePullRequest, contents, List.mem_toFinset, Rows.mem_modify, Contents.updateItem,
      Finset.mem_image]
    refine exists_congr fun j => and_congr_right fun _ => ?_
    cases j.status <;> by_cases hid : j.id = p.id <;> simp [hid]

theorem assign_sound (h : s.Sound) (id : Text) (rs : List Text) :
    (s.assign id rs).Sound ∧
      (s.assign id rs).contents =
      s.contents.setReviewers id (s.contents.reviewers id ∪ rs.toFinset) := by
  obtain ⟨hn, hs⟩ := foldl_insertId (nodup_assigned h id) rs
  unfold assign
  cases rs with
  | nil =>
    refine ⟨h, Contents.ext rfl rfl rfl ?_⟩
    simp [Contents.setReviewers]
  | cons r rs =>
    rw [contents_reviewers, ← hs]
    exact sound_setAssigned h id hn

theorem replaceReviewer_sound (h : s.Sound) (id old new : Text) :
    (s.replaceReviewer id old new).Sound ∧
    (s.replaceReviewer id old new).contents =
      s.contents.setReviewers id (insert new ((s.contents.reviewers id).erase old)) := by
  have hn : (eraseId (s.assigned id) old).Nodup := (nodup_assigned h id).filter _
  have hs := sound_setAssigned h id (nodup_insertId hn new)
  rwa [toFinset_insertId, toFinset_eraseId] at hs

theorem removeReviewer_sound (h : s.Sound) (id old : Text) :
    (s.removeReviewer id old).Sound ∧
      (s.removeReviewer id old).contents =
      s.contents.setReviewers id ((s.contents.reviewers id).erase old) := by
  constructor
  · refine ⟨h.users, h.items, ?_, fun a ha => ?_⟩
    · simp only [removeReviewer]
      rw [Rows.map_key_modify]
      · exact h.keys
      · intro a
        rfl
    · obtain ⟨b, hb, rfl⟩ := (Rows.mem_modify Prod.fst id _ s.assignments a).1 ha
      split
      · exact (h.sets b hb).filter _
      · exact h.sets b hb
  · refine Contents.ext rfl rfl rfl (funext fun other => ?_)
    rw [contents_reviewers, assigned_removeReviewer]
    by_cases hid : id = other
    · subst hid
      rw [if_pos rfl, Contents.setReviewers_self, toFinset_eraseId, contents_reviewers]
    · rw [if_neg hid, Contents.setReviewers_of_ne _ fun e => hid e.symm, contents_reviewers]

end Changes

instance : LawfulStore KeyedStore where
  contents := contents
  Sound := Sound
  Admits _ := True
  keep t := t
  instant_keep := Timestamp.instant_ofInstant
  offset_keep _ _ := rfl
  sound_empty := ⟨List.nodup_nil, List.nodup_nil, List.nodup_nil, by simp [Gateway.empty, empty]⟩
  contents_empty := rfl
  injOn_user h u hu v hv e :=
    List.inj_on_of_nodup_map h.users (by simpa using hu) (by simpa using hv) e
  injOn_item h i hi j hj e :=
    List.inj_on_of_nodup_map h.items (by simpa using hi) (by simpa using hj) e
  admits_team _ _ _ := trivial
  admits_user _ _ _ := trivial
  admits_item _ _ _ := ⟨trivial, trivial, trivial⟩
  settle_sound _ _ _ := rfl
  team_lookup name h := team_lookup h name
  user_lookup id h := user_lookup h id
  pullRequest_lookup id h := pullRequest_lookup h id
  members_listing team h := .inl ⟨trivial, _, rfl, roll_members h team⟩
  activeMembers_listing team except h :=
    .inl ⟨⟨trivial, fun _ _ => trivial⟩, _, rfl, roll_activeMembers h team except⟩
  reviewers_listing id h := reviewers_listing h id
  reviewersOf_listing ids h := reviewersOf_listing h ids
  openPullRequests_listing team h hc := openPullRequests_listing h team hc
  saveTeam_taken {s} t _ ht := ⟨s, if_pos (by simpa using ht)⟩
  saveTeam_change {s} t h ht := .inl ⟨trivial, _, (saveTeam_eq s t ht).1,
    ⟨h.users, h.items, h.keys, h.sets⟩, (saveTeam_eq s t ht).2⟩
  putUsers_change us h := .inl
    ⟨fun _ _ => ⟨trivial, trivial, fun _ _ => trivial⟩, _, rfl, putUsers_sound h us⟩
  setActivity_change us h := .inl ⟨fun _ _ => trivial, _, rfl, setActivity_sound h us⟩
  deactivate_change ids h := .inl ⟨fun _ _ => trivial, _, rfl, deactivate_sound h ids⟩
  savePullRequest_taken {s} p k _ _ hp := ⟨_, s, savePullRequest_taken s p k hp, .inl rfl⟩
  savePullRequest_change p t k h ht hp := by
    obtain ⟨s', hs, -, hw⟩ := savePullRequest_sound h p t k ht hp
    refine ⟨_, hs, .inl ⟨⟨trivial, trivial, trivial⟩, s', rfl, ?_⟩⟩
    rwa [Option.map_id']
  updatePullRequest_change p h := by
    refine .inl ⟨⟨trivial, trivial, trivial⟩, _, rfl, ?_⟩
    simpa using updatePullRequest_sound h p
  assign_change id rs h := .inl ⟨.inr ⟨trivial, fun _ _ => trivial⟩, _, rfl, assign_sound h id rs⟩
  replaceReviewer_change id old new h :=
    .inl ⟨⟨trivial, trivial, trivial⟩, _, rfl, replaceReviewer_sound h id old new⟩
  removeReviewer_change id old h := .inl ⟨⟨trivial, trivial⟩, _, rfl, removeReviewer_sound h id old⟩
  snapshot_listing h := snapshot_listing h

instance : ResilientStore KeyedStore where
  openPullRequests_cases {s} team h := by
    show (∃ ps, s.openPullRequests team = .ok ps ∧ _) ∨ s.openPullRequests team = _ ∨ _
    unfold openPullRequests latestFirst
    split
    · exact .inl ⟨_, rfl, openPullRequests_spec h team rfl⟩
    · exact .inr (.inl rfl)
  savePullRequest_undated s p k hp := by
    show (∃ t k', s.savePullRequest p k = s.savePullRequest { p with created := some t } k') ∨ _
    cases hi : s.item? p.id with
    | some i =>
      refine .inr ⟨.refuse .pullRequestExists, s, k, ?_⟩
      show s.savePullRequest p k = _
      rw [savePullRequest, hi]
    | none =>
      cases hk : k.tick? with
      | none =>
        refine .inr ⟨.offCalendar, s, k, ?_⟩
        show s.savePullRequest p k = _
        simp only [savePullRequest, hi, hp, Clock.dated?_none, hk]
      | some reading =>
        refine .inl ⟨reading.1, reading.2, ?_⟩
        simp only [savePullRequest, hi, hp, Clock.dated?_none, hk, Clock.dated?_some]

end ReviewDesk.KeyedStore
