import ReviewDesk.Proofs.Store.Keyed
import ReviewDesk.Proofs.Store.Relational

/-!
# The relational store as a mirror of the keyed one

Tables mirror records row by row, with the wall clock of each date; the pairs of assignments mirror
the sets of reviewers. As long as every text has a written form and every date is in universal time,
each operation of the relational store comes to what it comes to in the keyed one, apart from the
offsets of dates.
-/
namespace ReviewDesk

/-- The pull request with dates as a wall clock shows them. -/
def PullRequest.wallOnly (p : PullRequest) : PullRequest :=
  { p with created := p.created.map Timestamp.wallOnly, merged := p.merged.map Timestamp.wallOnly }

/-- The snapshot with dates as a wall clock shows them. -/
def Snapshot.wallOnly (s : Snapshot) : Snapshot :=
  { s with pullRequests := s.pullRequests.map PullRequest.wallOnly }

/-- The row that an item amounts to. -/
def PullRequestRow.ofItem (i : Item) : PullRequestRow :=
  ⟨i.id, i.name, i.author, i.status, i.created.wall, i.merged.map Timestamp.wall⟩

theorem PullRequestRow.withReviewers_ofItem (i : Item) (rs : List Text) :
    (ofItem i).withReviewers rs = (i.withReviewers rs).wallOnly := by
  rcases i with ⟨id, name, author, status, created, _ | merged⟩ <;> rfl

@[simp] theorem UserRow.toUser_ofUser (u : User) : (ofUser u).toUser = u := rfl

open RelationalStore (Writable)

/-- The texts in a user that are handed to statements can be written. -/
def User.Written (u : User) : Prop := Writable u.id ∧ ∀ t ∈ u.team, Writable t

/-- The texts in users and pull requests that are handed to statements can be written, and pull
requests are dated in universal time. -/
structure Contents.Plain (c : Contents) : Prop where
  users : ∀ u ∈ c.users, u.Written
  items : ∀ i ∈ c.items, Writable i.id ∧ Writable i.name ∧ Writable i.author
  universal : ∀ i ∈ c.items, i.created.offset = some 0

namespace Contents.Plain

variable {c : Contents}

theorem putUsers (h : c.Plain) {us : List User} (hus : ∀ u ∈ us, u.Written) :
    (c.putUsers us).Plain where
  users u hu := by
    rcases c.mem_putUsers hu with hu | ⟨hu, -⟩
    · exact hus u hu
    · exact h.users u hu
  items i hi := h.items i (by simpa using hi)
  universal i hi := h.universal i (by simpa using hi)

theorem switch (h : c.Plain) (ids : Finset Text) (active : Bool) : (c.switch ids active).Plain where
  users u hu := by
    obtain ⟨v, hv, rfl⟩ := (c.mem_switch ids active u).1 hu
    split
    · exact h.users v hv
    · exact h.users v hv
  items i hi := h.items i (by simpa using hi)
  universal i hi := h.universal i (by simpa using hi)

theorem switches (h : c.Plain) (us : List User) :
    (us.foldl (fun c u => c.switch {u.id} u.active) c).Plain := by
  induction us generalizing c with
  | nil => exact h
  | cons u us ih => exact ih (h.switch {u.id} u.active)

theorem addItem (h : c.Plain) {i : Item}
    (hi : Writable i.id ∧ Writable i.name ∧ Writable i.author)
    (hdate : i.created.offset = some 0) : (c.addItem i).Plain where
  users u hu := h.users u (by simpa using hu)
  items j hj := by
    rcases (c.mem_addItem i j).1 hj with rfl | hj
    · exact hi
    · exact h.items j hj
  universal j hj := by
    rcases (c.mem_addItem i j).1 hj with rfl | hj
    · exact hdate
    · exact h.universal j hj

/-- What is changed of a pull request can be written, and the date of its creation is not
changed. -/
theorem updateItem (h : c.Plain) (id : Text) {f : Item → Item}
    (hf : ∀ i, (f i).id = i.id ∧ Writable (f i).name ∧ Writable (f i).author ∧
      (f i).created = i.created) : (c.updateItem id f).Plain where
  users u hu := h.users u (by simpa using hu)
  items j hj := by
    obtain ⟨i, hi, rfl⟩ := (c.mem_updateItem id f j).1 hj
    obtain ⟨hid, hname, hauthor, -⟩ := hf i
    split
    · exact ⟨hid ▸ (h.items i hi).1, hname, hauthor⟩
    · exact h.items i hi
  universal j hj := by
    obtain ⟨i, hi, rfl⟩ := (c.mem_updateItem id f j).1 hj
    split
    · exact (hf i).2.2.2 ▸ h.universal i hi
    · exact h.universal i hi

theorem setReviewers (h : c.Plain) (id : Text) (ids : Finset Text) :
    (c.setReviewers id ids).Plain :=
  ⟨h.users, h.items, h.universal⟩

end Contents.Plain

namespace KeyedStore

/-- Records that tables can mirror. -/
structure Plain (k : KeyedStore) : Prop where
  sound : k.Sound
  plain : k.contents.Plain

/-- The pairs of a pull request and a reviewer, each once. -/
structure PairedBy (k : KeyedStore) (pairs : List AssignmentRow) : Prop where
  nodup : pairs.Nodup
  mem_iff : ∀ id r, ⟨id, r⟩ ∈ pairs ↔ r ∈ k.assigned id

/-- The tables that mirror the records, with pairs of assignments in some order. -/
def tables (k : KeyedStore) (pairs : List AssignmentRow) : RelationalStore :=
  ⟨some k.teams, some (k.users.map UserRow.ofUser), some (k.items.map PullRequestRow.ofItem),
    some pairs, .going⟩

variable {k : KeyedStore} {pairs : List AssignmentRow}

theorem plain_empty : empty.Plain where
  sound := ⟨List.nodup_nil, List.nodup_nil, List.nodup_nil, by simp [empty]⟩
  plain := ⟨by simp [empty, contents], by simp [empty, contents], by simp [empty, contents]⟩

/-- Records are dated in universal time. -/
theorem Plain.universal (h : k.Plain) {i : Item} (hi : i ∈ k.items) : i.created.offset = some 0 :=
  h.plain.universal i ((k.mem_contents_items i).2 hi)

theorem pairedBy_empty : empty.PairedBy [] :=
  ⟨List.nodup_nil, by simp [empty, assigned, Rows.find?]⟩

/-- Who reviews a pull request is told by the record under its id. -/
theorem mem_assigned_iff (h : k.Sound) (id r : Text) :
    r ∈ k.assigned id ↔ ∃ a ∈ k.assignments, a.1 = id ∧ r ∈ a.2 := by
  unfold assigned
  cases hf : Rows.find? Prod.fst id k.assignments with
  | none =>
    have hnone := (Rows.find?_eq_none_iff Prod.fst id k.assignments).1 hf
    constructor
    · intro hr
      exact absurd hr List.not_mem_nil
    · rintro ⟨a, ha, hid, -⟩
      exact absurd (List.mem_map.2 ⟨a, ha, hid⟩) hnone
  | some a =>
    obtain ⟨ha, hid⟩ := (Rows.find?_eq_some_iff Prod.fst id h.keys a).1 hf
    constructor
    · intro hr
      exact ⟨a, ha, hid, hr⟩
    · rintro ⟨b, hb, hbid, hr⟩
      obtain rfl : b = a := List.inj_on_of_nodup_map h.keys hb ha (hbid.trans hid.symm)
      exact hr

/-- A record tells who reviews its pull request. -/
theorem assigned_of_mem (h : k.Sound) {a : Text × List Text} (ha : a ∈ k.assignments) :
    k.assigned a.1 = a.2 := by
  simp [assigned, (Rows.find?_eq_some_iff Prod.fst a.1 h.keys a).2 ⟨ha, rfl⟩]

/-- A pull request has reviewers if there is a record with somebody in it. -/
theorem assigned_ne_nil_iff (h : k.Sound) (id : Text) :
    k.assigned id ≠ [] ↔ ∃ a ∈ k.assignments, a.1 = id ∧ a.2 ≠ [] := by
  constructor
  · intro hne
    obtain ⟨r, hr⟩ := List.exists_mem_of_ne_nil _ hne
    obtain ⟨a, ha, hid, hra⟩ := (mem_assigned_iff h id r).1 hr
    exact ⟨a, ha, hid, List.ne_nil_of_mem hra⟩
  · rintro ⟨a, ha, rfl, hne⟩
    rwa [assigned_of_mem h ha]

/-- Dates in universal time can be put in order. -/
theorem Plain.comparable (h : k.Plain) (p : Item → Bool) :
    comparable (k.items.filter p) = true := by
  simp only [KeyedStore.comparable, Bool.or_eq_true, List.all_eq_true, List.mem_filter]
  refine .inl fun i hi => ?_
  rw [h.universal hi.1]
  rfl

/-- Sorting items by instants or by what a wall clock shows is the same in universal time. -/
theorem Plain.latestFirst_rows (h : k.Plain) (p : Item → Bool) :
    Rows.latestFirst PullRequestRow.created ((k.items.filter p).map PullRequestRow.ofItem) =
      (Rows.latestFirst (fun i => i.created.instant) (k.items.filter p)).map
        PullRequestRow.ofItem := by
  refine Rows.latestFirst_map _ _ PullRequestRow.ofItem fun i hi => ?_
  have hoffset := h.universal (List.mem_filter.1 hi).1
  simp [Timestamp.instant, hoffset, PullRequestRow.ofItem]

namespace PairedBy

variable (hp : k.PairedBy pairs)

include hp

/-- The reviewers that the pairs tell are those in the record. -/
theorem perm_assigned (h : k.Sound) (id : Text) :
    ((pairs.filter fun a => a.pullRequest = id).map AssignmentRow.reviewer).Perm
      (k.assigned id) := by
  refine (List.perm_ext_iff_of_nodup (RelationalStore.nodup_reviewers hp.nodup id)
    (nodup_assigned h id)).2 fun r => ?_
  rw [← hp.mem_iff, List.mem_map]
  constructor
  · rintro ⟨a, ha, rfl⟩
    obtain ⟨hmem, hid⟩ := List.mem_filter.1 ha
    obtain rfl : a.pullRequest = id := by simpa using hid
    exact hmem
  · intro hmem
    exact ⟨⟨id, r⟩, List.mem_filter.2 ⟨hmem, by simp⟩, rfl⟩

theorem reviewersIn_eq (h : k.Sound) (id : Text) :
    RelationalStore.reviewersIn pairs id = k.reviewers id := by
  refine Rows.sortIds_congr (RelationalStore.nodup_reviewers hp.nodup id) (nodup_assigned h id)
    fun r => ?_
  exact (hp.perm_assigned h id).mem_iff

/-- The pairs name the pull requests that have reviewers. -/
theorem mem_map_pullRequest_iff (id : Text) :
    id ∈ pairs.map AssignmentRow.pullRequest ↔ k.assigned id ≠ [] := by
  rw [List.mem_map]
  constructor
  · rintro ⟨⟨_, r⟩, ha, rfl⟩
    exact List.ne_nil_of_mem ((hp.mem_iff _ r).1 ha)
  · intro hne
    obtain ⟨r, hr⟩ := List.exists_mem_of_ne_nil _ hne
    exact ⟨⟨id, r⟩, (hp.mem_iff id r).2 hr, rfl⟩

/-- As many pairs name a reviewer as there are records that do. -/
theorem length_filter_reviewer (h : k.Sound) (r : Text) :
    (pairs.filter fun a => a.reviewer = r).length =
      (k.assignments.filter fun a => r ∈ a.2).length := by
  have hright : ((k.assignments.filter fun a => r ∈ a.2).map Prod.fst).Nodup :=
    h.keys.sublist (List.filter_sublist.map Prod.fst)
  have hperm : ((pairs.filter fun a => a.reviewer = r).map AssignmentRow.pullRequest).Perm
      ((k.assignments.filter fun a => r ∈ a.2).map Prod.fst) := by
    refine (List.perm_ext_iff_of_nodup (RelationalStore.nodup_reviewed hp.nodup r) hright).2
      fun id => ?_
    rw [RelationalStore.mem_reviewed_iff, hp.mem_iff, mem_assigned_iff h]
    simp [and_comm]
  simpa using hperm.length_eq

end PairedBy

end KeyedStore

namespace RelationalStore

open KeyedStore (tables)

variable {k : KeyedStore} {pairs : List AssignmentRow}

section Readings

theorem membersIn_map (us : List User) (team : Text) :
    membersIn (us.map UserRow.ofUser) team =
      Rows.sortByKey User.id (us.filter fun u => u.team = some team) := by
  unfold membersIn
  rw [List.filter_map, Rows.sortByKey_map User.id UserRow.id UserRow.ofUser fun _ => rfl,
    List.map_map]
  exact List.map_id _

/-! The rows of tables that mirror records. -/

theorem rows_teams (operation : Text) :
    (tables k pairs).rows operation (tables k pairs).teams = .ok k.teams := rfl

theorem rows_users (operation : Text) :
    (tables k pairs).rows operation (tables k pairs).users = .ok (k.users.map UserRow.ofUser) := rfl

theorem rows_pullRequests (operation : Text) :
    (tables k pairs).rows operation (tables k pairs).pullRequests =
      .ok (k.items.map PullRequestRow.ofItem) := rfl

theorem rows_assignments (operation : Text) :
    (tables k pairs).rows operation (tables k pairs).assignments = .ok pairs := rfl

theorem team_tables {name : Text} (hn : Writable name) :
    (tables k pairs).team name = k.team name := by
  rw [RelationalStore.team, rows_teams, rows_users, hand_ok (by simpa using hn), KeyedStore.team]
  simp only [bind, Except.bind, membersIn_map]
  rfl

theorem user_tables {id : Text} (hid : Writable id) : (tables k pairs).user id = k.user id := by
  rw [RelationalStore.user, rows_users, hand_ok (by simpa using hid), KeyedStore.user,
    KeyedStore.user?]
  simp only [bind, Except.bind, Rows.find?_map User.id UserRow.id UserRow.ofUser fun _ => rfl]
  cases Rows.find? User.id id k.users <;> rfl

theorem members_tables {team : Text} (ht : Writable team) :
    (tables k pairs).members team = .ok (k.members team) := by
  rw [RelationalStore.members, rows_users, hand_ok (by simpa using ht)]
  simp only [bind, Except.bind, membersIn_map]
  rfl

/-- Active members are picked out before they are sorted or after. -/
theorem activeMembers_tables (hk : k.Plain) {team : Text} {except : Option Text}
    (ht : Writable team) (he : ∀ id ∈ except, Writable id) :
    (tables k pairs).activeMembers team except = .ok (k.activeMembers team except) := by
  let picked (u : User) : Bool := u.active && some u.id ≠ except
  have hfilter : ((k.users.map UserRow.ofUser).filter fun u => u.active && some u.id ≠ except) =
      (k.users.filter picked).map UserRow.ofUser := List.filter_map
  have hnodup : ((k.users.filter fun u => u.team = some team).map User.id).Nodup :=
    hk.sound.users.sublist (List.filter_sublist.map User.id)
  have hpicked : k.activeMembers team except = (Rows.sortByKey User.id
      (k.users.filter fun u => u.team = some team)).filter picked := rfl
  rw [RelationalStore.activeMembers, rows_users, hand_ok (by simpa [ht] using he), hpicked,
    Rows.filter_sortByKey User.id hnodup, List.filter_filter]
  simp only [bind, Except.bind, hfilter, membersIn_map, List.filter_filter, Bool.and_comm]
  rfl

theorem userCounts_tables (hk : k.Plain) (hp : k.PairedBy pairs) {id : Text} (hid : Writable id) :
    (tables k pairs).userCounts id = .ok (k.userCounts id) := by
  have hwritten : ((k.items.map PullRequestRow.ofItem).filter fun r => r.author = id) =
      (k.items.filter fun i => i.author = id).map PullRequestRow.ofItem := List.filter_map
  have hmerged : ((k.items.filter fun i => i.author = id).map PullRequestRow.ofItem).filter
        (fun r => r.status = .merged) =
      ((k.items.filter fun i => i.author = id).filter fun i => i.status = .merged).map
        PullRequestRow.ofItem := List.filter_map
  rw [RelationalStore.userCounts, rows_pullRequests, rows_assignments,
    hand_ok (by simpa using hid)]
  simp only [bind, Except.bind, hwritten, hmerged, hp.length_filter_reviewer hk.sound,
    List.length_map]
  rfl

theorem pullRequest_tables (hk : k.Plain) (hp : k.PairedBy pairs) {id : Text} (hid : Writable id) :
    (tables k pairs).pullRequest id = (k.pullRequest id).map PullRequest.wallOnly := by
  rw [RelationalStore.pullRequest, rows_pullRequests, rows_assignments,
    hand_ok (by simpa using hid), KeyedStore.pullRequest, KeyedStore.item?]
  simp only [bind, Except.bind, hp.reviewersIn_eq hk.sound,
    Rows.find?_map Item.id PullRequestRow.id PullRequestRow.ofItem fun _ => rfl]
  cases hf : Rows.find? Item.id id k.items with
  | none => rfl
  | some i =>
    obtain ⟨-, rfl⟩ := (Rows.find?_eq_some_iff Item.id id hk.sound.items i).1 hf
    exact congrArg Except.ok (PullRequestRow.withReviewers_ofItem i _)

theorem reviewers_tables (hk : k.Plain) (hp : k.PairedBy pairs) {id : Text} (hid : Writable id) :
    (tables k pairs).reviewers id = .ok (k.reviewers id) := by
  rw [RelationalStore.reviewers, rows_assignments, hand_ok (by simpa using hid)]
  simp only [bind, Except.bind, hp.reviewersIn_eq hk.sound]
  rfl

theorem reviewersOf_tables (hk : k.Plain) (hp : k.PairedBy pairs) {ids : List Text}
    (hids : ∀ id ∈ ids, Writable id) :
    (tables k pairs).reviewersOf ids = .ok (k.reviewersOf ids) := by
  cases ids with
  | nil => rfl
  | cons id ids =>
    rw [RelationalStore.reviewersOf, rows_assignments, hand_ok hids]
    simp only [bind, Except.bind, hp.reviewersIn_eq hk.sound]
    rfl

/-- Rows that mirror listed items are listed in the same order. -/
theorem map_withReviewers (hk : k.Plain) (p : Item → Bool) (rs : Text → List Text) :
    (Rows.latestFirst PullRequestRow.created
      ((k.items.filter p).map PullRequestRow.ofItem)).map (fun r => r.withReviewers (rs r.id)) =
    ((Rows.latestFirst (fun i => i.created.instant) (k.items.filter p)).map
      fun i => i.withReviewers (rs i.id)).map PullRequest.wallOnly := by
  rw [hk.latestFirst_rows, List.map_map, List.map_map]
  exact List.map_congr_left fun i _ => PullRequestRow.withReviewers_ofItem i (rs i.id)

theorem reviewedBy_tables (hk : k.Plain) (hp : k.PairedBy pairs) {id : Text} (hid : Writable id) :
    (tables k pairs).reviewedBy id =
      (k.reviewedBy id).map (List.map PullRequest.wallOnly) := by
  have hfilter : ((k.items.map PullRequestRow.ofItem).filter
        fun r => (AssignmentRow.mk r.id id) ∈ pairs) =
      (k.items.filter fun i => id ∈ k.assigned i.id).map PullRequestRow.ofItem := by
    rw [List.filter_map]
    refine congrArg _ (List.filter_congr fun i _ => decide_eq_decide.2 ?_)
    exact hp.mem_iff i.id id
  rw [RelationalStore.reviewedBy, rows_pullRequests, rows_assignments,
    hand_ok (by simpa using hid), KeyedStore.reviewedBy, KeyedStore.latestFirst, hk.comparable,
    if_pos rfl]
  simp only [bind, Except.bind, hfilter, hp.reviewersIn_eq hk.sound]
  exact congrArg Except.ok (map_withReviewers hk _ k.reviewers)

theorem openPullRequests_tables (hk : k.Plain) {team : Text} (ht : Writable team) :
    (tables k pairs).openPullRequests team =
      (k.openPullRequests team).map (List.map PullRequest.wallOnly) := by
  let users := k.users.map UserRow.ofUser
  have hactive (author : Text) : (users.any fun u =>
      u.id = author && u.team = some team && u.active) = true ↔
        author ∈ k.contents.active team := by
    rw [@any_user_iff k.teams users [] pairs .going]
    simp [users, Contents.mem_active]
  have hfilter : ((k.items.map PullRequestRow.ofItem).filter fun r => r.status = .opened &&
        users.any fun u => u.id = r.author && u.team = some team && u.active) =
      (k.items.filter (k.isOpenIn team)).map PullRequestRow.ofItem := by
    rw [List.filter_map]
    refine congrArg _ (List.filter_congr fun i _ => Bool.eq_iff_iff.2 ?_)
    rw [KeyedStore.isOpenIn_iff hk.sound, ← hactive]
    exact Bool.and_eq_true_iff.trans (and_congr_left' decide_eq_true_iff)
  rw [RelationalStore.openPullRequests, rows_pullRequests, rows_users,
    hand_ok (by simpa using ht), KeyedStore.openPullRequests, KeyedStore.latestFirst,
    hk.comparable, if_pos rfl]
  simp only [bind, Except.bind]
  rw [hfilter]
  exact congrArg Except.ok (map_withReviewers hk _ fun _ => [])

theorem totals_tables (hk : k.Plain) (hp : k.PairedBy pairs) :
    (tables k pairs).totals = .ok k.totals := by
  let rows := k.items.map PullRequestRow.ofItem
  let reviewed (i : Item) : Bool := !(k.assigned i.id).isEmpty
  let counted := k.items.filter reviewed
  have hcount (p : Status → Bool) : (rows.filter fun r => p r.status).length =
      (k.items.filter fun i => p i.status).length := by
    rw [List.filter_map, List.length_map]
    rfl
  have hcounted : (rows.filter fun r => r.id ∈ (pairs.map AssignmentRow.pullRequest).eraseDups) =
      counted.map PullRequestRow.ofItem := by
    rw [List.filter_map]
    refine congrArg _ (List.filter_congr fun i _ => Bool.eq_iff_iff.2 ?_)
    simp only [Function.comp_apply, decide_eq_true_eq, List.mem_eraseDups, reviewed,
      Bool.not_eq_true', List.isEmpty_eq_false_iff]
    exact hp.mem_map_pullRequest_iff i.id
  have hassigned : (k.items.map fun i => k.assigned i.id).filter (!·.isEmpty) =
      counted.map fun i => k.assigned i.id := List.filter_map
  have hlength (i : Item) : (pairs.filter fun a => a.pullRequest = i.id).length =
      (k.assigned i.id).length := by
    simpa using (hp.perm_assigned hk.sound i.id).length_eq
  have hflatten : ((counted.map PullRequestRow.ofItem).map
        fun r => pairs.filter fun a => a.pullRequest = r.id).flatten.length =
      (counted.map fun i => k.assigned i.id).flatten.length := by
    simp only [List.length_flatten, List.map_map]
    exact congrArg List.sum (List.map_congr_left fun i _ => hlength i)
  rw [RelationalStore.totals, rows_pullRequests, rows_assignments, KeyedStore.totals, hassigned]
  simp only [bind, Except.bind]
  rw [hcounted, hflatten, hcount (fun s => decide (s = .opened)),
    hcount (fun s => decide (s = .merged))]
  simp only [List.length_map]
  rfl

theorem snapshot_tables (hk : k.Plain) (hp : k.PairedBy pairs) :
    (tables k pairs).snapshot = .ok k.snapshot.wallOnly := by
  let kept := k.assignments.filter fun a => a.2 ≠ []
  let reviewed := Rows.sortIds (pairs.map AssignmentRow.pullRequest).eraseDups
  have hassigned : ∀ a ∈ Rows.sortByKey Prod.fst kept, k.assigned a.1 = a.2 := by
    intro a ha
    have hmem : a ∈ k.assignments :=
      (List.mem_filter.1 ((Rows.mem_sortByKey Prod.fst kept a).1 ha)).1
    exact KeyedStore.assigned_of_mem hk.sound hmem
  have hreviewed : reviewed = (Rows.sortByKey Prod.fst kept).map Prod.fst := by
    rw [← Rows.sortByKey_map Prod.fst id Prod.fst fun _ => rfl]
    have hkept : (kept.map Prod.fst).Nodup :=
      hk.sound.keys.sublist (List.filter_sublist.map Prod.fst)
    refine Rows.sortIds_congr (Rows.nodup_eraseDups _) hkept fun id => ?_
    rw [List.mem_eraseDups, hp.mem_map_pullRequest_iff, KeyedStore.assigned_ne_nil_iff hk.sound]
    simp [kept]
  have hassignments : (reviewed.map fun id => (id, reviewersIn pairs id)) =
      (Rows.sortByKey Prod.fst kept).map fun a => (a.1, Rows.sortIds a.2) := by
    rw [hreviewed, List.map_map]
    refine List.map_congr_left fun a ha => Prod.ext rfl ?_
    simp only [Function.comp_apply, hp.reviewersIn_eq hk.sound, KeyedStore.reviewers,
      hassigned a ha]
  have husers : (Rows.sortByKey UserRow.id (k.users.map UserRow.ofUser)).map UserRow.toUser =
      Rows.sortByKey User.id k.users := by
    rw [Rows.sortByKey_map User.id UserRow.id UserRow.ofUser fun _ => rfl, List.map_map]
    exact List.map_id _
  have hitems : (Rows.sortByKey PullRequestRow.id (k.items.map PullRequestRow.ofItem)).map
        (fun r => r.withReviewers []) =
      ((Rows.sortByKey Item.id k.items).map fun i => i.withReviewers []).map
        PullRequest.wallOnly := by
    rw [Rows.sortByKey_map Item.id PullRequestRow.id PullRequestRow.ofItem fun _ => rfl,
      List.map_map, List.map_map]
    exact List.map_congr_left fun i _ => PullRequestRow.withReviewers_ofItem i []
  have hunfold : (tables k pairs).snapshot = .ok ⟨Rows.sortIds k.teams,
      (Rows.sortByKey UserRow.id (k.users.map UserRow.ofUser)).map UserRow.toUser,
      (Rows.sortByKey PullRequestRow.id (k.items.map PullRequestRow.ofItem)).map
        (fun r => r.withReviewers []),
      reviewed.map fun id => (id, reviewersIn pairs id)⟩ := rfl
  rw [hunfold, husers, hitems, hassignments]
  rfl

end Readings

end RelationalStore
end ReviewDesk
