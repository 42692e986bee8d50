import Mathlib.Data.Finset.Dedup
import Mathlib.Data.List.Nodup
import ReviewDesk.Proofs.Lawful
import ReviewDesk.Store.Relational

/-!
# The relational store is lawful

Its tables are sound where all of them are there, the transaction goes on, each key and each pair
occurs once, and every text in a key has a written form. It keeps the texts that have one, and the
wall clock of a date.
-/
namespace ReviewDesk.RelationalStore

/-- The record that a row amounts to. -/
def item (r : PullRequestRow) : Item :=
  ⟨r.id, r.name, r.author, r.status, ⟨r.created, none⟩, r.merged.map fun w => ⟨w, none⟩⟩

/-- A text that has a written form. -/
def Writable (t : Text) : Prop := t.gap? = none

/-- All tables are there, and nothing occurs in them twice. -/
inductive Sound : RelationalStore → Prop
  | intro {teams : List Text} {users : List UserRow} {rows : List PullRequestRow}
      {pairs : List AssignmentRow}
    (nodup_users : (users.map UserRow.id).Nodup) (nodup_rows : (rows.map PullRequestRow.id).Nodup)
    (nodup_pairs : pairs.Nodup) (writable_teams : ∀ t ∈ teams, Writable t)
    (writable_users : ∀ u ∈ users, Writable u.id)
    (writable_rows : ∀ r ∈ rows, Writable r.id ∧ Writable r.name ∧ Writable r.author) :
    Sound ⟨some teams, some users, some rows, some pairs, .going⟩

def contents (s : RelationalStore) : Contents :=
  ⟨(s.teams.getD []).toFinset, ((s.users.getD []).map UserRow.toUser).toFinset,
    ((s.pullRequests.getD []).map item).toFinset,
    fun id => (((s.assignments.getD []).filter fun a => a.pullRequest = id).map
      AssignmentRow.reviewer).toFinset⟩

section Fields

variable {teams : List Text} {users : List UserRow} {rows : List PullRequestRow}
    {pairs : List AssignmentRow}
variable {progress : Progress}

@[simp] theorem mem_contents_teams (t : Text) :
    t ∈ (contents ⟨some teams, some users, some rows, some pairs, progress⟩).teams ↔ t ∈ teams := by
  simp [contents]

@[simp] theorem mem_contents_users (u : User) :
    u ∈ (contents ⟨some teams, some users, some rows, some pairs, progress⟩).users ↔
      ∃ r ∈ users, r.toUser = u := by
  simp [contents]

@[simp] theorem mem_contents_items (i : Item) :
    i ∈ (contents ⟨some teams, some users, some rows, some pairs, progress⟩).items ↔
      ∃ r ∈ rows, item r = i := by
  simp [contents]

@[simp] theorem mem_contents_reviewers (id reviewer : Text) :
    reviewer ∈ (contents ⟨some teams, some users, some rows, some pairs, progress⟩).reviewers id ↔
      ⟨id, reviewer⟩ ∈ pairs := by
  simp only [contents, Option.getD_some, List.mem_toFinset, List.mem_map, List.mem_filter,
    decide_eq_true_eq]
  constructor
  · rintro ⟨a, ⟨ha, rfl⟩, rfl⟩
    exact ha
  · intro h
    exact ⟨_, ⟨h, rfl⟩, rfl⟩

theorem mem_userIds (id : Text) :
    id ∈ (contents ⟨some teams, some users, some rows, some pairs, progress⟩).userIds ↔
      id ∈ users.map UserRow.id := by
  simp [UserRow.toUser]

theorem mem_itemIds (id : Text) :
    id ∈ (contents ⟨some teams, some users, some rows, some pairs, progress⟩).itemIds ↔
      id ∈ rows.map PullRequestRow.id := by
  simp [item]

end Fields

section Statements

/-- Texts that can be written are handed over. -/
theorem hand_ok {texts : List Text} (h : ∀ t ∈ texts, Writable t) : hand texts = .ok () := by
  rw [hand, List.findSome?_eq_none_iff.2 h]

/-- Texts are handed over, or one of them has no written form. -/
theorem hand_cases (texts : List Text) : (∀ t ∈ texts, Writable t) ∧ hand texts = .ok () ∨
    ¬ (∀ t ∈ texts, Writable t) ∧ ∃ gap, hand texts = .error (.unwritable gap) := by
  unfold hand
  cases h : texts.findSome? Text.gap? with
  | none => exact .inl ⟨List.findSome?_eq_none_iff.1 h, rfl⟩
  | some gap =>
    refine .inr ⟨fun hall => ?_, gap, rfl⟩
    rw [List.findSome?_eq_none_iff.2 hall] at h
    cases h

/-- A statement comes to an answer step by step. -/
theorem ok_of_bind {α β : Type} {x : Except Failure α} {f : α → Except Failure β} {b : β}
    (h : (x >>= f) = .ok b) : ∃ a, x = .ok a ∧ f a = .ok b := by
  cases x with
  | error e => cases h
  | ok a => exact ⟨a, rfl, h⟩

/-- A table is read where the transaction goes on and the table is there. -/
theorem rows_eq_ok {α : Type} {s : RelationalStore} {operation : Text} {table : Option (List α)}
    {rows : List α} (h : s.rows operation table = .ok rows) : s.progress = .going ∧ table = some rows := by
  unfold RelationalStore.rows at h
  split at h
  case h_3 hgoing =>
    split at h
    case h_1 there =>
      cases h
      exact ⟨hgoing, rfl⟩
    case h_2 => cases h
  all_goals cases h

/-- A change that goes through has changed the rows of its table. -/
theorem change_eq_ok {α : Type} {s s' : RelationalStore} {operation : Text}
    {table : Option (List α)} {texts : List Text} {f : List α → RelationalStore}
    (h : s.change operation table texts f = (.ok (), s')) :
    ∃ rows, s.progress = .going ∧ table = some rows ∧ s' = f rows := by
  unfold change at h
  split at h
  case h_1 rows hready =>
    obtain ⟨rows', hrows, hready⟩ := ok_of_bind hready
    obtain ⟨_, -, hready⟩ := ok_of_bind hready
    cases hready
    cases h
    obtain ⟨hgoing, htable⟩ := rows_eq_ok hrows
    exact ⟨rows, hgoing, htable, rfl⟩
  case h_2 => cases h

/-- A statement changes its table, or is handed a text that has no written form. -/
theorem change_cases {α : Type} {s : RelationalStore} (hs : s.progress = .going) (operation : Text)
    (rows : List α) (texts : List Text) (f : List α → RelationalStore) :
    Change (∀ t ∈ texts, Writable t) (fun s' => s' = f rows)
      (s.change operation (some rows) texts f) := by
  have hrows : s.rows operation (some rows) = .ok rows := by simp [RelationalStore.rows, hs]
  unfold change
  rw [hrows]
  rcases hand_cases texts with ⟨ha, h⟩ | ⟨ha, gap, h⟩
  · rw [h]
    exact .inl ⟨ha, _, rfl, rfl⟩
  · rw [h]
    exact .inr ⟨ha, gap, s, rfl⟩

/-- A change of rows that have a key is a change of the set of what they amount to. -/
theorem map_upsert {α β : Type} (key : α → Text) (key' : β → Text) (g : α → β)
    (hg : ∀ r, key' (g r) = key r)
    (row : α) (rows : List α) :
    (Rows.upsert key row rows).map g = Rows.upsert key' (g row) (rows.map g) := by
  induction rows with
  | nil => rfl
  | cons r rows ih =>
    simp only [Rows.upsert, List.map_cons, hg]
    split
    · rfl
    · rw [List.map_cons, ih]

theorem nodup_reviewers {pairs : List AssignmentRow} (h : pairs.Nodup) (id : Text) :
    ((pairs.filter fun a => a.pullRequest = id).map AssignmentRow.reviewer).Nodup := by
  refine List.Nodup.map_on (fun a ha b hb e => ?_) (h.filter _)
  have hab : a.pullRequest = b.pullRequest := by
    simp only [List.mem_filter, decide_eq_true_eq] at ha hb
    exact ha.2.trans hb.2.symm
  cases a
  cases b
  simp_all

theorem nodup_reviewed {pairs : List AssignmentRow} (h : pairs.Nodup) (r : Text) :
    ((pairs.filter fun a => a.reviewer = r).map AssignmentRow.pullRequest).Nodup := by
  refine List.Nodup.map_on (fun a ha b hb e => ?_) (h.filter _)
  have har : a.reviewer = r := by simpa using (List.mem_filter.1 ha).2
  have hbr : b.reviewer = r := by simpa using (List.mem_filter.1 hb).2
  cases a
  cases b
  simp_all

/-- The pull requests of a reviewer are those of the pairs with that reviewer. -/
theorem mem_reviewed_iff (pairs : List AssignmentRow) (r id : Text) :
    id ∈ (pairs.filter fun a => a.reviewer = r).map AssignmentRow.pullRequest ↔
      ⟨id, r⟩ ∈ pairs := by
  rw [List.mem_map]
  constructor
  · rintro ⟨a, ha, rfl⟩
    obtain ⟨hmem, hr⟩ := List.mem_filter.1 ha
    obtain rfl : a.reviewer = r := by simpa using hr
    exact hmem
  · intro hmem
    exact ⟨⟨id, r⟩, List.mem_filter.2 ⟨hmem, by simp⟩, rfl⟩

theorem nodup_insertPair {pairs : List AssignmentRow} (h : pairs.Nodup) (a : AssignmentRow) :
    (insertPair pairs a).Nodup := by
  unfold insertPair
  split
  · exact h
  · next ha => exact List.nodup_append.2 ⟨h, by simp, fun b hb c hc e => ha (by simp_all)⟩

@[simp] theorem mem_insertPair (pairs : List AssignmentRow) (a b : AssignmentRow) :
    b ∈ insertPair pairs a ↔ b = a ∨ b ∈ pairs := by
  unfold insertPair
  split
  · next ha =>
    constructor
    · exact .inr
    · rintro (rfl | hb)
      · exact ha
      · exact hb
  · simp [or_comm]

theorem foldl_insertPair {pairs : List AssignmentRow} (h : pairs.Nodup) (as : List AssignmentRow) :
    (as.foldl insertPair pairs).Nodup ∧
      ∀ b, b ∈ as.foldl insertPair pairs ↔ b ∈ as ∨ b ∈ pairs := by
  induction as generalizing pairs with
  | nil => exact ⟨h, by simp⟩
  | cons a as ih =>
    obtain ⟨hn, hm⟩ := ih (nodup_insertPair h a)
    refine ⟨hn, fun b => (hm b).trans ?_⟩
    simp only [mem_insertPair, List.mem_cons]
    tauto

end Statements

section Readings

variable {s : RelationalStore}

theorem reviewersIn_eq {teams : List Text} {users : List UserRow} {rows : List PullRequestRow}
    {pairs : List AssignmentRow} {progress : Progress} (h : pairs.Nodup) (id : Text) :
    reviewersIn pairs id =
      ((contents ⟨some teams, some users, some rows, some pairs, progress⟩).reviewers id).sort :=
  Rows.sortIds_eq_sort (nodup_reviewers h id)

theorem user_lookup (h : Sound s) (id : Text) :
    Lookup (id ∈ s.contents.userIds) (Writable id) .userNotFound
    (fun u => u ∈ s.contents.users ∧ u.id = id) (s.user id) := by
  cases h with | @intro teams users rows pairs hu _ _ _ hw _ =>
  have hread : user ⟨some teams, some users, some rows, some pairs, .going⟩ id = (do
      hand [id]
      (Rows.find? UserRow.id id users).elim (throw (.refuse .userNotFound)) fun u =>
      return u.toUser) := by
    unfold user
    cases hf : Rows.find? UserRow.id id users with
    | none => simp [RelationalStore.rows, hf, bind, Except.bind]
    | some u => simp [RelationalStore.rows, hf, bind, Except.bind]
  rw [hread, mem_userIds]
  cases hf : Rows.find? UserRow.id id users with
  | none =>
    have hn := (Rows.find?_eq_none_iff UserRow.id id users).1 hf
    rcases hand_cases [id] with ⟨ha, hh⟩ | ⟨ha, gap, hh⟩
    · rw [hh]
      exact .inr (.inl ⟨hn, by simpa using ha, rfl⟩)
    · rw [hh]
      exact .inr (.inr ⟨hn, by simpa using ha, gap, rfl⟩)
  | some u =>
    obtain ⟨hm, rfl⟩ := (Rows.find?_eq_some_iff UserRow.id id hu u).1 hf
    rcases hand_cases [u.id] with ⟨ha, hh⟩ | ⟨ha, gap, hh⟩
    · rw [hh]
      exact .inl ⟨List.mem_map.2 ⟨u, hm, rfl⟩, _, rfl, (mem_contents_users _).2 ⟨u, hm, rfl⟩, rfl⟩
    · exact absurd (by simpa using hw u hm) ha

theorem pullRequest_lookup (h : Sound s) (id : Text) :
    Lookup (id ∈ s.contents.itemIds) (Writable id) .pullRequestNotFound
      (fun p => ∃ i ∈ s.contents.items, i.id = id ∧ p = s.contents.shown i) (s.pullRequest id) := by
  cases h with | @intro teams users rows pairs _ hr hp _ _ hw =>
  have hread : pullRequest ⟨some teams, some users, some rows, some pairs, .going⟩ id = (do
      hand [id]
      (Rows.find? PullRequestRow.id id rows).elim (throw (.refuse .pullRequestNotFound)) fun r =>
        return r.withReviewers (reviewersIn pairs r.id)) := by
    unfold pullRequest
    cases hf : Rows.find? PullRequestRow.id id rows with
    | none => simp [RelationalStore.rows, hf, bind, Except.bind]
    | some r =>
      obtain ⟨-, rfl⟩ := (Rows.find?_eq_some_iff PullRequestRow.id id hr r).1 hf
      simp [RelationalStore.rows, hf, bind, Except.bind]
  rw [hread, mem_itemIds]
  cases hf : Rows.find? PullRequestRow.id id rows with
  | none =>
    have hn := (Rows.find?_eq_none_iff PullRequestRow.id id rows).1 hf
    rcases hand_cases [id] with ⟨ha, hh⟩ | ⟨ha, gap, hh⟩
    · rw [hh]
      exact .inr (.inl ⟨hn, by simpa using ha, rfl⟩)
    · rw [hh]
      exact .inr (.inr ⟨hn, by simpa using ha, gap, rfl⟩)
  | some r =>
    obtain ⟨hm, rfl⟩ := (Rows.find?_eq_some_iff PullRequestRow.id id hr r).1 hf
    rcases hand_cases [r.id] with ⟨ha, hh⟩ | ⟨ha, gap, hh⟩
    · rw [hh]
      refine .inl ⟨List.mem_map.2 ⟨r, hm, rfl⟩, _, rfl, item r,
        (mem_contents_items _).2 ⟨r, hm, rfl⟩, rfl, ?_⟩
      exact congrArg (item r).withReviewers (reviewersIn_eq hp r.id)
    · exact absurd (by simpa using (hw r hm).1) ha

/-- The users that are left of the rows, as far as they belong to a team. -/
theorem roll_membersIn {teams : List Text} {users : List UserRow} {rows : List PullRequestRow}
    {pairs : List AssignmentRow} {progress : Progress} (h : (users.map UserRow.id).Nodup)
    (team : Text)
    (p : UserRow → Bool) {ids : Finset Text}
    (hids : ∀ id, id ∈ ids ↔ ∃ r ∈ users, r.team = some team ∧ p r = true ∧ r.id = id) :
    (contents ⟨some teams, some users, some rows, some pairs, progress⟩).Roll ids
      (membersIn (users.filter p) team) := by
  have hn : (((users.filter p).filter fun r => r.team = some team).map UserRow.id).Nodup :=
    h.sublist ((List.filter_sublist.trans List.filter_sublist).map UserRow.id)
  have hid : User.id ∘ UserRow.toUser = UserRow.id := rfl
  constructor
  · rw [membersIn, List.map_map, hid, Rows.map_sublist_sortByKey UserRow.id hn
      (List.Sublist.refl _)]
    congr 1
    ext id
    simp [hids, and_assoc, and_left_comm]
  · intro u hu
    simp only [membersIn, List.mem_map, Rows.mem_sortByKey, List.mem_filter] at hu
    obtain ⟨r, ⟨⟨hr, -⟩, -⟩, rfl⟩ := hu
    exact (mem_contents_users _).2 ⟨r, hr, rfl⟩

theorem roll_members {teams : List Text} {users : List UserRow} {rows : List PullRequestRow}
    {pairs : List AssignmentRow} {progress : Progress} (h : (users.map UserRow.id).Nodup)
    (team : Text) :
    (contents ⟨some teams, some users, some rows, some pairs, progress⟩).Roll
      ((contents ⟨some teams, some users, some rows, some pairs, progress⟩).staff team)
      (membersIn users team) := by
  have hall : users.filter (fun _ => true) = users := List.filter_true users
  have hr := @roll_membersIn teams users rows pairs progress h team (fun _ => true)
    ((contents ⟨some teams, some users, some rows, some pairs, progress⟩).staff team)
    (by simp [UserRow.toUser])
  rwa [hall] at hr

theorem roll_activeMembers {teams : List Text} {users : List UserRow} {rows : List PullRequestRow}
    {pairs : List AssignmentRow} {progress : Progress} (h : (users.map UserRow.id).Nodup)
    (team : Text)
    (except : Option Text) :
    (contents ⟨some teams, some users, some rows, some pairs, progress⟩).Roll
      (((contents ⟨some teams, some users, some rows, some pairs, progress⟩).active team).filter
        fun id => some id ≠ except)
      (membersIn (users.filter fun u => u.active && some u.id ≠ except) team) := by
  refine roll_membersIn h team (fun u => u.active && some u.id ≠ except) fun id => ?_
  simp only [Finset.mem_filter, Contents.mem_active, mem_contents_users, Bool.and_eq_true,
    decide_eq_true_eq]
  constructor
  · rintro ⟨⟨u, ⟨r, hr, rfl⟩, ht, ha, rfl⟩, hne⟩
    exact ⟨r, hr, ht, ⟨ha, hne⟩, rfl⟩
  · rintro ⟨r, hr, ht, ⟨ha, hne⟩, rfl⟩
    exact ⟨⟨r.toUser, ⟨r, hr, rfl⟩, ht, ha, rfl⟩, hne⟩

theorem team_lookup (h : Sound s) (name : Text) :
    Lookup (name ∈ s.contents.teams) (Writable name) .teamNotFound
    (fun t => t.name = name ∧ s.contents.Roll (s.contents.staff name) t.members) (s.team name) := by
  cases h with | @intro teams users rows pairs hu _ _ hw _ _ =>
  have hread : team ⟨some teams, some users, some rows, some pairs, .going⟩ name = (do
      hand [name]
      if name ∈ teams then return ⟨name, membersIn users name⟩
      else throw (.refuse .teamNotFound)) := rfl
  rw [hread, mem_contents_teams]
  by_cases ht : name ∈ teams
  · rcases hand_cases [name] with ⟨ha, hh⟩ | ⟨ha, gap, hh⟩
    · rw [hh, if_pos ht]
      exact .inl ⟨ht, _, rfl, rfl, roll_members hu name⟩
    · exact absurd (by simpa using hw name ht) ha
  · rcases hand_cases [name] with ⟨ha, hh⟩ | ⟨ha, gap, hh⟩
    · rw [hh, if_neg ht]
      exact .inr (.inl ⟨ht, by simpa using ha, rfl⟩)
    · rw [hh]
      exact .inr (.inr ⟨ht, by simpa using ha, gap, rfl⟩)

/-- A reading to which texts are handed shows what it is to show, or fails over one of them. -/
theorem listing_of_hand {α : Type} {texts : List Text} {admitted : Prop} {found : α → Prop} {a : α}
    (hadmitted : (∀ t ∈ texts, Writable t) ↔ admitted) (ha : found a) :
    Listing admitted found (do hand texts; return a) := by
  rcases hand_cases texts with ⟨hw, hh⟩ | ⟨hw, gap, hh⟩
  · rw [hh]
    exact .inl ⟨hadmitted.1 hw, a, rfl, ha⟩
  · rw [hh]
    exact .inr ⟨fun h => hw (hadmitted.2 h), gap, rfl⟩

theorem members_listing (h : Sound s) (team : Text) : Listing (Writable team)
    (fun us => s.contents.Roll (s.contents.staff team) us) (s.members team) := by
  cases h with | intro hu _ _ _ _ _ =>
  exact listing_of_hand (by simp) (roll_members hu team)

theorem activeMembers_listing (h : Sound s) (team : Text) (except : Option Text) :
    Listing (Writable team ∧ ∀ id ∈ except, Writable id)
      (fun us => s.contents.Roll ((s.contents.active team).filter fun id => some id ≠ except) us)
      (s.activeMembers team except) := by
  cases h with | intro hu _ _ _ _ _ =>
  exact listing_of_hand (by simp) (roll_activeMembers hu team except)

theorem reviewers_listing (h : Sound s) (id : Text) : Listing (Writable id)
    (fun rs => rs = (s.contents.reviewers id).sort) (s.reviewers id) := by
  cases h with | intro _ _ hp _ _ _ =>
  exact listing_of_hand (by simp) (reviewersIn_eq hp id)

theorem reviewersOf_listing (h : Sound s) (ids : List Text) : Listing (∀ id ∈ ids, Writable id)
    (fun batch => batch = ids.eraseDups.map fun id => (id, (s.contents.reviewers id).sort))
    (s.reviewersOf ids) := by
  cases h with | intro _ _ hp _ _ _ =>
  cases ids with
  | nil => exact .inl ⟨by simp, _, rfl, rfl⟩
  | cons id ids =>
    exact listing_of_hand Iff.rfl
      (List.map_congr_left fun id _ => congrArg (Prod.mk id) (reviewersIn_eq hp id))

/-- The rows that are joined with the active members of a team. -/
theorem any_user_iff {teams : List Text} {users : List UserRow} {rows : List PullRequestRow}
    {pairs : List AssignmentRow} {progress : Progress} (team author : Text) :
    (users.any fun u => u.id = author && u.team = some team && u.active) = true ↔
      author ∈ (contents ⟨some teams, some users, some rows, some pairs, progress⟩).active
        team := by
  simp only [List.any_eq_true, Bool.and_eq_true, decide_eq_true_eq, Contents.mem_active,
    mem_contents_users]
  constructor
  · rintro ⟨r, hr, ⟨hid, ht⟩, ha⟩
    exact ⟨r.toUser, ⟨r, hr, rfl⟩, ht, ha, hid⟩
  · rintro ⟨_, ⟨r, hr, rfl⟩, ht, ha, hid⟩
    exact ⟨r, hr, ⟨hid, ht⟩, ha⟩

theorem openPullRequests_listing (h : Sound s) (team : Text) : Listing (Writable team)
    (fun ps => (ps.map PullRequest.id).Nodup ∧ ∀ p, p ∈ ps ↔ ∃ i ∈ s.contents.items,
      i.status = .opened ∧ i.author ∈ s.contents.active team ∧ p = i.withReviewers [])
    (s.openPullRequests team) := by
  cases h with | @intro teams users rows pairs _ hr _ _ _ _ =>
  obtain ⟨hnodup, hmem⟩ := Rows.listed_latestFirst PullRequestRow.id PullRequest.id
    (fun r => r.withReviewers []) (fun _ => rfl) PullRequestRow.created
    (fun r => r.status = .opened && users.any fun u =>
      u.id = r.author && u.team = some team && u.active) hr
  refine listing_of_hand (by simp) ⟨hnodup, fun p => (hmem p).trans ?_⟩
  simp only [Bool.and_eq_true, decide_eq_true_eq, mem_contents_items]
  constructor
  · rintro ⟨r, hm, ⟨ho, ha⟩, rfl⟩
    exact ⟨item r, ⟨r, hm, rfl⟩, ho, (any_user_iff team r.author).1 (by simpa using ha), rfl⟩
  · rintro ⟨_, ⟨r, hm, rfl⟩, ho, ha, rfl⟩
    exact ⟨r, hm, ⟨ho, by simpa using (any_user_iff team r.author).2 ha⟩, rfl⟩

theorem snapshot_listing (h : Sound s) : ∃ shot, s.snapshot = .ok shot ∧
    (∀ t, t ∈ shot.teams ↔ t ∈ s.contents.teams) ∧ (∀ u, u ∈ shot.users ↔ u ∈ s.contents.users) ∧
    (∀ p, p ∈ shot.pullRequests ↔ ∃ i ∈ s.contents.items, p = i.withReviewers []) ∧
    ∀ a, a ∈ shot.assignments ↔ ∃ id, (s.contents.reviewers id).Nonempty ∧
      a = (id, (s.contents.reviewers id).sort) := by
  cases h with | @intro teams users rows pairs _ _ hp _ _ _ =>
  refine ⟨_, rfl, fun t => by simp [Rows.sortIds], fun u => by simp, fun p => ?_, fun a => ?_⟩
  · simp only [List.mem_map, Rows.mem_sortByKey, mem_contents_items]
    constructor
    · rintro ⟨r, hr, rfl⟩
      exact ⟨item r, ⟨r, hr, rfl⟩, rfl⟩
    · rintro ⟨_, ⟨r, hr, rfl⟩, rfl⟩
      exact ⟨r, hr, rfl⟩
  · have hreviewed (id : Text) :
        id ∈ Rows.sortIds (pairs.map AssignmentRow.pullRequest).eraseDups ↔
          ((contents ⟨some teams, some users, some rows, some pairs, .going⟩).reviewers
            id).Nonempty := by
      simp only [Rows.sortIds, List.mem_mergeSort, List.mem_eraseDups, List.mem_map,
        Finset.Nonempty,
        mem_contents_reviewers]
      constructor
      · rintro ⟨a, ha, rfl⟩
        exact ⟨a.reviewer, ha⟩
      · rintro ⟨reviewer, ha⟩
        exact ⟨_, ha, rfl⟩
    simp only [List.mem_map, hreviewed, @reviewersIn_eq teams users rows pairs .going hp,
      @eq_comm _ a]

end Readings

section Changes

variable {s : RelationalStore}

/-- An insertion under a new key changes its table, or is handed a text that has no written form. -/
theorem insertion_new {α : Type} (hs : s.progress = .going) (operation : Text) (rows : List α)
    (texts : List Text) (taken : List α → Bool) (ht : taken rows = false) (refusal : Refusal)
    (f : List α → RelationalStore) :
    Change (∀ t ∈ texts, Writable t) (fun s' => s' = f rows)
      (s.insertion operation (some rows) texts taken refusal f) := by
  have hrows : s.rows operation (some rows) = .ok rows := by simp [RelationalStore.rows, hs]
  unfold insertion
  rw [hs]
  simp only
  rw [hrows]
  rcases hand_cases texts with ⟨ha, h⟩ | ⟨ha, gap, h⟩
  · rw [h]
    refine .inl ⟨ha, _, ?_, rfl⟩
    simp [bind, Except.bind, ht, pure, Except.pure]
  · rw [h]
    exact .inr ⟨ha, gap, _, rfl⟩

/-- An insertion under a key that is there is refused, or is handed a text that has no written
form. -/
theorem insertion_taken {α : Type} (hs : s.progress = .going) (operation : Text) (rows : List α)
    (texts : List Text) (taken : List α → Bool) (ht : taken rows = true) (refusal : Refusal)
    (f : List α → RelationalStore) :
    ∃ e s', s.insertion operation (some rows) texts taken refusal f = (.error e, s') ∧
      Denied (∀ t ∈ texts, Writable t) refusal e := by
  have hrows : s.rows operation (some rows) = .ok rows := by simp [RelationalStore.rows, hs]
  unfold insertion
  rw [hs]
  simp only
  rw [hrows]
  rcases hand_cases texts with ⟨ha, h⟩ | ⟨ha, gap, h⟩
  · rw [h]
    refine ⟨.refuse refusal, { s with progress := .brokenOff none }, ?_, .inl ⟨ha, rfl⟩⟩
    simp only [bind, Except.bind, ht, if_true]
    rfl
  · rw [h]
    exact ⟨_, _, rfl, .inr ⟨ha, gap, rfl⟩⟩

theorem saveTeam_taken (h : Sound s) (t : Team) (ht : t.name ∈ s.contents.teams) :
    ∃ s', s.saveTeam t = (.error (.refuse .teamExists), s') := by
  cases h with | @intro teams users rows pairs _ _ _ hw _ _ =>
  rw [mem_contents_teams] at ht
  obtain ⟨e, s', he, ⟨-, rfl⟩ | ⟨hn, -⟩⟩ :=
    insertion_taken (s := ⟨some teams, some users, some rows, some pairs,
    .going⟩) rfl "save team" teams [t.name] (fun teams => decide (t.name ∈ teams))
      (by simpa using ht)
    .teamExists fun teams => ⟨some (teams ++ [t.name]), some users, some rows, some pairs, .going⟩
  · exact ⟨s', he⟩
  · exact absurd (by simpa using hw _ ht) hn

theorem saveTeam_change (h : Sound s) (t : Team) (ht : t.name ∉ s.contents.teams) :
    Change (Writable t.name)
    (fun s' => Sound s' ∧ s'.contents = s.contents.addTeam t.name) (s.saveTeam t) := by
  cases h with | @intro teams users rows pairs hu hr hp hwt hwu hwr =>
  rw [mem_contents_teams] at ht
  have hc := insertion_new (s := ⟨some teams, some users, some rows, some pairs, .going⟩) rfl
    "save team" teams
    [t.name] (fun teams => decide (t.name ∈ teams)) (by simpa using ht) .teamExists fun teams =>
      ⟨some (teams ++ [t.name]), some users, some rows, some pairs, .going⟩
  rcases hc with ⟨ha, s', hs, rfl⟩ | ⟨ha, gap, s', hs⟩
  · have hname : Writable t.name := by simpa using ha
    refine .inl ⟨hname, _, hs, .intro hu hr hp (fun name hn => ?_) hwu hwr,
      Contents.ext ?_ rfl rfl rfl⟩
    · rcases List.mem_append.1 hn with hn | hn
      · exact hwt name hn
      · rwa [List.mem_singleton.1 hn]
    · ext name
      simp [contents, Contents.addTeam]
  · exact .inr ⟨fun hn => ha (by simpa using hn), gap, s', hs⟩

/-- The users of sound tables after some were put in. -/
theorem putUsers_sound {teams : List Text} {users : List UserRow} {rows : List PullRequestRow}
    {pairs : List AssignmentRow} (h : Sound ⟨some teams, some users, some rows, some pairs, .going⟩)
    {us : List User} (hus : ∀ u ∈ us, Writable u.id) :
    Sound ⟨some teams, some (us.foldl (fun rows u => Rows.upsert UserRow.id (.ofUser u) rows)
      users), some rows,
        some pairs, .going⟩ ∧
      contents ⟨some teams, some
        (us.foldl (fun rows u => Rows.upsert UserRow.id (.ofUser u) rows) users),
        some rows, some pairs, .going⟩ =
        (contents ⟨some teams, some users, some rows, some pairs, .going⟩).putUsers us := by
  induction us generalizing users with
  | nil => exact ⟨h, rfl⟩
  | cons u us ih =>
    cases h with | intro hu hr hp hwt hwu hwr =>
    have hone : contents ⟨some teams, some (Rows.upsert UserRow.id (.ofUser u) users),
      some rows, some pairs,
        .going⟩ = (contents ⟨some teams, some users, some rows, some pairs, .going⟩).putUser u := by
      refine Contents.ext rfl ?_ rfl rfl
      ext v
      have hn : ((users.map UserRow.toUser).map User.id).Nodup := by
        rw [List.map_map]
        exact hu
      simp only [contents, Option.getD_some, Contents.putUser,
        map_upsert UserRow.id User.id UserRow.toUser (fun _ => rfl), List.mem_toFinset]
      rw [Rows.mem_upsert User.id _ hn]
      simp [UserRow.ofUser, UserRow.toUser]
    have hsound : Sound ⟨some teams, some (Rows.upsert UserRow.id (.ofUser u) users),
      some rows, some pairs,
        .going⟩ := by
      refine .intro (Rows.nodup_upsert UserRow.id _ hu) hr hp hwt (fun v hv => ?_) hwr
      rcases (Rows.mem_upsert UserRow.id _ hu v).1 hv with rfl | ⟨hv, -⟩
      · exact hus u List.mem_cons_self
      · exact hwu v hv
    obtain ⟨hs, hc⟩ := ih hsound fun v hv => hus v (List.mem_cons_of_mem u hv)
    refine ⟨hs, hc.trans ?_⟩
    rw [hone]
    rfl

theorem putUsers_change (h : Sound s) (us : List User) :
    Change (∀ u ∈ us, Writable u.id ∧ Writable u.name ∧ ∀ t ∈ u.team, Writable t)
      (fun s' => Sound s' ∧ s'.contents = s.contents.putUsers us) (s.putUsers us) := by
  unfold putUsers
  split
  · next he =>
    obtain rfl := List.isEmpty_iff.1 he
    exact .inl ⟨by simp, s, rfl, h, rfl⟩
  · have htexts : (∀ t ∈ us.flatMap fun u => u.id :: u.name :: u.team.toList, Writable t) ↔
        ∀ u ∈ us, Writable u.id ∧ Writable u.name ∧ ∀ t ∈ u.team, Writable t := by
      simp only [List.mem_flatMap, List.mem_cons, Option.mem_toList]
      constructor
      · intro hw u hu
        exact ⟨hw _ ⟨u, hu, .inl rfl⟩, hw _ ⟨u, hu, .inr (.inl rfl)⟩, fun t ht =>
          hw t ⟨u, hu, .inr (.inr ht)⟩⟩
      · rintro hw t ⟨u, hu, rfl | rfl | ht⟩
        · exact (hw u hu).1
        · exact (hw u hu).2.1
        · exact (hw u hu).2.2 t ht
    have hgoing : s.progress = .going := by
      cases h
      rfl
    cases h with | @intro teams users rows pairs hu hr hp hwt hwu hwr =>
    rcases change_cases hgoing "bulk save/update users" users
      (us.flatMap fun u => u.id :: u.name :: u.team.toList) fun users =>
        ⟨some teams, some (us.foldl (fun rows u => Rows.upsert UserRow.id (.ofUser u) rows) users),
          some rows,
          some pairs, .going⟩ with ⟨ha, s', hs, rfl⟩ | ⟨ha, hs⟩
    · have hus := htexts.1 ha
      exact .inl ⟨hus, _, hs, putUsers_sound (.intro hu hr hp hwt hwu hwr) fun u hu => (hus u hu).1⟩
    · exact .inr ⟨fun hus => ha (htexts.2 hus), hs⟩

theorem setActivity_change (h : Sound s) (us : List User) : Change (∀ u ∈ us, Writable u.id)
    (fun s' => Sound s' ∧ s'.contents = us.foldl (fun c u => c.switch {u.id} u.active) s.contents)
    (s.setActivity us) := by
  induction us generalizing s with
  | nil => exact .inl ⟨by simp, s, rfl, h, rfl⟩
  | cons u us ih =>
    cases h with | @intro teams users rows pairs hu hr hp hwt hwu hwr =>
    let change (r : UserRow) : UserRow := { r with active := u.active }
    let after : RelationalStore :=
      ⟨some teams, some (Rows.modify UserRow.id u.id change users), some rows, some pairs, .going⟩
    have hstep : setActivity ⟨some teams, some users, some rows, some pairs, .going⟩ (u :: us) =
        match hand [u.id] with
        | .ok () => after.setActivity us
        | .error e => (.error e, ⟨some teams, some users, some rows, some pairs, .going⟩) := by
      rw [setActivity, RelationalStore.change]
      cases hand [u.id] <;> rfl
    rw [hstep]
    rcases hand_cases [u.id] with ⟨ha, hh⟩ | ⟨ha, gap, hh⟩
    · have hid : Writable u.id := by simpa using ha
      have hkeys : (Rows.modify UserRow.id u.id change users).map UserRow.id =
          users.map UserRow.id :=
        Rows.map_key_modify UserRow.id u.id change (fun _ => rfl) users
      have hafter : Sound after := by
        refine .intro (hkeys ▸ hu) hr hp hwt (fun v hv => ?_) hwr
        obtain ⟨x, hx, rfl⟩ := (Rows.mem_modify UserRow.id u.id change users v).1 hv
        split
        · exact hwu x hx
        · exact hwu x hx
      have hone : after.contents =
          (contents ⟨some teams, some users, some rows, some pairs, .going⟩).switch {u.id}
          u.active := by
        refine Contents.ext rfl ?_ rfl rfl
        ext v
        simp only [mem_contents_users, Contents.mem_switch, after, Rows.mem_modify,
          Finset.mem_singleton]
        constructor
        · rintro ⟨_, ⟨x, hx, rfl⟩, rfl⟩
          exact ⟨x.toUser, ⟨x, hx, rfl⟩, by by_cases hk : x.id =
            u.id <;> simp [hk, UserRow.toUser, change]⟩
        · rintro ⟨_, ⟨x, hx, rfl⟩, rfl⟩
          exact ⟨_, ⟨x, hx, rfl⟩, by by_cases hk : x.id =
            u.id <;> simp [hk, UserRow.toUser, change]⟩
      rw [hh]
      rcases ih hafter with ⟨hall, s', hs, hw⟩ | ⟨hall, hs⟩
      · refine .inl ⟨List.forall_mem_cons.2 ⟨hid, hall⟩, s', hs, ?_⟩
        rwa [List.foldl_cons, ← hone]
      · exact .inr ⟨fun hw => hall (List.forall_mem_cons.1 hw).2, hs⟩
    · rw [hh]
      exact .inr ⟨fun hw => ha (by simpa using hw u List.mem_cons_self), gap, _, rfl⟩

theorem deactivate_change (h : Sound s) (ids : List Text) : Change (∀ id ∈ ids, Writable id)
    (fun s' => Sound s' ∧ s'.contents = s.contents.switch ids.toFinset false)
      (s.deactivate ids) := by
  unfold deactivate
  split
  · next he =>
    obtain rfl := List.isEmpty_iff.1 he
    refine .inl ⟨by simp, s, rfl, h, Contents.ext rfl ?_ rfl rfl⟩
    ext v
    simp
  · cases h with | @intro teams users rows pairs hu hr hp hwt hwu hwr =>
    let change (r : UserRow) : UserRow :=
      if r.id ∈ ids ∧ r.active then { r with active := false } else r
    have hid (r : UserRow) : (change r).id = r.id := by
      simp only [change]
      split <;> rfl
    rcases change_cases (s := ⟨some teams, some users, some rows, some pairs, .going⟩) rfl
      "deactivate many users"
      users ids fun users => ⟨some teams, some (users.map change), some rows,
          some pairs, .going⟩ with
      ⟨ha, s', hs, rfl⟩ | ⟨ha, hs⟩
    · have hkeys : (users.map change).map UserRow.id = users.map UserRow.id := by
        rw [List.map_map]
        exact List.map_congr_left fun r _ => hid r
      refine .inl ⟨ha, _, hs, .intro (hkeys ▸ hu) hr hp hwt (fun v hv => ?_) hwr,
        Contents.ext rfl ?_ rfl rfl⟩
      · obtain ⟨r, hm, rfl⟩ := List.mem_map.1 hv
        exact hid r ▸ hwu r hm
      · ext v
        have hone (r : UserRow) : (change r).toUser =
            if r.toUser.id ∈ ids.toFinset then { r.toUser with active := false } else r.toUser := by
          by_cases hm : r.id ∈ ids <;> cases ha : r.active <;> simp [change, UserRow.toUser, hm, ha]
        simp only [mem_contents_users, Contents.mem_switch, List.mem_map]
        constructor
        · rintro ⟨_, ⟨r, hr, rfl⟩, rfl⟩
          exact ⟨r.toUser, ⟨r, hr, rfl⟩, (hone r).symm⟩
        · rintro ⟨_, ⟨r, hr, rfl⟩, rfl⟩
          exact ⟨_, ⟨r, hr, rfl⟩, hone r⟩
    · exact .inr ⟨ha, hs⟩

theorem savePullRequest_taken (h : Sound s) (p : PullRequest) (k : Clock) (hc : p.created.isSome)
    (hid : p.id ∈ s.contents.itemIds) : ∃ e s', s.savePullRequest p k = ((.error e, s'), k) ∧
      Denied (Writable p.id ∧ Writable p.name ∧ Writable p.author) .pullRequestExists e := by
  cases h with | @intro teams users rows pairs _ _ _ _ _ _ =>
  obtain ⟨t, ht⟩ := Option.isSome_iff_exists.1 hc
  rw [mem_itemIds] at hid
  have hfind : (Rows.find? PullRequestRow.id p.id rows).isSome = true := by
    rw [Option.isSome_iff_ne_none]
    exact fun hn => (Rows.find?_eq_none_iff PullRequestRow.id p.id rows).1 hn hid
  obtain ⟨e, s', he, hreason⟩ :=
    insertion_taken (s := ⟨some teams, some users, some rows, some pairs, .going⟩) rfl
    "save pull request" rows [p.id, p.name, p.author]
    (fun rows => (Rows.find? PullRequestRow.id p.id rows).isSome) hfind
    .pullRequestExists fun rows =>
      ⟨some teams, some users,
        some (rows ++ [⟨p.id, p.name, p.author, p.status, t.wall, p.merged.map Timestamp.wall⟩]),
          some pairs, .going⟩
  refine ⟨e, s', ?_, by simpa [Denied] using hreason⟩
  rw [savePullRequest, ht]
  exact congrArg (·, k) he

theorem savePullRequest_change (h : Sound s) (p : PullRequest) (t : Timestamp) (k : Clock)
    (ht : p.created = some t) (hid : p.id ∉ s.contents.itemIds) :
    ∃ r, s.savePullRequest p k = (r, k) ∧
      Change (Writable p.id ∧ Writable p.name ∧ Writable p.author)
        (fun s' => Sound s' ∧ s'.contents =
        s.contents.addItem ⟨p.id, p.name, p.author, p.status, t.wallOnly,
          p.merged.map Timestamp.wallOnly⟩) r := by
  cases h with | @intro teams users rows pairs hu hr hp hwt hwu hwr =>
  rw [mem_itemIds] at hid
  let row : PullRequestRow :=
    ⟨p.id, p.name, p.author, p.status, t.wall, p.merged.map Timestamp.wall⟩
  have hfind : (Rows.find? PullRequestRow.id p.id rows).isSome = false := by
    rw [(Rows.find?_eq_none_iff PullRequestRow.id p.id rows).2 hid]
    rfl
  have hc := insertion_new (s := ⟨some teams, some users, some rows, some pairs, .going⟩) rfl
    "save pull request" rows [p.id, p.name, p.author]
    (fun rows => (Rows.find? PullRequestRow.id p.id rows).isSome) hfind .pullRequestExists
    fun rows => ⟨some teams, some users, some (rows ++ [row]), some pairs, .going⟩
  refine ⟨_, by rw [savePullRequest, ht]; rfl, ?_⟩
  rcases hc with ⟨ha, s', hs, rfl⟩ | ⟨ha, gap, s', hs⟩
  · have hrow : Writable p.id ∧ Writable p.name ∧ Writable p.author := by simpa using ha
    refine .inl ⟨hrow, _, hs, .intro hu ?_ hp hwt hwu (fun r hm => ?_), Contents.ext rfl rfl ?_ rfl⟩
    · rw [List.map_append, List.nodup_append]
      exact ⟨hr, by simp, fun a ha b hb e => hid (by simp_all [row])⟩
    · rcases List.mem_append.1 hm with hm | hm
      · exact hwr r hm
      · rwa [List.mem_singleton.1 hm]
    · ext i
      have hitem : item row =
          ⟨p.id, p.name, p.author, p.status, t.wallOnly, p.merged.map Timestamp.wallOnly⟩ := by
        simp only [item, row, Option.map_map]
        rfl
      simp [contents, Contents.addItem, hitem]
  · exact .inr ⟨fun hw => ha (by simpa using hw), gap, s', hs⟩

theorem updatePullRequest_change (h : Sound s) (p : PullRequest) :
    Change (Writable p.id ∧ Writable p.name ∧ Writable p.author) (fun s' => Sound s' ∧ s'.contents =
      s.contents.updateItem p.id fun i => { i with
        name := p.name, author := p.author, status := p.status,
        merged := p.merged.map Timestamp.wallOnly })
      (s.updatePullRequest p) := by
  cases h with | @intro teams users rows pairs hu hr hp hwt hwu hwr =>
  let change (r : PullRequestRow) : PullRequestRow :=
    if r.id = p.id ∧ r.status = .opened then
      { r with
        name := p.name, author := p.author, status := p.status,
        merged := p.merged.map Timestamp.wall }
    else r
  have hid (r : PullRequestRow) : (change r).id = r.id := by
    simp only [change]
    split <;> rfl
  rcases change_cases (s := ⟨some teams, some users, some rows, some pairs, .going⟩) rfl
    "update pull request"
    rows [p.name, p.author, p.id] fun rows =>
      ⟨some teams, some users, some (rows.map change), some pairs, .going⟩ with
      ⟨ha, s', hs, rfl⟩ | ⟨ha, hs⟩
  · have hw : Writable p.id ∧ Writable p.name ∧ Writable p.author :=
      ⟨ha _ (by simp), ha _ (by simp), ha _ (by simp)⟩
    have hkeys : (rows.map change).map PullRequestRow.id = rows.map PullRequestRow.id := by
      rw [List.map_map]
      exact List.map_congr_left fun r _ => hid r
    refine .inl ⟨hw, _, hs, .intro hu (hkeys ▸ hr) hp hwt hwu (fun v hv => ?_),
      Contents.ext rfl rfl ?_ rfl⟩
    · obtain ⟨r, hm, rfl⟩ := List.mem_map.1 hv
      simp only [change]
      split
      · exact ⟨(hwr r hm).1, hw.2⟩
      · exact hwr r hm
    · ext i
      have hone (r : PullRequestRow) : item (change r) =
          if (item r).id = p.id ∧ (item r).status = .opened then { item r with
            name := p.name, author := p.author, status := p.status,
            merged := p.merged.map Timestamp.wallOnly }
          else item r := by
        by_cases hopen : r.id = p.id ∧ r.status = .opened
        · have hitem : (item r).id = p.id ∧ (item r).status = .opened := hopen
          rw [if_pos hitem]
          simp only [change, item, if_pos hopen, Option.map_map]
          rfl
        · have hitem : ¬ ((item r).id = p.id ∧ (item r).status = .opened) := hopen
          rw [if_neg hitem]
          simp only [change, if_neg hopen]
      simp only [mem_contents_items, Contents.mem_updateItem, List.mem_map]
      constructor
      · rintro ⟨_, ⟨r, hr, rfl⟩, rfl⟩
        exact ⟨item r, ⟨r, hr, rfl⟩, (hone r).symm⟩
      · rintro ⟨_, ⟨r, hr, rfl⟩, rfl⟩
        exact ⟨_, ⟨r, hr, rfl⟩, hone r⟩
  · exact .inr ⟨fun hw => ha (by simp [hw]), hs⟩

/-- Other pairs are the reviewers of one pull request changed, where only pairs with its id are
others. -/
theorem contents_pairs {teams : List Text} {users : List UserRow} {rows : List PullRequestRow}
    {pairs pairs' : List AssignmentRow} {id : Text} {ids : Finset Text}
    (h : ∀ k r, ⟨k, r⟩ ∈ pairs' ↔ if k = id then r ∈ ids else ⟨k, r⟩ ∈ pairs) :
    contents ⟨some teams, some users, some rows, some pairs', .going⟩ =
      (contents ⟨some teams, some users, some rows, some pairs, .going⟩).setReviewers id ids := by
  refine Contents.ext rfl rfl rfl (funext fun k => ?_)
  ext r
  rw [mem_contents_reviewers, h]
  by_cases hk : k = id
  · subst hk
    rw [if_pos rfl, Contents.setReviewers_self]
  · rw [if_neg hk, Contents.setReviewers_of_ne _ hk, mem_contents_reviewers]

theorem assign_change (h : Sound s) (id : Text) (rs : List Text) :
    Change (rs = [] ∨ Writable id ∧ ∀ r ∈ rs, Writable r) (fun s' => Sound s' ∧
      s'.contents = s.contents.setReviewers id (s.contents.reviewers id ∪ rs.toFinset))
        (s.assign id rs) := by
  unfold assign
  split
  · next he =>
    obtain rfl := List.isEmpty_iff.1 he
    exact .inl ⟨.inl rfl, s, rfl, h, Contents.ext rfl rfl rfl (by simp [Contents.setReviewers])⟩
  · next he =>
    cases h with | @intro teams users rows pairs hu hr hp hwt hwu hwr =>
    rcases change_cases (s := ⟨some teams, some users, some rows, some pairs, .going⟩) rfl
      "assign reviewers" pairs
      (id :: rs) fun pairs => ⟨some teams, some users, some rows,
        some ((rs.map (AssignmentRow.mk id)).foldl insertPair pairs), .going⟩ with
          ⟨ha, s', hs, rfl⟩ | ⟨ha, hs⟩
    · obtain ⟨hn, hm⟩ := foldl_insertPair hp (rs.map (AssignmentRow.mk id))
      refine .inl ⟨.inr (List.forall_mem_cons.1 ha), _, hs, .intro hu hr hn hwt hwu hwr,
        contents_pairs fun k r => (hm ⟨k, r⟩).trans ?_⟩
      by_cases hk : k = id
      · subst hk
        simp [or_comm]
      · simp [hk, Ne.symm hk]
    · refine .inr ⟨?_, hs⟩
      rintro (rfl | hw)
      · exact he rfl
      · exact ha (List.forall_mem_cons.2 hw)

theorem removeReviewer_change (h : Sound s) (id old : Text) : Change (Writable id ∧ Writable old)
    (fun s' => Sound s' ∧ s'.contents = s.contents.setReviewers id
      ((s.contents.reviewers id).erase old))
    (s.removeReviewer id old) := by
  cases h with | @intro teams users rows pairs hu hr hp hwt hwu hwr =>
  rcases change_cases (s := ⟨some teams, some users, some rows, some pairs, .going⟩) rfl
    "remove reviewer" pairs
    [id, old] fun pairs => ⟨some teams, some users, some rows,
        some (pairs.filter (· ≠ ⟨id, old⟩)), .going⟩ with
    ⟨ha, s', hs, rfl⟩ | ⟨ha, hs⟩
  · refine .inl ⟨by simpa using ha, _, hs, .intro hu hr (hp.filter _) hwt hwu hwr,
      contents_pairs fun k r => ?_⟩
    by_cases hk : k = id
    · subst hk
      simp [and_comm]
    · simp [hk]
  · exact .inr ⟨fun hw => ha (by simpa using hw), hs⟩

theorem replaceReviewer_change (h : Sound s) (id old new : Text) :
    Change (Writable id ∧ Writable old ∧ Writable new) (fun s' => Sound s' ∧
      s'.contents = s.contents.setReviewers id (insert new ((s.contents.reviewers id).erase old)))
      (s.replaceReviewer id old new) := by
  cases h with | @intro teams users rows pairs hu hr hp hwt hwu hwr =>
  let left := pairs.filter (· ≠ ⟨id, old⟩)
  have hstep : replaceReviewer ⟨some teams, some users, some rows, some pairs, .going⟩ id old new =
      match hand [id, old] with
      | .ok () =>
        RelationalStore.change ⟨some teams, some users, some rows, some left, .going⟩
          "replace reviewer"
          (some left) [id, new] fun pairs =>
            ⟨some teams, some users, some rows, some (insertPair pairs ⟨id, new⟩), .going⟩
      | .error e => (.error e, ⟨some teams, some users, some rows, some pairs, .going⟩) := by
    rw [replaceReviewer, RelationalStore.change]
    cases hand [id, old] <;> rfl
  rw [hstep]
  rcases hand_cases [id, old] with ⟨ha, hh⟩ | ⟨ha, gap, hh⟩
  · have hold : Writable id ∧ Writable old := by simpa using ha
    rw [hh]
    rcases change_cases (s := ⟨some teams, some users, some rows, some left, .going⟩) rfl
      "replace reviewer" left
      [id, new] fun pairs => ⟨some teams, some users, some rows,
          some (insertPair pairs ⟨id, new⟩), .going⟩ with
      ⟨hb, s', hs, rfl⟩ | ⟨hb, hs⟩
    · have hnew : Writable id ∧ Writable new := by simpa using hb
      refine .inl ⟨⟨hold.1, hold.2, hnew.2⟩, _, hs,
        .intro hu hr (nodup_insertPair (hp.filter _) _) hwt hwu hwr, contents_pairs fun k r => ?_⟩
      by_cases hk : k = id
      · subst hk
        simp [left, and_comm]
      · simp [left, hk]
    · exact .inr ⟨fun hw => hb (by simp [hw]), hs⟩
  · rw [hh]
    exact .inr ⟨fun hw => ha (by simp [hw]), gap, _, rfl⟩

end Changes

instance : LawfulStore RelationalStore where
  contents := contents
  Sound := Sound
  Admits := Writable
  keep := Timestamp.wallOnly
  instant_keep i := by simp [Timestamp.wallOnly, Timestamp.instant, Timestamp.ofInstant]
  offset_keep _ _ := rfl
  sound_empty := .intro List.nodup_nil List.nodup_nil List.nodup_nil (by simp) (by simp) (by simp)
  contents_empty := rfl
  injOn_user h u hu v hv e := by
    cases h with | intro hn _ _ _ _ _ =>
    obtain ⟨r, hr, rfl⟩ := (mem_contents_users u).1 hu
    obtain ⟨q, hq, rfl⟩ := (mem_contents_users v).1 hv
    exact congrArg UserRow.toUser (List.inj_on_of_nodup_map hn hr hq e)
  injOn_item h i hi j hj e := by
    cases h with | intro _ hn _ _ _ _ =>
    obtain ⟨r, hr, rfl⟩ := (mem_contents_items i).1 hi
    obtain ⟨q, hq, rfl⟩ := (mem_contents_items j).1 hj
    exact congrArg item (List.inj_on_of_nodup_map hn hr hq e)
  admits_team h t ht := by
    cases h with | intro _ _ _ hw _ _ =>
    exact hw t ((mem_contents_teams t).1 ht)
  admits_user h id hid := by
    cases h with | intro _ _ _ _ hw _ =>
    obtain ⟨r, hr, rfl⟩ := List.mem_map.1 ((mem_userIds id).1 hid)
    exact hw r hr
  admits_item h i hi := by
    cases h with | intro _ _ _ _ _ hw =>
    obtain ⟨r, hr, rfl⟩ := (mem_contents_items i).1 hi
    exact hw r hr
  settle_sound _ _ h := by
    cases h
    rfl
  team_lookup name h := team_lookup h name
  user_lookup id h := user_lookup h id
  pullRequest_lookup id h := pullRequest_lookup h id
  members_listing team h := members_listing h team
  activeMembers_listing team except h := activeMembers_listing h team except
  reviewers_listing id h := reviewers_listing h id
  reviewersOf_listing ids h := reviewersOf_listing h ids
  openPullRequests_listing team h _ := openPullRequests_listing h team
  saveTeam_taken t h ht := saveTeam_taken h t ht
  saveTeam_change t h ht := saveTeam_change h t ht
  putUsers_change us h := putUsers_change h us
  setActivity_change us h := setActivity_change h us
  deactivate_change ids h := deactivate_change h ids
  savePullRequest_taken p k h hc hid := by
    obtain ⟨e, s', hs', hdenied⟩ := savePullRequest_taken h p k hc hid
    exact ⟨e, s', hs', hdenied.imp And.right And.right⟩
  savePullRequest_change p t k h ht hid := savePullRequest_change h p t k ht hid
  updatePullRequest_change p h := updatePullRequest_change h p
  assign_change id rs h := assign_change h id rs
  replaceReviewer_change id old new h := replaceReviewer_change h id old new
  removeReviewer_change id old h := removeReviewer_change h id old
  snapshot_listing h := snapshot_listing h

instance : ResilientStore RelationalStore where
  openPullRequests_cases team h := by
    rcases openPullRequests_listing h team with ⟨-, ps, hps, hspec⟩ | ⟨-, gap, hgap⟩
    · exact .inl ⟨ps, hps, hspec⟩
    · exact .inr (.inr ⟨gap, hgap⟩)
  savePullRequest_undated s p k hp := by
    show (∃ t k', s.savePullRequest p k = s.savePullRequest { p with created := some t } k') ∨ _
    cases hk : k.tick? with
    | none =>
      refine .inr ⟨.offCalendar, s, k, ?_⟩
      show s.savePullRequest p k = _
      simp only [savePullRequest, hp, Clock.dated?_none, hk]
    | some reading =>
      refine .inl ⟨reading.1, reading.2, ?_⟩
      simp only [savePullRequest, hp, Clock.dated?_none, hk, Clock.dated?_some]

end ReviewDesk.RelationalStore
