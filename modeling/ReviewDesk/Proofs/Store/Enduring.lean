import ReviewDesk.Proofs.Enduring
import ReviewDesk.Proofs.Store.Relational

/-!
# Both stores are enduring

A row that was changed is found under its key as it was changed. The keyed store loses nothing, and
the relational store shows nothing where it lacks a table.
-/
namespace ReviewDesk

/-- The row that is found under a key has that key. -/
theorem Rows.key_of_find? {α : Type} {key : α → Text} {k : Text} {rows : List α} {r : α}
    (h : Rows.find? key k rows = some r) : key r = k := by
  simpa using List.find?_some h

/-- A row that is found is found as it was changed. -/
theorem Rows.find?_modify_of_find? {α : Type} {key : α → Text} {k : Text} {rows : List α} {r : α}
    {f : α → α} (h : Rows.find? key k rows = some r) (hf : ∀ r, key (f r) = key r) :
    Rows.find? key k (Rows.modify key (key r) f rows) = some (f r) := by
  rw [Rows.find?_modify key _ k f hf, if_pos (Rows.key_of_find? h), h]
  rfl

namespace KeyedStore

theorem pullRequest_eq_ok {s : KeyedStore} {id : Text} {p : PullRequest}
    (h : s.pullRequest id = .ok p) : ∃ i, s.item? id = some i ∧ p = s.view i := by
  unfold pullRequest at h
  split at h
  case h_1 i hi =>
    cases h
    exact ⟨i, hi, rfl⟩
  case h_2 => cases h

theorem user_eq_ok {s : KeyedStore} {id : Text} {u : User} (h : s.user id = .ok u) :
    s.user? id = some u := by
  unfold user at h
  split at h
  case h_1 u' hu =>
    cases h
    exact hu
  case h_2 => cases h

instance : EnduringStore KeyedStore where
  pullRequest_lose h := h
  pullRequest_merged {s s' id p q t} hread hopened hwritten hback := by
    obtain ⟨i, hi, rfl⟩ := pullRequest_eq_ok hread
    have hs' : s.updatePullRequest { s.view i with status := .merged, merged := some t } = s' :=
      congrArg Prod.snd hwritten
    obtain ⟨j, hj, rfl⟩ := pullRequest_eq_ok hback
    have hchanged := Rows.find?_modify_of_find? (f := fun r =>
      if r.status = .merged then r
      else { r with name := i.name, author := i.author, status := .merged, merged := some t }) hi
      fun r => by split <;> rfl
    have hj' : j = { i with status := .merged, merged := some t } := by
      rw [← hs'] at hj
      refine (Option.some.inj (hj.symm.trans hchanged)).trans (if_neg hopened)
    rw [hj']
    rfl
  user_switched {s s' id u active} hread hwritten := by
    have hs' : s.setActivity [{ u with active := active }] = s' := congrArg Prod.snd hwritten
    have hchanged := Rows.find?_modify_of_find? (f := fun r => { r with active := active })
      (user_eq_ok hread) fun _ => rfl
    have hread' : s'.user? id = some { u with active := active } := hs' ▸ hchanged
    show s'.user id = _
    rw [user, hread']

end KeyedStore

namespace RelationalStore

variable {s s' : RelationalStore}

theorem pullRequest_eq_ok {id : Text} {p : PullRequest} (h : s.pullRequest id = .ok p) :
    ∃ rows pairs r ids, s.pullRequests = some rows ∧ s.assignments = some pairs ∧
      Rows.find? PullRequestRow.id id rows = some r ∧ p = r.withReviewers ids := by
  obtain ⟨rows, hrows, h⟩ := ok_of_bind h
  obtain ⟨_, -, h⟩ := ok_of_bind h
  split at h
  case h_1 => cases h
  case h_2 r hr =>
    obtain ⟨pairs, hpairs, h⟩ := ok_of_bind h
    cases h
    exact ⟨rows, pairs, r, _, (rows_eq_ok hrows).2, (rows_eq_ok hpairs).2, hr, rfl⟩

/-- Neither the teams nor the users are needed to show a pull request. -/
theorem pullRequest_of_lose {kind : Kind} {id : Text} {p : PullRequest}
    (h : (s.lose kind).2.pullRequest id = .ok p) : s.pullRequest id = .ok p := by
  cases kind with
  | teams | users =>
    simp only [lose] at h
    split at h <;> exact h
  | pullRequests =>
    simp only [lose] at h
    split at h
    case isTrue =>
      obtain ⟨_, _, _, _, hrows, -⟩ := pullRequest_eq_ok h
      cases hrows
    case isFalse => exact h
  | assignments =>
    simp only [lose] at h
    split at h
    case isTrue =>
      obtain ⟨_, _, _, _, -, hpairs, -⟩ := pullRequest_eq_ok h
      cases hpairs
    case isFalse => exact h

theorem user_eq_ok {id : Text} {u : User} (h : s.user id = .ok u) :
    hand [id] = .ok () ∧ ∃ rows r, s.users = some rows ∧
      Rows.find? UserRow.id id rows = some r ∧ u = r.toUser := by
  obtain ⟨rows, hrows, h⟩ := ok_of_bind h
  obtain ⟨_, hhand, h⟩ := ok_of_bind h
  split at h
  case h_1 r hr =>
    cases h
    exact ⟨hhand, rows, r, (rows_eq_ok hrows).2, hr, rfl⟩
  case h_2 => cases h

theorem setActivity_eq_ok {u : User} (h : s.setActivity [u] = (.ok (), s')) :
    ∃ rows, s.progress = .going ∧ s.users = some rows ∧
      s' = { s with
        users := some (Rows.modify UserRow.id u.id (fun r => { r with active := u.active }) rows) } := by
  simp only [setActivity] at h
  split at h
  case h_1 s₁ hchange =>
    cases h
    exact change_eq_ok hchange
  case h_2 hfailed => exact absurd h (hfailed s')

instance : EnduringStore RelationalStore where
  pullRequest_lose h := pullRequest_of_lose h
  pullRequest_merged {s s' id p q t} hread hopened hwritten hback := by
    obtain ⟨rows, _, r, _, hrows, -, hr, rfl⟩ := pullRequest_eq_ok hread
    obtain ⟨rows', -, hrows', rfl⟩ := change_eq_ok hwritten
    obtain rfl : rows = rows' := Option.some.inj (hrows.symm.trans hrows')
    obtain ⟨rows', _, r', _, hrows', -, hr', rfl⟩ := pullRequest_eq_ok hback
    cases hrows'
    rw [Rows.find?_map PullRequestRow.id PullRequestRow.id _ (fun a => by split <;> rfl), hr] at hr'
    have hstatus : r.status = .opened := Status.eq_opened hopened
    have hr'' := (Option.some.inj hr').symm.trans (if_pos ⟨rfl, hstatus⟩)
    rw [hr'']
    rfl
  user_switched {s s' id u active} hread hwritten := by
    obtain ⟨hhand, rows, r, hrows, hr, rfl⟩ := user_eq_ok hread
    obtain ⟨rows', hgoing, hrows', rfl⟩ := setActivity_eq_ok hwritten
    obtain rfl : rows = rows' := Option.some.inj (hrows.symm.trans hrows')
    have hchanged : Rows.find? UserRow.id id
        (Rows.modify UserRow.id r.toUser.id (fun r => { r with active := active }) rows) =
        some { r with active := active } := Rows.find?_modify_of_find? hr fun _ => rfl
    show user (if s.progress = .going then _ else s) id = _
    rw [if_pos hgoing, user]
    simp only [RelationalStore.rows, hgoing, hhand, bind, Except.bind, hchanged]
    rfl

end RelationalStore
end ReviewDesk
