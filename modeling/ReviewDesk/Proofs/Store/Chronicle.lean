import ReviewDesk.Proofs.Chronicle
import ReviewDesk.Proofs.Store.Keyed
import ReviewDesk.Proofs.Store.Relational

/-!
# Both stores append what is saved

The keyed store appends a record, the relational store a row, and no operation changes the order of
those that are there.
-/
namespace ReviewDesk

namespace KeyedStore

theorem items_updatePullRequest (s : KeyedStore) (p : PullRequest) :
    (s.updatePullRequest p).items.map Item.id = s.items.map Item.id :=
  Rows.map_key_modify Item.id p.id _ (fun i => by split <;> rfl) s.items

theorem items_on {sh : Shape} {c : Call sh} {s s' : KeyedStore} {k k' : Clock} {a : sh.Answer}
    (h : c.on s k = ((.ok a, s'), k')) :
    s'.items.map Item.id = s.items.map Item.id ++ c.adds := by
  cases c with
  | savePullRequest p =>
    have hsave : s.savePullRequest p k = ((.ok a, s'), k') := h
    unfold savePullRequest at hsave
    split at hsave
    · cases hsave
    · split at hsave
      · cases hsave
      · cases hsave
        rw [List.map_append]
        rfl
  | saveTeam t =>
    have hsave : s.saveTeam t = (.ok a, s') := congrArg Prod.fst h
    unfold saveTeam at hsave
    split at hsave
    · cases hsave
    · cases hsave
      exact (List.append_nil _).symm
  | updatePullRequest p =>
    cases h
    exact (items_updatePullRequest s p).trans (List.append_nil _).symm
  | assign id ids =>
    have hassign : s.assign id ids = s' := congrArg (fun r => r.1.2) h
    rw [← hassign, assign]
    split
    · exact (List.append_nil _).symm
    · exact (List.append_nil _).symm
  | _ =>
    obtain rfl := congrArg (fun r => r.1.2) h
    exact (List.append_nil _).symm

instance : ChronicleStore KeyedStore where
  saved s := s.items
  saved_empty := rfl
  saved_on := items_on
  mem_saved := (mem_contents_items _ _).symm
  openPullRequests_eq {s team ps} h hps := by
    have hlisted : s.openPullRequests team = .ok ps := hps
    unfold openPullRequests latestFirst at hlisted
    split at hlisted
    · cases hlisted
      rw [List.filter_congr fun i _ => isOpenIn_eq h team i]
      rfl
    · cases hlisted

end KeyedStore

namespace RelationalStore

/-- The pull requests of the rows, in their order. -/
def recorded (s : RelationalStore) : List Item := (s.pullRequests.getD []).map item

theorem rows_of_insertion {α : Type} {s s' : RelationalStore} {operation : Text}
    {table : Option (List α)} {texts : List Text} {taken : List α → Bool} {refusal : Refusal}
    {f : List α → RelationalStore}
    (h : s.insertion operation table texts taken refusal f = (.ok (), s')) :
    ∃ rows, table = some rows ∧ s' = f rows := by
  unfold insertion at h
  split at h
  · cases hr : s.rows operation table with
    | error e =>
      rw [hr] at h
      cases h
    | ok rows =>
      rw [hr] at h
      rcases hand_cases texts with ⟨-, hh⟩ | ⟨-, gap, hh⟩
      · rw [hh] at h
        cases ht : taken rows with
        | true =>
          simp [ht, bind, Except.bind, throw, throwThe, MonadExceptOf.throw] at h
        | false =>
          simp [ht, bind, Except.bind, pure, Except.pure] at h
          exact ⟨rows, (rows_eq_ok hr).2, h.symm⟩
      · rw [hh] at h
        cases h
  · cases h
  · cases h

theorem recorded_setActivity {s s' : RelationalStore} {us : List User}
    (h : s.setActivity us = (.ok (), s')) : s'.recorded = s.recorded := by
  induction us generalizing s with
  | nil =>
    cases h
    rfl
  | cons u us ih =>
    unfold setActivity at h
    dsimp only at h
    split at h
    · next s₁ hchange =>
      obtain ⟨rows, -, -, rfl⟩ := change_eq_ok hchange
      have hrest := ih h
      exact hrest
    · next hfailed =>
      exact absurd h (hfailed s')

theorem recorded_on {sh : Shape} {c : Call sh} {s s' : RelationalStore} {k k' : Clock}
    {a : sh.Answer} (h : c.on s k = ((.ok a, s'), k')) :
    s'.recorded.map Item.id = s.recorded.map Item.id ++ c.adds := by
  have hsame (hs : s'.recorded = s.recorded) :
      s'.recorded.map Item.id = s.recorded.map Item.id ++ [] := by
    rw [hs, List.append_nil]
  cases c with
  | savePullRequest p =>
    have hsave : s.savePullRequest p k = ((.ok a, s'), k') := h
    unfold savePullRequest at hsave
    split at hsave
    · cases hsave
    · obtain ⟨rows, hrows, rfl⟩ := rows_of_insertion (congrArg Prod.fst hsave)
      simp [recorded, hrows, item, Call.adds]
  | saveTeam t =>
    obtain ⟨rows, -, rfl⟩ := rows_of_insertion (congrArg Prod.fst h)
    exact hsame rfl
  | putUsers us =>
    have hput : s.putUsers us = (.ok a, s') := congrArg Prod.fst h
    unfold putUsers at hput
    split at hput
    · cases hput
      exact hsame rfl
    · obtain ⟨rows, -, -, rfl⟩ := change_eq_ok hput
      exact hsame rfl
  | setActivity us => exact hsame (recorded_setActivity (congrArg Prod.fst h))
  | deactivate ids =>
    have hswitch : s.deactivate ids = (.ok a, s') := congrArg Prod.fst h
    unfold deactivate at hswitch
    split at hswitch
    · cases hswitch
      exact hsame rfl
    · obtain ⟨rows, -, -, rfl⟩ := change_eq_ok hswitch
      exact hsame rfl
  | updatePullRequest p =>
    obtain ⟨rows, -, hrows, rfl⟩ := change_eq_ok (congrArg Prod.fst h)
    simp only [recorded, hrows, Option.getD_some, List.map_map, Call.adds, List.append_nil]
    refine List.map_congr_left fun r _ => ?_
    simp only [Function.comp_apply]
    split <;> rfl
  | assign id ids =>
    have hassign : s.assign id ids = (.ok a, s') := congrArg Prod.fst h
    unfold assign at hassign
    split at hassign
    · cases hassign
      exact hsame rfl
    · obtain ⟨rows, -, -, rfl⟩ := change_eq_ok hassign
      exact hsame rfl
  | replaceReviewer id old new =>
    have hreplace : s.replaceReviewer id old new = (.ok a, s') := congrArg Prod.fst h
    unfold replaceReviewer at hreplace
    dsimp only at hreplace
    split at hreplace
    · next s₁ hchange =>
      obtain ⟨rows, -, -, rfl⟩ := change_eq_ok hchange
      obtain ⟨rows', -, -, rfl⟩ := change_eq_ok hreplace
      exact hsame rfl
    · next hfailed => exact absurd hreplace (hfailed s')
  | removeReviewer id old =>
    obtain ⟨rows, -, -, rfl⟩ := change_eq_ok (congrArg Prod.fst h)
    exact hsame rfl
  | _ =>
    obtain rfl := congrArg (fun r => r.1.2) h
    exact hsame rfl

instance : ChronicleStore RelationalStore where
  saved := recorded
  saved_empty := rfl
  saved_on := recorded_on
  mem_saved := List.mem_toFinset.symm
  openPullRequests_eq {s team ps} h hps := by
    cases h with | @intro teams users rows pairs hu hr hp hwt hwu hwr =>
    have hlisted : openPullRequests ⟨some teams, some users, some rows, some pairs, .going⟩ team =
        .ok ps := hps
    have hread : openPullRequests ⟨some teams, some users, some rows, some pairs, .going⟩ team = (do
        hand [team]
        return (Rows.latestFirst PullRequestRow.created (rows.filter fun r =>
          r.status = .opened && users.any fun u =>
            u.id = r.author && u.team = some team && u.active)).map
              fun r => r.withReviewers []) := rfl
    have hwanted (r : PullRequestRow) : (r.status = .opened && users.any fun u =>
        u.id = r.author && u.team = some team && u.active) =
          decide ((item r).status = .opened ∧ (item r).author ∈
            (contents ⟨some teams, some users, some rows, some pairs, .going⟩).active team) := by
      rw [Bool.eq_iff_iff, Bool.and_eq_true, any_user_iff, decide_eq_true_eq, decide_eq_true_eq]
      rfl
    rw [hread] at hlisted
    rcases hand_cases [team] with ⟨-, hh⟩ | ⟨-, gap, hh⟩
    · rw [hh, List.filter_congr fun r _ => hwanted r] at hlisted
      cases hlisted
      rw [recorded, Option.getD_some, List.filter_map, Rows.latestFirst_map PullRequestRow.created,
        List.map_map]
      · rfl
      · intro r _
        simp [item, Timestamp.instant]
    · rw [hh] at hlisted
      cases hlisted

end RelationalStore
end ReviewDesk
