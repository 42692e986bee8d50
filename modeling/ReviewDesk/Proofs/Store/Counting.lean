import ReviewDesk.Proofs.Counting
import ReviewDesk.Proofs.Store.Keyed
import ReviewDesk.Proofs.Store.Relational

/-!
# Both stores count what they hold

The keyed store counts its records, and the sets of reviewers that name a user. The relational store
counts rows and pairs, a pull request with as many reviewers as there are pairs with its id.
-/
namespace ReviewDesk

namespace KeyedStore

variable {s : KeyedStore}

theorem nodup_items (h : s.Sound) : s.items.Nodup := h.items.of_map Item.id

/-- The ids of the pull requests in whose sets a user is. -/
theorem mem_named_iff (h : s.Sound) (r id : Text) :
    id ∈ (s.assignments.filter fun a => r ∈ a.2).map Prod.fst ↔ r ∈ s.contents.reviewers id := by
  rw [contents_reviewers, List.mem_toFinset, assigned]
  simp only [List.mem_map, List.mem_filter, decide_eq_true_eq]
  cases hf : Rows.find? Prod.fst id s.assignments with
  | none =>
    have hnone := (Rows.find?_eq_none_iff Prod.fst id s.assignments).1 hf
    simp only [Option.map_none, Option.getD_none, List.not_mem_nil, iff_false]
    rintro ⟨a, ⟨ha, -⟩, rfl⟩
    exact hnone (List.mem_map_of_mem ha)
  | some b =>
    obtain ⟨hb, rfl⟩ := (Rows.find?_eq_some_iff Prod.fst id h.keys b).1 hf
    simp only [Option.map_some, Option.getD_some]
    constructor
    · rintro ⟨a, ⟨ha, hr⟩, hab⟩
      have hsame : a = b := List.inj_on_of_nodup_map h.keys ha hb hab
      exact hsame ▸ hr
    · intro hr
      exact ⟨b, ⟨hb, hr⟩, rfl⟩

theorem userCounts_eq (h : s.Sound) (hc : s.contents.Consistent) (id : Text) :
    s.userCounts id = s.contents.counts id := by
  have hids : ((s.assignments.filter fun a => id ∈ a.2).map Prod.fst).Nodup :=
    h.keys.sublist (List.filter_sublist.map Prod.fst)
  have hinj : Set.InjOn Item.id s.contents.items := LawfulStore.injOn_item (s := s) h
  rw [Contents.counts_of_list rfl (nodup_items h) hinj hc hids (mem_named_iff h id),
    List.length_map]
  rfl

/-- Sets of reviewers in which there is nobody do not add to their number. -/
theorem length_flatten_assigned (h : s.Sound) :
    ((s.items.map fun i => s.assigned i.id).filter (!·.isEmpty)).flatten.length =
      (s.items.map fun i => (s.contents.reviewers i.id).card).sum := by
  rw [List.flatten_filter_not_isEmpty, List.length_flatten, List.map_map]
  refine congrArg List.sum (List.map_congr_left fun i _ => ?_)
  exact (List.toFinset_card_of_nodup (nodup_assigned h i.id)).symm

theorem totals_eq (h : s.Sound) : s.totals = s.contents.totals := by
  have hreviewed : ((s.items.map fun i => s.assigned i.id).filter (!·.isEmpty)).length =
      (s.items.filter fun i => (s.contents.reviewers i.id).Nonempty).length := by
    rw [List.filter_map, List.length_map]
    refine congrArg List.length (List.filter_congr fun i _ => Bool.eq_iff_iff.2 ?_)
    simp [List.toFinset_nonempty_iff]
  rw [Contents.totals_of_list rfl (nodup_items h), ← length_flatten_assigned h, ← hreviewed]
  rfl

theorem reviewedBy_listing (h : s.Sound) (id : Text) (hc : s.contents.Comparable) : Listing True
    (fun ps => (ps.map PullRequest.id).Nodup ∧
      ∀ p, p ∈ ps ↔ ∃ i ∈ s.contents.reviewedBy id, p = s.contents.shown i)
    (s.reviewedBy id) := by
  obtain ⟨hnodup, hmem⟩ := Rows.listed_latestFirst Item.id PullRequest.id s.view (fun _ => rfl)
    (fun i => i.created.instant) (fun i => id ∈ s.assigned i.id) h.items
  refine .inl ⟨trivial, _, ?_, hnodup, fun p => (hmem p).trans ?_⟩
  · rw [reviewedBy, latestFirst, comparable_filter hc, if_pos rfl]
    rfl
  · simp [Contents.reviewedBy, view_eq h, and_assoc]

instance : CountingStore KeyedStore where
  reviewedBy_listing id h hc := reviewedBy_listing h id hc
  userCounts_listing id h hc := .inl ⟨trivial, _, rfl, userCounts_eq h hc id⟩
  totals_eq h := congrArg Except.ok (totals_eq h)
  savePullRequest_denied {s} p k _ _ hid :=
    ⟨_, s, savePullRequest_taken s p k hid, .inl ⟨⟨trivial, trivial, trivial⟩, rfl⟩⟩

end KeyedStore

namespace RelationalStore

variable {teams : List Text} {users : List UserRow} {rows : List PullRequestRow}
    {pairs : List AssignmentRow}

section Rows

variable (h : Sound ⟨some teams, some users, some rows, some pairs, .going⟩)

include h

theorem nodup_item : (rows.map item).Nodup := by
  cases h with | intro _ hrows _ _ _ _ =>
  exact (List.Nodup.of_map PullRequestRow.id hrows).map_on
    fun r hr q hq hrq => List.inj_on_of_nodup_map hrows hr hq (congrArg Item.id hrq)

theorem card_reviewers (id : Text) :
    ((contents ⟨some teams, some users, some rows, some pairs, .going⟩).reviewers id).card =
      (pairs.filter fun a => a.pullRequest = id).length := by
  cases h with | intro _ _ hpairs _ _ _ =>
  exact (List.toFinset_card_of_nodup (nodup_reviewers hpairs id)).trans (List.length_map _)

theorem userCounts_eq
    (hc : (contents ⟨some teams, some users, some rows, some pairs, .going⟩).Consistent)
    (id : Text) :
    (⟨id, (rows.filter fun r => r.author = id).length,
        (pairs.filter fun a => a.reviewer = id).length,
        ((rows.filter fun r => r.author = id).filter fun r => r.status = .merged).length⟩ :
      UserCounts) =
      (contents ⟨some teams, some users, some rows, some pairs, .going⟩).counts id := by
  have hinj : Set.InjOn Item.id
      (contents ⟨some teams, some users, some rows, some pairs, .going⟩).items :=
    LawfulStore.injOn_item (σ := RelationalStore) h
  have hnodup := nodup_item h
  cases h with | intro _ _ hpairs _ _ _ =>
  rw [Contents.counts_of_list rfl hnodup hinj hc (nodup_reviewed hpairs id) fun k =>
    (mem_reviewed_iff pairs id k).trans (mem_contents_reviewers k id).symm]
  simp only [List.filter_map, List.length_map]
  rfl

omit h in
theorem mem_groups_iff (id : Text) : id ∈ (pairs.map AssignmentRow.pullRequest).eraseDups ↔
    ((contents ⟨some teams, some users, some rows, some pairs, .going⟩).reviewers id).Nonempty := by
  rw [List.mem_eraseDups, List.mem_map]
  constructor
  · rintro ⟨a, ha, rfl⟩
    exact ⟨a.reviewer, (mem_contents_reviewers _ _).2 ha⟩
  · rintro ⟨r, hr⟩
    exact ⟨⟨id, r⟩, (mem_contents_reviewers id r).1 hr, rfl⟩

/-- Rows without pairs do not add to the number of reviewers. -/
theorem length_flatten_pairs :
    ((rows.filter fun r => r.id ∈ (pairs.map AssignmentRow.pullRequest).eraseDups).map
        fun r => pairs.filter fun a => a.pullRequest = r.id).flatten.length =
      ((rows.map item).map fun i =>
        ((contents ⟨some teams, some users, some rows, some pairs, .going⟩).reviewers
          i.id).card).sum := by
  let grouped (r : PullRequestRow) : Prop :=
    r.id ∈ (pairs.map AssignmentRow.pullRequest).eraseDups
  let count (r : PullRequestRow) : Nat := (pairs.filter fun a => a.pullRequest = r.id).length
  have hnone : ((rows.filter fun r => ¬ grouped r).map count).sum = 0 := by
    refine List.sum_eq_zero fun n hn => ?_
    obtain ⟨r, hr, rfl⟩ := List.mem_map.1 hn
    have hr' : ¬ grouped r := by simpa using (List.mem_filter.1 hr).2
    refine (card_reviewers h r.id).symm.trans (Finset.card_eq_zero.2 ?_)
    exact Finset.not_nonempty_iff_eq_empty.1 fun hne => hr' ((mem_groups_iff r.id).2 hne)
  have hsplit := List.sum_map_filter_add_sum_map_filter_not grouped count rows
  rw [hnone, add_zero] at hsplit
  rw [List.length_flatten, List.map_map, List.map_map]
  refine hsplit.trans (congrArg List.sum (List.map_congr_left fun r _ => ?_))
  exact (card_reviewers h r.id).symm

theorem totals_eq :
    totals ⟨some teams, some users, some rows, some pairs, .going⟩ =
      .ok (contents ⟨some teams, some users, some rows, some pairs, .going⟩).totals := by
  have hgroups (r : PullRequestRow) :
      decide (r.id ∈ (pairs.map AssignmentRow.pullRequest).eraseDups) = decide
        ((contents ⟨some teams, some users, some rows, some pairs, .going⟩).reviewers
          (item r).id).Nonempty :=
    decide_eq_decide.2 (mem_groups_iff r.id)
  rw [Contents.totals_of_list rfl (nodup_item h), ← length_flatten_pairs h]
  simp only [totals, RelationalStore.rows, bind, Except.bind, List.filter_map, List.length_map,
    Function.comp_def, ← hgroups]
  rfl

/-- The rows of the pull requests that a user reviews, latest first. -/
theorem reviewedBy_listing (id : Text) : Listing (Writable id)
    (fun ps => (ps.map PullRequest.id).Nodup ∧ ∀ p, p ∈ ps ↔
      ∃ i ∈ (contents ⟨some teams, some users, some rows, some pairs, .going⟩).reviewedBy id,
        p = (contents ⟨some teams, some users, some rows, some pairs, .going⟩).shown i)
    (reviewedBy ⟨some teams, some users, some rows, some pairs, .going⟩ id) := by
  cases h with | intro _ hrows hpairs _ _ _ =>
  obtain ⟨hnodup, hmem⟩ := Rows.listed_latestFirst PullRequestRow.id PullRequest.id
    (fun r => r.withReviewers (reviewersIn pairs r.id)) (fun _ => rfl) PullRequestRow.created
    (fun r => (AssignmentRow.mk r.id id) ∈ pairs) hrows
  refine listing_of_hand (by simp) ⟨hnodup, fun p => (hmem p).trans ?_⟩
  simp only [Contents.reviewedBy, Finset.mem_filter, mem_contents_items, mem_contents_reviewers,
    decide_eq_true_eq]
  constructor
  · rintro ⟨r, hr, ha, rfl⟩
    exact ⟨item r, ⟨⟨r, hr, rfl⟩, ha⟩, congrArg (item r).withReviewers (reviewersIn_eq hpairs r.id)⟩
  · rintro ⟨_, ⟨⟨r, hr, rfl⟩, ha⟩, rfl⟩
    exact ⟨r, hr, ha, congrArg (item r).withReviewers (reviewersIn_eq hpairs r.id).symm⟩

end Rows

instance : CountingStore RelationalStore where
  reviewedBy_listing id h _ := by
    cases h with | intro hu hr hp hwt hwu hwr =>
    exact reviewedBy_listing (.intro hu hr hp hwt hwu hwr) id
  userCounts_listing id h hc := by
    cases h with | intro hu hr hp hwt hwu hwr =>
    have hadmits : (∀ t ∈ [id], Writable t) ↔ Writable id := by simp
    exact listing_of_hand hadmits (userCounts_eq (.intro hu hr hp hwt hwu hwr) hc id)
  totals_eq h := by
    cases h with | intro hu hr hp hwt hwu hwr =>
    exact totals_eq (.intro hu hr hp hwt hwu hwr)
  savePullRequest_denied p k h hc hid := savePullRequest_taken h p k hc hid

end RelationalStore
end ReviewDesk
