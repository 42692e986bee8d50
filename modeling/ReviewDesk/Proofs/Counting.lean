import Mathlib.Algebra.Group.Action.Defs
import Mathlib.Combinatorics.Enumerative.DoubleCounting
import ReviewDesk.Proofs.Consistent
import ReviewDesk.Proofs.Looking

/-!
# Counting what a store holds

How many pull requests there are, by status, by author and by reviewer. Where the contents are
consistent the counts balance: what is counted user by user adds up to what is counted over all pull
requests, since each has one author, who is there, and each of its reviewers is there.
-/
namespace ReviewDesk

open Finset

namespace Contents

/-- The pull requests that somebody reviews. -/
def reviewedBy (c : Contents) (id : Text) : Finset Item :=
  c.items.filter fun i => id ∈ c.reviewers i.id

/-- The pull requests that are reviewed at all. -/
def reviewed (c : Contents) : Finset Item := c.items.filter fun i => (c.reviewers i.id).Nonempty

/-- The pull requests of one status. -/
def ofStatus (c : Contents) (s : Status) : Finset Item := c.items.filter fun i => i.status = s

/-- How many pull requests a user wrote, reviews, and wrote and saw merged. -/
def counts (c : Contents) (id : Text) : UserCounts :=
  ⟨id, #{i ∈ c.items | i.author = id}, #(c.reviewedBy id), #{i ∈ c.ofStatus .merged | i.author = id}⟩

/-- How many reviewers are assigned, over all pull requests. -/
def assigned (c : Contents) : Nat := ∑ i ∈ c.items, #(c.reviewers i.id)

/-- Counts over all pull requests. -/
def totals (c : Contents) : Totals :=
  ⟨#c.items, #(c.ofStatus .opened), #(c.ofStatus .merged), c.assigned, #c.reviewed⟩

variable {c : Contents}

theorem totals_total (c : Contents) : c.totals.total = c.totals.opened + c.totals.merged := by
  have hrest : c.items.filter (fun i => ¬ i.status = .opened) = c.ofStatus .merged :=
    filter_congr fun i _ => by cases i.status <;> simp
  have hsplit := card_filter_add_card_filter_not (s := c.items) fun i => i.status = .opened
  rw [hrest] at hsplit
  exact hsplit.symm

/-- Each pull request is counted with its author. -/
theorem sum_created (h : c.Consistent) :
    ∑ id ∈ c.userIds, (c.counts id).created = c.totals.total :=
  (card_eq_sum_card_fiberwise fun i hi => h.author_mem i hi).symm

theorem sum_merged (h : c.Consistent) :
    ∑ id ∈ c.userIds, (c.counts id).merged = c.totals.merged :=
  (card_eq_sum_card_fiberwise fun i hi => h.author_mem i (mem_of_mem_filter i hi)).symm

/-- Each reviewer of a pull request is counted with that pull request. -/
theorem sum_reviewed (h : c.Consistent) :
    ∑ id ∈ c.userIds, (c.counts id).reviewed = c.totals.assigned := by
  have hbelow : ∀ i ∈ c.items, #{id ∈ c.userIds | id ∈ c.reviewers i.id} = #(c.reviewers i.id) := by
    intro i _
    have hsub := h.reviewers_subset i.id
    rw [filter_mem_eq_inter, inter_eq_right.2 hsub]
  calc ∑ id ∈ c.userIds, (c.counts id).reviewed
      = ∑ id ∈ c.userIds, #{i ∈ c.items | id ∈ c.reviewers i.id} := rfl
    _ = ∑ i ∈ c.items, #{id ∈ c.userIds | id ∈ c.reviewers i.id} :=
      sum_card_bipartiteAbove_eq_sum_card_bipartiteBelow fun id (i : Item) => id ∈ c.reviewers i.id
    _ = c.totals.assigned := sum_congr rfl hbelow

/-- Who reviews is counted where there is somebody to be counted. -/
theorem assigned_eq (c : Contents) : c.assigned = ∑ i ∈ c.reviewed, #(c.reviewers i.id) := by
  refine (sum_filter_of_ne fun i _ hne => ?_).symm
  exact card_pos.1 (Nat.pos_of_ne_zero hne)

/-- A pull request that is reviewed at all has one reviewer or two. -/
theorem assigned_bounds (h : c.Consistent) :
    c.totals.reviewed ≤ c.totals.assigned ∧ c.totals.assigned ≤ 2 * c.totals.reviewed := by
  show #c.reviewed ≤ c.assigned ∧ c.assigned ≤ 2 * #c.reviewed
  rw [assigned_eq]
  constructor
  · refine card_eq_sum_ones c.reviewed ▸ sum_le_sum fun i hi => ?_
    exact card_pos.2 (mem_filter.1 hi).2
  · rw [mul_comm, ← smul_eq_mul]
    exact sum_le_card_nsmul _ _ _ fun i hi => h.card_le i (mem_filter.1 hi).1

/-- A user who reviews is counted as often as there are ids of pull requests that the user
reviews. -/
theorem card_reviewedBy (hinj : Set.InjOn Item.id c.items) (h : c.Consistent) {r : Text}
    {ids : List Text} (hn : ids.Nodup) (hids : ∀ id, id ∈ ids ↔ r ∈ c.reviewers id) :
    #(c.reviewedBy r) = ids.length := by
  have himage : (c.reviewedBy r).image Item.id = ids.toFinset := by
    ext id
    simp only [reviewedBy, mem_image, mem_filter, List.mem_toFinset, hids]
    constructor
    · rintro ⟨i, ⟨-, hr⟩, rfl⟩
      exact hr
    · intro hr
      obtain ⟨i, hi, rfl⟩ := (c.mem_itemIds id).1 (h.reviewed id ⟨r, hr⟩)
      exact ⟨i, ⟨hi, hr⟩, rfl⟩
  have hinj' : Set.InjOn Item.id (c.reviewedBy r) :=
    hinj.mono fun i hi => mem_of_mem_filter i hi
  rw [← card_image_of_injOn hinj', himage, List.toFinset_card_of_nodup hn]

section Lists

variable {l : List Item}

theorem card_filter_toFinset (hn : l.Nodup) (p : Item → Prop) [DecidablePred p] :
    #{i ∈ l.toFinset | p i} = (l.filter p).length := by
  have hlist : l.toFinset.filter p = (l.filter p).toFinset := by
    ext i
    simp
  rw [hlist, List.toFinset_card_of_nodup (hn.filter _)]

/-- Counts over a list of all pull requests. -/
theorem totals_of_list (hl : c.items = l.toFinset) (hn : l.Nodup) : c.totals =
    ⟨l.length, (l.filter fun i => i.status = .opened).length,
      (l.filter fun i => i.status = .merged).length, (l.map fun i => #(c.reviewers i.id)).sum,
      (l.filter fun i => (c.reviewers i.id).Nonempty).length⟩ := by
  simp only [totals, ofStatus, assigned, reviewed, hl, card_filter_toFinset hn,
    List.toFinset_card_of_nodup hn, List.sum_toFinset _ hn]

/-- The counts for a user over a list of all pull requests and one of the ids of those that the user
reviews. -/
theorem counts_of_list (hl : c.items = l.toFinset) (hn : l.Nodup) (hinj : Set.InjOn Item.id c.items)
    (h : c.Consistent) {r : Text} {ids : List Text} (hids : ids.Nodup)
    (hmem : ∀ id, id ∈ ids ↔ r ∈ c.reviewers id) : c.counts r =
    ⟨r, (l.filter fun i => i.author = r).length, ids.length,
      ((l.filter fun i => i.author = r).filter fun i => i.status = .merged).length⟩ := by
  have hmerged : {i ∈ c.ofStatus .merged | i.author = r} =
      {i ∈ c.items | i.status = .merged ∧ i.author = r} := filter_filter _ _ _
  rw [counts, card_reviewedBy hinj h hids hmem, hmerged, hl, card_filter_toFinset hn,
    card_filter_toFinset hn, List.filter_filter]
  simp

end Lists

end Contents

open LawfulStore

/-- A lawful store that also counts what it holds, and that denies a pull request under an id that
is taken for just that reason. -/
class CountingStore (σ : Type) [Gateway σ] [LawfulStore σ] : Prop where
  reviewedBy_listing : ∀ {s : σ} id, Sound s → (contents s).Comparable → Listing (Admits σ id)
    (fun ps => (ps.map PullRequest.id).Nodup ∧
      ∀ p, p ∈ ps ↔ ∃ i ∈ (contents s).reviewedBy id, p = (contents s).shown i)
    (Gateway.reviewedBy id s)
  userCounts_listing : ∀ {s : σ} id, Sound s → (contents s).Consistent →
    Listing (Admits σ id) (fun n => n = (contents s).counts id) (Gateway.userCounts id s)
  totals_eq : ∀ {s : σ}, Sound s → Gateway.totals s = .ok (contents s).totals
  savePullRequest_denied : ∀ {s : σ} p k, Sound s → p.created.isSome →
    p.id ∈ (contents s).itemIds → ∃ e s', Gateway.savePullRequest p s k = ((.error e, s'), k) ∧
      Denied (Admits σ p.id ∧ Admits σ p.name ∧ Admits σ p.author) .pullRequestExists e

section Asking

open Job

variable {σ : Type} [Gateway σ] [LawfulStore σ] [CountingStore σ] {w : World σ}

/-- Counting over all pull requests never fails. -/
theorem looks_totals (hw : w.faults = []) (hs : Sound w.store) :
    (ask .outside .totals : Job σ (Given Totals)).Looks w
      (fun g => g = .own (contents w.store).totals) (fun _ => False) := by
  have hon : Call.totals.on w.store w.clock =
      ((.ok (contents w.store).totals, w.store), w.clock) := by
    rw [Call.on, CountingStore.totals_eq hs]
  exact .inl ⟨.own (contents w.store).totals, ask_outside .totals hw hon nofun, rfl⟩

/-- The pull requests of a reviewer who is there are listed. -/
theorem looks_reviewedBy (hw : w.faults = []) (hs : Sound w.store)
    (hc : (contents w.store).Comparable) (id : Text) :
    (Review.reviewedBy id).Looks w
      (fun g => id ∈ (contents w.store).userIds ∧ ∃ ps, g = .own ps ∧
        (ps.map PullRequest.id).Nodup ∧
        ∀ p, p ∈ ps ↔ ∃ i ∈ (contents w.store).reviewedBy id, p = (contents w.store).shown i)
      (fun e => id ∉ (contents w.store).userIds ∧ Denied (Admits σ id) .userNotFound e) := by
  refine (Undertaking.looks_user hw hs id).bind ?_
  rintro _ ⟨v, hv, rfl, rfl⟩
  have hid : v.id ∈ (contents w.store).userIds :=
    ((contents w.store).mem_userIds v.id).2 ⟨v, hv, rfl⟩
  exact looks_listing hw (fun _ => rfl) (CountingStore.reviewedBy_listing v.id hs hc)
    (fun ps hps => ⟨hid, ps, rfl, hps⟩) fun hn _ => absurd (admits_user hs v.id hid) hn

/-- A user who is there is counted for. -/
theorem looks_countsOf (hw : w.faults = []) (hs : Sound w.store)
    (hc : (contents w.store).Consistent) (id : Text) :
    (Review.countsOf id).Looks w
      (fun g => id ∈ (contents w.store).userIds ∧ g = .own ((contents w.store).counts id))
      (fun e => id ∉ (contents w.store).userIds ∧ Denied (Admits σ id) .userNotFound e) := by
  refine (Undertaking.looks_user hw hs id).bind ?_
  rintro _ ⟨v, hv, rfl, rfl⟩
  have hid : v.id ∈ (contents w.store).userIds :=
    ((contents w.store).mem_userIds v.id).2 ⟨v, hv, rfl⟩
  exact looks_listing hw (fun _ => rfl) (CountingStore.userCounts_listing v.id hs hc)
    (fun _ hn => ⟨hid, congrArg Given.own hn⟩) fun hn _ => absurd (admits_user hs v.id hid) hn

end Asking
end ReviewDesk
