import ReviewDesk.Proofs.Average
import ReviewDesk.Proofs.Turns

/-!
# The counts balance

What the answers tell is what the store holds: as many pull requests are there as were opened, and
those are merged whose merge was answered. So the counts over all pull requests, those user by user
and the history of answers agree with each other.
-/
namespace ReviewDesk

open LawfulStore

/-- Whether an answer tells that a pull request was opened. -/
def opens : UseCase × Answer → Bool
  | (.opening _ _ _, .ok _) => true
  | _ => false

/-- The pull request that an answer tells to be merged. -/
def merges? : UseCase × Answer → Option Text
  | (.merge id, .ok _) => some id
  | _ => none

/-- The ids of the pull requests that are told to be merged. -/
def mergesTold (answers : List (UseCase × Answer)) : Finset Text :=
  (answers.filterMap merges?).toFinset

namespace Contents

/-- The ids of the pull requests that are merged. -/
def mergedIds (c : Contents) : Finset Text := (c.ofStatus .merged).image Item.id

variable {c c' : Contents}

theorem mem_mergedIds (c : Contents) (id : Text) :
    id ∈ c.mergedIds ↔ ∃ i ∈ c.items, i.id = id ∧ i.status = .merged := by
  simp only [mergedIds, ofStatus, Finset.mem_image, Finset.mem_filter]
  constructor
  · rintro ⟨i, ⟨hi, hm⟩, hid⟩
    exact ⟨i, hi, hid, hm⟩
  · rintro ⟨i, hi, hid, hm⟩
    exact ⟨i, ⟨hi, hm⟩, hid⟩

theorem mergedIds_congr (h : c'.items = c.items) : c'.mergedIds = c.mergedIds := by
  rw [mergedIds, mergedIds, ofStatus, ofStatus, h]

theorem ShowsMerged.mem_mergedIds {id : Text} {r : Reply} (h : c.ShowsMerged id r) :
    id ∈ c.mergedIds := by
  obtain ⟨i, hi, hid, hm, -⟩ := h
  exact (c.mem_mergedIds id).2 ⟨i, hi, hid, hm⟩

theorem card_mergedIds (hinj : Set.InjOn Item.id c.items) :
    c.mergedIds.card = c.totals.merged :=
  Finset.card_image_of_injOn (hinj.mono fun _ hi => Finset.mem_of_mem_filter _ hi)

/-- An open pull request under a new id is one more, and merged are the same. -/
theorem addItem_counts {i : Item} (hid : i.id ∉ c.itemIds) (hs : i.status = .opened) :
    (c.addItem i).items.card = c.items.card + 1 ∧ (c.addItem i).mergedIds = c.mergedIds := by
  have hnew : i ∉ c.items := fun hi => hid ((c.mem_itemIds i.id).2 ⟨i, hi, rfl⟩)
  refine ⟨Finset.card_insert_of_notMem hnew, ?_⟩
  ext id
  simp [mem_mergedIds, hs]

/-- Merging an open pull request leaves as many, and merged is this one besides. -/
theorem updateItem_counts (hinj : Set.InjOn Item.id c.items) (id : Text) (t : Timestamp)
    (hmem : id ∈ (c.updateItem id fun i => { i with status := .merged, merged := some t }).mergedIds) :
    (c.updateItem id fun i => { i with status := .merged, merged := some t }).items.card =
        c.items.card ∧
      (c.updateItem id fun i => { i with status := .merged, merged := some t }).mergedIds =
        insert id c.mergedIds := by
  constructor
  · refine Finset.card_image_of_injOn fun i hi j hj hij => hinj hi hj ?_
    have hid := congrArg Item.id hij
    simp only [apply_ite Item.id, ite_self] at hid
    exact hid
  · ext k
    rw [Finset.mem_insert]
    constructor
    · intro hk
      simp only [mem_mergedIds, mem_updateItem] at hk ⊢
      obtain ⟨_, ⟨i, hi, rfl⟩, hid, hm⟩ := hk
      by_cases hopen : i.id = id ∧ i.status = .opened
      · rw [if_pos hopen] at hid
        exact .inl (hid.symm.trans hopen.1)
      · rw [if_neg hopen] at hid hm
        exact .inr ⟨i, hi, hid, hm⟩
    · rintro (rfl | hk)
      · exact hmem
      · obtain ⟨i, hi, hid, hm⟩ := (c.mem_mergedIds k).1 hk
        have hkeep : i ∈
            (c.updateItem id fun i => { i with status := .merged, merged := some t }).items := by
          refine (mem_updateItem _ _ _ _).2 ⟨i, hi, if_neg ?_⟩
          rintro ⟨-, hopen⟩
          rw [hm] at hopen
          cases hopen
        exact (mem_mergedIds _ k).2 ⟨i, hkeep, hid, hm⟩

end Contents

namespace Scene

variable {σ : Type} [Gateway σ] [LawfulStore σ]

/-- Each answer tells what it does to the counts. -/
theorem Answered.counts {k : Clock} {c c' : Contents} {u : UseCase} {a : Answer}
    (h : Answered σ k c u c' a) (hinj : Set.InjOn Item.id c.items) :
    c'.items.card = c.items.card + (opens (u, a)).toNat ∧
      c'.mergedIds = c.mergedIds ∪ (merges? (u, a)).toFinset := by
  -- Whatever else is answered leaves the pull requests as they are.
  have hsame {c' : Contents} {p : UseCase × Answer} (hitems : c'.items = c.items)
      (hopens : opens p = false) (hmerges : merges? p = none) :
      c'.items.card = c.items.card + (opens p).toNat ∧
        c'.mergedIds = c.mergedIds ∪ (merges? p).toFinset := by
    rw [hopens, hmerges, hitems, Contents.mergedIds_congr hitems]
    simp
  cases h with
  | failed he => exact hsame rfl (by cases u <;> rfl) (by cases u <;> rfl)
  | @atOnce r hr =>
    cases u with
    | opening id name author => exact hr.elim
    | merge id =>
      have hmem : id ∈ c.mergedIds := Contents.ShowsMerged.mem_mergedIds hr
      refine ⟨rfl, (Finset.union_eq_left.2 ?_).symm⟩
      simpa [merges?] using hmem
    | _ => exact hsame rfl rfl rfl
  | @carriedOut t now _ r hu he hshown =>
    cases u with
    | found team =>
      obtain rfl := hu
      obtain ⟨-, rfl⟩ := he
      exact hsame (Contents.putUsers_items _ _) rfl rfl
    | depart name users =>
      obtain rfl := hu
      exact hsame he.2.2.1 rfl rfl
    | departAll name =>
      obtain ⟨leaving, rfl⟩ := hu
      exact hsame he.2.2.1 rfl rfl
    | switch user active =>
      obtain rfl := hu
      obtain rfl := he
      exact hsame rfl rfl rfl
    | opening id name author =>
      obtain ⟨reviewers, rfl⟩ := hu
      obtain ⟨hid, rfl⟩ := he
      obtain ⟨hcard, hmerged⟩ := Contents.addItem_counts (c := c)
        (i := ⟨id, name, author, .opened, keep σ now, none⟩) hid rfl
      refine ⟨hcard, ?_⟩
      rw [Contents.mergedIds_congr (Contents.setReviewers_items _ _ _), hmerged]
      simp [merges?]
    | merge id =>
      obtain rfl := hu
      have hmem := (hshown id rfl).mem_mergedIds
      rcases he with rfl | rfl
      · refine ⟨rfl, (Finset.union_eq_left.2 ?_).symm⟩
        simpa [merges?] using hmem
      · obtain ⟨hcard, hmerged⟩ := Contents.updateItem_counts hinj id _ hmem
        refine ⟨hcard, ?_⟩
        rw [hmerged]
        simp [merges?]
    | reassign id old =>
      obtain rfl := hu
      obtain ⟨i, -, -, -, -, joining, -, -, rfl⟩ := he
      exact hsame rfl rfl rfl
    | _ => exact hu.elim

variable [CountingStore σ] {x : Scene σ}

/-- The answers tell how many pull requests there are, and which of them are merged. -/
theorem told_of_turns {draws : Draws} {clock : Clock} {level : Level}
    (h : Turns (initial σ draws clock level) x) :
    x.answers.countP opens = (contents x.world.store).items.card ∧
      mergesTold x.answers = (contents x.world.store).mergedIds := by
  refine ((regular_initial draws clock level).turns (P := fun answers c =>
    answers.countP opens = c.items.card ∧ mergesTold answers = c.mergedIds) h ?_ ?_).2
  · have hempty : (initial σ draws clock level).world.store = Gateway.empty :=
      (World.like_initial draws clock level).store
    rw [hempty, contents_empty]
    exact ⟨rfl, rfl⟩
  · rintro answers k c u c' a hinj ha ⟨hopens, hmerges⟩
    obtain ⟨hcard, hmerged⟩ := ha.counts hinj
    constructor
    · rw [List.countP_append, hopens, hcard]
      cases hone : opens (u, a) <;> simp [hone]
    · rw [hmerged, ← hmerges, mergesTold, mergesTold, List.filterMap_append, List.toFinset_append]
      cases hone : merges? (u, a) <;> simp [hone]

end Scene

section Reading

open Job

variable {σ : Type} [Gateway σ] [LawfulStore σ] [CountingStore σ] {w : World σ}

/-- Counting over all pull requests leaves the world as it is. -/
theorem run_totals (hw : w.faults = []) (hs : Sound w.store) :
    UseCase.totals.run w = (.ok (.totals (contents w.store).totals), w) := by
  rcases looks_totals hw hs with ⟨g, hask, rfl⟩ | ⟨e, -, hfalse⟩
  · rw [UseCase.run, UseCase.plan, bind_apply, bind_apply, Review.totals, hask]
    rfl
  · exact hfalse.elim

/-- A user who is there gets counts. -/
theorem run_countsOf (hw : w.faults = []) (hs : Sound w.store)
    (hc : (contents w.store).Consistent) {id : Text} (hid : id ∈ (contents w.store).userIds) :
    (UseCase.countsOf id).run w = (.ok (.userCounts ((contents w.store).counts id)), w) := by
  rcases looks_countsOf hw hs hc id with ⟨g, hask, -, rfl⟩ | ⟨e, -, hn, -⟩
  · rw [UseCase.run, UseCase.plan, bind_apply, bind_apply, hask]
    rfl
  · exact absurd hid hn

/-- A user who is there gets as many pull requests to review as are counted. -/
theorem run_reviewedBy (hw : w.faults = []) (hs : Sound w.store)
    (hc : (contents w.store).Comparable) {id : Text} (hid : id ∈ (contents w.store).userIds) :
    ∃ ps, (UseCase.reviewedBy id).run w = (.ok (.pullRequests ps), w) ∧
      ps.length = ((contents w.store).counts id).reviewed := by
  rcases looks_reviewedBy hw hs hc id with ⟨g, hask, -, ps, rfl, hnodup, hmem⟩ | ⟨e, -, hn, -⟩
  · refine ⟨ps, ?_, ?_⟩
    · rw [UseCase.run, UseCase.plan, bind_apply, bind_apply, hask]
      rfl
    · have himage : (ps.map PullRequest.id).toFinset =
          ((contents w.store).reviewedBy id).image Item.id := by
        ext k
        simp only [List.mem_toFinset, List.mem_map, hmem, Finset.mem_image]
        constructor
        · rintro ⟨_, ⟨i, hi, rfl⟩, rfl⟩
          exact ⟨i, hi, rfl⟩
        · rintro ⟨i, hi, rfl⟩
          exact ⟨_, ⟨i, hi, rfl⟩, rfl⟩
      have hinj : Set.InjOn Item.id ((contents w.store).reviewedBy id) :=
        (injOn_item hs).mono fun _ hi => Finset.mem_of_mem_filter _ hi
      calc ps.length = (ps.map PullRequest.id).length := (List.length_map _).symm
        _ = (ps.map PullRequest.id).toFinset.card := (List.toFinset_card_of_nodup hnodup).symm
        _ = ((contents w.store).counts id).reviewed := by
          rw [himage, Finset.card_image_of_injOn hinj]
          rfl
  · exact absurd hid hn

end Reading

namespace Scene

variable {σ : Type} [Gateway σ] [LawfulStore σ] [CountingStore σ] {x : Scene σ}

/-- Counts over all pull requests and counts user by user, as they are read in a scene, balance with
each other, with what the store holds and with what was answered. -/
structure Balances (x : Scene σ) (t : Totals) (n : Text → UserCounts) : Prop where
  totals : UseCase.totals.run x.world = (.ok (.totals t), x.world)
  countsOf : ∀ id ∈ (contents x.world.store).userIds,
    (UseCase.countsOf id).run x.world = (.ok (.userCounts (n id)), x.world)
  total : t.total = t.opened + t.merged
  opens : t.total = x.answers.countP opens
  merges : t.merged = (mergesTold x.answers).card
  sum_created : ∑ id ∈ (contents x.world.store).userIds, (n id).created = t.total
  sum_merged : ∑ id ∈ (contents x.world.store).userIds, (n id).merged = t.merged
  sum_reviewed : ∑ id ∈ (contents x.world.store).userIds, (n id).reviewed =
    ∑ i ∈ (contents x.world.store).items, ((contents x.world.store).reviewers i.id).card
  mean_mul : t.mean * (contents x.world.store).reviewed.card =
    (∑ i ∈ (contents x.world.store).items, ((contents x.world.store).reviewers i.id).card : ℕ)
  mean_eq_zero : (contents x.world.store).reviewed = ∅ →
    t.mean = 0 ∧ t.average = .ofRatio false 0 1
  mean_bounds : (contents x.world.store).reviewed.Nonempty → (1 ≤ t.mean ∧ t.mean ≤ 2) ∧
    (Binary64.ofRatio false 1 1).bits ≤ t.average.bits ∧
    t.average.bits ≤ (Binary64.ofRatio false 2 1).bits
  reviewedBy : ∀ id ∈ (contents x.world.store).userIds,
    ∃ ps, (UseCase.reviewedBy id).run x.world = (.ok (.pullRequests ps), x.world) ∧
      ps.length = (n id).reviewed

/-- Requests come and go in any order, from an empty store on. At any moment the counts can be read,
and they balance. -/
theorem turns_balance {draws : Draws} {clock : Clock} {level : Level}
    (h : Turns (initial σ draws clock level) x) : ∃ t n, x.Balances t n := by
  have ho := (regular_of_turns h).orderly
  have hw := ho.faults
  have hs := ho.sound
  have hc := ho.consistent
  obtain ⟨hopens, hmerges⟩ := told_of_turns h
  obtain ⟨hlow, hhigh⟩ := Contents.assigned_bounds hc
  refine ⟨(contents x.world.store).totals, (contents x.world.store).counts, ?_⟩
  exact {
    totals := run_totals hw hs
    countsOf := fun id hid => run_countsOf hw hs hc hid
    total := Contents.totals_total _
    opens := hopens.symm
    merges := by rw [hmerges, Contents.card_mergedIds (injOn_item hs)]
    sum_created := Contents.sum_created hc
    sum_merged := Contents.sum_merged hc
    sum_reviewed := Contents.sum_reviewed hc
    mean_mul := Totals.mean_mul _ hhigh
    mean_eq_zero := by
      intro hnone
      have hzero : (contents x.world.store).totals.reviewed = 0 := Finset.card_eq_zero.2 hnone
      exact ⟨by rw [Totals.mean, hzero]; simp, if_pos hzero⟩
    mean_bounds := by
      intro hsome
      have hne : (contents x.world.store).totals.reviewed ≠ 0 := hsome.card_ne_zero
      exact ⟨Totals.mean_bounds _ hlow hhigh hne, Totals.average_bounds _ hlow hhigh hne⟩
    reviewedBy := fun id hid => run_reviewedBy hw hs ho.comparable hid }

/-- A pull request is opened and merged by two at once, another one is opened while its team
leaves. -/
theorem turns_balance_of_two :
    let team : Team := ⟨"T", [⟨"a", "Ann", none, true⟩, ⟨"b", "Bob", none, true⟩]⟩
    let x := (initial RelationalStore (.ofList []) ⟨0, 1, 0⟩ .info).moved
      [.request (.found team) [], .request (.opening "p" "Title" "a") [],
        .request (.merge "p") [.request (.merge "p") []],
        .request (.opening "q" "Other" "a") [.request (.departAll "T") []]]
    Turns (initial RelationalStore (.ofList []) ⟨0, 1, 0⟩ .info) x ∧ ∃ t n, x.Balances t n := by
  intro team x
  have hx : Turns (initial RelationalStore (.ofList []) ⟨0, 1, 0⟩ .info) x :=
    covers_turn.run_ops (fun _ h => (regular_of_turns h).orderly.faults) _
      (by simp [Errand.AllOf, Errand.All])
  exact ⟨hx, turns_balance hx⟩

end Scene
end ReviewDesk
