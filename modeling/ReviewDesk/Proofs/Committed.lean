import ReviewDesk.Proofs.Course
import ReviewDesk.Proofs.Store.Relational

/-!
# Committed states

Whatever is asked for, in whatever order and one in the middle of the other, what a store shows at
any moment is well-formed: who reviews what, that ids lead somewhere, and which dates there are.
-/
namespace ReviewDesk

/-- What holds of a committed state, read with a clock. -/
structure Snapshot.WellFormed (shot : Snapshot) (k : Clock) : Prop where
  one_entry : ∀ a ∈ shot.assignments, ∀ b ∈ shot.assignments, a.1 = b.1 → a = b
  author_notMem : ∀ p ∈ shot.pullRequests, ∀ a ∈ shot.assignments, a.1 = p.id → p.author ∉ a.2
  length_le : ∀ p ∈ shot.pullRequests, ∀ a ∈ shot.assignments, a.1 = p.id → a.2.length ≤ 2
  assigned : ∀ a ∈ shot.assignments, ∃ p ∈ shot.pullRequests, p.id = a.1
  reviewer_mem : ∀ a ∈ shot.assignments, ∀ r ∈ a.2, ∃ u ∈ shot.users, u.id = r
  author_mem : ∀ p ∈ shot.pullRequests, ∃ u ∈ shot.users, u.id = p.author
  team_mem : ∀ u ∈ shot.users, ∃ t ∈ shot.teams, u.team = some t
  name_ne : ∀ t ∈ shot.teams, t.isEmpty = false
  merged_iff : ∀ p ∈ shot.pullRequests, p.merged.isSome = true ↔ p.status = .merged
  created : ∀ p ∈ shot.pullRequests, p.created.isSome = true
  created_le : k.Forward → ∀ p ∈ shot.pullRequests, p.status = .merged →
    ∀ c ∈ p.created, ∀ m ∈ p.merged, c.instant ≤ m.instant

section Snapshots

variable {σ : Type} [Gateway σ] [LawfulStore σ]

open LawfulStore

/-- The dates of one pull request are in order. -/
theorem Contents.Dated.created_le {c : Contents} {k : Clock} (h : c.Dated (keep σ) k)
    (hk : k.Forward) {i : Item} (hi : i ∈ c.items) {m : Timestamp} (hm : m ∈ i.merged) :
    i.created.instant ≤ m.instant := by
  obtain ⟨a, hcreated, -, hmerged⟩ := h i hi
  obtain ⟨b, rfl, hab⟩ := hmerged m hm
  rw [hcreated, instant_keep, instant_keep]
  exact hab hk

/-- An orderly world shows a well-formed state. -/
theorem Orderly.snapshot {w : World σ} (h : Orderly w) :
    ∃ shot, Gateway.snapshot w.store = .ok shot ∧ shot.WellFormed w.clock := by
  obtain ⟨shot, hshot, hteams, husers, hpulls, hassigned⟩ := snapshot_listing h.sound
  have hc := h.consistent
  have huser {id : Text} (hid : id ∈ (contents w.store).userIds) : ∃ u ∈ shot.users, u.id = id := by
    obtain ⟨u, hu, hid⟩ := (Contents.mem_userIds _ id).1 hid
    exact ⟨u, (husers u).2 hu, hid⟩
  refine ⟨shot, hshot, ?_⟩
  constructor
  case one_entry =>
    intro a ha b hb hab
    obtain ⟨id, -, rfl⟩ := (hassigned a).1 ha
    obtain ⟨id', -, rfl⟩ := (hassigned b).1 hb
    have hid : id = id' := hab
    rw [hid]
  case author_notMem =>
    intro p hp a ha hid
    obtain ⟨i, hi, rfl⟩ := (hpulls p).1 hp
    obtain ⟨id, -, rfl⟩ := (hassigned a).1 ha
    obtain rfl : id = i.id := hid
    exact fun hmem => hc.author_notMem i hi ((Finset.mem_sort _).1 hmem)
  case length_le =>
    intro p hp a ha hid
    obtain ⟨i, hi, rfl⟩ := (hpulls p).1 hp
    obtain ⟨id, -, rfl⟩ := (hassigned a).1 ha
    obtain rfl : id = i.id := hid
    rw [Finset.length_sort]
    exact hc.card_le i hi
  case assigned =>
    intro a ha
    obtain ⟨id, hne, rfl⟩ := (hassigned a).1 ha
    obtain ⟨i, hi, hid⟩ := (Contents.mem_itemIds _ id).1 (hc.reviewed id hne)
    exact ⟨i.withReviewers [], (hpulls _).2 ⟨i, hi, rfl⟩, hid⟩
  case reviewer_mem =>
    intro a ha r hr
    obtain ⟨id, -, rfl⟩ := (hassigned a).1 ha
    exact huser (hc.reviewers_subset id ((Finset.mem_sort _).1 hr))
  case author_mem =>
    intro p hp
    obtain ⟨i, hi, rfl⟩ := (hpulls p).1 hp
    exact huser (hc.author_mem i hi)
  case team_mem =>
    intro u hu
    obtain ⟨t, ht, hteam⟩ := hc.team_mem u ((husers u).1 hu)
    exact ⟨t, (hteams t).2 ht, hteam⟩
  case name_ne =>
    intro t ht
    exact hc.name_ne t ((hteams t).1 ht)
  case merged_iff =>
    intro p hp
    obtain ⟨i, hi, rfl⟩ := (hpulls p).1 hp
    exact hc.merged_iff i hi
  case created =>
    intro p hp
    obtain ⟨i, hi, rfl⟩ := (hpulls p).1 hp
    rfl
  case created_le =>
    intro hk p hp _ c hcreated m hm
    obtain ⟨i, hi, rfl⟩ := (hpulls p).1 hp
    obtain rfl : i.created = c := Option.some.inj hcreated
    exact h.dated.created_le hk hi hm

/-- Errands from a reachable world, which may be in the middle of a request, lead to a well-formed
state. -/
theorem committed_wellFormed {w : World σ} (h : Reachable w) (es : List (Errand Empty)) :
    ∃ shot, Gateway.snapshot (Op.runAll (Errand.ops es) w).2.store = .ok shot ∧
      shot.WellFormed (Op.runAll (Errand.ops es) w).2.clock :=
  (h.runAll es).orderly.snapshot

end Snapshots

/-- A team is founded, and one of its members opens a pull request while the other one is switched
inactive. -/
theorem committed_wellFormed_of_opening :
    let team : Team := ⟨"T", [⟨"a", "Ann", none, true⟩, ⟨"b", "Bob", none, true⟩]⟩
    let es : List (Errand Empty) :=
      [.request (.found team) [],
        .request (.opening "p" "Title" "a") [.request (.switch "b" false) []]]
    let w := World.initial RelationalStore (.ofList [0]) ⟨0, 1, 0⟩ .info
    Reachable w ∧ ∃ shot, Gateway.snapshot (Op.runAll (Errand.ops es) w).2.store = .ok shot ∧
      shot.WellFormed (Op.runAll (Errand.ops es) w).2.clock :=
  ⟨reachable_initial _ _ _, committed_wellFormed (reachable_initial _ _ _) _⟩

end ReviewDesk
