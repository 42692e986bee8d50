import ReviewDesk.Proofs.Consistent

/-!
# What stays of pull requests

A pull request is never removed and keeps the date of its creation. Once it is merged it stays as it
is, and so do its reviewers: what adds a pull request wants a new id, what changes one passes over
those that are merged, and reviewers change only where a pull request is open.
-/
namespace ReviewDesk
namespace Contents

/-- Whatever was there is there later, pull requests with the dates of their creation, and merged
ones as they were. -/
structure Kept (c c' : Contents) : Prop extends c.Precedes c' where
  created : ∀ i ∈ c.items, ∀ j ∈ c'.items, j.id = i.id → j.created = i.created
  frozen : ∀ i ∈ c.items, i.status = .merged → ∀ j ∈ c'.items, j.id = i.id → j = i
  reviewers : ∀ i ∈ c.items, i.status = .merged → c'.reviewers i.id = c.reviewers i.id

/-- A reply shows the pull request with an id, which is merged. -/
def ShowsMerged (c : Contents) (id : Text) (r : Reply) : Prop :=
  ∃ i ∈ c.items, i.id = id ∧ i.status = .merged ∧ r = .pullRequest (c.shown i)

variable {c c' c'' : Contents}

theorem Kept.trans (h : c.Kept c') (h' : c'.Kept c'') : c.Kept c'' := by
  have hmiddle (i : Item) (hi : i ∈ c.items) : ∃ j ∈ c'.items, j.id = i.id :=
    (c'.mem_itemIds i.id).1 (h.itemIds ((c.mem_itemIds i.id).2 ⟨i, hi, rfl⟩))
  refine ⟨h.toPrecedes.trans h'.toPrecedes, ?_, ?_, ?_⟩
  · intro i hi k hk hid
    obtain ⟨j, hj, hji⟩ := hmiddle i hi
    exact (h'.created j hj k hk (hid.trans hji.symm)).trans (h.created i hi j hj hji)
  · intro i hi hm k hk hid
    obtain ⟨j, hj, hji⟩ := hmiddle i hi
    obtain rfl : j = i := h.frozen i hi hm j hj hji
    exact h'.frozen j hj hm k hk hid
  · intro i hi hm
    obtain ⟨j, hj, hji⟩ := hmiddle i hi
    obtain rfl : j = i := h.frozen i hi hm j hj hji
    exact (h'.reviewers j hj hm).trans (h.reviewers j hi hm)

/-- What shows a merged pull request goes on showing it. -/
theorem ShowsMerged.mono {id : Text} {r : Reply} (h : c.ShowsMerged id r) (hk : c.Kept c') :
    c'.ShowsMerged id r := by
  obtain ⟨i, hi, rfl, hm, rfl⟩ := h
  obtain ⟨j, hj, hid⟩ := (c'.mem_itemIds i.id).1 (hk.itemIds ((c.mem_itemIds i.id).2 ⟨i, hi, rfl⟩))
  obtain rfl : j = i := hk.frozen i hi hm j hj hid
  refine ⟨j, hj, rfl, hm, ?_⟩
  rw [shown, shown, hk.reviewers j hi hm]

/-- Only one reply shows a merged pull request. -/
theorem ShowsMerged.eq (hinj : Set.InjOn Item.id c.items) {id : Text} {r r' : Reply}
    (h : c.ShowsMerged id r) (h' : c.ShowsMerged id r') : r = r' := by
  obtain ⟨i, hi, rfl, -, rfl⟩ := h
  obtain ⟨j, hj, hid, -, rfl⟩ := h'
  obtain rfl : j = i := hinj hj hi hid
  rfl

section Steps

variable (hinj : Set.InjOn Item.id c.items)

include hinj

/-- The pull requests themselves do not change. -/
theorem kept_of_items_eq (hp : c.Precedes c') (hitems : c'.items = c.items)
    (hreviewers : ∀ i ∈ c.items, i.status = .merged → c'.reviewers i.id = c.reviewers i.id) :
    c.Kept c' := by
  have hsame {i j : Item} (hi : i ∈ c.items) (hj : j ∈ c'.items) (hid : j.id = i.id) : j = i :=
    hinj (hitems ▸ hj) hi hid
  refine ⟨hp, fun i hi j hj hid => ?_, fun i hi _ j hj hid => hsame hi hj hid, hreviewers⟩
  rw [hsame hi hj hid]

theorem Kept.refl : c.Kept c := kept_of_items_eq hinj (.refl c) rfl fun _ _ _ => rfl

/-- The reviewers change of a pull request that is not merged. -/
theorem kept_setReviewers {id : Text} (h : ∀ i ∈ c.items, i.id = id → i.status ≠ .merged)
    (ids : Finset Text) : c.Kept (c.setReviewers id ids) := by
  refine kept_of_items_eq hinj ?_ rfl fun i hi hm => ?_
  · exact ⟨Finset.Subset.refl _, Finset.Subset.refl _, Finset.Subset.refl _⟩
  · exact c.setReviewers_of_ne (fun hid => h i hi hid hm) ids

/-- A pull request is added under a new id. -/
theorem kept_addItem {i : Item} (hid : i.id ∉ c.itemIds) : c.Kept (c.addItem i) := by
  have hsame {j k : Item} (hj : j ∈ c.items) (hk : k ∈ (c.addItem i).items) (h : k.id = j.id) :
      k = j := by
    rcases (c.mem_addItem i k).1 hk with rfl | hk
    · exact absurd ((c.mem_itemIds k.id).2 ⟨j, hj, h.symm⟩) hid
    · exact hinj hk hj h
  have hprecedes : c.Precedes (c.addItem i) := by
    refine ⟨Finset.Subset.refl _, Finset.Subset.refl _, ?_⟩
    rw [itemIds_addItem]
    exact Finset.subset_insert _ _
  refine ⟨hprecedes, fun j hj k hk h => ?_, fun j hj _ k hk h => hsame hj hk h, fun _ _ _ => rfl⟩
  rw [hsame hj hk h]

/-- An open pull request changes, but neither its id nor the date of its creation. -/
theorem kept_updateItem (id : Text) {f : Item → Item} (hid : ∀ i, (f i).id = i.id)
    (hcreated : ∀ i, (f i).created = i.created) : c.Kept (c.updateItem id f) := by
  have hbefore {i j : Item} (hi : i ∈ c.items) (hj : j ∈ (c.updateItem id f).items)
      (h : j.id = i.id) : j = if i.id = id ∧ i.status = .opened then f i else i := by
    obtain ⟨k, hk, rfl⟩ := (c.mem_updateItem id f j).1 hj
    have hki : k.id = i.id := by
      rw [← h]
      split
      · exact (hid k).symm
      · rfl
    obtain rfl : k = i := hinj hk hi hki
    rfl
  refine ⟨⟨Finset.Subset.refl _, Finset.Subset.refl _, ?_⟩, ?_, ?_, fun _ _ _ => rfl⟩
  · rw [itemIds_updateItem c id f hid]
  · intro i hi j hj h
    rw [hbefore hi hj h]
    split
    · exact hcreated i
    · rfl
  · intro i hi hm j hj h
    rw [hbefore hi hj h, if_neg]
    rintro ⟨-, hopen⟩
    rw [hm] at hopen
    cases hopen

end Steps

end Contents

namespace Undertaking

open Contents

variable {c c' : Contents} {t : Undertaking} {keep : Timestamp → Timestamp} {now : Timestamp}

/-- No transaction touches a merged pull request. -/
theorem Effect.kept (hinj : Set.InjOn Item.id c.items) (he : t.Effect keep now c c') :
    c.Kept c' := by
  have hprecedes := he.precedes
  cases t with
  | found t =>
    obtain ⟨-, rfl⟩ := he
    refine kept_of_items_eq hinj hprecedes (putUsers_items _ _) fun i _ _ => ?_
    rw [putUsers_reviewers, addTeam_reviewers]
  | switch id active =>
    obtain rfl := he
    exact kept_of_items_eq hinj hprecedes rfl fun _ _ _ => rfl
  | depart team leaving =>
    obtain ⟨-, -, hitems, -, hother⟩ := he
    refine kept_of_items_eq hinj hprecedes hitems fun i hi hm => hother i.id fun j hj hid => ?_
    obtain rfl : j = i := hinj hj.1 hi hid
    have hopen := hj.2.1
    rw [hm] at hopen
    cases hopen
  | opening id name author reviewers =>
    obtain ⟨hid, rfl⟩ := he
    have hadded := kept_addItem hinj (i := ⟨id, name, author, .opened, keep now, none⟩) hid
    -- The new pull request is the only one with its id.
    have hreviewers (i : Item) (hi : i ∈ c.items) : i.id ≠ id :=
      fun h => hid ((c.mem_itemIds id).2 ⟨i, hi, h⟩)
    exact ⟨hprecedes, hadded.created, hadded.frozen, fun i hi _ =>
      setReviewers_of_ne _ (hreviewers i hi) _⟩
  | merge id =>
    rcases he with rfl | rfl
    · exact .refl hinj
    · exact kept_updateItem hinj id (fun _ => rfl) fun _ => rfl
  | reassign id old =>
    obtain ⟨i, hi, rfl, hopen, -, joining, -, -, rfl⟩ := he
    refine kept_setReviewers hinj (fun j hj hid => ?_) _
    obtain rfl : j = i := hinj hj hi hid
    exact hopen

end Undertaking
end ReviewDesk
