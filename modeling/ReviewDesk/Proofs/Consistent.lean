import Mathlib.Data.Set.Function
import ReviewDesk.Proofs.Undertaking
import ReviewDesk.Time.Clock

/-!
# Consistent contents

What holds of the contents of a store after every committed transaction: who reviews what, that ids
lead somewhere, and which dates there are. Each kind of undertaking keeps it, under what its request
found out by looking around, `Undertaking.Advised`. That is why it does not matter what was
committed in between: what was found out stays true, since nobody and nothing is ever removed,
`Contents.Precedes`.
-/
namespace ReviewDesk
namespace Contents

/-- What holds of the contents of a store at all times. -/
structure Consistent (c : Contents) : Prop where
  author_notMem : ∀ i ∈ c.items, i.author ∉ c.reviewers i.id
  card_le : ∀ i ∈ c.items, (c.reviewers i.id).card ≤ 2
  reviewed : ∀ id, (c.reviewers id).Nonempty → id ∈ c.itemIds
  reviewers_subset : ∀ id, c.reviewers id ⊆ c.userIds
  author_mem : ∀ i ∈ c.items, i.author ∈ c.userIds
  team_mem : ∀ u ∈ c.users, ∃ t ∈ c.teams, u.team = some t
  name_ne : ∀ t ∈ c.teams, t.isEmpty = false
  merged_iff : ∀ i ∈ c.items, i.merged.isSome = true ↔ i.status = .merged

/-- Nothing is there that could be inconsistent. -/
theorem consistent_empty : Consistent .empty := by
  constructor <;> simp [empty]

/-- Whatever was there is there later. -/
structure Precedes (c c' : Contents) : Prop where
  teams : c.teams ⊆ c'.teams
  userIds : c.userIds ⊆ c'.userIds
  itemIds : c.itemIds ⊆ c'.itemIds

@[refl] theorem Precedes.refl (c : Contents) : c.Precedes c :=
  ⟨Finset.Subset.refl _, Finset.Subset.refl _, Finset.Subset.refl _⟩

theorem Precedes.trans {a b c : Contents} (h : a.Precedes b) (h' : b.Precedes c) : a.Precedes c :=
  ⟨h.teams.trans h'.teams, h.userIds.trans h'.userIds, h.itemIds.trans h'.itemIds⟩

/-- All dates are dates that the clock has shown, in the form in which the store keeps them, and
with a clock that does not go backwards nothing was merged before it was created. -/
def Dated (c : Contents) (keep : Timestamp → Timestamp) (k : Clock) : Prop :=
  ∀ i ∈ c.items, ∃ a, i.created = keep (.ofInstant a) ∧ (k.Forward → a ≤ k.now.instant) ∧
    ∀ m ∈ i.merged, ∃ b, m = keep (.ofInstant b) ∧ (k.Forward → a ≤ b)

theorem dated_empty (keep : Timestamp → Timestamp) (k : Clock) : Contents.empty.Dated keep k := by
  intro i hi
  simp [empty] at hi

/-- Dates stay dates that the clock has shown while it goes on. -/
theorem Dated.after {c : Contents} {keep : Timestamp → Timestamp} {k : Clock}
    (h : c.Dated keep k) (n : Nat) :
    c.Dated keep { k with ticks := k.ticks + n } := by
  intro i hi
  obtain ⟨a, hcreated, ha, hmerged⟩ := h i hi
  exact ⟨a, hcreated, fun hk : k.Forward => (ha hk).trans (hk.now_le_now n), hmerged⟩

/-- Dates that the clock has shown can be put in order. -/
theorem Dated.comparable {c : Contents} {keep : Timestamp → Timestamp} {k : Clock}
    (h : c.Dated keep k)
    (hoffset : ∀ i j, (keep (.ofInstant i)).offset = (keep (.ofInstant j)).offset) :
    c.Comparable := by
  have hall (i : Item) (hi : i ∈ c.items) : i.created.offset = (keep (.ofInstant 0)).offset := by
    obtain ⟨a, hcreated, -⟩ := h i hi
    rw [hcreated]
    exact hoffset a 0
  cases hzero : (keep (.ofInstant 0)).offset with
  | none => exact .inr fun i hi => (hall i hi).trans hzero
  | some offset => exact .inl fun i hi => by rw [hall i hi, hzero]; rfl

/-- Nobody reviews what is not there. -/
theorem Consistent.reviewers_eq_empty {c : Contents} (h : c.Consistent) {id : Text}
    (hid : id ∉ c.itemIds) :
    c.reviewers id = ∅ := by
  by_contra hne
  exact hid (h.reviewed id (Finset.nonempty_iff_ne_empty.2 hne))

section Members

variable {c : Contents}

/-- Who was put in is a user of the list. -/
theorem mem_userIds_putUsers (us : List User) {id : Text} (h : id ∈ c.userIds) :
    id ∈ (c.putUsers us).userIds := by
  rw [userIds_putUsers]
  exact Finset.mem_union_left _ h

@[simp] theorem userIds_addTeam (name : Text) : (c.addTeam name).userIds = c.userIds := rfl

@[simp] theorem itemIds_addItem (i : Item) : (c.addItem i).itemIds = insert i.id c.itemIds := by
  simp [itemIds, addItem, Finset.image_insert]

@[simp] theorem itemIds_setReviewers (id : Text) (s : Finset Text) :
    (c.setReviewers id s).itemIds = c.itemIds := rfl

@[simp] theorem userIds_setReviewers (id : Text) (s : Finset Text) :
    (c.setReviewers id s).userIds = c.userIds := rfl

@[simp] theorem userIds_addItem (i : Item) : (c.addItem i).userIds = c.userIds := rfl

@[simp] theorem userIds_updateItem (id : Text) (f : Item → Item) :
    (c.updateItem id f).userIds = c.userIds := rfl

/-- Other users without another team for any of them. -/
theorem team_mem_switch {teams : Finset Text} (h : ∀ u ∈ c.users, ∃ t ∈ teams, u.team = some t)
    (ids : Finset Text) (b : Bool) :
    ∀ u ∈ (c.switch ids b).users, ∃ t ∈ teams, u.team = some t := by
  intro u hu
  obtain ⟨v, hv, rfl⟩ := (c.mem_switch ids b u).1 hu
  obtain ⟨t, ht, hteam⟩ := h v hv
  refine ⟨t, ht, ?_⟩
  split <;> exact hteam

end Members

section Steps

variable {c c' : Contents}

/-- A team is founded. -/
theorem Consistent.found (h : c.Consistent) {t : Team} (ht : t.name.isEmpty = false) :
    ((c.addTeam t.name).putUsers (Roster.membersOf t)).Consistent where
  author_notMem := by simpa using h.author_notMem
  card_le := by simpa using h.card_le
  reviewed := by simpa [itemIds] using h.reviewed
  reviewers_subset id := by
    rw [putUsers_reviewers]
    exact fun r hr => mem_userIds_putUsers _ (h.reviewers_subset id hr)
  author_mem i hi := by
    rw [putUsers_items] at hi
    exact mem_userIds_putUsers _ (h.author_mem i hi)
  team_mem u hu := by
    simp only [putUsers_teams, addTeam, Finset.mem_insert, exists_eq_or_imp]
    rcases mem_putUsers _ hu with hu | ⟨hu, -⟩
    · obtain ⟨v, -, rfl⟩ := List.mem_map.1 hu
      exact .inl rfl
    · obtain ⟨team, hteam, hu⟩ := h.team_mem u hu
      exact .inr ⟨team, hteam, hu⟩
  name_ne := by simpa [addTeam, ht] using h.name_ne
  merged_iff := by simpa using h.merged_iff

/-- Users become active or inactive. -/
theorem Consistent.switch (h : c.Consistent) (ids : Finset Text) (b : Bool) :
    (c.switch ids b).Consistent where
  author_notMem := h.author_notMem
  card_le := h.card_le
  reviewed := h.reviewed
  reviewers_subset id := by simpa using h.reviewers_subset id
  author_mem i hi := by simpa using h.author_mem i hi
  team_mem := team_mem_switch h.team_mem ids b
  name_ne := h.name_ne
  merged_iff := h.merged_iff

/-- The reviewers of pull requests change, and none gets its author or somebody unknown or too
many. -/
theorem Consistent.withReviewers (h : c.Consistent) (reviewers : Text → Finset Text)
    (hitem : ∀ i ∈ c.items, i.author ∉ reviewers i.id ∧ (reviewers i.id).card ≤ 2)
    (hid : ∀ id, (reviewers id).Nonempty → id ∈ c.itemIds)
    (husers : ∀ id, reviewers id ⊆ c.userIds) :
    Consistent { c with reviewers := reviewers } where
  author_notMem i hi := (hitem i hi).1
  card_le i hi := (hitem i hi).2
  reviewed := hid
  reviewers_subset := husers
  author_mem := h.author_mem
  team_mem := h.team_mem
  name_ne := h.name_ne
  merged_iff := h.merged_iff

/-- The reviewers of one pull request change. -/
theorem Consistent.setReviewers (h : c.Consistent) {id : Text} {reviewers : Finset Text}
    (hid : id ∈ c.itemIds)
    (hauthor : ∀ i ∈ c.items, i.id = id → i.author ∉ reviewers) (hcard : reviewers.card ≤ 2)
    (husers : reviewers ⊆ c.userIds) : (c.setReviewers id reviewers).Consistent := by
  refine h.withReviewers _ (fun i hi => ?_) (fun other hne => ?_) (fun other => ?_)
  · by_cases hk : i.id = id
    · rw [hk, Function.update_self]
      exact ⟨hauthor i hi hk, hcard⟩
    · rw [Function.update_of_ne hk]
      exact ⟨h.author_notMem i hi, h.card_le i hi⟩
  · by_cases hk : other = id
    · rwa [hk]
    · rw [Function.update_of_ne hk] at hne
      exact h.reviewed other hne
  · by_cases hk : other = id
    · rwa [hk, Function.update_self]
    · rw [Function.update_of_ne hk]
      exact h.reviewers_subset other

/-- A pull request is added, without reviewers. -/
theorem Consistent.addItem (h : c.Consistent) {i : Item} (hid : i.id ∉ c.itemIds)
    (hauthor : i.author ∈ c.userIds)
    (hmerged : i.merged.isSome = true ↔ i.status = .merged) : (c.addItem i).Consistent where
  author_notMem j hj := by
    rcases (mem_addItem c i j).1 hj with rfl | hj
    · rw [addItem_reviewers, h.reviewers_eq_empty hid]
      exact Finset.notMem_empty _
    · exact h.author_notMem j hj
  card_le j hj := by
    rcases (mem_addItem c i j).1 hj with rfl | hj
    · rw [addItem_reviewers, h.reviewers_eq_empty hid]
      exact Nat.zero_le 2
    · exact h.card_le j hj
  reviewed id hne := by
    rw [itemIds_addItem]
    exact Finset.mem_insert_of_mem (h.reviewed id hne)
  reviewers_subset := h.reviewers_subset
  author_mem j hj := by
    rcases (mem_addItem c i j).1 hj with rfl | hj
    · exact hauthor
    · exact h.author_mem j hj
  team_mem := h.team_mem
  name_ne := h.name_ne
  merged_iff j hj := by
    rcases (mem_addItem c i j).1 hj with rfl | hj
    · exact hmerged
    · exact h.merged_iff j hj

/-- An open pull request is merged, which is nothing that its reviewers could tell. -/
theorem Consistent.merge (h : c.Consistent) (id : Text) (t : Timestamp) :
    (c.updateItem id fun i => { i with status := .merged, merged := some t }).Consistent := by
  have hitem (i : Item) (hi :
    i ∈ (c.updateItem id fun i => { i with status := .merged, merged := some t }).items) :
      ∃ j ∈ c.items, i.id = j.id ∧ i.author = j.author ∧
          (i.merged.isSome = true ↔ i.status = .merged) := by
    obtain ⟨j, hj, rfl⟩ := (mem_updateItem c id _ i).1 hi
    refine ⟨j, hj, ?_⟩
    split
    · exact ⟨rfl, rfl, by simp⟩
    · exact ⟨rfl, rfl, h.merged_iff j hj⟩
  constructor
  · intro i hi
    obtain ⟨j, hj, hid, hauthor, -⟩ := hitem i hi
    rw [hid, hauthor]
    exact h.author_notMem j hj
  · intro i hi
    obtain ⟨j, hj, hid, -⟩ := hitem i hi
    rw [hid]
    exact h.card_le j hj
  · intro other hne
    have hids := itemIds_updateItem c id (fun i => { i with status := .merged, merged := some t })
      fun _ => rfl
    rw [hids]
    exact h.reviewed other hne
  · exact h.reviewers_subset
  · intro i hi
    obtain ⟨j, hj, -, hauthor, -⟩ := hitem i hi
    rw [hauthor]
    exact h.author_mem j hj
  · exact h.team_mem
  · exact h.name_ne
  · intro i hi
    obtain ⟨-, -, -, -, hmerged⟩ := hitem i hi
    exact hmerged

end Steps

section Relief

variable {c : Contents} {team : Text} {leaving : Finset Text} {i : Item} {after : Finset Text}

/-- The number of reviewers does not grow where people are relieved. -/
theorem Relieved.card_le (h : c.Relieved team leaving i after) :
    after.card ≤ (c.reviewers i.id).card := by
  obtain ⟨joining, -, hcard, rfl⟩ := h
  calc ((c.reviewers i.id \ leaving) ∪ joining).card
      ≤ (c.reviewers i.id \ leaving).card + joining.card := Finset.card_union_le _ _
    _ ≤ (c.reviewers i.id \ leaving).card + (c.reviewers i.id ∩ leaving).card := by omega
    _ = (c.reviewers i.id).card := Finset.card_sdiff_add_card_inter _ _

/-- Whoever joins is an active member of the team who stays and did not write the pull request. -/
theorem Relieved.joined (h : c.Relieved team leaving i after) {r : Text} (hr : r ∈ after)
    (hnew : r ∉ c.reviewers i.id) : r ≠ i.author ∧ r ∈ c.active team \ leaving := by
  obtain ⟨joining, hsub, -, rfl⟩ := h
  rcases Finset.mem_union.1 hr with hr | hr
  · exact absurd (Finset.mem_sdiff.1 hr).1 hnew
  · exact Finset.mem_erase.1 (Finset.mem_sdiff.1 (hsub hr)).1

/-- Who reviews afterwards did so before or is an active teammate, but not the author. -/
theorem Relieved.mem (h : c.Relieved team leaving i after) {r : Text} (hr : r ∈ after) :
    r ∈ c.reviewers i.id ∨ r ∈ c.active team ∧ r ≠ i.author := by
  by_cases hold : r ∈ c.reviewers i.id
  · exact .inl hold
  · obtain ⟨hauthor, hstays⟩ := h.joined hr hold
    exact .inr ⟨(Finset.mem_sdiff.1 hstays).1, hauthor⟩

/-- Nobody who leaves goes on reviewing. -/
theorem Relieved.disjoint (h : c.Relieved team leaving i after) : Disjoint after leaving := by
  obtain ⟨joining, hsub, -, rfl⟩ := h
  refine Finset.disjoint_left.2 fun r hr hl => ?_
  rcases Finset.mem_union.1 hr with hr | hr
  · exact (Finset.mem_sdiff.1 hr).2 hl
  · have hstay := Finset.mem_of_mem_erase (Finset.mem_sdiff.1 (hsub hr)).1
    exact (Finset.mem_sdiff.1 hstay).2 hl

/-- Somebody is missing afterwards only where everybody who stays reviews already. -/
theorem Relieved.saturated (h : c.Relieved team leaving i after)
    (hlt : after.card < (c.reviewers i.id).card)
    {k : Text} (hk : k ∈ c.active team) (hleaving : k ∉ leaving) (hauthor : k ≠ i.author) :
    k ∈ after := by
  obtain ⟨joining, hsub, hcard, rfl⟩ := h
  have hdisjoint : Disjoint (c.reviewers i.id \ leaving) joining := by
    refine Finset.disjoint_left.2 fun r hr hj => ?_
    exact (Finset.mem_sdiff.1 (hsub hj)).2 (Finset.mem_sdiff.1 hr).1
  have hsplit : (c.reviewers i.id \ leaving).card + (c.reviewers i.id ∩ leaving).card =
      (c.reviewers i.id).card :=
    Finset.card_sdiff_add_card_inter _ _
  rw [Finset.card_union_of_disjoint hdisjoint] at hlt
  have hall : joining = c.stayers team leaving i := Finset.eq_of_subset_of_card_le hsub (by omega)
  rw [Finset.mem_union, hall]
  by_cases hr : k ∈ c.reviewers i.id
  · exact .inl (Finset.mem_sdiff.2 ⟨hr, hleaving⟩)
  · refine .inr (Finset.mem_sdiff.2 ⟨Finset.mem_erase.2 ⟨hauthor, ?_⟩, hr⟩)
    exact Finset.mem_sdiff.2 ⟨hk, hleaving⟩

end Relief

end Contents

namespace Undertaking

open Contents

variable {c c' : Contents} {t : Undertaking} {keep : Timestamp → Timestamp} {now : Timestamp}

/-- What looking around found out stays true. -/
theorem Advised.mono (h : t.Advised c) (hc : c.Precedes c') : t.Advised c' := by
  cases t with
  | found t => exact h
  | switch id active => exact hc.userIds h
  | depart team leaving => exact ⟨hc.teams h.1, fun id hid => hc.userIds (h.2 id hid)⟩
  | opening id name author reviewers =>
    exact ⟨hc.userIds h.1, h.2.1, fun r hr => ⟨(h.2.2 r hr).1, hc.userIds (h.2.2 r hr).2⟩⟩
  | merge id => exact hc.itemIds h
  | reassign id old => exact hc.itemIds h

/-- The reviewers after a departure, of a pull request of the team or of another one. -/
theorem Effect.reviewers_cases {team : Text} {leaving : List Text}
    (he : (depart team leaving).Effect keep now c c') (id : Text) :
    (∃ i, c.Concerned team i ∧ i.id = id ∧ c.Relieved team leaving.toFinset i (c'.reviewers id)) ∨
      c'.reviewers id = c.reviewers id := by
  obtain ⟨-, -, -, hconcerned, hother⟩ := he
  by_cases h : ∃ i, c.Concerned team i ∧ i.id = id
  · obtain ⟨i, hi, rfl⟩ := h
    exact .inl ⟨i, hi, rfl, hconcerned i hi⟩
  · exact .inr (hother id fun i hi hid => h ⟨i, hi, hid⟩)

/-- The active members of the team after a departure are those who stay. -/
theorem Effect.active_depart {team : Text} {leaving : List Text}
    (he : (depart team leaving).Effect keep now c c') :
    c'.active team = c.active team \ leaving.toFinset := by
  rw [← active_switch_false, active, active, he.2.1]

/-- Nothing is lost. -/
theorem Effect.precedes (he : t.Effect keep now c c') : c.Precedes c' := by
  cases t with
  | found t =>
    obtain ⟨-, rfl⟩ := he
    refine ⟨?_, fun id hid => mem_userIds_putUsers _ hid, ?_⟩
    · rw [putUsers_teams]
      exact Finset.subset_insert _ _
    · simp [itemIds]
  | switch id active =>
    obtain rfl := he
    exact ⟨Finset.Subset.refl _, by rw [userIds_switch], Finset.Subset.refl _⟩
  | depart team leaving =>
    obtain ⟨hteams, husers, hitems, -⟩ := he
    refine ⟨by rw [hteams], ?_, by rw [itemIds, itemIds, hitems]⟩
    have hids : c'.userIds =
      (c.switch leaving.toFinset false).userIds := by rw [userIds, userIds, husers]
    rw [hids, userIds_switch]
  | opening id name author reviewers =>
    obtain ⟨-, rfl⟩ := he
    refine ⟨Finset.Subset.refl _, Finset.Subset.refl _, ?_⟩
    rw [itemIds_setReviewers, itemIds_addItem]
    exact Finset.subset_insert _ _
  | merge id =>
    rcases he with rfl | rfl
    · exact .refl _
    · refine ⟨Finset.Subset.refl _, Finset.Subset.refl _, ?_⟩
      rw [itemIds_updateItem c id (fun i => { i with status := .merged, merged := some (keep now) })
        fun _ => rfl]
  | reassign id old =>
    obtain ⟨i, -, -, -, -, joining, -, -, rfl⟩ := he
    exact ⟨Finset.Subset.refl _, Finset.Subset.refl _, Finset.Subset.refl _⟩

/-- People leave, and the pull requests of their team are reviewed by others. -/
theorem Effect.consistent_depart (h : c.Consistent) (hinj : Set.InjOn Item.id c.items) {team : Text}
    {leaving : List Text} (he : (depart team leaving).Effect keep now c c') : c'.Consistent := by
  have hcases := he.reviewers_cases
  obtain ⟨hteams, husers, hitems, -, -⟩ := he
  have hc : c' = { c.switch leaving.toFinset false with reviewers := c'.reviewers } :=
    Contents.ext hteams husers hitems rfl
  rw [hc]
  refine (h.switch leaving.toFinset false).withReviewers _ (fun i hi => ?_) (fun id hne => ?_)
    (fun id => ?_)
  · rcases hcases i.id with ⟨j, hj, hid, hr⟩ | hr
    · have hij : j = i := hinj hj.1 hi hid
      subst hij
      refine ⟨fun ha => ?_, hr.card_le.trans (h.card_le j hi)⟩
      rcases hr.mem ha with ha | ⟨-, hne⟩
      · exact h.author_notMem j hi ha
      · exact hne rfl
    · rw [hr]
      exact ⟨h.author_notMem i hi, h.card_le i hi⟩
  · rcases hcases id with ⟨j, hj, rfl, -⟩ | hr
    · exact (c.mem_itemIds j.id).2 ⟨j, hj.1, rfl⟩
    · rw [hr] at hne
      exact h.reviewed id hne
  · rw [userIds_switch]
    rcases hcases id with ⟨j, hj, rfl, hr⟩ | hr
    · intro r hmem
      rcases hr.mem hmem with hold | ⟨hactive, -⟩
      · exact h.reviewers_subset j.id hold
      · exact c.staff_subset_userIds team (c.active_subset_staff team hactive)
    · rw [hr]
      exact h.reviewers_subset id

/-- A reviewer is relieved by somebody else, if there is anybody. -/
theorem Effect.consistent_reassign (h : c.Consistent) (hinj : Set.InjOn Item.id c.items)
    {id old : Text}
    (he : (reassign id old).Effect keep now c c') : c'.Consistent := by
  obtain ⟨i, hi, hid, -, hold, joining, hsub, hcard, rfl⟩ := he
  have hitem : id ∈ c.itemIds := (c.mem_itemIds id).2 ⟨i, hi, hid⟩
  refine h.setReviewers hitem (fun j hj hjid ha => ?_) ?_ ?_
  · have hji : j = i := hinj hj hi (hjid.trans hid.symm)
    subst hji
    rcases Finset.mem_union.1 ha with ha | ha
    · exact h.author_notMem j hj (hjid ▸ Finset.mem_of_mem_erase ha)
    · exact Finset.notMem_erase j.author _ (hsub ha)
  · have hle : (c.reviewers id).card ≤ 2 := hid ▸ h.card_le i hi
    have herase : ((c.reviewers id).erase old).card = (c.reviewers id).card - 1 :=
      Finset.card_erase_of_mem hold
    have hpos : 0 < (c.reviewers id).card := Finset.card_pos.2 ⟨old, hold⟩
    have hunion := Finset.card_union_le ((c.reviewers id).erase old) joining
    omega
  · refine Finset.union_subset ((Finset.erase_subset _ _).trans (h.reviewers_subset id)) ?_
    exact hsub.trans (c.successors_subset_userIds old i.author)

/-- What the transaction of an undertaking makes of consistent contents is consistent. -/
theorem Effect.consistent (h : c.Consistent) (hinj : Set.InjOn Item.id c.items) (ha : t.Advised c)
    (he : t.Effect keep now c c') : c'.Consistent := by
  cases t with
  | found t =>
    obtain ⟨-, rfl⟩ := he
    exact h.found ha
  | switch id active =>
    obtain rfl := he
    exact h.switch {id} active
  | depart team leaving => exact he.consistent_depart h hinj
  | opening id name author reviewers =>
    obtain ⟨hid, rfl⟩ := he
    obtain ⟨hauthor, hlength, hreviewers⟩ := ha
    have hadded := h.addItem (i := ⟨id, name, author, .opened, keep now, none⟩) hid
      hauthor (by simp)
    have hnobody : c.reviewers id = ∅ := h.reviewers_eq_empty hid
    rw [hnobody, Finset.empty_union]
    refine hadded.setReviewers (by simp) (fun i hi hiid ha => ?_) ?_ ?_
    · rcases (mem_addItem c _ i).1 hi with rfl | hi
      · exact (hreviewers author (List.mem_toFinset.1 ha)).1 rfl
      · exact hid ((c.mem_itemIds id).2 ⟨i, hi, hiid⟩)
    · exact (List.toFinset_card_le reviewers).trans hlength
    · intro r hr
      exact (hreviewers r (List.mem_toFinset.1 hr)).2
  | merge id =>
    rcases he with rfl | rfl
    · exact h
    · exact h.merge id (keep now)
  | reassign id old => exact he.consistent_reassign h hinj

/-- The dates that the transaction of an undertaking puts in are dates that the clock has shown. -/
theorem Effect.dated {k : Clock} (h : c.Dated keep k) (he : t.Effect keep k.now c c') :
    c'.Dated keep k := by
  have hsame (hitems : c'.items = c.items) : c'.Dated keep k := by
    intro i hi
    rw [hitems] at hi
    exact h i hi
  cases t with
  | found t =>
    obtain ⟨-, rfl⟩ := he
    exact hsame (putUsers_items _ _)
  | switch id active =>
    obtain rfl := he
    exact hsame rfl
  | depart team leaving => exact hsame he.2.2.1
  | opening id name author reviewers =>
    obtain ⟨-, rfl⟩ := he
    intro i hi
    rcases (mem_addItem c _ i).1 hi with rfl | hi
    · refine ⟨k.start + k.pace.elapsed k.ticks, rfl, fun _ => ?_, by simp⟩
      rw [Clock.now, Timestamp.instant_ofInstant]
    · exact h i hi
  | merge id =>
    rcases he with rfl | rfl
    · exact h
    · intro i hi
      obtain ⟨j, hj, rfl⟩ := (mem_updateItem c id _ i).1 hi
      obtain ⟨a, hcreated, ha, hmerged⟩ := h j hj
      split
      · refine ⟨a, hcreated, ha, fun m hm => ⟨k.start + k.pace.elapsed k.ticks, ?_, fun hk => ?_⟩⟩
        · exact (Option.mem_some_iff.1 hm).symm
        · have hnow := ha hk
          rwa [Clock.now, Timestamp.instant_ofInstant] at hnow
      · exact ⟨a, hcreated, ha, hmerged⟩
  | reassign id old =>
    obtain ⟨i, -, -, -, -, joining, -, -, rfl⟩ := he
    exact hsame rfl

end Undertaking
end ReviewDesk
