import Mathlib.Data.Set.Function
import ReviewDesk.Proofs.Contents

/-!
# Rolls

A roll lists the users with given ids, in the ascending order of the ids. Where an id leads to one
user, there is one roll of some ids, and what is left of the roll of a team without those who are
inactive is the roll of those who are active.
-/
namespace ReviewDesk.Contents

variable {c : Contents} {ids : Finset Text} {us : List User} {team : Text}

/-- No two users of a roll have one id, and the ids ascend. -/
theorem Roll.ascending (h : c.Roll ids us) : us.Pairwise fun u v => u.id < v.id := by
  have hsorted : (us.map User.id).Pairwise (· < ·) := by
    rw [h.1]
    exact (Finset.sortedLT_sort ids).pairwise
  exact List.pairwise_map.1 hsorted

theorem Roll.nodup (h : c.Roll ids us) : us.Nodup := by
  have hids : (us.map User.id).Nodup := by
    rw [h.1]
    exact ids.sort_nodup (· ≤ ·)
  exact hids.of_map User.id

theorem Roll.id_mem (h : c.Roll ids us) {u : User} (hu : u ∈ us) : u.id ∈ ids := by
  have hid : u.id ∈ us.map User.id := List.mem_map_of_mem hu
  rw [h.1] at hid
  exact (Finset.mem_sort _).1 hid

theorem Roll.mem_iff (h : c.Roll ids us) (hinj : Set.InjOn User.id c.users) {u : User} :
    u ∈ us ↔ u ∈ c.users ∧ u.id ∈ ids := by
  constructor
  · exact fun hu => ⟨h.2 u hu, h.id_mem hu⟩
  · rintro ⟨hu, hid⟩
    have hlisted : u.id ∈ us.map User.id := by
      rw [h.1]
      exact (Finset.mem_sort _).2 hid
    obtain ⟨v, hv, hvu⟩ := List.mem_map.1 hlisted
    exact hinj (h.2 v hv) hu hvu ▸ hv

/-- There is one roll of the users with some ids. -/
theorem Roll.unique (h : c.Roll ids us) (hinj : Set.InjOn User.id c.users) {us' : List User}
    (h' : c.Roll ids us') : us' = us := by
  have hperm : us'.Perm us := (List.perm_ext_iff_of_nodup h'.nodup h.nodup).2 fun u => by
    rw [h.mem_iff hinj, h'.mem_iff hinj]
  exact hperm.eq_of_pairwise (fun u v _ _ huv hvu => absurd (huv.trans hvu) (lt_irrefl _))
    h'.ascending h.ascending

/-- Whoever belongs to a team is a user of the roll of the team. -/
theorem Roll.mem_staff_iff (h : c.Roll (c.staff team) us) (hinj : Set.InjOn User.id c.users)
    {u : User} : u ∈ us ↔ u ∈ c.users ∧ u.team = some team := by
  rw [h.mem_iff hinj]
  refine and_congr_right fun hu => ?_
  rw [mem_staff]
  constructor
  · rintro ⟨v, hv, hteam, hid⟩
    exact hinj hv hu hid ▸ hteam
  · exact fun hteam => ⟨u, hu, hteam, rfl⟩

theorem Roll.filter_active (h : c.Roll (c.staff team) us) (hinj : Set.InjOn User.id c.users)
    (except : Option Text) :
    c.Roll ((c.active team).filter fun id => some id ≠ except)
      (us.filter fun u => u.active && some u.id ≠ except) := by
  constructor
  · have hids : (us.filter fun u => u.active && some u.id ≠ except).map User.id =
        (us.map User.id).filter fun id => decide (id ∈ c.active team ∧ some id ≠ except) := by
      rw [List.filter_map]
      refine congrArg (List.map User.id) (List.filter_congr fun u hu => ?_)
      have hactive : u.active = true ↔ u.id ∈ c.active team := by
        obtain ⟨hmem, hteam⟩ := (h.mem_staff_iff hinj).1 hu
        rw [mem_active]
        constructor
        · exact fun ha => ⟨u, hmem, hteam, ha, rfl⟩
        · rintro ⟨v, hv, -, ha, hid⟩
          exact hinj hv hmem hid ▸ ha
      rw [Bool.eq_iff_iff]
      simp [hactive]
    rw [hids, h.1, Rows.filter_sort]
    congr 1
    ext id
    simp only [Finset.mem_filter]
    constructor
    · exact And.right
    · exact fun hid => ⟨c.active_subset_staff team hid.1, hid⟩
  · exact fun u hu => h.2 u (List.mem_of_mem_filter hu)

end ReviewDesk.Contents
