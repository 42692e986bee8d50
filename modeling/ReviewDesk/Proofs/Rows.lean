import Mathlib.Data.Finset.Sort
import ReviewDesk.Store.Rows

/-!
# Rows as sets

Where each key occurs once, rows under keys are a set: what `find?` finds is the element with that
key, and `upsert` and `modify` change the elements with that key. Texts are linearly ordered, so a
set of ids has exactly one ascending list, `Finset.sort`, and sorted rows have the ascending list of
their keys.
-/
namespace ReviewDesk

instance : LinearOrder Text where
  le a b := a.le b = true
  le_refl a := by simpa using Text.le_total a a
  le_trans _ _ _ := Text.le_trans
  le_antisymm _ _ := Text.le_antisymm
  le_total a b := by simpa using Text.le_total a b
  toDecidableLE := fun a b => inferInstanceAs (Decidable (a.le b = true))
  toDecidableEq := instDecidableEqText

namespace Rows

variable {α : Type}

theorem find?_eq_none_iff (key : α → Text) (k : Text) (rows : List α) :
    find? key k rows = none ↔ k ∉ rows.map key := by
  simp [find?]

theorem find?_eq_some_iff (key : α → Text) (k : Text) {rows : List α}
    (h : (rows.map key).Nodup) (r : α) :
    find? key k rows = some r ↔ r ∈ rows ∧ key r = k := by
  induction rows with
  | nil => simp [find?]
  | cons x rows ih =>
    obtain ⟨hx, hrows⟩ := List.nodup_cons.1 h
    have hfind : find? key k (x :: rows) = if key x = k then some x else find? key k rows := by
      by_cases hk : key x = k <;> simp [find?, hk]
    rw [hfind]
    split
    · next hk =>
      constructor
      · intro he
        obtain rfl := Option.some.inj he
        exact ⟨List.mem_cons_self, hk⟩
      · rintro ⟨hr, hkr⟩
        rcases List.mem_cons.1 hr with rfl | hr
        · rfl
        · exact absurd (List.mem_map.2 ⟨r, hr, hkr.trans hk.symm⟩) hx
    · next hk =>
      rw [ih hrows, List.mem_cons]
      constructor
      · rintro ⟨hr, hkr⟩
        exact ⟨.inr hr, hkr⟩
      · rintro ⟨rfl | hr, hkr⟩
        · exact absurd hkr hk
        · exact ⟨hr, hkr⟩

theorem mem_upsert (key : α → Text) (row : α) {rows : List α} (h : (rows.map key).Nodup) (r : α) :
    r ∈ upsert key row rows ↔ r = row ∨ r ∈ rows ∧ key r ≠ key row := by
  have hn := nodup_upsert key row h
  have hr : r ∈ upsert key row rows ↔ find? key (key r) (upsert key row rows) = some r := by
    simp [find?_eq_some_iff key (key r) hn]
  rw [hr, find?_upsert]
  split
  · next hk =>
    constructor
    · intro he
      exact .inl (Option.some.inj he).symm
    · rintro (rfl | ⟨-, hne⟩)
      · rfl
      · exact absurd hk.symm hne
  · next hk =>
    rw [find?_eq_some_iff key (key r) h]
    constructor
    · rintro ⟨hr, -⟩
      exact .inr ⟨hr, fun e => hk e.symm⟩
    · rintro (rfl | ⟨hr, -⟩)
      · exact absurd rfl hk
      · exact ⟨hr, rfl⟩

theorem mem_modify (key : α → Text) (k : Text) (f : α → α) (rows : List α) (r : α) :
    r ∈ modify key k f rows ↔ ∃ x ∈ rows, (if key x = k then f x else x) = r := by
  simp [modify]

theorem pairwise_sortByKey (key : α → Text) (rows : List α) :
    (sortByKey key rows).Pairwise fun a b => key a ≤ key b := by
  have htrans (a b c : α) (h : (key a).le (key b)) (h' : (key b).le (key c)) : (key a).le (key c) :=
    Text.le_trans h h'
  exact List.pairwise_mergeSort htrans (fun a b => Text.le_total (key a) (key b)) rows

theorem sortByKey_perm (key : α → Text) (rows : List α) : (sortByKey key rows).Perm rows :=
  List.mergeSort_perm rows _

@[simp] theorem mem_sortByKey (key : α → Text) (rows : List α) (r : α) :
    r ∈ sortByKey key rows ↔ r ∈ rows := List.mem_mergeSort

/-- The keys of sorted rows, of which some may be left out, are the ascending list of their set. -/
theorem map_sublist_sortByKey (key : α → Text) {rows some : List α} (h : (rows.map key).Nodup)
    (hs : some.Sublist (sortByKey key rows)) : some.map key = (some.map key).toFinset.sort := by
  have hn : ((sortByKey key rows).map key).Nodup :=
    ((sortByKey_perm key rows).map key).nodup_iff.2 h
  have hp : (some.map key).Pairwise (· ≤ ·) :=
    List.pairwise_map.2 ((pairwise_sortByKey key rows).sublist hs)
  exact ((List.toFinset_sort (· ≤ ·) (hn.sublist (hs.map key))).2 hp).symm

theorem sortIds_eq_sort {ids : List Text} (h : ids.Nodup) : sortIds ids = ids.toFinset.sort := by
  have hk : sortIds ids = sortByKey id ids := rfl
  have hs := map_sublist_sortByKey id (by simpa using h) (List.Sublist.refl (sortByKey id ids))
  have ht : (sortByKey id ids).toFinset = ids.toFinset :=
    List.toFinset_eq_of_perm _ _ (sortByKey_perm id ids)
  rw [List.map_id, ht] at hs
  rw [hk, hs]

/-- Of ids in ascending order those that are wanted are in ascending order. -/
theorem filter_sort (ids : Finset Text) (p : Text → Prop) [DecidablePred p] :
    ids.sort.filter (fun id => decide (p id)) = (ids.filter p).sort := by
  have hset : (ids.sort.filter fun id => decide (p id)).toFinset = ids.filter p := by
    ext id
    simp
  have hn := (ids.sort_nodup (· ≤ ·)).filter fun id => decide (p id)
  have hp := (ids.pairwise_sort (· ≤ ·)).filter fun id => decide (p id)
  rw [← hset]
  exact ((List.toFinset_sort (· ≤ ·) hn).2 hp).symm

/-- Rows that amount to others are modified as those are. -/
theorem map_modify {β : Type} (key : α → Text) (key' : β → Text) (g : α → β)
    (hg : ∀ r, key' (g r) = key r) (f : α → α) (f' : β → β) (hf : ∀ r, g (f r) = f' (g r))
    (k : Text) (rows : List α) : (modify key k f rows).map g = modify key' k f' (rows.map g) := by
  simp only [modify, List.map_map]
  refine List.map_congr_left fun r _ => ?_
  simp only [Function.comp_apply, hg]
  split
  · exact hf r
  · rfl

/-- Rows that amount to others are sorted as those are. -/
theorem sortByKey_map {β : Type} (key : α → Text) (key' : β → Text) (f : α → β)
    (hf : ∀ a, key' (f a) = key a) (rows : List α) :
    sortByKey key' (rows.map f) = (sortByKey key rows).map f :=
  (List.map_mergeSort fun a _ b _ => by rw [hf, hf]).symm

theorem latestFirst_perm (time : α → Int) (rows : List α) :
    (latestFirst time rows).Perm rows := List.mergeSort_perm rows _

theorem pairwise_latestFirst (time : α → Int) (rows : List α) :
    (latestFirst time rows).Pairwise fun a b => time b ≤ time a := by
  have hsorted : (latestFirst time rows).Pairwise fun a b => decide (time b ≤ time a) = true :=
    List.pairwise_mergeSort (fun a b c => by simp only [decide_eq_true_eq]; omega)
      (fun a b => by simp only [Bool.or_eq_true, decide_eq_true_eq]; omega) rows
  exact hsorted.imp of_decide_eq_true

/-- Rows of one time keep their order. -/
theorem filter_latestFirst (time : α → Int) (t : Int) (rows : List α) :
    (latestFirst time rows).filter (fun a => decide (time a = t)) =
      rows.filter fun a => decide (time a = t) := by
  have hsame (a : α) (ha : a ∈ rows.filter fun a => decide (time a = t)) : time a = t := by
    simpa using (List.mem_filter.1 ha).2
  have hpairwise : (rows.filter fun a => decide (time a = t)).Pairwise
      fun a b => decide (time b ≤ time a) = true :=
    List.pairwise_of_forall_mem_list fun a ha b hb => by
      rw [hsame a ha, hsame b hb]
      exact decide_eq_true le_rfl
  have hsub : (rows.filter fun a => decide (time a = t)).Sublist (latestFirst time rows) :=
    List.sublist_mergeSort (fun a b c => by simp only [decide_eq_true_eq]; omega)
      (fun a b => by simp only [Bool.or_eq_true, decide_eq_true_eq]; omega) hpairwise
      List.filter_sublist
  have hfilter := hsub.filter fun a => decide (time a = t)
  simp only [List.filter_filter, Bool.and_self] at hfilter
  exact (hfilter.eq_of_length ((latestFirst_perm time rows).filter _).length_eq.symm).symm

theorem latestFirst_map {β : Type} (time : α → Int) (time' : β → Int) (f : α → β) {rows : List α}
    (hf : ∀ a ∈ rows, time' (f a) = time a) :
    latestFirst time' (rows.map f) = (latestFirst time rows).map f :=
  (List.map_mergeSort fun a ha b hb => by rw [hf a ha, hf b hb]).symm

/-- Of rows with different keys those that are wanted are listed, and none of them twice. -/
theorem listed_latestFirst {β : Type} (key : α → Text) (key' : β → Text) (f : α → β)
    (hf : ∀ a, key' (f a) = key a) (time : α → Int) (p : α → Bool) {rows : List α}
    (h : (rows.map key).Nodup) :
    (((latestFirst time (rows.filter p)).map f).map key').Nodup ∧
      ∀ b, b ∈ (latestFirst time (rows.filter p)).map f ↔ ∃ a ∈ rows, p a = true ∧ b = f a := by
  have hperm : (latestFirst time (rows.filter p)).Perm (rows.filter p) := List.mergeSort_perm _ _
  constructor
  · have hkeys : key' ∘ f = key := funext hf
    rw [List.map_map, hkeys]
    exact (hperm.map key).nodup_iff.2 (h.sublist (List.filter_sublist.map key))
  · intro b
    simp only [List.mem_map, hperm.mem_iff, List.mem_filter, and_assoc, eq_comm]

theorem find?_map {β : Type} (key : α → Text) (key' : β → Text) (f : α → β)
    (hf : ∀ a, key' (f a) = key a) (k : Text) (rows : List α) :
    find? key' k (rows.map f) = (find? key k rows).map f := by
  simp only [find?, List.find?_map, Function.comp_def, hf]

theorem nodup_eraseDups {β : Type} [BEq β] [LawfulBEq β] : ∀ xs : List β, xs.eraseDups.Nodup
  | [] => by simp
  | x :: xs => by
    rw [List.eraseDups_cons, List.nodup_cons]
    exact ⟨by simp [List.mem_eraseDups], nodup_eraseDups (xs.filter fun y => !y == x)⟩
  termination_by xs => xs.length
  decreasing_by exact Nat.lt_succ_of_le (List.length_filter_le _ xs)

/-- Entries of which none occurs twice are left as they are. -/
theorem eraseDups_of_nodup {β : Type} [BEq β] [LawfulBEq β] :
    ∀ {xs : List β}, xs.Nodup → xs.eraseDups = xs
  | [], _ => by simp
  | x :: xs, h => by
    obtain ⟨hx, hn⟩ := List.nodup_cons.1 h
    have hfilter : (xs.filter fun y => !y == x) = xs :=
      List.filter_eq_self.2 fun y hy => by
        have hne : y ≠ x := fun e => hx (e ▸ hy)
        simpa using hne
    rw [List.eraseDups_cons, hfilter, eraseDups_of_nodup hn]

/-- Two lists of ids that hold the same ids, and none of them twice, are the same when sorted. -/
theorem sortIds_congr {ids ids' : List Text} (h : ids.Nodup) (h' : ids'.Nodup)
    (hmem : ∀ id, id ∈ ids ↔ id ∈ ids') : sortIds ids = sortIds ids' := by
  have hsame : ids.toFinset = ids'.toFinset := by
    ext id
    simp [hmem]
  rw [sortIds_eq_sort h, sortIds_eq_sort h', hsame]

/-- Of rows with different keys, it does not matter whether some are left out before or after
sorting. -/
theorem filter_sortByKey (key : α → Text) {rows : List α} (h : (rows.map key).Nodup)
    (p : α → Bool) : (sortByKey key rows).filter p = sortByKey key (rows.filter p) := by
  have hperm : ((sortByKey key rows).filter p).Perm (sortByKey key (rows.filter p)) :=
    ((sortByKey_perm key rows).filter p).trans (sortByKey_perm key (rows.filter p)).symm
  refine hperm.eq_of_pairwise (fun a b ha hb hab hba => ?_)
    ((pairwise_sortByKey key rows).filter p) (pairwise_sortByKey key (rows.filter p))
  have ha' : a ∈ rows := (mem_sortByKey key rows a).1 (List.mem_filter.1 ha).1
  have hb' : b ∈ rows := (List.mem_filter.1 ((mem_sortByKey key _ b).1 hb)).1
  exact List.inj_on_of_nodup_map h ha' hb' (le_antisymm hab hba)

end Rows
end ReviewDesk
