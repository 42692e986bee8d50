import Mathlib.Data.Fin.Basic
import Mathlib.Data.List.FinRange
import Mathlib.Data.Nat.Log
import Mathlib.Tactic.Lift
import ReviewDesk.Entity
import ReviewDesk.Proofs.Selection

/-!
# How many draws a selection makes

A short list is sampled with one draw for each entry. From a long list the positions are drawn by
rejection: a draw that repeats a position is made again, with no bound on how often. `Rejection` is
that loop. It comes to an end from every state of the source, since a stretch that reaches past the
prepared values answers every position, and what it finds there is what `sample` hands out.
-/
namespace ReviewDesk

variable {α β : Type}

/-- The longest list that is sampled from a shrinking pool. -/
def setSize (k : Nat) : Nat := 21 + if 5 < k then 4 ^ Nat.clog 4 (3 * k) else 0

/-- The exponent is found by halving the binary logarithm. -/
theorem powerOfFourAbove_eq {m : Nat} (hm : 2 ≤ m) : powerOfFourAbove m = 4 ^ Nat.clog 4 m := by
  have hpower (e : Nat) : 4 ^ e = 2 ^ (2 * e) := (pow_mul 2 2 e).symm
  let l := (m - 1).log2
  have hlow : 2 ^ l ≤ m - 1 := Nat.log2_self_le (by omega)
  have hhigh : m - 1 < 2 ^ (l + 1) := Nat.lt_log2_self
  have hclog : Nat.clog 4 m = l / 2 + 1 := by
    refine le_antisymm (Nat.clog_le_of_le_pow ?_) ((Nat.lt_clog_iff_pow_lt (by decide)).2 ?_)
    · have hle : 2 ^ (l + 1) ≤ 4 ^ (l / 2 + 1) := by
        rw [hpower]
        exact Nat.pow_le_pow_right (by decide) (by omega)
      omega
    · have hle : 4 ^ (l / 2) ≤ 2 ^ l := by
        rw [hpower]
        exact Nat.pow_le_pow_right (by decide) (by omega)
      omega
  rw [hclog]
  rfl

theorem poolLimit_eq (k : Nat) : poolLimit k = setSize k := by
  unfold poolLimit setSize
  split
  · rw [powerOfFourAbove_eq (by omega)]
  · rfl

section Pool

theorem swapRemove_map (f : α → β) (pool : List α) (j : Nat) :
    swapRemove (pool.map f) j = (swapRemove pool j).map f := by
  rcases List.eq_nil_or_concat' pool with rfl | ⟨init, z, rfl⟩
  · rfl
  · simp [swapRemove, List.map_set, List.map_dropLast]

/-- A pool is drawn from by position: what its entries are does not count. -/
theorem takeMany_map (f : α → β) (k : Nat) (pool : List α) (d : Draws) :
    takeMany k (pool.map f) d = ((takeMany k pool d).1.map f, (takeMany k pool d).2) := by
  induction k generalizing pool d with
  | zero => rfl
  | succ k ih =>
    by_cases hp : pool = []
    · subst hp
      rfl
    · obtain ⟨_, hmany⟩ := takeMany_succ hp k d
      obtain ⟨_, hmapped⟩ := takeMany_succ (List.map_eq_nil_iff.not.2 hp : pool.map f ≠ []) k d
      rw [hmany, hmapped]
      simp only [List.length_map, List.getElem_map, swapRemove_map, ih, List.map_cons]

end Pool

section Rejection

/-- The loop that draws `k` further positions below `n`, none of them in `seen`: a position that is
in `seen` is passed over, and the next draw decides. -/
inductive Rejection (n : Nat) : Nat → List Nat → Draws → List Nat → Draws → Prop
  | done {seen d} : Rejection n 0 seen d [] d
  | again {k seen d js d'} (hseen : (d.below n).1 ∈ seen)
      (hrest : Rejection n (k + 1) seen (d.below n).2 js d') : Rejection n (k + 1) seen d js d'
  | found {k seen d js d'} (hnew : (d.below n).1 ∉ seen)
      (hrest : Rejection n k ((d.below n).1 :: seen) (d.below n).2 js d') :
      Rejection n (k + 1) seen d ((d.below n).1 :: js) d'

variable {n k : Nat} {seen js : List Nat} {d d' : Draws}

/-- The loop comes to one end at most. -/
theorem Rejection.unique (h : Rejection n k seen d js d') {is : List Nat} {e : Draws}
    (h' : Rejection n k seen d is e) : is = js ∧ e = d' := by
  induction h generalizing is with
  | done =>
    cases h'
    exact ⟨rfl, rfl⟩
  | again hseen _ ih =>
    cases h' with
    | again _ hrest => exact ih hrest
    | found hnew _ => exact absurd hseen hnew
  | found hnew _ ih =>
    cases h' with
    | again hseen _ => exact absurd hseen hnew
    | found _ hrest =>
      obtain ⟨rfl, rfl⟩ := ih hrest
      exact ⟨rfl, rfl⟩

theorem Draws.upcoming_succ (d : Draws) (n m : Nat) :
    d.upcoming n (m + 1) = (d.below n).1 :: (d.below n).2.upcoming n m := by
  simp only [Draws.upcoming, List.range_succ_eq_map, List.map_cons, List.map_map]
  refine congrArg (_ :: ·) (List.map_congr_left fun i _ => ?_)
  simp only [Function.comp_apply, Draws.value, Draws.below]
  rw [Nat.succ_eq_add_one, Nat.add_right_comm, Nat.add_assoc]

/-- A stretch of the source that holds enough positions is where the loop ends. -/
theorem rejection_of_firstDistinct (m : Nat)
    (hk : (firstDistinct k seen (d.upcoming n m)).1.length = k) :
    Rejection n k seen d (firstDistinct k seen (d.upcoming n m)).1
      (d.skip (firstDistinct k seen (d.upcoming n m)).2) := by
  induction m generalizing k seen d with
  | zero =>
    cases k with
    | zero => exact .done
    | succ k => simp [Draws.upcoming, firstDistinct] at hk
  | succ m ih =>
    cases k with
    | zero =>
      simp only [firstDistinct]
      exact .done
    | succ k =>
      have hskip (c : Nat) : (d.below n).2.skip c = d.skip (c + 1) := by
        rw [Nat.add_comm]
        exact Draws.skip_skip d 1 c
      rw [Draws.upcoming_succ] at hk ⊢
      by_cases hseen : (d.below n).1 ∈ seen
      · simp only [firstDistinct, if_pos hseen] at hk ⊢
        rw [← hskip]
        exact .again hseen (ih hk)
      · simp only [firstDistinct, if_neg hseen, List.length_cons, Nat.add_right_cancel_iff] at hk ⊢
        rw [← hskip]
        exact .found hseen (ih hk)

/-- At least one draw is read for each number found, and none past the stream. -/
theorem firstDistinct_reads (k : Nat) (seen stream : List Nat) :
    (firstDistinct k seen stream).1.length ≤ (firstDistinct k seen stream).2 ∧
      (firstDistinct k seen stream).2 ≤ stream.length := by
  fun_induction firstDistinct k seen stream with
  | case1 seen stream => simp
  | case2 k seen => simp
  | case3 k seen j stream hj js m hfound ih =>
    rw [hfound] at ih
    simp only [List.length_cons] at ih ⊢
    omega
  | case4 k seen j stream hj js m hfound ih =>
    rw [hfound] at ih
    simp only [List.length_cons] at ih ⊢
    omega

theorem Draws.search_reads (d : Draws) (n k : Nat) :
    (d.search n k).1.length ≤ (d.search n k).2 ∧ (d.search n k).2 ≤ d.left + n := by
  have hreads := firstDistinct_reads k [] (d.upcoming n (d.left + n))
  rwa [Draws.length_upcoming] at hreads

end Rejection

/-- Positions drawn from a list of `n` entries: `k` different ones, with one draw for each from a
short list. From a long list they are what the rejection loop ends with, and the draws that it
repeats are no more than the prepared values and one round of all positions allow. -/
structure Sampled (n k : Nat) (d : Draws) (js : List (Fin n)) (d' : Draws) : Prop where
  nodup : js.Nodup
  length : js.length = k
  short : n ≤ setSize k → d' = d.skip k
  rejection : setSize k < n → ∀ is e, Rejection n k [] d is e ↔ is = js.map Fin.val ∧ e = d'
  long : setSize k < n → ∃ calls, d' = d.skip calls ∧ k ≤ calls ∧ calls ≤ d.left + n

/-- A list up to the limit is a pool. -/
theorem sample_eq_takeMany {items : List α} {k : Nat} (hshort : items.length ≤ setSize k)
    (d : Draws) : sample items k d = takeMany k items d := by
  rw [sample, if_pos (by rwa [poolLimit_eq])]

/-- Past the limit the entries are those at the positions found. -/
theorem sample_eq_search {items : List α} {k : Nat} (hlong : setSize k < items.length) (d : Draws) :
    sample items k d =
      ((d.search items.length k).1.filterMap (items[·]?), d.skip (d.search items.length k).2) := by
  rw [sample, if_neg (by rw [poolLimit_eq]; omega)]
  rfl

/-- A pool holds the positions that are not taken yet. -/
theorem takeMany_sampled {items : List α} {k : Nat} (hk : k ≤ items.length)
    (hshort : items.length ≤ setSize k) (d : Draws) :
    ∃ js, Sampled items.length k d js (takeMany k items d).2 ∧
      (takeMany k items d).1 = js.map items.get := by
  let positions := List.finRange items.length
  have hitems : takeMany k items d =
      ((takeMany k positions d).1.map items.get, (takeMany k positions d).2) := by
    conv_lhs => rw [← List.map_get_finRange items]
    exact takeMany_map items.get k positions d
  have hlength : k ≤ positions.length := hk.trans (List.length_finRange).ge
  obtain ⟨rest, hperm, htaken⟩ := takeMany_perm k positions d
  have hnodup := hperm.nodup_iff.2 (List.nodup_finRange items.length)
  refine ⟨(takeMany k positions d).1, ?_, congrArg Prod.fst hitems⟩
  constructor
  case nodup => exact (List.nodup_append.1 hnodup).1
  case length => rw [htaken, min_eq_left hlength]
  case short =>
    intro _
    exact takeMany_draws hk d
  case rejection =>
    intro hlong
    omega
  case long =>
    intro hlong
    omega

/-- A long list is sampled at the positions with which the rejection loop ends. -/
theorem search_sampled {items : List α} {k : Nat} (hk : k ≤ items.length)
    (hlong : setSize k < items.length) (d : Draws) :
    ∃ js, Sampled items.length k d js (sample items k d).2 ∧
      (sample items k d).1 = js.map items.get := by
  rw [sample_eq_search hlong]
  have hlength := d.length_search hk
  have hloop : Rejection items.length k [] d (d.search items.length k).1
      (d.skip (d.search items.length k).2) := rejection_of_firstDistinct _ hlength
  have hlt : ∀ j ∈ (d.search items.length k).1, j < items.length := fun j hj =>
    d.search_lt (by omega) hj
  obtain ⟨js, hjs⟩ : ∃ js : List (Fin items.length), js.map Fin.val =
      (d.search items.length k).1 := by
    lift (d.search items.length k).1 to List (Fin items.length) using hlt with js
    exact ⟨js, rfl⟩
  refine ⟨js, ?_, ?_⟩
  · constructor
    case nodup => exact List.Nodup.of_map Fin.val (hjs ▸ d.nodup_search items.length k)
    case length => rw [← hlength, ← hjs, List.length_map]
    case short =>
      intro hshort
      omega
    case rejection =>
      intro _ is e
      rw [hjs]
      refine ⟨hloop.unique, ?_⟩
      rintro ⟨rfl, rfl⟩
      exact hloop
    case long =>
      intro _
      obtain ⟨hlow, hhigh⟩ := d.search_reads items.length k
      rw [hlength] at hlow
      exact ⟨(d.search items.length k).2, rfl, hlow, hhigh⟩
  · rw [← hjs, List.filterMap_map]
    exact List.filterMap_eq_map_iff_forall_eq_some.2 fun j _ => List.getElem?_eq_getElem j.isLt

theorem sample_sampled {items : List α} {k : Nat} (hk : k ≤ items.length) (d : Draws) :
    ∃ js, Sampled items.length k d js (sample items k d).2 ∧
      (sample items k d).1 = js.map items.get := by
  by_cases hshort : items.length ≤ setSize k
  · rw [sample_eq_takeMany hshort]
    exact takeMany_sampled hk hshort d
  · exact search_sampled hk (by omega) d

theorem sample_map (f : α → β) (items : List α) (k : Nat) (d : Draws) :
    sample (items.map f) k d = ((sample items k d).1.map f, (sample items k d).2) := by
  unfold sample
  rw [List.length_map]
  split
  · exact takeMany_map f k items d
  · have hget (j : Nat) : (items.map f)[j]? = (items[j]?).map f := List.getElem?_map
    simp only [List.map_filterMap, hget]

theorem selectUpTo_map (f : α → β) (candidates : List α) (limit : Int) (d : Draws) :
    selectUpTo (candidates.map f) limit d =
      ((selectUpTo candidates limit d).1.map f, (selectUpTo candidates limit d).2) := by
  rw [selectUpTo_eq_sample, selectUpTo_eq_sample, List.length_map]
  exact sample_map f candidates _ d

theorem selectUpTo_positions (candidates : List α) (limit : Int) (d : Draws) :
    ∃ js, Sampled candidates.length (min limit.toNat candidates.length) d js
        (selectUpTo candidates limit d).2 ∧
      (selectUpTo candidates limit d).1 = js.map candidates.get := by
  rw [selectUpTo_eq_sample]
  exact sample_sampled (min_le_right _ _) d

/-- A long list: the second draw repeats a position, and the third decides. -/
example : selectUpTo (List.range 22) 2 (.ofList [7, 7]) = ([7, 2], ⟨[7, 7], 3⟩) := by decide

/-- The ids of as many candidates as the limit allows, at different positions of the list. -/
theorem selectUpTo_sampled (candidates : List User) (limit : Int) (d : Draws) :
    ∃ js, Sampled candidates.length (min limit.toNat candidates.length) d js
        (selectUpTo (candidates.map User.id) limit d).2 ∧
      (selectUpTo (candidates.map User.id) limit d).1 = js.map (fun j => (candidates.get j).id) ∧
      ((candidates.map User.id).Nodup → (selectUpTo (candidates.map User.id) limit d).1.Nodup) := by
  obtain ⟨js, hsampled, hjs⟩ := selectUpTo_positions candidates limit d
  rw [selectUpTo_map, hjs, List.map_map]
  refine ⟨js, hsampled, rfl, fun hnodup => hsampled.nodup.map_on fun i _ j _ hij => ?_⟩
  have hid (l : Fin candidates.length) :
      (candidates.get l).id = (candidates.map User.id).get ⟨l, by simp⟩ := by simp
  simp only [Function.comp_apply, hid] at hij
  exact Fin.ext (Fin.mk.inj (List.nodup_iff_injective_get.1 hnodup hij))

end ReviewDesk
