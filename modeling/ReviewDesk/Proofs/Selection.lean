import Mathlib.Data.Finset.Card
import Mathlib.Data.Finset.Option
import Mathlib.Data.List.Nodup
import Mathlib.Data.List.Perm.Basic
import ReviewDesk.Random.Selection

/-!
# What is selected

One random entry and the pool that is left make up the pool. Several entries are as many as are
wanted, they come from the list, and a list that holds nothing twice yields none of its entries
twice. Both methods of `sample` keep to that. The second one finds enough positions since the
stretch of the source that it reads answers every position.
-/
namespace ReviewDesk

variable {α : Type}

/-- The last entry moves into the gap. -/
theorem perm_swapRemove (pool : List α) {j : Nat} (h : j < pool.length) :
    (pool[j] :: swapRemove pool j).Perm pool := by
  rcases List.eq_nil_or_concat' pool with rfl | ⟨init, z, rfl⟩
  · exact absurd h (Nat.not_lt_zero j)
  · have hswap : swapRemove (init ++ [z]) j =
      ((init ++ [z]).set j z).dropLast := by simp [swapRemove]
    rw [hswap]
    by_cases hj : j < init.length
    · have hset : (init.set j z).Perm (z :: init.eraseIdx j) := List.set_perm_cons_eraseIdx hj z
      have hget : (init[j] :: init.eraseIdx j).Perm init := List.getElem_cons_eraseIdx_perm hj
      rw [List.set_append_left _ _ hj, List.dropLast_concat, List.getElem_append_left hj]
      have hswapped : (init[j] :: init.set j z).Perm (z :: init[j] :: init.eraseIdx j) :=
        (hset.cons _).trans (List.Perm.swap _ _ _)
      have hback : (z :: init).Perm (init ++ [z]) := (List.perm_append_singleton z init).symm
      exact hswapped.trans ((hget.cons z).trans hback)
    · have hlast : j = init.length := by
        rw [List.length_append, List.length_singleton] at h
        omega
      subst hlast
      simpa using (List.perm_append_singleton z init).symm

/-- The draw says where the entry stands that a pool gives up. -/
theorem takeRandom_at {pool : List α} (h : pool ≠ []) (d : Draws) :
    ∃ hj : (d.below pool.length).1 < pool.length,
      takeRandom pool d = (some pool[(d.below pool.length).1],
        swapRemove pool (d.below pool.length).1, (d.below pool.length).2) := by
  have hj : (d.below pool.length).1 < pool.length := d.below_lt (List.length_pos_iff.2 h)
  refine ⟨hj, ?_⟩
  simp [takeRandom, h, List.getElem?_eq_getElem hj]

/-- A pool that is not empty is divided into one entry and the rest. -/
theorem takeRandom_perm {pool : List α} (h : pool ≠ []) (d : Draws) :
    ∃ x rest d', takeRandom pool d = (some x, rest, d') ∧ (x :: rest).Perm pool := by
  obtain ⟨hj, htake⟩ := takeRandom_at h d
  exact ⟨_, _, _, htake, perm_swapRemove pool hj⟩

/-- What is taken and what is left was in the pool. -/
theorem mem_of_takeRandom (pool : List α) (d : Draws) :
    (∀ x ∈ (takeRandom pool d).1, x ∈ pool) ∧ ∀ x ∈ (takeRandom pool d).2.1, x ∈ pool := by
  by_cases hp : pool = []
  · subst hp
    exact ⟨fun _ hx => (by cases hx), fun _ hx => hx⟩
  · obtain ⟨x, rest, d', htake, hperm⟩ := takeRandom_perm hp d
    rw [htake]
    refine ⟨fun y hy => ?_, fun y hy => hperm.mem_iff.1 (List.mem_cons_of_mem x hy)⟩
    cases hy
    exact hperm.mem_iff.1 List.mem_cons_self

/-- An entry is chosen from a pool: one draw tells its place, and from an empty pool none is chosen,
without a draw. -/
structure Chosen (pool : List α) (d : Draws) (next : Option α) (d' : Draws) : Prop where
  nobody : pool = [] → next = none ∧ d' = d
  somebody : pool ≠ [] → ∃ _ : (d.below pool.length).1 < pool.length,
    next = some pool[(d.below pool.length).1] ∧ d' = (d.below pool.length).2

theorem takeRandom_chosen (pool : List α) (d : Draws) :
    Chosen pool d (takeRandom pool d).1 (takeRandom pool d).2.2 := by
  by_cases hp : pool = []
  · subst hp
    exact ⟨fun _ => ⟨rfl, rfl⟩, fun h => absurd rfl h⟩
  · obtain ⟨hj, htake⟩ := takeRandom_at hp d
    rw [htake]
    exact ⟨fun h => absurd h hp, fun _ => ⟨hj, rfl, rfl⟩⟩

theorem Draws.skip_skip (d : Draws) (m n : Nat) : (d.skip m).skip n = d.skip (m + n) := by
  simp [Draws.skip, Nat.add_assoc]

/-- As many draws are made as entries are chosen. -/
theorem Chosen.draws_eq {pool : List α} {d d' : Draws} {next : Option α}
    (h : Chosen pool d next d') : d' = d.skip next.toList.length := by
  by_cases hp : pool = []
  · obtain ⟨rfl, rfl⟩ := h.nobody hp
    rfl
  · obtain ⟨-, rfl, rfl⟩ := h.somebody hp
    rfl

theorem Chosen.subset [DecidableEq α] {pool : List α} {d d' : Draws} {next : Option α}
    (h : Chosen pool d next d') : next.toFinset ⊆ pool.toFinset := by
  by_cases hp : pool = []
  · obtain ⟨rfl, -⟩ := h.nobody hp
    exact Finset.empty_subset _
  · obtain ⟨hj, rfl, -⟩ := h.somebody hp
    rw [Option.toFinset_some, Finset.singleton_subset_iff, List.mem_toFinset]
    exact List.getElem_mem hj

theorem Chosen.card [DecidableEq α] {pool : List α} {d d' : Draws} {next : Option α}
    (h : Chosen pool d next d') : next.toFinset.card = min 1 pool.length := by
  by_cases hp : pool = []
  · obtain ⟨rfl, -⟩ := h.nobody hp
    subst hp
    rfl
  · obtain ⟨-, rfl, -⟩ := h.somebody hp
    have hpos := List.length_pos_iff.2 hp
    rw [Option.toFinset_some, Finset.card_singleton]
    omega

/-- A pool that holds nothing twice is divided into an entry, if there is any, and the rest. -/
structure Taken [DecidableEq α] (pool : List α) (next : Option α) (rest : List α) : Prop where
  subset : next.toFinset ⊆ pool.toFinset
  card : next.toFinset.card = min 1 pool.length
  disjoint : Disjoint next.toFinset rest.toFinset
  rest_subset : rest ⊆ pool
  nodup : rest.Nodup
  length : rest.length = pool.length - 1

theorem Taken.next_mem [DecidableEq α] {pool rest : List α} {next : Option α}
    (h : Taken pool next rest) {x : α}
    (hx : x ∈ next.toFinset) : x ∈ pool := List.mem_toFinset.1 (h.subset hx)

theorem takeRandom_taken [DecidableEq α] {pool : List α} (hpool : pool.Nodup) (d : Draws) :
    Taken pool (takeRandom pool d).1 (takeRandom pool d).2.1 := by
  have hchosen := takeRandom_chosen pool d
  by_cases hp : pool = []
  · subst hp
    exact ⟨hchosen.subset, hchosen.card, Finset.disjoint_empty_left _, List.Subset.refl _,
      List.nodup_nil, rfl⟩
  · obtain ⟨x, rest, d', htake, hperm⟩ := takeRandom_perm hp d
    obtain ⟨hx, hrest⟩ := List.nodup_cons.1 (hperm.nodup_iff.2 hpool)
    have hlength : rest.length + 1 = pool.length := hperm.length_eq
    rw [htake] at hchosen ⊢
    constructor
    case subset => exact hchosen.subset
    case card => exact hchosen.card
    case disjoint =>
      rw [Option.toFinset_some, Finset.disjoint_singleton_left, List.mem_toFinset]
      exact hx
    case rest_subset =>
      intro y hy
      exact hperm.mem_iff.1 (List.mem_cons_of_mem x hy)
    case nodup => exact hrest
    case length =>
      show rest.length = pool.length - 1
      omega

/-- One entry before the others. -/
theorem takeMany_succ {pool : List α} (h : pool ≠ []) (k : Nat) (d : Draws) :
    ∃ hj : (d.below pool.length).1 < pool.length,
      takeMany (k + 1) pool d =
        (pool[(d.below pool.length).1] ::
            (takeMany k (swapRemove pool (d.below pool.length).1) (d.below pool.length).2).1,
          (takeMany k (swapRemove pool (d.below pool.length).1) (d.below pool.length).2).2) := by
  obtain ⟨hj, htake⟩ := takeRandom_at h d
  exact ⟨hj, by rw [takeMany, htake]⟩

/-- Entries taken one after the other, and those left, make up the pool. -/
theorem takeMany_perm (k : Nat) (pool : List α) (d : Draws) :
    ∃ rest, ((takeMany k pool d).1 ++ rest).Perm pool ∧
      (takeMany k pool d).1.length = min k pool.length := by
  induction k generalizing pool d with
  | zero => exact ⟨pool, by simp [takeMany], by simp [takeMany]⟩
  | succ k ih =>
    by_cases hp : pool = []
    · subst hp
      exact ⟨[], by simp [takeMany], by simp [takeMany]⟩
    · obtain ⟨hj, hmany⟩ := takeMany_succ hp k d
      obtain ⟨rest, hrest, hlength⟩ := ih (swapRemove pool (d.below pool.length).1)
        (d.below pool.length).2
      rw [hmany]
      refine ⟨rest, (hrest.cons _).trans (perm_swapRemove pool hj), ?_⟩
      rw [List.length_cons, hlength, length_swapRemove]
      omega

/-- One draw for each entry taken. -/
theorem takeMany_draws {k : Nat} {pool : List α} (hk : k ≤ pool.length) (d : Draws) :
    (takeMany k pool d).2 = d.skip k := by
  induction k generalizing pool d with
  | zero => rfl
  | succ k ih =>
    have hp : pool ≠ [] := List.ne_nil_of_length_pos (by omega)
    obtain ⟨_, hmany⟩ := takeMany_succ hp k d
    rw [hmany, ih (by rw [length_swapRemove]; omega)]
    exact (Draws.skip_skip d 1 k).trans (by rw [Nat.add_comm])

section Positions

/-- The numbers found are in the stream, differ from each other and were not seen before. -/
theorem firstDistinct_nodup (k : Nat) (seen stream : List Nat) :
    (firstDistinct k seen stream).1.Nodup ∧
      ∀ j ∈ (firstDistinct k seen stream).1, j ∈ stream ∧ j ∉ seen := by
  fun_induction firstDistinct k seen stream with
  | case1 seen stream => simp
  | case2 k seen => simp
  | case3 k seen j stream hj js m hfound ih =>
    rw [hfound] at ih
    obtain ⟨hn, hm⟩ := ih
    exact ⟨hn, fun i hi => ⟨List.mem_cons_of_mem j (hm i hi).1, (hm i hi).2⟩⟩
  | case4 k seen j stream hj js m hfound ih =>
    rw [hfound] at ih
    obtain ⟨hn, hm⟩ := ih
    refine ⟨List.nodup_cons.2 ⟨fun h => (hm j h).2 List.mem_cons_self, hn⟩, fun i hi => ?_⟩
    rcases List.mem_cons.1 hi with rfl | hi
    · exact ⟨List.mem_cons_self, hj⟩
    · exact ⟨List.mem_cons_of_mem j (hm i hi).1, fun h => (hm i hi).2 (List.mem_cons_of_mem j h)⟩

/-- As many numbers are found as are wanted, if the stream holds as many that were not seen. -/
theorem length_firstDistinct (k : Nat) (seen stream : List Nat)
    (h : k ≤ (stream.toFinset \ seen.toFinset).card) :
    (firstDistinct k seen stream).1.length = k := by
  fun_induction firstDistinct k seen stream with
  | case1 seen stream => rfl
  | case2 k seen => simp at h
  | case3 k seen j stream hj js m hfound ih =>
    rw [hfound] at ih
    refine ih (h.trans (Finset.card_le_card fun i hi => ?_))
    simp only [Finset.mem_sdiff, List.mem_toFinset, List.mem_cons] at hi ⊢
    rcases hi with ⟨rfl | hi, hseen⟩
    · exact absurd hj hseen
    · exact ⟨hi, hseen⟩
  | case4 k seen j stream hj js m hfound ih =>
    rw [hfound] at ih
    have hcons : (j :: stream).toFinset \ seen.toFinset ⊆ insert j
        (stream.toFinset \ (j :: seen).toFinset) := by
      intro i hi
      simp only [Finset.mem_sdiff, Finset.mem_insert, List.mem_toFinset, List.mem_cons] at hi ⊢
      tauto
    have hcard := (Finset.card_le_card hcons).trans (Finset.card_insert_le _ _)
    rw [List.length_cons, ih (by omega)]

/-- Past the prepared values, `n` calls in a row answer every number below `n`. -/
theorem mem_upcoming (d : Draws) {n r : Nat} (h : r < n) : r ∈ d.upcoming n (d.left + n) := by
  let m := d.used + d.left
  have hleft : d.prepared.length ≤ m := by
    simp only [m, Draws.left]
    omega
  have hvalue (i : Nat) : d.value (m + i) = m + i := by
    have hnone : d.prepared[m + i]? = none := List.getElem?_eq_none (by omega)
    simp [Draws.value, List.getD, hnone]
  obtain ⟨i, hi, hmod⟩ : ∃ i < n, (m + i) % n = r := by
    have hm : n * (m / n) + m % n = m := Nat.div_add_mod m n
    have ht : m % n < n := Nat.mod_lt m (by omega)
    by_cases hr : m % n ≤ r
    · refine ⟨r - m % n, by omega, ?_⟩
      have hsum : m + (r - m % n) = n * (m / n) + r := by omega
      rw [hsum, Nat.mul_add_mod, Nat.mod_eq_of_lt h]
    · refine ⟨n + r - m % n, by omega, ?_⟩
      have hsum : m + (n + r - m % n) = n * (m / n + 1) + r := by
        rw [Nat.mul_add, Nat.mul_one]
        omega
      rw [hsum, Nat.mul_add_mod, Nat.mod_eq_of_lt h]
  refine List.mem_map.2 ⟨d.left + i, List.mem_range.2 (by omega), ?_⟩
  have hsum : d.used + (d.left + i) = m + i := by
    simp only [m]
    omega
  rw [hsum, hvalue, hmod]

theorem lt_of_mem_upcoming (d : Draws) {n m j : Nat} (hn : 0 < n) (h : j ∈ d.upcoming n m) :
    j < n := by
  obtain ⟨i, -, rfl⟩ := List.mem_map.1 h
  exact Nat.mod_lt _ hn

/-- The positions of a list of `n` entries that come up first, and how many calls it takes to find
`k` of them: the prepared values that are left, and one round of all positions, are searched. -/
def Draws.search (d : Draws) (n k : Nat) : List Nat × Nat :=
  firstDistinct k [] (d.upcoming n (d.left + n))

/-- As many are found as are wanted. -/
theorem Draws.length_search (d : Draws) {n k : Nat} (hk : k ≤ n) : (d.search n k).1.length = k := by
  refine length_firstDistinct k [] _ ?_
  have hcovered : Finset.range n ⊆
      (d.upcoming n (d.left + n)).toFinset \ (([] : List Nat)).toFinset := by
    intro r hr
    simpa using mem_upcoming d (Finset.mem_range.1 hr)
  have hcard := Finset.card_le_card hcovered
  rw [Finset.card_range] at hcard
  omega

theorem Draws.nodup_search (d : Draws) (n k : Nat) : (d.search n k).1.Nodup :=
  (firstDistinct_nodup k [] _).1

theorem Draws.search_lt (d : Draws) {n k j : Nat} (hn : 0 < n) (h : j ∈ (d.search n k).1) :
    j < n :=
  lt_of_mem_upcoming d hn ((firstDistinct_nodup k [] _).2 j h).1

theorem map_some_filterMap {items : List α} {js : List Nat} (hlt : ∀ j ∈ js, j < items.length) :
    (js.filterMap (items[·]?)).map some = js.map (items[·]?) := by
  induction js with
  | nil => rfl
  | cons j js ih =>
    have hj : j < items.length := hlt j List.mem_cons_self
    have hrest := ih fun i hi => hlt i (List.mem_cons_of_mem j hi)
    simpa [List.getElem?_eq_getElem hj] using hrest

/-- Entries at different positions of a list that holds nothing twice. -/
theorem filterMap_getElem? {items : List α} (h : items.Nodup) {js : List Nat} (hj : js.Nodup)
    (hlt : ∀ j ∈ js, j < items.length) :
    (js.filterMap (items[·]?)).Nodup ∧ (js.filterMap (items[·]?)).length = js.length := by
  have hentries := map_some_filterMap hlt
  constructor
  · apply List.Nodup.of_map some
    rw [hentries]
    exact hj.map_on fun i hi _ _ hij => (List.getElem?_inj (hlt i hi) h).1 hij
  · simpa using congrArg List.length hentries

end Positions

theorem mem_of_mem_sample {items : List α} {k : Nat} {d : Draws} {x : α}
    (hx : x ∈ (sample items k d).1) : x ∈ items := by
  unfold sample at hx
  split at hx
  · obtain ⟨rest, hperm, -⟩ := takeMany_perm k items d
    exact hperm.mem_iff.1 (List.mem_append_left rest hx)
  · obtain ⟨j, -, hj⟩ := List.mem_filterMap.1 hx
    exact List.mem_of_getElem? hj

theorem sample_zero (items : List α) (d : Draws) : sample items 0 d = ([], d) := by
  unfold sample
  split
  · rfl
  · simp [firstDistinct, Draws.skip]

/-- A selection is a sample: of no entries where nobody is to be selected. -/
theorem selectUpTo_eq_sample (candidates : List α) (limit : Int) (d : Draws) :
    selectUpTo candidates limit d =
      sample candidates (min limit.toNat candidates.length) d := by
  unfold selectUpTo
  split
  · next hnobody =>
    have hzero : min limit.toNat candidates.length = 0 := by
      simp only [Bool.or_eq_true, List.isEmpty_iff, decide_eq_true_eq] at hnobody
      rcases hnobody with rfl | hlimit
      · simp
      · omega
    rw [hzero, sample_zero]
  · rfl

theorem mem_of_mem_selectUpTo {candidates : List α} {limit : Int} {d : Draws} {x : α}
    (hx : x ∈ (selectUpTo candidates limit d).1) : x ∈ candidates := by
  rw [selectUpTo_eq_sample] at hx
  exact mem_of_mem_sample hx

/-- As many entries as are wanted, none of them twice. -/
theorem sample_nodup {items : List α} (h : items.Nodup) {k : Nat} (hk : k ≤ items.length)
    (d : Draws) :
    (sample items k d).1.Nodup ∧ (sample items k d).1.length = k := by
  unfold sample
  split
  · obtain ⟨rest, hperm, hlength⟩ := takeMany_perm k items d
    have hn : ((takeMany k items d).1 ++ rest).Nodup := hperm.nodup_iff.2 h
    refine ⟨(List.nodup_append.1 hn).1, ?_⟩
    rw [hlength, min_eq_left hk]
  · next hlimit =>
    have hpos : 0 < items.length := by omega
    obtain ⟨hn, hlength⟩ := filterMap_getElem? h (d.nodup_search items.length k)
      fun j hj => d.search_lt hpos hj
    exact ⟨hn, hlength.trans (d.length_search hk)⟩

/-- Up to `limit` entries, and as many as there are up to there. -/
theorem selectUpTo_nodup {candidates : List α} (h : candidates.Nodup) (limit : Nat) (d : Draws) :
    (selectUpTo candidates limit d).1.Nodup ∧
      (selectUpTo candidates limit d).1.length = min limit candidates.length := by
  rw [selectUpTo_eq_sample, Int.toNat_natCast]
  exact sample_nodup h (min_le_right _ _) d

end ReviewDesk
