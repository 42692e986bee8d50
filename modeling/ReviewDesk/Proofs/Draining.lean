import Mathlib.Data.List.Permutation
import Mathlib.Data.Set.Card
import ReviewDesk.Proofs.Selection
import ReviewDesk.Text.Basic

/-!
# Draining a pool

A pool gives up one entry at each call. The bound of the draw falls by one each time, and the entry
that fills the gap makes the pool a different list, so that the same draw means another entry later.
What was taken and what is left make up the pool nevertheless, and where the pool holds nothing
twice, each order of its entries comes from exactly one vector of draws. The inductions are on the
number of calls, with the pool left free: every call starts from the pool that the one before left.
-/
namespace ReviewDesk

variable {α : Type}

/-- The vectors of `k` numbers of which the first is below `n` and each later one below one less. -/
def fallingVectors (n k : Nat) : Set (List Nat) :=
  {js | js.length = k ∧ ∀ i (h : i < js.length), js[i] < n - i}

/-- The selections of `k` entries of a list, none of them twice, in some order. -/
def arrangements (items : List α) (k : Nat) : Set (List α) :=
  {xs | xs.length = k ∧ xs.Nodup ∧ xs ⊆ items}

/-- The next `k` answers, if the first is asked below `n` and each later one below one less. -/
def Draws.falling (d : Draws) (n k : Nat) : List Nat :=
  (List.range k).map fun i => d.value (d.used + i) % (n - i)

/-- What `f` hands out depends on the next `k` answers of the source only, where the first is asked
below `n` and each later one below one less, and each outcome comes from exactly one vector of such
answers. -/
structure Unbiased (n k : Nat) (f : Draws → List α × Draws) (outcomes : Set (List α)) : Prop where
  answered : ∀ d : Draws, d.falling n k ∈ fallingVectors n k
  decided : ∀ d : Draws, f d = ((f (.ofList (d.falling n k))).1, d.skip k)
  bijective : Set.BijOn (fun js => (f (.ofList js)).1) (fallingVectors n k) outcomes

section Vectors

variable {n k : Nat} {js : List Nat}

theorem Draws.falling_succ (d : Draws) (n k : Nat) :
    d.falling n (k + 1) = (d.below n).1 :: (d.below n).2.falling (n - 1) k := by
  simp only [Draws.falling, List.range_succ_eq_map, List.map_cons, List.map_map]
  refine congrArg (_ :: ·) (List.map_congr_left fun i _ => ?_)
  have hcall : d.used + (i + 1) = d.used + 1 + i := by omega
  have hbound : n - (i + 1) = n - 1 - i := by omega
  simp only [Function.comp_apply, Draws.value, Draws.below, Nat.succ_eq_add_one, hcall, hbound]

theorem Draws.falling_mem (d : Draws) (hk : k ≤ n) : d.falling n k ∈ fallingVectors n k := by
  refine ⟨by simp [Draws.falling], fun i hi => ?_⟩
  have hik : i < k := by simpa [Draws.falling] using hi
  simp only [Draws.falling, List.getElem_map, List.getElem_range]
  apply Nat.mod_lt
  omega

/-- The source that has a vector prepared answers it. -/
theorem Draws.falling_ofList (hjs : js ∈ fallingVectors n k) :
    (Draws.ofList js).falling n k = js := by
  obtain ⟨rfl, hlt⟩ := hjs
  apply List.ext_getElem
  · simp [Draws.falling]
  · intro i _ hi
    have hvalue : (Draws.ofList js).value (0 + i) = js[i] := by
      simp [Draws.ofList, Draws.value, List.getD, hi]
    simp only [Draws.falling, List.getElem_map, List.getElem_range]
    exact (congrArg (· % _) hvalue).trans (Nat.mod_eq_of_lt (hlt i hi))

theorem cons_mem_fallingVectors {j : Nat} (hj : j < n) (hjs : js ∈ fallingVectors (n - 1) k) :
    j :: js ∈ fallingVectors n (k + 1) := by
  obtain ⟨hlength, hlt⟩ := hjs
  refine ⟨by simp [hlength], fun i hi => ?_⟩
  cases i with
  | zero => simpa using hj
  | succ i =>
    have := hlt i (by simpa using hi)
    simp only [List.getElem_cons_succ]
    omega

/-- All entries of a list that holds nothing twice, in some order. -/
theorem arrangements_all {items : List α} (h : items.Nodup) :
    arrangements items items.length = {xs : List α | xs.Perm items} := by
  ext xs
  constructor
  · rintro ⟨hlength, hnodup, hsub⟩
    exact (List.subperm_of_subset hnodup hsub).perm_of_length_le hlength.ge
  · intro hperm
    exact ⟨hperm.length_eq, hperm.nodup_iff.2 h, hperm.subset⟩

theorem ncard_orders {items : List α} (h : items.Nodup) :
    {xs : List α | xs.Perm items}.ncard = items.length.factorial := by
  classical
  have horders : {xs : List α | xs.Perm items} = (items.permutations.toFinset : Set (List α)) := by
    ext xs
    simp
  rw [horders, Set.ncard_coe_finset,
    List.toFinset_card_of_nodup (List.nodup_permutations items h), List.length_permutations]

end Vectors

section Many

variable {pool : List α} {k : Nat}

theorem nodup_swapRemove (h : pool.Nodup) {j : Nat} (hj : j < pool.length) :
    (swapRemove pool j).Nodup :=
  (List.nodup_cons.1 ((perm_swapRemove pool hj).nodup_iff.2 h)).2

theorem takeMany_mem (hpool : pool.Nodup) (hk : k ≤ pool.length) (d : Draws) :
    (takeMany k pool d).1 ∈ arrangements pool k := by
  obtain ⟨rest, hperm, hlength⟩ := takeMany_perm k pool d
  have hnodup := hperm.nodup_iff.2 hpool
  refine ⟨by omega, (List.nodup_append.1 hnodup).1, fun x hx => ?_⟩
  exact hperm.mem_iff.1 (List.mem_append_left rest hx)

/-- Two sources take the same entries in the same order exactly if they answer the same. -/
theorem takeMany_eq_iff (hpool : pool.Nodup) (hk : k ≤ pool.length) (d e : Draws) :
    (takeMany k pool d).1 = (takeMany k pool e).1 ↔
      d.falling pool.length k = e.falling pool.length k := by
  induction k generalizing pool d e with
  | zero => simp [takeMany, Draws.falling]
  | succ k ih =>
    have hne : pool ≠ [] := List.ne_nil_of_length_pos (by omega)
    obtain ⟨hj, hd⟩ := takeMany_succ hne k d
    obtain ⟨hi, he⟩ := takeMany_succ hne k e
    rw [hd, he, Draws.falling_succ, Draws.falling_succ, List.cons.injEq, List.cons.injEq,
      hpool.getElem_inj_iff]
    -- the same first draw leaves the same pool
    refine and_congr_right fun hji => ?_
    have hlength : (swapRemove pool (d.below pool.length).1).length = pool.length - 1 :=
      length_swapRemove _ _
    rw [← hji, ← hlength]
    exact ih (nodup_swapRemove hpool hj) (by omega) _ _

/-- Some vector makes every source that answers it take the entries of an arrangement. -/
theorem exists_vector {xs : List α} (hxs : xs ∈ arrangements pool k) :
    ∃ js ∈ fallingVectors pool.length k,
      ∀ d : Draws, d.falling pool.length k = js → (takeMany k pool d).1 = xs := by
  induction xs generalizing pool k with
  | nil =>
    obtain ⟨rfl, -, -⟩ := hxs
    exact ⟨[], ⟨rfl, by simp⟩, fun d _ => by simp [takeMany]⟩
  | cons x xs ih =>
    obtain ⟨rfl, hnodup, hsub⟩ := hxs
    obtain ⟨hx, hlater⟩ := List.nodup_cons.1 hnodup
    obtain ⟨j, hj, rfl⟩ := List.getElem_of_mem (hsub List.mem_cons_self)
    have hne : pool ≠ [] := List.ne_nil_of_length_pos (by omega)
    -- the entries still to come are in the pool that is left
    have hrest : xs ∈ arrangements (swapRemove pool j) xs.length := by
      refine ⟨rfl, hlater, fun y hy => ?_⟩
      have hmem := (perm_swapRemove pool hj).mem_iff.2 (hsub (List.mem_cons_of_mem _ hy))
      rcases List.mem_cons.1 hmem with rfl | hmem
      · exact absurd hy hx
      · exact hmem
    obtain ⟨js, hjs, htake⟩ := ih hrest
    rw [length_swapRemove] at hjs htake
    refine ⟨j :: js, cons_mem_fallingVectors hj hjs, fun d hd => ?_⟩
    rw [List.length_cons, Draws.falling_succ, List.cons.injEq] at hd
    obtain ⟨hfirst, hthen⟩ := hd
    obtain ⟨_, hmany⟩ := takeMany_succ hne xs.length d
    rw [List.length_cons, hmany]
    simp only [hfirst, htake _ hthen]

/-- Entries taken one after the other: each arrangement comes from one vector of draws. -/
theorem takeMany_unbiased (hpool : pool.Nodup) (hk : k ≤ pool.length) :
    Unbiased pool.length k (takeMany k pool) (arrangements pool k) where
  answered d := d.falling_mem hk
  decided d := by
    have hsame : (takeMany k pool d).1 =
        (takeMany k pool (.ofList (d.falling pool.length k))).1 := by
      rw [takeMany_eq_iff hpool hk, Draws.falling_ofList (d.falling_mem hk)]
    rw [← hsame, ← takeMany_draws hk d]
  bijective := by
    refine ⟨fun js _ => takeMany_mem hpool hk _, fun js hjs is his heq => ?_, fun xs hxs => ?_⟩
    · have hanswers := (takeMany_eq_iff hpool hk _ _).1 heq
      rwa [Draws.falling_ofList hjs, Draws.falling_ofList his] at hanswers
    · obtain ⟨js, hjs, htake⟩ := exists_vector hxs
      exact ⟨js, hjs, htake _ (Draws.falling_ofList hjs)⟩

end Many

section Rounds

variable {pool : List α} {d : Draws}

/-- What the calls took, in their order. -/
def takenIn (rounds : List (Option α × List α)) : List α := rounds.filterMap Prod.fst

/-- What the last call left, or the pool itself where no call was made. -/
def leftIn (pool : List α) (rounds : List (Option α × List α)) : List α :=
  (rounds.map Prod.snd).getLastD pool

/-- `m` calls on one pool: what they took and left makes up the pool, and one draw was made for each
entry taken. The calls on an empty pool answer that there is none and make no draw, however many
more there are. -/
structure Drained (pool : List α) (m : Nat) (d : Draws) (rounds : List (Option α × List α))
    (d' : Draws) : Prop where
  calls : rounds.length = m
  conserved : (takenIn rounds ++ leftIn pool rounds).Perm pool
  taken : (takenIn rounds).length = min m pool.length
  answers : rounds.map Prod.fst =
    (takenIn rounds).map some ++ List.replicate (m - pool.length) none
  draws : d' = d.skip (min m pool.length)
  further : pool.length ≤ m →
    ∀ more, drain more (leftIn pool rounds) d' = (List.replicate more (none, []), d')

theorem drain_nil (m : Nat) (d : Draws) :
    drain m ([] : List α) d = (List.replicate m (none, []), d) := by
  induction m with
  | zero => rfl
  | succ m ih => simp [drain, ih, List.replicate_succ]

theorem drain_succ (h : pool ≠ []) (m : Nat) (d : Draws) :
    ∃ hj : (d.below pool.length).1 < pool.length,
      drain (m + 1) pool d =
        ((some pool[(d.below pool.length).1], swapRemove pool (d.below pool.length).1) ::
            (drain m (swapRemove pool (d.below pool.length).1) (d.below pool.length).2).1,
          (drain m (swapRemove pool (d.below pool.length).1) (d.below pool.length).2).2) := by
  obtain ⟨hj, htake⟩ := takeRandom_at h d
  exact ⟨hj, by rw [drain, htake]⟩

/-- No call at all. -/
theorem Drained.uncalled (pool : List α) (d : Draws) : Drained pool 0 d [] d where
  calls := rfl
  conserved := by simp [takenIn, leftIn]
  taken := by simp [takenIn]
  answers := by simp [takenIn]
  draws := by simp [Draws.skip]
  further hpool more := by
    have hnil : pool = [] := List.length_eq_zero_iff.1 (by omega)
    subst hnil
    exact drain_nil more d

theorem leftIn_replicate (m : Nat) :
    leftIn ([] : List α) (List.replicate m (none, [])) = [] := by
  cases m <;> simp [leftIn, List.getLast?_replicate]

/-- Calls on an empty pool only. -/
theorem Drained.dry (m : Nat) (d : Draws) :
    Drained ([] : List α) m d (List.replicate m (none, [])) d where
  calls := List.length_replicate
  conserved := by simp [takenIn, leftIn_replicate]
  taken := by simp [takenIn]
  answers := by simp [takenIn]
  draws := by simp [Draws.skip]
  further _ more := by
    rw [leftIn_replicate]
    exact drain_nil more d

/-- One call before the others. -/
theorem Drained.cons {rest : List α} {x : α} {m : Nat} {d' : Draws}
    {rounds : List (Option α × List α)} (hperm : (x :: rest).Perm pool)
    (h : Drained rest m (d.skip 1) rounds d') :
    Drained pool (m + 1) d ((some x, rest) :: rounds) d' := by
  have hlength : rest.length + 1 = pool.length := hperm.length_eq
  have htaken : takenIn ((some x, rest) :: rounds) = x :: takenIn rounds := by simp [takenIn]
  have hleft : leftIn pool ((some x, rest) :: rounds) = leftIn rest rounds := by
    simp only [leftIn, List.map_cons, List.getLastD_cons]
  constructor
  case calls => simp [h.calls]
  case conserved =>
    rw [htaken, hleft, List.cons_append]
    exact (h.conserved.cons x).trans hperm
  case taken =>
    rw [htaken, List.length_cons, h.taken]
    omega
  case answers =>
    have hnobody : m + 1 - pool.length = m - rest.length := by omega
    simp [htaken, h.answers, hnobody]
  case draws =>
    have hcalls : 1 + min m rest.length = min (m + 1) pool.length := by omega
    rw [h.draws, Draws.skip_skip, hcalls]
  case further =>
    intro hpool
    rw [hleft]
    apply h.further
    omega

theorem drain_drained (m : Nat) (pool : List α) (d : Draws) :
    Drained pool m d (drain m pool d).1 (drain m pool d).2 := by
  induction m generalizing pool d with
  | zero => exact Drained.uncalled pool d
  | succ m ih =>
    by_cases hp : pool = []
    · subst hp
      rw [drain_nil]
      exact Drained.dry (m + 1) d
    · obtain ⟨hj, hdrain⟩ := drain_succ hp m d
      rw [hdrain]
      exact (ih _ _).cons (perm_swapRemove pool hj)

/-- A pool is drained by taking many entries out of it. -/
theorem drain_eq_takeMany (m : Nat) (pool : List α) (d : Draws) :
    (takenIn (drain m pool d).1, (drain m pool d).2) = takeMany m pool d := by
  induction m generalizing pool d with
  | zero => rfl
  | succ m ih =>
    by_cases hp : pool = []
    · subst hp
      simp [drain_nil, takenIn, takeMany]
    · obtain ⟨hj, hdrain⟩ := drain_succ hp m d
      obtain ⟨_, hmany⟩ := takeMany_succ hp m d
      rw [hdrain, hmany, ← ih]
      simp [takenIn]

end Rounds

/-- Any number of calls on a pool lose nothing and make nothing up. If the pool holds nothing twice,
the order in which it is drained is unbiased: each of its orders, of which there are as many as the
factorial of its size, comes from exactly one vector of draws. -/
theorem drain_fair (pool : List α) :
    (∀ m d, Drained pool m d (drain m pool d).1 (drain m pool d).2) ∧
      (pool.Nodup →
        Unbiased pool.length pool.length
            (fun d => (takenIn (drain pool.length pool d).1, (drain pool.length pool d).2))
            {xs | xs.Perm pool} ∧
          {xs : List α | xs.Perm pool}.ncard = pool.length.factorial) := by
  refine ⟨fun m d => drain_drained m pool d, fun hpool => ⟨?_, ncard_orders hpool⟩⟩
  simp only [drain_eq_takeMany, ← arrangements_all hpool]
  exact takeMany_unbiased hpool le_rfl

/-- Three draws of the first entry take the last one second. -/
theorem drain_fair_of_three :
    let pool : List Text := ["a", "b", "c"]
    pool.Nodup ∧
      (Unbiased 3 3 (fun d => (takenIn (drain 3 pool d).1, (drain 3 pool d).2))
          {xs | xs.Perm pool} ∧
        {xs : List Text | xs.Perm pool}.ncard = Nat.factorial 3) ∧
      [0, 0, 0] ∈ fallingVectors 3 3 ∧
      takenIn (drain 3 pool (.ofList [0, 0, 0])).1 = ["a", "c", "b"] :=
  ⟨by decide, (drain_fair (["a", "b", "c"] : List Text)).2 (by decide), ⟨rfl, by decide⟩,
    by decide⟩

end ReviewDesk
