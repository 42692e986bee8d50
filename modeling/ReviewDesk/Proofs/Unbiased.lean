import Mathlib.Data.Set.Function
import ReviewDesk.Proofs.Draining
import ReviewDesk.Proofs.Rows
import ReviewDesk.Proofs.Sampling

/-!
# Unbiased selections

Nobody is preferred by where they stand in the list of candidates. A short list is a pool, and each
arrangement of some of its entries comes from one vector of draws. From a long list the positions
are what counts: those that first come up in the draws, where a draw that repeats one is passed
over. Each arrangement comes from one row of positions accepted so. The passing over is followed
through `freshIn`, which says of any stretch of draws what it adds to the positions seen before.
-/
namespace ReviewDesk

variable {α : Type}

/-- Calls below `n` are made until `k` different numbers have come up: these are `js`, in the order
in which they first did, and there are `calls` calls. -/
structure Draws.Finds (d : Draws) (n k : Nat) (js : List Nat) (calls : Nat) : Prop where
  found : (d.upcoming n calls).eraseDups = js
  enough : js.length = k
  earliest : ∀ m < calls, (d.upcoming n m).eraseDups.length < k

/-- What `f` hands out are the entries at the first `k` different positions that the source answers,
and each arrangement of the entries comes from exactly one row of such positions. -/
structure UnbiasedFinds (items : List α) (k : Nat) (f : Draws → List α × Draws) : Prop where
  decided : ∀ d : Draws, ∃ js calls, d.Finds items.length k js calls ∧
    (f d).1.map some = js.map (items[·]?) ∧ (f d).2 = d.skip calls
  prepared : ∀ js ∈ arrangements (List.range items.length) k,
    (Draws.ofList js).Finds items.length k js k
  bijective : Set.BijOn (fun js => (f (.ofList js)).1)
    (arrangements (List.range items.length) k) (arrangements items k)

section Fresh

/-- The numbers of a stream that are not in `seen`, in the order in which they first come up. -/
def freshIn (seen stream : List Nat) : List Nat := (stream.filter (· ∉ seen)).eraseDups

theorem freshIn_nil (stream : List Nat) : freshIn [] stream = stream.eraseDups := by
  simp [freshIn]

theorem freshIn_of_mem {seen : List Nat} {j : Nat} (h : j ∈ seen) (stream : List Nat) :
    freshIn seen (j :: stream) = freshIn seen stream := by
  simp [freshIn, h]

theorem freshIn_of_notMem {seen : List Nat} {j : Nat} (h : j ∉ seen) (stream : List Nat) :
    freshIn seen (j :: stream) = j :: freshIn (j :: seen) stream := by
  have hfilter : (stream.filter (· ∉ seen)).filter (fun i => !i == j) =
      stream.filter (· ∉ j :: seen) := by
    rw [List.filter_filter]
    refine List.filter_congr fun i _ => ?_
    by_cases hij : i = j <;> simp [hij]
  rw [freshIn, List.filter_cons_of_pos (by simpa using h), List.eraseDups_cons, hfilter, freshIn]

/-- What is found is what the draws that were read add to the numbers seen before. -/
theorem firstDistinct_fresh (k : Nat) (seen stream : List Nat) :
    (firstDistinct k seen stream).1 =
      freshIn seen (stream.take (firstDistinct k seen stream).2) := by
  fun_induction firstDistinct k seen stream with
  | case1 seen stream => simp [freshIn]
  | case2 k seen => simp [freshIn]
  | case3 k seen j stream hj js m hfound ih =>
    rw [hfound] at ih
    rw [List.take_succ_cons, freshIn_of_mem hj]
    exact ih
  | case4 k seen j stream hj js m hfound ih =>
    rw [hfound] at ih
    rw [List.take_succ_cons, freshIn_of_notMem hj]
    exact congrArg (j :: ·) ih

/-- No shorter stretch of the draws adds as many. -/
theorem firstDistinct_earliest (k : Nat) (seen stream : List Nat) :
    ∀ m < (firstDistinct k seen stream).2, (freshIn seen (stream.take m)).length < k := by
  fun_induction firstDistinct k seen stream with
  | case1 seen stream => simp
  | case2 k seen => simp
  | case3 k seen j stream hj js calls hfound ih =>
    rw [hfound] at ih
    intro m hm
    cases m with
    | zero => simp [freshIn]
    | succ m =>
      rw [List.take_succ_cons, freshIn_of_mem hj]
      exact ih m (by omega)
  | case4 k seen j stream hj js calls hfound ih =>
    rw [hfound] at ih
    intro m hm
    cases m with
    | zero => simp [freshIn]
    | succ m =>
      rw [List.take_succ_cons, freshIn_of_notMem hj, List.length_cons]
      have := ih m (by omega)
      omega

end Fresh

section Finds

variable {n k : Nat} {js : List Nat} {d : Draws} {calls : Nat}

theorem Draws.take_upcoming (d : Draws) (n : Nat) {m c : Nat} (h : m ≤ c) :
    (d.upcoming n c).take m = d.upcoming n m := by
  rw [Draws.upcoming, ← List.map_take, List.take_range, min_eq_left h, Draws.upcoming]

/-- What is searched for is found. -/
theorem Draws.search_finds (d : Draws) (hk : k ≤ n) :
    d.Finds n k (d.search n k).1 (d.search n k).2 := by
  have hread := (d.search_reads n k).2
  constructor
  case found =>
    rw [← Draws.take_upcoming d n hread, ← freshIn_nil]
    exact (firstDistinct_fresh k [] _).symm
  case enough => exact d.length_search hk
  case earliest =>
    intro m hm
    rw [← Draws.take_upcoming d n (by omega : m ≤ d.left + n), ← freshIn_nil]
    exact firstDistinct_earliest k [] _ m hm

theorem Draws.Finds.calls_le (h : d.Finds n k js calls) {is : List Nat} {c : Nat}
    (h' : d.Finds n k is c) : calls ≤ c := by
  by_contra hlt
  have hfew := h.earliest c (by omega)
  rw [h'.found, h'.enough] at hfew
  omega

/-- Which numbers a source finds, and how many calls it takes, is settled. -/
theorem Draws.Finds.unique (h : d.Finds n k js calls) {is : List Nat} {c : Nat}
    (h' : d.Finds n k is c) : is = js ∧ c = calls := by
  have hcalls : c = calls := le_antisymm (h'.calls_le h) (h.calls_le h')
  subst hcalls
  exact ⟨h'.found.symm.trans h.found, rfl⟩

/-- The source that has different numbers prepared finds them, with one call for each. -/
theorem Draws.finds_ofList (hjs : js ∈ arrangements (List.range n) k) :
    (Draws.ofList js).Finds n k js k := by
  obtain ⟨rfl, hnodup, hsub⟩ := hjs
  have hall : (Draws.ofList js).upcoming n js.length = js := by
    apply List.ext_getElem
    · simp
    · intro i _ hi
      have hlt : js[i] < n := List.mem_range.1 (hsub (List.getElem_mem hi))
      simp [Draws.upcoming, Draws.ofList, Draws.value, List.getD, hi, Nat.mod_eq_of_lt hlt]
  constructor
  case found => rw [hall, Rows.eraseDups_of_nodup hnodup]
  case enough => rfl
  case earliest =>
    intro m hm
    have hsome : ((Draws.ofList js).upcoming n m).Nodup := by
      rw [← Draws.take_upcoming _ n hm.le, hall]
      exact hnodup.sublist (List.take_sublist m js)
    rw [Rows.eraseDups_of_nodup hsome, Draws.length_upcoming]
    exact hm

end Finds

section Long

variable {items : List α} {k : Nat}

/-- A long list is sampled at the first different positions that the source answers. -/
theorem sample_finds (hk : k ≤ items.length) (hlong : setSize k < items.length) (d : Draws) :
    ∃ js calls, d.Finds items.length k js calls ∧
      (sample items k d).1.map some = js.map (items[·]?) ∧ (sample items k d).2 = d.skip calls := by
  rw [sample_eq_search hlong]
  refine ⟨_, _, d.search_finds hk, map_some_filterMap fun j hj => ?_, rfl⟩
  exact d.search_lt (by omega) hj

theorem sample_ofList (hk : k ≤ items.length) (hlong : setSize k < items.length) {js : List Nat}
    (hjs : js ∈ arrangements (List.range items.length) k) :
    (sample items k (.ofList js)).1.map some = js.map (items[·]?) := by
  obtain ⟨is, calls, hfinds, hentries, -⟩ := sample_finds hk hlong (.ofList js)
  obtain ⟨rfl, -⟩ := (Draws.finds_ofList hjs).unique hfinds
  exact hentries

theorem sample_mem (hitems : items.Nodup) (hk : k ≤ items.length) (d : Draws) :
    (sample items k d).1 ∈ arrangements items k := by
  obtain ⟨hnodup, hlength⟩ := sample_nodup hitems hk d
  exact ⟨hlength, hnodup, fun x hx => mem_of_mem_sample hx⟩

section Standing

variable [DecidableEq α] {xs : List α} {js : List Nat}

/-- The entries of an arrangement stand at different positions. -/
theorem map_idxOf_mem (hxs : xs ∈ arrangements items k) :
    xs.map items.idxOf ∈ arrangements (List.range items.length) k := by
  obtain ⟨hlength, hnodup, hsub⟩ := hxs
  refine ⟨by simpa using hlength, ?_, fun j hj => ?_⟩
  · exact hnodup.map_on fun x hx y _ hxy => (List.idxOf_inj (hsub hx)).1 hxy
  · obtain ⟨x, hx, rfl⟩ := List.mem_map.1 hj
    exact List.mem_range.2 (List.idxOf_lt_length_of_mem (hsub hx))

theorem idxOf_sample (hitems : items.Nodup) (hk : k ≤ items.length)
    (hlong : setSize k < items.length) (hjs : js ∈ arrangements (List.range items.length) k) :
    (sample items k (.ofList js)).1.map items.idxOf = js := by
  let position (x : Option α) : Nat := x.elim 0 items.idxOf
  have hposition : ∀ j ∈ js, position items[j]? = j := by
    intro j hj
    have hlt : j < items.length := List.mem_range.1 (hjs.2.2 hj)
    simp [position, List.getElem?_eq_getElem hlt, hitems.idxOf_getElem]
  calc (sample items k (.ofList js)).1.map items.idxOf
      = ((sample items k (.ofList js)).1.map some).map position := by rw [List.map_map]; rfl
    _ = js.map (fun j => position items[j]?) := by
      rw [sample_ofList hk hlong hjs, List.map_map]
      rfl
    _ = js := (List.map_congr_left hposition).trans js.map_id

theorem sample_idxOf (hk : k ≤ items.length) (hlong : setSize k < items.length)
    (hxs : xs ∈ arrangements items k) :
    (sample items k (.ofList (xs.map items.idxOf))).1 = xs := by
  have hentries := sample_ofList hk hlong (map_idxOf_mem hxs)
  have hstand : (xs.map items.idxOf).map (items[·]?) = xs.map some := by
    rw [List.map_map]
    exact List.map_congr_left fun x hx => List.getElem?_idxOf (hxs.2.2 hx)
  exact List.map_injective_iff.2 (Option.some_injective α) (hentries.trans hstand)

end Standing

/-- The rows of positions and the arrangements of the entries correspond to each other: a row is
read off an arrangement by looking up where its entries stand. -/
theorem sample_bijOn (hitems : items.Nodup) (hk : k ≤ items.length)
    (hlong : setSize k < items.length) :
    Set.BijOn (fun js => (sample items k (.ofList js)).1)
      (arrangements (List.range items.length) k) (arrangements items k) := by
  classical
  have hinverse : Set.InvOn (fun xs => xs.map items.idxOf)
      (fun js => (sample items k (.ofList js)).1)
      (arrangements (List.range items.length) k) (arrangements items k) :=
    ⟨fun _ hjs => idxOf_sample hitems hk hlong hjs, fun _ hxs => sample_idxOf hk hlong hxs⟩
  exact hinverse.bijOn (fun _ _ => sample_mem hitems hk _) fun _ hxs => map_idxOf_mem hxs

theorem sample_unbiased (hitems : items.Nodup) (hk : k ≤ items.length)
    (hlong : setSize k < items.length) : UnbiasedFinds items k (sample items k) where
  decided d := sample_finds hk hlong d
  prepared _ hjs := Draws.finds_ofList hjs
  bijective := sample_bijOn hitems hk hlong

end Long

/-- The selection of `k` reviewers is unbiased. Up to the limit of a pool, each selection comes from
one vector of draws; past it, each comes from one row of accepted draws. -/
theorem selectUpTo_unbiased (candidates : List User) (hids : (candidates.map User.id).Nodup)
    {k : Nat} (hk : k ≤ candidates.length) :
    let ids := candidates.map User.id
    (candidates.length ≤ setSize k →
        Unbiased candidates.length k (selectUpTo ids k) (arrangements ids k)) ∧
      (setSize k < candidates.length → UnbiasedFinds ids k (selectUpTo ids k)) := by
  intro ids
  have hlength : ids.length = candidates.length := List.length_map User.id
  have hsample : selectUpTo ids k = sample ids k := by
    funext d
    rw [selectUpTo_eq_sample, Int.toNat_natCast, min_eq_left (hlength ▸ hk)]
  rw [hsample, ← hlength]
  rw [← hlength] at hk
  constructor
  · intro hshort
    have hpool : sample ids k = takeMany k ids := funext fun d => sample_eq_takeMany hshort d
    rw [hpool]
    exact takeMany_unbiased hids hk
  · exact sample_unbiased hids hk

/-- Two of three candidates are drawn from a pool, and two of a crowd by position. -/
theorem selectUpTo_unbiased_of_crowd :
    let candidate (i : Nat) : User := ⟨⟨List.replicate i (.char 'x')⟩, "Guest", some "T", true⟩
    let trio := (List.range 3).map candidate
    let crowd := (List.range 22).map candidate
    ((trio.map User.id).Nodup ∧ 2 ≤ trio.length ∧ trio.length ≤ setSize 2 ∧
      Unbiased 3 2 (selectUpTo (trio.map User.id) 2) (arrangements (trio.map User.id) 2)) ∧
    ((crowd.map User.id).Nodup ∧ 2 ≤ crowd.length ∧ setSize 2 < crowd.length ∧
      UnbiasedFinds (crowd.map User.id) 2 (selectUpTo (crowd.map User.id) 2)) := by
  intro candidate trio crowd
  have htrio : (trio.map User.id).Nodup := by decide
  have hcrowd : (crowd.map User.id).Nodup := by decide
  exact ⟨⟨htrio, by decide, by decide, (selectUpTo_unbiased trio htrio (by decide)).1 (by decide)⟩,
    ⟨hcrowd, by decide, by decide, (selectUpTo_unbiased crowd hcrowd (by decide)).2 (by decide)⟩⟩

end ReviewDesk
