import ReviewDesk.Random.Draws

/-!
# Random selections

Two selections share one step, `takeRandom`, which takes one entry out of a pool by moving the last entry
into its place. `sample` draws several entries at different positions: from a shrinking pool while the list
is short, and otherwise by drawing positions of the whole list and passing over those already drawn.

The second method reads a finite stretch of the source only: after the prepared values, any `n` calls in a
row answer all of `0, …, n - 1`, so that `left + n` calls hold as many different positions as are wanted.
-/
namespace ReviewDesk

variable {α : Type}

/-- The pool without its entry at `j`: the last entry moves into the gap. -/
def swapRemove (pool : List α) (j : Nat) : List α :=
  match pool.getLast? with
  | none => []
  | some z => (pool.set j z).dropLast

@[simp] theorem length_swapRemove (pool : List α) (j : Nat) :
    (swapRemove pool j).length = pool.length - 1 := by
  unfold swapRemove
  split
  · next h => simp [List.getLast?_eq_none_iff.1 h]
  · simp

/-- One random entry, the pool without it, and the source. An empty pool makes no call. -/
def takeRandom (pool : List α) (d : Draws) : Option α × List α × Draws :=
  if pool.isEmpty then (none, [], d)
  else
    let (j, d) := d.below pool.length
    (pool[j]?, swapRemove pool j, d)

/-- Up to `k` entries, one after the other, from a pool that shrinks with each. -/
def takeMany : Nat → List α → Draws → List α × Draws
  | 0, _, d => ([], d)
  | k + 1, pool, d =>
    match takeRandom pool d with
    | (none, _, d) => ([], d)
    | (some x, rest, d) =>
      let (xs, d) := takeMany k rest d
      (x :: xs, d)

/-- The first `k` entries of `stream` that are different from each other and from those in `seen`, and the
number of entries read to find them. -/
def firstDistinct : Nat → List Nat → List Nat → List Nat × Nat
  | 0, _, _ => ([], 0)
  | _ + 1, _, [] => ([], 0)
  | k + 1, seen, j :: stream =>
    if j ∈ seen then
      let (js, m) := firstDistinct (k + 1) seen stream
      (js, m + 1)
    else
      let (js, m) := firstDistinct k (j :: seen) stream
      (j :: js, m + 1)

/-- The least power of four that is at least `m`, for `m` from 2 on. -/
def powerOfFourAbove (m : Nat) : Nat := Nat.pow 4 ((m - 1).log2 / 2 + 1)

/-- The longest list that `sample` treats as a shrinking pool when it draws `k` entries. -/
def poolLimit (k : Nat) : Nat := if 5 < k then 21 + powerOfFourAbove (3 * k) else 21

/-- `k` entries at different positions of `items`, in the order drawn. -/
def sample (items : List α) (k : Nat) (d : Draws) : List α × Draws :=
  if items.length ≤ poolLimit k then takeMany k items d
  else
    let stream := d.upcoming items.length (d.left + items.length)
    let (js, m) := firstDistinct k [] stream
    (js.filterMap (items[·]?), d.skip m)

/-- Up to `limit` different entries of `candidates`; a limit of zero or less selects nobody. -/
def selectUpTo (candidates : List α) (limit : Int) (d : Draws) : List α × Draws :=
  if candidates.isEmpty || limit ≤ 0 then ([], d)
  else sample candidates (min limit.toNat candidates.length) d

/-- `times` calls of `takeRandom` on one pool: what each took and left. -/
def drain : Nat → List α → Draws → List (Option α × List α) × Draws
  | 0, _, d => ([], d)
  | times + 1, pool, d =>
    let (taken, rest, d) := takeRandom pool d
    let (more, d) := drain times rest d
    ((taken, rest) :: more, d)

@[simp] theorem takeRandom_nil (d : Draws) : takeRandom ([] : List α) d = (none, [], d) := rfl

end ReviewDesk
