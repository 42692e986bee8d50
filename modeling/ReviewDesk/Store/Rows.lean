import ReviewDesk.Text.Basic

/-!
# Rows with a key

Both stores keep lists of rows, each row under a key. `upsert` replaces the row with the key of the new one
or appends it; `modify` changes the row with a given key. What they do is said by what `find?` sees
afterwards and by the list of keys.
-/
namespace ReviewDesk.Rows

variable {α : Type}

/-- The first row with key `k`. -/
def find? (key : α → Text) (k : Text) (rows : List α) : Option α :=
  rows.find? fun r => key r = k

/-- `row` in the place of the row with its key, or at the end. -/
def upsert (key : α → Text) (row : α) : List α → List α
  | [] => [row]
  | r :: rows => if key r = key row then row :: rows else r :: upsert key row rows

/-- `f` applied to the rows with key `k`. -/
def modify (key : α → Text) (k : Text) (f : α → α) (rows : List α) : List α :=
  rows.map fun r => if key r = k then f r else r

/-- Ids in ascending order of their characters' code points. -/
def sortIds (ids : List Text) : List Text := ids.mergeSort Text.le

/-- Rows in ascending order of their keys. -/
def sortByKey (key : α → Text) (rows : List α) : List α :=
  rows.mergeSort fun a b => (key a).le (key b)

/-- Rows with the latest first; rows of one time keep their order. -/
def latestFirst (time : α → Int) (rows : List α) : List α :=
  rows.mergeSort fun a b => decide (time b ≤ time a)

theorem find?_upsert (key : α → Text) (row : α) (k : Text) (rows : List α) :
    find? key k (upsert key row rows) = if key row = k then some row else find? key k rows := by
  induction rows with
  | nil => by_cases h : key row = k <;> simp [upsert, find?, h]
  | cons r rows ih =>
    unfold upsert
    by_cases hr : key r = key row
    · by_cases h : key row = k
      · simp [find?, hr, h]
      · simp [find?, hr, h]
    · rw [if_neg hr]
      by_cases h : key r = k
      · have : ¬ key row = k := fun e => hr (h.trans e.symm)
        simp [find?, h, this]
      · simpa [find?, h] using ih

theorem find?_modify (key : α → Text) (k k' : Text) (f : α → α) (hf : ∀ r, key (f r) = key r)
    (rows : List α) :
    find? key k' (modify key k f rows) =
      if k = k' then (find? key k' rows).map f else find? key k' rows := by
  induction rows with
  | nil => simp [modify, find?]
  | cons r rows ih =>
    simp only [find?, modify, List.map_cons, List.find?_cons] at ih ⊢
    by_cases hr : key r = k
    · by_cases h : k = k'
      · simp [hr, h, hf]
      · have hk : ¬ key r = k' := fun e => h (hr.symm.trans e)
        rw [if_neg h] at ih ⊢
        simpa [hr, hf, h] using ih
    · by_cases h : key r = k'
      · have hk : ¬ k = k' := fun e => hr (h.trans e.symm)
        have hk' : ¬ k' = k := fun e => hk e.symm
        simp [h, hk, hk']
      · simpa [if_neg hr, h] using ih

@[simp] theorem map_key_modify (key : α → Text) (k : Text) (f : α → α)
    (hf : ∀ r, key (f r) = key r) (rows : List α) : (modify key k f rows).map key = rows.map key := by
  simp only [modify, List.map_map]
  congr 1
  funext r
  by_cases h : key r = k <;> simp [h, hf]

theorem map_key_upsert (key : α → Text) (row : α) (rows : List α) :
    (upsert key row rows).map key =
      if key row ∈ rows.map key then rows.map key else rows.map key ++ [key row] := by
  induction rows with
  | nil => simp [upsert]
  | cons r rows ih =>
    unfold upsert
    by_cases hr : key r = key row
    · simp [hr]
    · have : ¬ key row = key r := fun e => hr e.symm
      rw [if_neg hr, List.map_cons, ih]
      by_cases hm : key row ∈ rows.map key <;> simp [hm, this]

/-- Keys that occur once keep doing so. -/
theorem nodup_upsert (key : α → Text) (row : α) {rows : List α} (h : (rows.map key).Nodup) :
    ((upsert key row rows).map key).Nodup := by
  rw [map_key_upsert]
  split
  · exact h
  · next hm => exact List.nodup_append.2 ⟨h, by simp, fun a ha b hb e => hm (List.mem_singleton.1 hb ▸ e ▸ ha)⟩

end ReviewDesk.Rows
