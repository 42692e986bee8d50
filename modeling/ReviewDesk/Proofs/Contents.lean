import Mathlib.Data.Finset.Card
import Mathlib.Data.Finset.Image
import Mathlib.Logic.Function.Basic
import ReviewDesk.Proofs.Rows
import ReviewDesk.Store.Keyed

/-!
# What a store holds

The contents of a store are finite sets of teams, users and pull requests, and for each id of a pull
request the set of its reviewers. How the store keeps them, as records or as tables, does not show.
The changes below are those that the operations of a store make; which of them a use case makes is
not said here.
-/
namespace ReviewDesk

@[ext] structure Contents where
  teams : Finset Text
  users : Finset User
  items : Finset Item
  reviewers : Text → Finset Text

namespace Contents

def empty : Contents := ⟨∅, ∅, ∅, fun _ => ∅⟩

def userIds (c : Contents) : Finset Text := c.users.image User.id

def itemIds (c : Contents) : Finset Text := c.items.image Item.id

/-- The ids of the members of a team. -/
def staff (c : Contents) (team : Text) : Finset Text :=
  (c.users.filter fun u => u.team = some team).image User.id

/-- The ids of the active members of a team. -/
def active (c : Contents) (team : Text) : Finset Text :=
  (c.users.filter fun u => u.team = some team ∧ u.active = true).image User.id

@[simp] theorem mem_userIds (c : Contents) (id : Text) :
    id ∈ c.userIds ↔ ∃ u ∈ c.users, u.id = id := by simp [userIds]

@[simp] theorem mem_itemIds (c : Contents) (id : Text) :
    id ∈ c.itemIds ↔ ∃ i ∈ c.items, i.id = id := by simp [itemIds]

@[simp] theorem mem_staff (c : Contents) (team id : Text) :
    id ∈ c.staff team ↔ ∃ u ∈ c.users, u.team = some team ∧ u.id = id := by
  simp [staff, and_assoc]

@[simp] theorem mem_active (c : Contents) (team id : Text) :
    id ∈ c.active team ↔ ∃ u ∈ c.users, u.team = some team ∧ u.active = true ∧ u.id = id := by
  simp [active, and_assoc]

theorem active_subset_staff (c : Contents) (team : Text) : c.active team ⊆ c.staff team := by
  intro id h
  obtain ⟨u, hu, ht, -, hid⟩ := (mem_active _ _ _).1 h
  exact (mem_staff _ _ _).2 ⟨u, hu, ht, hid⟩

theorem staff_subset_userIds (c : Contents) (team : Text) : c.staff team ⊆ c.userIds := by
  intro id h
  obtain ⟨u, hu, -, hid⟩ := (mem_staff _ _ _).1 h
  exact (mem_userIds _ _).2 ⟨u, hu, hid⟩

/-- A pull request as a reading of the store shows it. -/
def shown (c : Contents) (i : Item) : PullRequest := i.withReviewers (c.reviewers i.id).sort

/-- Users of the store in the ascending order of their ids, which are the given ones. -/
def Roll (c : Contents) (ids : Finset Text) (us : List User) : Prop :=
  us.map User.id = ids.sort ∧ ∀ u ∈ us, u ∈ c.users

/-- Whether the dates of pull requests can be put in order: all of them have an offset, or none has
one. -/
def Comparable (c : Contents) : Prop :=
  (∀ i ∈ c.items, i.created.offset.isSome) ∨ (∀ i ∈ c.items, i.created.offset = none)

section Changes

def addTeam (c : Contents) (name : Text) : Contents := { c with teams := insert name c.teams }

/-- The contents with a user, who takes the place of the one with the same id. -/
def putUser (c : Contents) (u : User) : Contents :=
  { c with users := insert u (c.users.filter fun v => v.id ≠ u.id) }

def putUsers (c : Contents) (us : List User) : Contents := us.foldl putUser c

/-- The contents with another activity of the users with the given ids. -/
def switch (c : Contents) (ids : Finset Text) (active : Bool) : Contents :=
  { c with users := c.users.image fun u => if u.id ∈ ids then { u with active := active } else u }

def addItem (c : Contents) (i : Item) : Contents := { c with items := insert i c.items }

/-- The contents with a change of the pull request with an id, if it is open. -/
def updateItem (c : Contents) (id : Text) (change : Item → Item) : Contents :=
  { c with items := c.items.image fun i => if i.id = id ∧ i.status = .opened then change i else i }

def setReviewers (c : Contents) (id : Text) (ids : Finset Text) : Contents :=
  { c with reviewers := Function.update c.reviewers id ids }

end Changes

section Fields

variable (c : Contents)

@[simp] theorem addTeam_users (name : Text) : (c.addTeam name).users = c.users := rfl
@[simp] theorem addTeam_items (name : Text) : (c.addTeam name).items = c.items := rfl
@[simp] theorem addTeam_reviewers (name : Text) : (c.addTeam name).reviewers = c.reviewers := rfl
@[simp] theorem addItem_teams (i : Item) : (c.addItem i).teams = c.teams := rfl
@[simp] theorem addItem_users (i : Item) : (c.addItem i).users = c.users := rfl
@[simp] theorem addItem_reviewers (i : Item) : (c.addItem i).reviewers = c.reviewers := rfl
@[simp] theorem switch_teams (ids : Finset Text) (b : Bool) :
    (c.switch ids b).teams = c.teams := rfl
@[simp] theorem switch_items (ids : Finset Text) (b : Bool) :
    (c.switch ids b).items = c.items := rfl
@[simp] theorem switch_reviewers (ids : Finset Text) (b : Bool) :
    (c.switch ids b).reviewers = c.reviewers := rfl
@[simp] theorem updateItem_teams (id : Text) (f : Item → Item) :
    (c.updateItem id f).teams = c.teams := rfl
@[simp] theorem updateItem_users (id : Text) (f : Item → Item) :
    (c.updateItem id f).users = c.users := rfl
@[simp] theorem updateItem_reviewers (id : Text) (f : Item → Item) :
    (c.updateItem id f).reviewers = c.reviewers := rfl
@[simp] theorem setReviewers_teams (id : Text) (s : Finset Text) :
    (c.setReviewers id s).teams = c.teams := rfl
@[simp] theorem setReviewers_users (id : Text) (s : Finset Text) :
    (c.setReviewers id s).users = c.users := rfl
@[simp] theorem setReviewers_items (id : Text) (s : Finset Text) :
    (c.setReviewers id s).items = c.items := rfl

@[simp] theorem putUsers_teams (us : List User) : (c.putUsers us).teams = c.teams := by
  induction us generalizing c with
  | nil => rfl
  | cons u us ih => exact ih (c.putUser u)

@[simp] theorem putUsers_items (us : List User) : (c.putUsers us).items = c.items := by
  induction us generalizing c with
  | nil => rfl
  | cons u us ih => exact ih (c.putUser u)

@[simp] theorem putUsers_reviewers (us : List User) : (c.putUsers us).reviewers = c.reviewers := by
  induction us generalizing c with
  | nil => rfl
  | cons u us ih => exact ih (c.putUser u)

theorem setReviewers_self (id : Text) (s : Finset Text) :
    (c.setReviewers id s).reviewers id = s := by simp [setReviewers]

theorem setReviewers_of_ne {id other : Text} (h : other ≠ id) (s : Finset Text) :
    (c.setReviewers id s).reviewers other = c.reviewers other := by simp [setReviewers, h]

end Fields

section Members

variable (c : Contents)

@[simp] theorem mem_putUser (u v : User) :
    v ∈ (c.putUser u).users ↔ v = u ∨ v ∈ c.users ∧ v.id ≠ u.id := by
  simp [putUser]

/-- Whoever is there after users were put in was put in or was there before under another id. -/
theorem mem_putUsers {us : List User} {v : User} (h : v ∈ (c.putUsers us).users) :
    v ∈ us ∨ v ∈ c.users ∧ ∀ u ∈ us, u.id ≠ v.id := by
  induction us generalizing c with
  | nil => exact .inr ⟨h, by simp⟩
  | cons u us ih =>
    rcases ih (c.putUser u) h with hv | ⟨hv, hne⟩
    · exact .inl (List.mem_cons_of_mem _ hv)
    · rcases (mem_putUser c u v).1 hv with rfl | ⟨hv, hid⟩
      · exact .inl List.mem_cons_self
      · refine .inr ⟨hv, fun w hw => ?_⟩
        rcases List.mem_cons.1 hw with rfl | hw
        · exact hid.symm
        · exact hne w hw

/-- No id is lost where users are put in. -/
theorem userIds_putUsers (us : List User) :
    (c.putUsers us).userIds = c.userIds ∪ (us.map User.id).toFinset := by
  induction us generalizing c with
  | nil => simp [putUsers]
  | cons u us ih =>
    have step : (c.putUser u).userIds = insert u.id c.userIds := by
      ext id
      simp only [mem_userIds, mem_putUser, Finset.mem_insert]
      constructor
      · rintro ⟨v, rfl | ⟨hv, -⟩, rfl⟩
        · exact .inl rfl
        · exact .inr ⟨v, hv, rfl⟩
      · rintro (rfl | ⟨v, hv, rfl⟩)
        · exact ⟨u, .inl rfl, rfl⟩
        · by_cases h : v.id = u.id
          · exact ⟨u, .inl rfl, h.symm⟩
          · exact ⟨v, .inr ⟨hv, h⟩, rfl⟩
    have hput : c.putUsers (u :: us) = (c.putUser u).putUsers us := rfl
    rw [hput, ih, step]
    ext id
    simp

@[simp] theorem mem_switch (ids : Finset Text) (b : Bool) (v : User) :
    v ∈ (c.switch ids b).users ↔
      ∃ u ∈ c.users, (if u.id ∈ ids then { u with active := b } else u) = v := by
  simp [switch]

@[simp] theorem userIds_switch (ids : Finset Text) (b : Bool) :
    (c.switch ids b).userIds = c.userIds := by
  ext id
  simp only [mem_userIds, mem_switch]
  constructor
  · rintro ⟨_, ⟨u, hu, rfl⟩, rfl⟩
    exact ⟨u, hu, by split <;> rfl⟩
  · rintro ⟨u, hu, rfl⟩
    exact ⟨_, ⟨u, hu, rfl⟩, by split <;> rfl⟩

/-- Those who are switched inactive are the ones whom a team loses. -/
theorem active_switch_false (ids : Finset Text) (team : Text) :
    (c.switch ids false).active team = c.active team \ ids := by
  ext id
  simp only [mem_active, mem_switch, Finset.mem_sdiff]
  constructor
  · rintro ⟨_, ⟨u, hu, rfl⟩, ht, ha, rfl⟩
    by_cases h : u.id ∈ ids
    · simp [h] at ha
    · rw [if_neg h] at ht ha ⊢
      exact ⟨⟨u, hu, ht, ha, rfl⟩, h⟩
  · rintro ⟨⟨u, hu, ht, ha, rfl⟩, h⟩
    exact ⟨u, ⟨u, hu, by rw [if_neg h]⟩, ht, ha, rfl⟩

@[simp] theorem mem_addItem (i j : Item) : j ∈ (c.addItem i).items ↔ j = i ∨ j ∈ c.items := by
  simp [addItem]

@[simp] theorem mem_updateItem (id : Text) (f : Item → Item) (j : Item) :
    j ∈ (c.updateItem id f).items ↔
      ∃ i ∈ c.items, (if i.id = id ∧ i.status = .opened then f i else i) = j := by
  simp [updateItem]

/-- Changes that agree on the pull requests with the id are the same change. -/
theorem updateItem_congr {id : Text} {f g : Item → Item}
    (h : ∀ i ∈ c.items, i.id = id → f i = g i) :
    c.updateItem id f = c.updateItem id g := by
  refine Contents.ext rfl rfl (Finset.image_congr fun i hi => ?_) rfl
  by_cases hid : i.id = id
  · simp only [h i hi hid]
  · simp only [hid, false_and, if_false]

theorem itemIds_updateItem (id : Text) (f : Item → Item) (hf : ∀ i, (f i).id = i.id) :
    (c.updateItem id f).itemIds = c.itemIds := by
  ext k
  simp only [mem_itemIds, mem_updateItem]
  constructor
  · rintro ⟨_, ⟨i, hi, rfl⟩, rfl⟩
    exact ⟨i, hi, by split <;> simp [hf]⟩
  · rintro ⟨i, hi, rfl⟩
    exact ⟨_, ⟨i, hi, rfl⟩, by split <;> simp [hf]⟩

end Members

end Contents
end ReviewDesk
