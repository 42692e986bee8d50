import ReviewDesk.Desk.UseCase
import ReviewDesk.Proofs.Contents

/-!
# Undertakings

What a request has left to do once it has looked around is an undertaking: a piece of data that says
which transaction follows. `Undertaking.Advised` is what looking around found out, as far as it
cannot become false again, and `Undertaking.Effect` is what the transaction makes of the contents of
a store.
-/
namespace ReviewDesk

/-- What is left to do of a request after looking around. -/
inductive Undertaking where
  | found (t : Team)
  | switch (user : Text) (active : Bool)
  | depart (team : Text) (leaving : List Text)
  | opening (id name author : Text) (reviewers : List Text)
  | merge (id : Text)
  | reassign (id old : Text)
  deriving Repr, DecidableEq

namespace Contents

/-- The active members of a team, if there is one, apart from one user. -/
def others (c : Contents) (team : Option Text) (except : Text) : Finset Text :=
  match team with
  | none => ∅
  | some name => (c.active name).filter fun id => some id ≠ some except

/-- The active users in the team of a user, apart from that user. -/
def teammates (c : Contents) (id : Text) : Finset Text :=
  (c.users.filter fun u => u.active = true ∧ u.id ≠ id ∧
    ∃ v ∈ c.users, v.id = id ∧ v.team.isSome = true ∧ v.team = u.team).image User.id

/-- Those who may take over from a reviewer of a pull request: active teammates of the reviewer
other than the author. -/
def successors (c : Contents) (old author : Text) : Finset Text := (c.teammates old).erase author

/-- Those who may take over from people who leave a team, on a pull request with an author and
reviewers. -/
def stayers (c : Contents) (team : Text) (leaving : Finset Text) (i : Item) : Finset Text :=
  ((c.active team \ leaving).erase i.author) \ c.reviewers i.id

/-- What becomes of the reviewers of one pull request when people leave: those who stay go on, and
as many take over as are to be relieved, as long as there are people to take over. -/
def Relieved (c : Contents) (team : Text) (leaving : Finset Text) (i : Item) (after : Finset Text) :
    Prop :=
  ∃ joining ⊆ c.stayers team leaving i,
    joining.card = min (c.reviewers i.id ∩ leaving).card (c.stayers team leaving i).card ∧
      after = (c.reviewers i.id \ leaving) ∪ joining

/-- The pull requests from which people who leave a team are taken off. -/
def Concerned (c : Contents) (team : Text) (i : Item) : Prop :=
  i ∈ c.items ∧ i.status = .opened ∧ i.author ∈ c.active team

theorem mem_teammates (c : Contents) (id k : Text) : k ∈ c.teammates id ↔ k ≠ id ∧
    ∃ u ∈ c.users, u.id = k ∧ u.active = true ∧
      ∃ v ∈ c.users, v.id = id ∧ v.team.isSome = true ∧ v.team = u.team := by
  simp only [teammates, Finset.mem_image, Finset.mem_filter]
  constructor
  · rintro ⟨u, ⟨hu, ha, hne, hv⟩, rfl⟩
    exact ⟨hne, u, hu, rfl, ha, hv⟩
  · rintro ⟨hne, u, hu, rfl, ha, hv⟩
    exact ⟨u, ⟨hu, ha, hne, hv⟩, rfl⟩

theorem teammates_subset_userIds (c : Contents) (id : Text) : c.teammates id ⊆ c.userIds := by
  intro k hk
  obtain ⟨-, u, hu, rfl, -⟩ := (c.mem_teammates id k).1 hk
  exact (c.mem_userIds _).2 ⟨u, hu, rfl⟩

theorem mem_others (c : Contents) (team : Option Text) (except k : Text) :
    k ∈ c.others team except ↔ k ≠ except ∧
      ∃ u ∈ c.users, u.id = k ∧ u.active = true ∧ team.isSome = true ∧ team = u.team := by
  cases team with
  | none => simp [others]
  | some name =>
    simp only [others, Finset.mem_filter, mem_active, ne_eq, Option.some.injEq,
      Option.isSome_some, true_and]
    constructor
    · rintro ⟨⟨u, hu, ht, ha, hid⟩, hne⟩
      exact ⟨hne, u, hu, hid, ha, ht.symm⟩
    · rintro ⟨hne, u, hu, hid, ha, ht⟩
      exact ⟨⟨u, hu, ht.symm, ha, hid⟩, hne⟩

/-- The teammates of a user are read off the user's team. -/
theorem teammates_eq {c : Contents} (h : Set.InjOn User.id c.users) {v : User} (hv : v ∈ c.users) :
    c.teammates v.id = c.others v.team v.id := by
  ext k
  rw [mem_teammates, mem_others]
  refine and_congr_right fun _ => exists_congr fun u => and_congr_right fun _ =>
      and_congr_right fun _ =>
    and_congr_right fun _ => ?_
  constructor
  · rintro ⟨x, hx, hid, hteam⟩
    have hxv : x = v := h hx hv hid
    exact hxv ▸ hteam
  · intro hteam
    exact ⟨v, hv, rfl, hteam⟩

/-- The successors of a reviewer are read off the reviewer's team. -/
theorem successors_eq {c : Contents} (h : Set.InjOn User.id c.users) {v : User} (hv : v ∈ c.users)
    (author : Text) : c.successors v.id author = (c.others v.team author).erase v.id := by
  ext k
  simp only [successors, teammates_eq h hv, Finset.mem_erase, mem_others]
  exact and_left_comm

theorem successors_subset_userIds (c : Contents) (old author : Text) :
    c.successors old author ⊆ c.userIds :=
  (Finset.erase_subset _ _).trans (c.teammates_subset_userIds old)

theorem stayers_subset_active (c : Contents) (team : Text) (leaving : Finset Text) (i : Item) :
    c.stayers team leaving i ⊆ c.active team := by
  intro k hk
  exact (Finset.mem_sdiff.1 (Finset.mem_of_mem_erase (Finset.mem_sdiff.1 hk).1)).1

end Contents

namespace Undertaking

open Job

section Rest

variable {σ : Type} [Gateway σ]

/-- A job whose answer is given as a reply. -/
def replying {α : Type} (f : α → Reply) (x : Job σ α) : Job σ Reply := do
  return f (← x)

/-- The job that carries an undertaking out. It begins with the transaction. -/
def rest : Undertaking → Job σ Reply
  | found t => replying .team do
    let founded ← ofExcept ((← transaction (Roster.foundNow t)).part "members")
    note (.teamCreated t.name founded.members.length)
    return founded
  | switch id active => replying (Given.reply .user) do
    silently (Roster.switchNow id active)
    note (.activityChanged id active)
    ask .outside (.user id)
  | depart team leaving => replying .deactivation do
    let reassignments ← transaction (Departure.departNow team leaving)
    note (.usersDeactivated team leaving (← ofExcept reassignments.size))
    return ⟨team, leaving, reassignments⟩
  | opening id name author reviewers => replying .pullRequest do
    let opened ← ofExcept ((← transaction (Review.openNow id name author reviewers)).part
      "reviewers")
    note (.pullRequestCreated id author opened.reviewers)
    return opened
  | merge id => replying .pullRequest do
    Review.announceMerge id (← ofExcept ((← transaction (Review.mergeNow id)).part "merged_at"))
  | reassign id old => replying (fun (p, successor) => .reassigned p successor) do
    let (updated, successor) ← ofExcept (← transaction (Review.reassignNow id old)).pair
    note (.reviewerReassigned id old successor.noted)
    return (updated, successor)

end Rest

/-- What looking around found out and what stays true, whatever is committed later: ids that were
there are still there. -/
def Advised (c : Contents) : Undertaking → Prop
  | found t => t.name.isEmpty = false
  | switch id _ => id ∈ c.userIds
  | depart team leaving => team ∈ c.teams ∧ ∀ id ∈ leaving, id ∈ c.userIds
  | opening _ _ author reviewers => author ∈ c.userIds ∧ reviewers.length ≤ 2 ∧
      ∀ r ∈ reviewers, r ≠ author ∧ r ∈ c.userIds
  | merge id => id ∈ c.itemIds
  | reassign id _ => id ∈ c.itemIds

/-- Members of a team that is there may be let go, and later too. -/
theorem advised_depart {c : Contents} {team : Text} {ids : List Text} (hteam : team ∈ c.teams)
    (hmembers : ∀ id ∈ ids, id ∈ c.staff team) : (depart team ids.eraseDups).Advised c :=
  ⟨hteam, fun id hid => c.staff_subset_userIds team (hmembers id (List.mem_eraseDups.1 hid))⟩

/-- What the transaction of an undertaking makes of the contents of a store that keeps dates in the
form `keep`, if it begins when the clock is to show `now`. -/
def Effect (keep : Timestamp → Timestamp) (now : Timestamp) (c c' : Contents) : Undertaking → Prop
  | found t => t.name ∉ c.teams ∧ c' = (c.addTeam t.name).putUsers (Roster.membersOf t)
  | switch id active => c' = c.switch {id} active
  | depart team leaving => c'.teams = c.teams ∧ c'.users = (c.switch leaving.toFinset false).users ∧
      c'.items = c.items ∧
      (∀ i, c.Concerned team i → c.Relieved team leaving.toFinset i (c'.reviewers i.id)) ∧
      ∀ id, (∀ i, c.Concerned team i → i.id ≠ id) → c'.reviewers id = c.reviewers id
  | opening id name author reviewers => id ∉ c.itemIds ∧
      c' = (c.addItem ⟨id, name, author, .opened, keep now, none⟩).setReviewers id
        (c.reviewers id ∪ reviewers.toFinset)
  | merge id => c' = c ∨
      c' = c.updateItem id fun i => { i with status := .merged, merged := some (keep now) }
  | reassign id old => ∃ i ∈ c.items, i.id = id ∧ i.status ≠ .merged ∧ old ∈ c.reviewers id ∧
      ∃ joining ⊆ c.successors old i.author, joining.card = min 1 (c.successors old i.author).card ∧
        c' = c.setReviewers id ((c.reviewers id).erase old ∪ joining)

end Undertaking

/-- What is left to do of a use case once it has looked around. -/
def UseCase.Undertakes : UseCase → Undertaking → Prop
  | .found t, v => v = .found t
  | .depart name users, v => v = .depart name users.eraseDups
  | .departAll name, v => ∃ leaving, v = .depart name leaving
  | .switch user active, v => v = .switch user active
  | .opening id name author, v => ∃ reviewers, v = .opening id name author reviewers
  | .merge id, v => v = .merge id
  | .reassign id old, v => v = .reassign id old
  | _, _ => False

end ReviewDesk
