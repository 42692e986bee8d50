import ReviewDesk.Desk.Plan

/-!
# Teams and their members

A team is founded once, under a name that is not empty; people named as its members are registered or moved
over from other teams. A member can be switched active and inactive; the reviews of a member stay.
-/
namespace ReviewDesk.Roster

open Job

variable {σ : Type} [Gateway σ]

/-- The members of a team, as they are when they belong to it. -/
def membersOf (t : Team) : List User := t.members.map fun u => { u with team := some t.name }

/-- The transaction that founds a team. -/
def foundNow (t : Team) : Job σ (Given Team) := do
  tell .inside (.saveTeam ⟨t.name, []⟩)
  tell .inside (.putUsers (membersOf t))
  ask .inside (.team t.name)

/-- Founds a team. -/
def found (t : Team) : Job σ (Plan σ Team) := do
  if t.name.isEmpty then refuse .emptyName
  ensureAbsent (ask .outside (.team t.name)) .teamNotFound .teamExists
  return .pending do
    let founded ← ofExcept ((← transaction (foundNow t)).part "members")
    note (.teamCreated t.name founded.members.length)
    return founded

/-- A team with its members. -/
def team (name : Text) : Job σ (Given Team) := ask .outside (.team name)

/-- The transaction that switches a user active or inactive. -/
def switchNow (id : Text) (active : Bool) : Job σ Unit := do
  let u ← look "is_active" .inside (.user id)
  tell .inside (.setActivity [{ u with active := active }])

/-- Switches a user active or inactive. -/
def switch (id : Text) (active : Bool) : Job σ (Plan σ (Given User)) := do
  let _ ← ask .outside (.user id)
  return .pending do
    silently (switchNow id active)
    note (.activityChanged id active)
    ask .outside (.user id)

end ReviewDesk.Roster
