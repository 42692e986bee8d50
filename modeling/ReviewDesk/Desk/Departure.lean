import ReviewDesk.Desk.Review

/-!
# Departures

People who leave are switched inactive and taken off the open pull requests of their team. On each pull
request they are relieved by random active teammates who neither wrote it nor review it, each of them taking
over from one person at most; where no such teammate is left, the person is only taken off.
-/
namespace ReviewDesk.Departure

open Job Review

variable {σ : Type} [Gateway σ]

/-- Relieves reviewers of one pull request one after the other, from a pool that shrinks. -/
def relieve (id : Text) : List Text → List Text → Job σ (List Reassignment)
  | [], _ => pure []
  | old :: leaving, pool => do
    let (successor, pool) ← take pool
    hand id old successor
    let rest ← relieve id leaving pool
    return ⟨id, old, successor⟩ :: rest

/-- Those who may take over on a pull request: the given people without its author and its reviewers. -/
def successors (staying : List Text) (author : Text) (reviewers : Given (List Text)) : List Text :=
  staying.filter fun id => id ≠ author && !reviewers.contains id

/-- Relieves those who leave on one pull request. Who stays is asked for only if somebody is to be relieved. -/
def relieveOn (leaving : List Text) (staying : Given (List User)) (batch : Given (List (Text × List Text)))
    (p : PullRequest) : Job σ (List Reassignment) := do
  let reviewers ← ofExcept (batch.under p.id)
  let relieved ← ofExcept (reviewers.among leaving)
  if relieved.isEmpty then return []
  else
    let stayers ← ofExcept staying.ids
    relieve p.id relieved (successors stayers p.author reviewers)

/-- Relieves those who leave on one open pull request after the other. -/
def cascade (leaving : List Text) (staying : Given (List User)) (batch : Given (List (Text × List Text))) :
    List PullRequest → Job σ (List Reassignment)
  | [] => pure []
  | p :: ps => do
    let first ← if p.status = .opened then relieveOn leaving staying batch p else pure []
    let rest ← cascade leaving staying batch ps
    return first ++ rest

/-- The transaction of a departure. The open pull requests are read before anybody is switched inactive, so
that those written by the people who leave are among them. -/
def departNow (team : Text) (leaving : List Text) : Job σ (Given (List Reassignment)) := do
  let given ← ask .inside (.openPullRequests team)
  tell .inside (.deactivate leaving)
  let opened ← ofExcept given.pullRequests
  if opened.isEmpty then return .own []
  else
    let batch ← ask .inside (.reviewersOf (opened.map PullRequest.id))
    let staying ← ask .inside (.activeMembers team none)
    return .own (← cascade leaving staying batch opened)

/-- Refuses a user who is not a member of a team. -/
def strangerNote (user team : Text) : Failure :=
  .refused .userNotInTeam (some ("user " ++ user ++ " is not a member of team " ++ team))

/-- Lets members of a team go. Naming nobody asks for nothing, not even for the team. -/
def depart (team : Text) (users : List Text) : Job σ (Plan σ Deactivation) := do
  let leaving := users.eraseDups
  if leaving.isEmpty then
    return .finished ⟨team, [], .own []⟩
  else
    let _ ← ask .outside (.team team)
    let members ← ofExcept (← ask .outside (.members team)).ids
    match leaving.find? (· ∉ members) with
    | some stranger => fail (strangerNote stranger team)
    | none =>
      return .pending do
        let reassignments ← transaction (departNow team leaving)
        note (.usersDeactivated team leaving (← ofExcept reassignments.size))
        return ⟨team, leaving, reassignments⟩

/-- Lets all active members of a team go. -/
def departAll (name : Text) : Job σ (Plan σ Deactivation) := do
  let t ← look "members" .outside (.team name)
  depart name ((t.members.filter User.active).map User.id)

end ReviewDesk.Departure
