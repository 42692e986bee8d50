import ReviewDesk.Store.Gateway
import ReviewDesk.Store.Rows

/-!
# The relational store

Four tables of rows. Reviewers are rows of their own, one for each pair of a pull request and a user; no
table points to another in a way that is checked. Dates are kept as the wall clock showed them, without an
offset. A table can be lost, and every operation that reads or writes it then fails under its own name,
before it shows anything else. A text that has no written form fails the statement that it is handed to, in
which the texts are looked at in the order of the columns.

An insertion that fails breaks the transaction off: no later operation of that transaction reaches a table,
and its end commits nothing. If an insertion is tried nevertheless, the transaction is stuck on it, and every
operation after it tells so. The text over which it broke off, if it was one without a written form, is
remembered.
-/
namespace ReviewDesk

structure UserRow where
  id : Text
  name : Text
  team : Option Text
  active : Bool
  deriving Repr, DecidableEq

structure PullRequestRow where
  id : Text
  name : Text
  author : Text
  status : Status
  created : Int
  merged : Option Int
  deriving Repr, DecidableEq

structure AssignmentRow where
  pullRequest : Text
  reviewer : Text
  deriving Repr, DecidableEq

/-- How a transaction is doing: it goes on, has broken off, perhaps over a text without a written form, or is
stuck on an insertion since. -/
inductive Progress where
  | going
  | brokenOff (cause : Option Text.Gap)
  | stuck (cause : Option Text.Gap)
  deriving Repr, DecidableEq

/-- The tables, where they are not lost, and how the transaction on them is doing. -/
structure RelationalStore where
  teams : Option (List Text)
  users : Option (List UserRow)
  pullRequests : Option (List PullRequestRow)
  assignments : Option (List AssignmentRow)
  progress : Progress
  deriving Repr, DecidableEq

def UserRow.toUser (r : UserRow) : User := ⟨r.id, r.name, r.team, r.active⟩

def UserRow.ofUser (u : User) : UserRow := ⟨u.id, u.name, u.team, u.active⟩

/-- The pull request of a row with its reviewers. -/
def PullRequestRow.withReviewers (r : PullRequestRow) (reviewers : List Text) : PullRequest :=
  ⟨r.id, r.name, r.author, r.status, reviewers, some ⟨r.created, none⟩, r.merged.map fun w => ⟨w, none⟩⟩

namespace RelationalStore

def empty : RelationalStore := ⟨some [], some [], some [], some [], .going⟩

/-- The rows of a table, for the operation of the given name. -/
def rows {α : Type} (s : RelationalStore) (operation : Text) (table : Option (List α)) :
    Except Failure (List α) :=
  match s.progress with
  | .brokenOff cause => .error (.storageBecause operation (.brokenOff cause))
  | .stuck cause => .error (.storageBecause operation (.stuck cause))
  | .going =>
    match table with
    | some rows => .ok rows
    | none => .error (.storage operation)

/-- Hands texts to a statement, which fails at the first that has no written form. -/
def hand (texts : List Text) : Except Failure Unit :=
  match texts.findSome? Text.gap? with
  | some gap => .error (.unwritable gap)
  | none => .ok ()

/-- A change of a table by one statement to which texts are handed. -/
def change {α : Type} (s : RelationalStore) (operation : Text) (table : Option (List α)) (texts : List Text)
    (f : List α → RelationalStore) : Except Failure Unit × RelationalStore :=
  match (do let rows ← s.rows operation table; hand texts; return rows) with
  | .ok rows => (.ok (), f rows)
  | .error e => (.error e, s)

/-- The text over which an insertion failed. -/
def brokenText? : Failure → Option Text.Gap
  | .unwritable gap => some gap
  | _ => none

/-- An insertion of a row with a key, which must not be there yet. -/
def insertion {α : Type} (s : RelationalStore) (operation : Text) (table : Option (List α))
    (texts : List Text) (taken : List α → Bool) (refusal : Refusal) (f : List α → RelationalStore) :
    Except Failure Unit × RelationalStore :=
  match s.progress with
  | .going =>
    let ready : Except Failure (List α) := do
      let rows ← s.rows operation table
      hand texts
      if taken rows then throw (.refuse refusal)
      return rows
    match ready with
    | .ok rows => (.ok (), f rows)
    | .error e => (.error e, { s with progress := .brokenOff (brokenText? e) })
  | .brokenOff cause | .stuck cause =>
    (.error (.storageBecause operation (.stuck cause)), { s with progress := .stuck cause })

/-- The reviewers of a pull request in ascending order. -/
def reviewersIn (assignments : List AssignmentRow) (id : Text) : List Text :=
  Rows.sortIds ((assignments.filter fun a => a.pullRequest = id).map AssignmentRow.reviewer)

def membersIn (users : List UserRow) (team : Text) : List User :=
  (Rows.sortByKey UserRow.id (users.filter fun u => u.team = some team)).map UserRow.toUser

/-- An insertion that passes over a pair that is there. -/
def insertPair (assignments : List AssignmentRow) (a : AssignmentRow) : List AssignmentRow :=
  if a ∈ assignments then assignments else assignments ++ [a]

def team (s : RelationalStore) (name : Text) : Except Failure Team := do
  let teams ← s.rows "get team" s.teams
  hand [name]
  if name ∈ teams then
    let users ← s.rows "get team" s.users
    return ⟨name, membersIn users name⟩
  else throw (.refuse .teamNotFound)

def saveTeam (s : RelationalStore) (t : Team) : Except Failure Unit × RelationalStore :=
  s.insertion "save team" s.teams [t.name] (fun teams => decide (t.name ∈ teams)) .teamExists fun teams =>
    { s with teams := some (teams ++ [t.name]) }

def user (s : RelationalStore) (id : Text) : Except Failure User := do
  let users ← s.rows "get user" s.users
  hand [id]
  match Rows.find? UserRow.id id users with
  | some u => return u.toUser
  | none => throw (.refuse .userNotFound)

def members (s : RelationalStore) (team : Text) : Except Failure (List User) := do
  let users ← s.rows "get users by team" s.users
  hand [team]
  return membersIn users team

def activeMembers (s : RelationalStore) (team : Text) (except : Option Text) :
    Except Failure (List User) := do
  let users ← s.rows "get active users by team" s.users
  hand (team :: except.toList)
  return membersIn (users.filter fun u => u.active && some u.id ≠ except) team

def putUsers (s : RelationalStore) (us : List User) : Except Failure Unit × RelationalStore :=
  if us.isEmpty then (.ok (), s)
  else
    let texts := us.flatMap fun u => u.id :: u.name :: u.team.toList
    s.change "bulk save/update users" s.users texts fun rows =>
      { s with users := some (us.foldl (fun rows u => Rows.upsert UserRow.id (.ofUser u) rows) rows) }

/-- Each user is changed by a statement of its own. -/
def setActivity (s : RelationalStore) : List User → Except Failure Unit × RelationalStore
  | [] => (.ok (), s)
  | u :: us =>
    let changed := s.change "update many users" s.users [u.id] fun rows =>
      { s with users := some (Rows.modify UserRow.id u.id (fun r => { r with active := u.active }) rows) }
    match changed with
    | (.ok (), s) => s.setActivity us
    | failed => failed

def deactivate (s : RelationalStore) (ids : List Text) : Except Failure Unit × RelationalStore :=
  if ids.isEmpty then (.ok (), s)
  else s.change "deactivate many users" s.users ids fun rows =>
    { s with users := some (rows.map fun r =>
        if r.id ∈ ids ∧ r.active then { r with active := false } else r) }

def userCounts (s : RelationalStore) (id : Text) : Except Failure UserCounts := do
  let pullRequests ← s.rows "get user stats" s.pullRequests
  hand [id]
  let assignments ← s.rows "get user stats" s.assignments
  let written := pullRequests.filter fun r => r.author = id
  return ⟨id, written.length, (assignments.filter fun a => a.reviewer = id).length,
    (written.filter fun r => r.status = .merged).length⟩

/-- The date is settled before the row is inserted, so that the clock is read for every pull request
without a date. -/
def savePullRequest (s : RelationalStore) (p : PullRequest) (c : Clock) :
    (Except Failure Unit × RelationalStore) × Clock :=
  match c.dated? p.created with
  | none => ((.error .offCalendar, s), c)
  | some (created, c) =>
    let row : PullRequestRow := ⟨p.id, p.name, p.author, p.status, created.wall, p.merged.map Timestamp.wall⟩
    (s.insertion "save pull request" s.pullRequests [p.id, p.name, p.author]
      (fun rows => (Rows.find? PullRequestRow.id p.id rows).isSome) .pullRequestExists fun rows =>
        { s with pullRequests := some (rows ++ [row]) }, c)

def pullRequest (s : RelationalStore) (id : Text) : Except Failure PullRequest := do
  let pullRequests ← s.rows "get pull request" s.pullRequests
  hand [id]
  match Rows.find? PullRequestRow.id id pullRequests with
  | none => throw (.refuse .pullRequestNotFound)
  | some r =>
    let assignments ← s.rows "get pull request" s.assignments
    return r.withReviewers (reviewersIn assignments id)

def updatePullRequest (s : RelationalStore) (p : PullRequest) : Except Failure Unit × RelationalStore :=
  s.change "update pull request" s.pullRequests [p.name, p.author, p.id] fun rows =>
    { s with pullRequests := some (rows.map fun r =>
        if r.id = p.id ∧ r.status = .opened then
          { r with name := p.name, author := p.author, status := p.status,
                   merged := p.merged.map Timestamp.wall }
        else r) }

def reviewedBy (s : RelationalStore) (id : Text) : Except Failure (List PullRequest) := do
  let pullRequests ← s.rows "get PRs by reviewer" s.pullRequests
  let assignments ← s.rows "get PRs by reviewer" s.assignments
  hand [id]
  let mine := pullRequests.filter fun r => (AssignmentRow.mk r.id id) ∈ assignments
  return (Rows.latestFirst PullRequestRow.created mine).map
    fun r => r.withReviewers (reviewersIn assignments r.id)

def reviewers (s : RelationalStore) (id : Text) : Except Failure (List Text) := do
  let assignments ← s.rows "get reviewers" s.assignments
  hand [id]
  return reviewersIn assignments id

def assign (s : RelationalStore) (id : Text) (reviewers : List Text) :
    Except Failure Unit × RelationalStore :=
  if reviewers.isEmpty then (.ok (), s)
  else s.change "assign reviewers" s.assignments (id :: reviewers) fun rows =>
    { s with assignments := some ((reviewers.map (AssignmentRow.mk id)).foldl insertPair rows) }

/-- The old reviewer is taken off by one statement and the new one put in by another. -/
def replaceReviewer (s : RelationalStore) (id old new : Text) : Except Failure Unit × RelationalStore :=
  let removed := s.change "replace reviewer" s.assignments [id, old] fun rows =>
    { s with assignments := some (rows.filter (· ≠ ⟨id, old⟩)) }
  match removed with
  | (.ok (), s) =>
    s.change "replace reviewer" s.assignments [id, new] fun rows =>
      { s with assignments := some (insertPair rows ⟨id, new⟩) }
  | failed => failed

def removeReviewer (s : RelationalStore) (id old : Text) : Except Failure Unit × RelationalStore :=
  s.change "remove reviewer" s.assignments [id, old] fun rows =>
    { s with assignments := some (rows.filter (· ≠ ⟨id, old⟩)) }

/-- The number of reviewers is counted over the rows of each pull request that has any. -/
def totals (s : RelationalStore) : Except Failure Totals := do
  let pullRequests ← s.rows "get PR stats" s.pullRequests
  let assignments ← s.rows "get PR stats" s.assignments
  let groups := assignments.map AssignmentRow.pullRequest |>.eraseDups
  let counted := pullRequests.filter fun r => r.id ∈ groups
  let assigned := counted.map fun r => assignments.filter fun a => a.pullRequest = r.id
  return ⟨pullRequests.length, (pullRequests.filter fun r => r.status = .opened).length,
    (pullRequests.filter fun r => r.status = .merged).length, assigned.flatten.length,
    assigned.length⟩

def openPullRequests (s : RelationalStore) (team : Text) : Except Failure (List PullRequest) := do
  let pullRequests ← s.rows "get open PRs by team" s.pullRequests
  let users ← s.rows "get open PRs by team" s.users
  hand [team]
  let joined := pullRequests.filter fun r =>
    r.status = .opened && users.any fun u => u.id = r.author && u.team = some team && u.active
  return (Rows.latestFirst PullRequestRow.created joined).map fun r => r.withReviewers []

def reviewersOf (s : RelationalStore) (ids : List Text) :
    Except Failure (List (Text × List Text)) := do
  if ids.isEmpty then return []
  let assignments ← s.rows "get reviewers batch" s.assignments
  hand ids
  return ids.eraseDups.map fun id => (id, reviewersIn assignments id)

/-- A table that is lost cannot be lost again. -/
def lose (s : RelationalStore) (kind : Kind) : Except Failure Unit × RelationalStore :=
  let (there, after) : Bool × RelationalStore := match kind with
    | .teams => (s.teams.isSome, { s with teams := none })
    | .users => (s.users.isSome, { s with users := none })
    | .pullRequests => (s.pullRequests.isSome, { s with pullRequests := none })
    | .assignments => (s.assignments.isSome, { s with assignments := none })
  if there then (.ok (), after) else (.error .lostTable, s)

/-- What the tables hold; all of them are needed. -/
def snapshot (s : RelationalStore) : Except Failure Snapshot :=
  match s.teams, s.users, s.pullRequests, s.assignments with
  | some teams, some users, some pullRequests, some assignments =>
    let reviewed := Rows.sortIds (assignments.map AssignmentRow.pullRequest).eraseDups
    .ok ⟨Rows.sortIds teams, (Rows.sortByKey UserRow.id users).map UserRow.toUser,
      (Rows.sortByKey PullRequestRow.id pullRequests).map fun r => r.withReviewers [],
      reviewed.map fun id => (id, reviewersIn assignments id)⟩
  | _, _, _, _ => .error .lostTable

instance : Gateway RelationalStore where
  empty := empty
  team name s := s.team name
  saveTeam t s := s.saveTeam t
  user id s := s.user id
  members team s := s.members team
  activeMembers team except s := s.activeMembers team except
  putUsers us s := s.putUsers us
  setActivity us s := s.setActivity us
  deactivate ids s := s.deactivate ids
  userCounts id s := s.userCounts id
  savePullRequest p s c := s.savePullRequest p c
  pullRequest id s := s.pullRequest id
  updatePullRequest p s := s.updatePullRequest p
  reviewedBy id s := s.reviewedBy id
  reviewers id s := s.reviewers id
  assign id reviewers s := s.assign id reviewers
  replaceReviewer id old new s := s.replaceReviewer id old new
  removeReviewer id old s := s.removeReviewer id old
  totals s := s.totals
  openPullRequests team s := s.openPullRequests team
  reviewersOf ids s := s.reviewersOf ids
  settle before after := if after.progress = .going then after else before
  reportsDriver := true
  announces := true
  picksActive := false
  lose kind s := s.lose kind
  snapshot s := s.snapshot

end RelationalStore
end ReviewDesk
