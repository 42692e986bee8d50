import ReviewDesk.Desk.Plan

/-!
# Pull requests and their reviewers

A pull request is opened with up to two random reviewers, active members of its author's team other than the
author. It is merged once. While it is open a reviewer can be relieved by a random active teammate of the
reviewer other than the author; where there is none, the reviewer is only taken off.
-/
namespace ReviewDesk.Review

open Job

variable {σ : Type} [Gateway σ]

/-- The largest number of reviewers that a new pull request gets. -/
def reviewerLimit : Nat := 2

/-- The ids of the active members of a team other than one user; nobody where there is no team. -/
def teammates (scope : Scope) (team : Option Text) (except : Text) : Job σ (List Text) :=
  match team with
  | none => pure []
  | some name => do ofExcept (← ask scope (.activeMembers name (some except))).ids

/-- The transaction that stores a new pull request with its reviewers. -/
def openNow (id name author : Text) (reviewers : List Text) : Job σ (Given PullRequest) := do
  let created ← now
  tell .inside (.savePullRequest ⟨id, name, author, .opened, [], some created, none⟩)
  tell .inside (.assign id reviewers)
  ask .inside (.pullRequest id)

/-- Opens a pull request. -/
def opening (id name author : Text) : Job σ (Plan σ PullRequest) := do
  let given ← ask .outside (.user author)
  ensureAbsent (ask .outside (.pullRequest id)) .pullRequestNotFound .pullRequestExists
  let writer ← ofExcept (given.part "team_name")
  let candidates ← teammates .outside writer.team author
  let reviewers ← choose (selectUpTo candidates reviewerLimit)
  return .pending do
    let opened ← ofExcept ((← transaction (openNow id name author reviewers)).part "reviewers")
    note (.pullRequestCreated id author opened.reviewers)
    return opened

/-- The transaction that merges a pull request, unless it is merged by then. -/
def mergeNow (id : Text) : Job σ (Given PullRequest) := do
  let current ← look "status" .inside (.pullRequest id)
  if current.status = .merged then
    return .own current
  else
    let merged ← now
    tell .inside (.updatePullRequest { current with status := .merged, merged := some merged })
    ask .inside (.pullRequest id)

/-- The event of a merge. It needs the date of the merge. -/
def announceMerge (id : Text) (p : PullRequest) : Job σ PullRequest :=
  match p.merged with
  | none => fail (.misused (.noPart .none "isoformat"))
  | some t => do
    note (.pullRequestMerged id t)
    return p

/-- Merges a pull request. One that is merged already is left as it is. -/
def merge (id : Text) : Job σ (Plan σ PullRequest) := do
  let p ← look "status" .outside (.pullRequest id)
  if p.status = .merged then
    return .finished p
  else
    return .pending do
      announceMerge id (← ofExcept ((← transaction (mergeNow id)).part "merged_at"))

/-- Takes a reviewer off and puts the successor in, if there is one. -/
def hand (id old : Text) : Option Text → Job σ Unit
  | none => tell .inside (.removeReviewer id old)
  | some new => tell .inside (.replaceReviewer id old new)

/-- The transaction that relieves a reviewer. -/
def reassignNow (id old : Text) : Job σ (Given (Given PullRequest × Option Text)) := do
  let current ← look "status" .inside (.pullRequest id)
  if current.status = .merged then refuse .alreadyMerged
  let assigned ← ofExcept ((← ask .inside (.reviewers id)).holds old)
  if !assigned then refuse .notReviewer
  let reviewer ← look "team_name" .inside (.user old)
  let candidates ← teammates .inside reviewer.team current.author
  let (successor, _) ← take (candidates.filter (· ≠ old))
  hand id old successor
  let updated ← ask .inside (.pullRequest id)
  return .own (updated, successor)

/-- Relieves a reviewer. -/
def reassign (id old : Text) : Job σ (Plan σ (Given PullRequest × Piece)) := do
  let p ← look "status" .outside (.pullRequest id)
  if p.status = .merged then refuse .alreadyMerged
  return .pending do
    let (updated, successor) ← ofExcept (← transaction (reassignNow id old)).pair
    note (.reviewerReassigned id old successor.noted)
    return (updated, successor)

/-- The pull requests that a user reviews, latest first. -/
def reviewedBy (user : Text) : Job σ (Given (List PullRequest)) := do
  let _ ← ask .outside (.user user)
  ask .outside (.reviewedBy user)

/-- What a user wrote, reviews and saw merged. -/
def countsOf (user : Text) : Job σ (Given UserCounts) := do
  let _ ← ask .outside (.user user)
  ask .outside (.userCounts user)

/-- Counts over all pull requests. -/
def totals : Job σ (Given Totals) := ask .outside .totals

end ReviewDesk.Review
