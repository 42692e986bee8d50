import ReviewDesk.Entity
import ReviewDesk.Failure
import ReviewDesk.Time.Clock

/-!
# What a store offers

A store is a value, and everything that can be done with it is a function: a read gives an answer or a
failure, a write gives besides that the store afterwards. A failed write may leave a trace in the store of a
transaction, never in the committed one. `settle` says what is committed when a transaction ends normally.
-/
namespace ReviewDesk

/-- A question to a store. -/
abbrev Read (σ α : Type) := σ → Except Failure α

/-- A change of a store. -/
abbrev Write (σ : Type) := σ → Except Failure Unit × σ

/-- The kinds of things a store keeps. -/
inductive Kind where
  | teams
  | users
  | pullRequests
  | assignments
  deriving Repr, DecidableEq

/-- The operations of a store. -/
class Gateway (σ : Type) where
  /-- The store before anything was put into it. -/
  empty : σ
  /-- A team with its members in ascending order of their ids. -/
  team : Text → Read σ Team
  /-- Adds a team, without members, under a new name. -/
  saveTeam : Team → Write σ
  user : Text → Read σ User
  /-- The users of a team in ascending order of their ids. -/
  members : Text → Read σ (List User)
  /-- The active users of a team, apart from one, in ascending order of their ids. -/
  activeMembers : Text → Option Text → Read σ (List User)
  /-- Adds users or replaces those with the same ids, one after the other. -/
  putUsers : List User → Write σ
  /-- Gives the users with the same ids the activity of the given ones. -/
  setActivity : List User → Write σ
  deactivate : List Text → Write σ
  userCounts : Text → Read σ UserCounts
  /-- Adds a pull request, without reviewers, under a new id. One that is not dated gets the time of the
  clock, which may be read whether or not the id is new. -/
  savePullRequest : PullRequest → σ → Clock → (Except Failure Unit × σ) × Clock
  pullRequest : Text → Read σ PullRequest
  /-- Changes name, author, status and date of merge of a pull request that is still open. -/
  updatePullRequest : PullRequest → Write σ
  /-- The pull requests that a user reviews, latest first. -/
  reviewedBy : Text → Read σ (List PullRequest)
  reviewers : Text → Read σ (List Text)
  assign : Text → List Text → Write σ
  replaceReviewer : Text → Text → Text → Write σ
  removeReviewer : Text → Text → Write σ
  totals : Read σ Totals
  /-- The open pull requests that active members of a team wrote, latest first and without reviewers. -/
  openPullRequests : Text → Read σ (List PullRequest)
  /-- The reviewers of each of the given pull requests. -/
  reviewersOf : List Text → Read σ (List (Text × List Text))
  /-- What is committed when a transaction ends normally: the store before it, and its own. -/
  settle : σ → σ → σ
  /-- Whether a failure of the driver that escapes a transaction is reported as a failed commit. -/
  reportsDriver : Bool
  /-- Whether the store tells in the journal that it is ready for use. -/
  announces : Bool
  /-- Whether the active members of a team are picked out of a reading of all its members, in which something can
  go wrong as in any other such reading. -/
  picksActive : Bool
  /-- Takes one kind of thing away from under the store. -/
  lose : Kind → Write σ
  snapshot : Read σ Snapshot

end ReviewDesk
