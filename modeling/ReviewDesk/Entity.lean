import ReviewDesk.Number.Binary64
import ReviewDesk.Text.Basic
import ReviewDesk.Time.Timestamp

/-!
# People, teams and pull requests

The values that the desk takes in and hands out. A team holds its members by value; a pull request holds the
ids of its reviewers.
-/
namespace ReviewDesk

/-- Somebody who writes and reviews pull requests. -/
structure User where
  id : Text
  name : Text
  team : Option Text
  active : Bool
  deriving Repr, DecidableEq

structure Team where
  name : Text
  members : List User
  deriving Repr, DecidableEq

/-- A pull request is merged once and stays so. -/
inductive Status where
  | opened
  | merged
  deriving Repr, DecidableEq

def Status.label : Status → String
  | .opened => "OPEN"
  | .merged => "MERGED"

theorem Status.eq_opened {s : Status} (h : s ≠ .merged) : s = .opened := by
  cases s with
  | opened => rfl
  | merged => exact absurd rfl h

structure PullRequest where
  id : Text
  name : Text
  author : Text
  status : Status
  reviewers : List Text
  created : Option Timestamp
  merged : Option Timestamp
  deriving Repr, DecidableEq

/-- How many pull requests a user wrote, reviews and wrote and saw merged. -/
structure UserCounts where
  user : Text
  created : Nat
  reviewed : Nat
  merged : Nat
  deriving Repr, DecidableEq

/-- Counts over all pull requests. The average number of reviewers is the exact quotient
`assigned / reviewed`, where `reviewed` counts the pull requests that have a reviewer at all. -/
structure Totals where
  total : Nat
  opened : Nat
  merged : Nat
  assigned : Nat
  reviewed : Nat
  deriving Repr, DecidableEq

/-- The average number of reviewers as a binary fraction; zero where nothing is reviewed. -/
def Totals.average (t : Totals) : Binary64 :=
  if t.reviewed = 0 then .ofRatio false 0 1 else .ofRatio false t.assigned t.reviewed

/-- A reviewer taken off a pull request, and who took over, if anybody did. -/
structure Reassignment where
  pullRequest : Text
  old : Text
  new : Option Text
  deriving Repr, DecidableEq

/-- What the committed state of a store holds, in a fixed order. -/
structure Snapshot where
  teams : List Text
  users : List User
  pullRequests : List PullRequest
  assignments : List (Text × List Text)
  deriving Repr, DecidableEq

end ReviewDesk
