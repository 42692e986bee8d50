import ReviewDesk.Reply
import ReviewDesk.Store.Gateway

/-!
# Calls on a store

A call is one operation of a store as a piece of data, together with the shape of its answer. A call has a
place, `Call.point`, at which a fault can strike it, and a meaning on every store, `Call.on`. Only one call
reads the clock, and only calls that change something change the store.
-/
namespace ReviewDesk

/-- The shapes that the answer of a call can have. -/
inductive Shape where
  | nothing
  | team
  | user
  | users
  | userCounts
  | pullRequest
  | pullRequests
  | ids
  | reviewersOf
  | totals
  deriving Repr, DecidableEq

namespace Shape

/-- The answers of a shape. -/
abbrev Answer : Shape → Type
  | nothing => Unit
  | team => Team
  | user => User
  | users => List User
  | userCounts => UserCounts
  | pullRequest => PullRequest
  | pullRequests => List PullRequest
  | ids => List Text
  | reviewersOf => List (Text × List Text)
  | totals => Totals

/-- An answer as a reply. -/
def reply : (s : Shape) → s.Answer → Reply
  | nothing, _ => .nothing
  | team, t => .team t
  | user, u => .user u
  | users, us => .users us
  | userCounts, c => .userCounts c
  | pullRequest, p => .pullRequest p
  | pullRequests, ps => .pullRequests ps
  | ids, is => .ids is
  | reviewersOf, b => .reviewersOf b
  | totals, t => .totals t

/-- The text that a document is. -/
def text? : Json → Option Text
  | .text t => some t
  | _ => none

/-- The texts that a document lists. -/
def texts? : Json → Option (List Text)
  | .list js => js.mapM text?
  | _ => none

/-- The answer that a substitute amounts to. Where no answer is waited for, anything will do. -/
def ofSubstitute? : (s : Shape) → Substitute → Option s.Answer
  | nothing, _ => some ()
  | users, .document (.list []) => some []
  | pullRequests, .document (.list []) => some []
  | pullRequests, .pullRequests ps => some ps
  | ids, .document j => texts? j
  | reviewersOf, .document (.object fields) =>
    fields.mapM fun (name, j) => (texts? j).map fun ts => (name, ts)
  | _, _ => none

/-- A substitute in the place of an answer of a shape. -/
def given (s : Shape) (v : Substitute) : Given s.Answer :=
  match s.ofSubstitute? v with
  | some a => .own a
  | none => .foreign v

end Shape

/-- The places where a fault can strike: every kind of call, and the beginning of a transaction. A silent
transaction, whose answer does not matter, begins like any other after its own place is passed. -/
inductive Point where
  | team
  | saveTeam
  | user
  | members
  | activeMembers
  | putUsers
  | setActivity
  | deactivate
  | userCounts
  | savePullRequest
  | pullRequest
  | updatePullRequest
  | reviewedBy
  | reviewers
  | assign
  | replaceReviewer
  | removeReviewer
  | totals
  | openPullRequests
  | reviewersOf
  | transaction
  | silentTransaction
  deriving Repr, DecidableEq

/-- An operation of a store, with an answer of shape `s`. -/
inductive Call : (s : Shape) → Type where
  | team (name : Text) : Call .team
  | saveTeam (t : Team) : Call .nothing
  | user (id : Text) : Call .user
  | members (team : Text) : Call .users
  | activeMembers (team : Text) (except : Option Text) : Call .users
  | putUsers (us : List User) : Call .nothing
  | setActivity (us : List User) : Call .nothing
  | deactivate (ids : List Text) : Call .nothing
  | userCounts (id : Text) : Call .userCounts
  | savePullRequest (p : PullRequest) : Call .nothing
  | pullRequest (id : Text) : Call .pullRequest
  | updatePullRequest (p : PullRequest) : Call .nothing
  | reviewedBy (id : Text) : Call .pullRequests
  | reviewers (id : Text) : Call .ids
  | assign (id : Text) (reviewers : List Text) : Call .nothing
  | replaceReviewer (id old new : Text) : Call .nothing
  | removeReviewer (id old : Text) : Call .nothing
  | totals : Call .totals
  | openPullRequests (team : Text) : Call .pullRequests
  | reviewersOf (ids : List Text) : Call .reviewersOf
  deriving Repr

namespace Call

/-- Where a fault strikes a call. -/
def point {s : Shape} : Call s → Point
  | .team _ => .team
  | .saveTeam _ => .saveTeam
  | .user _ => .user
  | .members _ => .members
  | .activeMembers _ _ => .activeMembers
  | .putUsers _ => .putUsers
  | .setActivity _ => .setActivity
  | .deactivate _ => .deactivate
  | .userCounts _ => .userCounts
  | .savePullRequest _ => .savePullRequest
  | .pullRequest _ => .pullRequest
  | .updatePullRequest _ => .updatePullRequest
  | .reviewedBy _ => .reviewedBy
  | .reviewers _ => .reviewers
  | .assign _ _ => .assign
  | .replaceReviewer _ _ _ => .replaceReviewer
  | .removeReviewer _ _ => .removeReviewer
  | .totals => .totals
  | .openPullRequests _ => .openPullRequests
  | .reviewersOf _ => .reviewersOf

variable {σ : Type} [Gateway σ]

/-- The call on a store: its answer or failure, the store afterwards, and the clock afterwards. -/
def on {s : Shape} : Call s → σ → Clock → (Except Failure s.Answer × σ) × Clock
  | .team name, x, c => ((Gateway.team name x, x), c)
  | .saveTeam t, x, c => (Gateway.saveTeam t x, c)
  | .user id, x, c => ((Gateway.user id x, x), c)
  | .members name, x, c => ((Gateway.members name x, x), c)
  | .activeMembers name except, x, c => ((Gateway.activeMembers name except x, x), c)
  | .putUsers us, x, c => (Gateway.putUsers us x, c)
  | .setActivity us, x, c => (Gateway.setActivity us x, c)
  | .deactivate ids, x, c => (Gateway.deactivate ids x, c)
  | .userCounts id, x, c => ((Gateway.userCounts id x, x), c)
  | .savePullRequest p, x, c => Gateway.savePullRequest p x c
  | .pullRequest id, x, c => ((Gateway.pullRequest id x, x), c)
  | .updatePullRequest p, x, c => (Gateway.updatePullRequest p x, c)
  | .reviewedBy id, x, c => ((Gateway.reviewedBy id x, x), c)
  | .reviewers id, x, c => ((Gateway.reviewers id x, x), c)
  | .assign id ids, x, c => (Gateway.assign id ids x, c)
  | .replaceReviewer id old new, x, c => (Gateway.replaceReviewer id old new x, c)
  | .removeReviewer id old, x, c => (Gateway.removeReviewer id old x, c)
  | .totals, x, c => ((Gateway.totals x, x), c)
  | .openPullRequests name, x, c => ((Gateway.openPullRequests name x, x), c)
  | .reviewersOf ids, x, c => ((Gateway.reviewersOf ids x, x), c)

end Call
end ReviewDesk
