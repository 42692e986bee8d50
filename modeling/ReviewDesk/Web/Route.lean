import ReviewDesk.Check.Value
import ReviewDesk.Desk.UseCase
import ReviewDesk.Web.Request

/-!
# Routes

A route is a path together with the method that it answers to, and says where the arguments of a use case
come from: the path, one parameter of the query, or the fields of the body. A path matches with one line feed
after it as well. A path that only matches without its trailing slashes is redirected.
-/
namespace ReviewDesk.Web

/-- The routes. -/
inductive Route where
  | health
  | switch
  | reviewedBy
  | countsOf
  | found
  | team
  | departAll
  | depart (team : Text)
  | opening
  | merge
  | reassign
  | totals
  deriving Repr, DecidableEq

/-- Where the arguments of a route come from. -/
inductive Form where
  | status
  | nothing (u : UseCase)
  | query (name : String) (u : Text → UseCase)
  | body (check : List Place → List (Text × Json) → Checked UseCase)

namespace Route

def method : Route → String
  | health | reviewedBy | countsOf | team | totals => "GET"
  | switch | found | departAll | opening | merge | reassign => "POST"
  | depart _ => "PATCH"

/-- The routes whose paths have no variable part. -/
def fixed : List (String × Route) :=
  [("/health", health), ("/users/setIsActive", switch), ("/users/getReview", reviewedBy),
    ("/users/stats", countsOf), ("/team/add", found), ("/team/get", team),
    ("/team/bulkDeactivate", departAll), ("/pullRequest/create", opening), ("/pullRequest/merge", merge),
    ("/pullRequest/reassign", reassign), ("/pullRequest/stats", totals)]

/-- What is left of `s` after `start`, if `s` starts with it. -/
def after? : (start s : List Char) → Option (List Char)
  | [], s => some s
  | _ :: _, [] => none
  | c :: start, d :: s => if c = d then after? start s else none

/-- The name of a team in a path: everything up to the next slash. -/
def ofTeamPath? (path : List Char) : Option Route := do
  let rest ← after? "/teams/".toList path
  let name := rest.takeWhile (· ≠ '/')
  let tail := rest.dropWhile (· ≠ '/')
  if name ≠ [] ∧ tail = "/deactivate-members".toList then some (depart (.ofChars name)) else none

/-- The path without one line feed at its end. -/
def withoutFeed (path : List Char) : List Char :=
  match path.getLast? with
  | some '\n' => path.dropLast
  | _ => path

/-- The route of a path, whatever the method. Only what concerns the desk has one, not the pages that a server offers
about itself. -/
def ofPath? (path : List Char) : Option Route :=
  let path := withoutFeed path
  match fixed.lookup (String.ofList path) with
  | some r => some r
  | none => ofTeamPath? path

/-- The path without the slashes at its end. -/
def withoutSlashes (path : List Char) : List Char := (path.reverse.dropWhile (· = '/')).reverse

/-- The path to which a path without a route is redirected: the one without its trailing slashes, or the one
with a slash more. -/
def alternative (path : List Char) : List Char :=
  if path.getLast? = some '/' then withoutSlashes path else path ++ ['/']

/-- Whether a path without a route is redirected. -/
def isRedirected (path : List Char) : Bool := path ≠ ['/'] && (ofPath? (alternative path)).isSome

/-- A member of a team as a body describes it, who does not belong to a team yet. -/
def member (place : List Place) (fields : List (Text × Json)) : Checked User :=
  (Checked.both (Checked.field place fields "user_id" Checked.text)
    (Checked.both (Checked.field place fields "username" Checked.text)
      (Checked.field place fields "is_active" Checked.bool))).map
    fun (id, name, active) => ⟨id, name, none, active⟩

/-- The team of a body, with its members. -/
def teamBody (place : List Place) (fields : List (Text × Json)) : Checked Team :=
  (Checked.both (Checked.field place fields "team_name" Checked.text)
    (Checked.field place fields "members" (Checked.list (Checked.object member)))).map
    fun (name, members) => ⟨name, members.map fun u => { u with team := some name }⟩

/-- Where the arguments of a route come from, and the use case that they make. -/
def form : Route → Form
  | health => .status
  | totals => .nothing .totals
  | team => .query "team_name" .team
  | reviewedBy => .query "user_id" .reviewedBy
  | countsOf => .query "user_id" .countsOf
  | found => .body fun place fields => (teamBody place fields).map .found
  | departAll => .body fun place fields =>
    (Checked.field place fields "team_name" Checked.text).map .departAll
  | depart name => .body fun place fields =>
    (Checked.fieldOr [] place fields "user_ids" (Checked.list Checked.text)).map (.depart name)
  | switch => .body fun place fields =>
    (Checked.both (Checked.field place fields "user_id" Checked.text)
      (Checked.field place fields "is_active" Checked.bool)).map fun (user, active) => .switch user active
  | opening => .body fun place fields =>
    (Checked.both (Checked.field place fields "pull_request_id" Checked.text)
      (Checked.both (Checked.field place fields "pull_request_name" Checked.text)
        (Checked.field place fields "author_id" Checked.text))).map
      fun (id, name, author) => .opening id name author
  | merge => .body fun place fields =>
    (Checked.field place fields "pull_request_id" Checked.text).map .merge
  | reassign => .body fun place fields =>
    (Checked.both (Checked.field place fields "pull_request_id" Checked.text)
      (Checked.field place fields "old_user_id" Checked.text)).map fun (id, old) => .reassign id old

end Route
end ReviewDesk.Web
