import ReviewDesk.Json.Value
import ReviewDesk.Text.Discreet
import ReviewDesk.Text.Utf8
import ReviewDesk.Time.Timestamp

/-!
# The journal

What happens is written down as events. A record of the journal adds to an event the request during which it
happened. Events below the journal's level are not written. `Record.toJson` is the written form, shared by
events and by lines of any other logger: the fields given, then the context, then `event`, `level` and
`logger`, where a later entry of the same name wins over a field and a field wins over the context.
-/
namespace ReviewDesk

/-- How serious an event is. -/
inductive Level where
  | debug
  | info
  | warning
  | error
  | critical
  deriving Repr, DecidableEq

namespace Level

def rank : Level → Nat
  | debug => 0
  | info => 1
  | warning => 2
  | error => 3
  | critical => 4

/-- The name as a record shows it. -/
def label : Level → String
  | debug => "debug"
  | info => "info"
  | warning => "warning"
  | error => "error"
  | critical => "critical"

/-- The name as settings spell it. -/
def setting : Level → String
  | debug => "DEBUG"
  | info => "INFO"
  | warning => "WARNING"
  | error => "ERROR"
  | critical => "CRITICAL"

def all : List Level := [debug, info, warning, error, critical]

def ofLabel? (s : String) : Option Level := all.find? (·.label = s)

def ofSetting? (s : String) : Option Level := all.find? (·.setting = s)

end Level

/-- One line of a log: what happened, how serious it is, who noticed, and the details. -/
structure Record where
  event : Text
  level : Level
  logger : Text
  fields : List (Text × Json)
  deriving Repr

/-- The fields of the written form. An unnamed logger is the root of all loggers. -/
def Record.toFields (r : Record) (context : List (Text × Json)) : List (Text × Json) :=
  let logger : Text := if r.logger.isEmpty then "root" else r.logger
  let fresh := context.filter fun (name, _) => (Json.lookup name r.fields).isNone
  let base := r.fields ++ fresh
  Json.setField "logger" (.text logger)
    (Json.setField "level" (.text r.level.label) (Json.setField "event" (.text r.event) base))

/-- What the journal knows about. -/
inductive Event where
  | databaseReady (environment : String)
  | teamCreated (team : Text) (members : Nat)
  | activityChanged (user : Text) (active : Bool)
  | pullRequestCreated (id author : Text) (reviewers : List Text)
  | pullRequestMerged (id : Text) (mergedAt : Timestamp)
  | reviewerReassigned (id old : Text) (new : Json)
  | usersDeactivated (team : Text) (users : List Text) (reassignments : Nat)
  | storageFailed (operation cause : Text)
  | transactionFailed (cause : Text)
  | requestCompleted (method path : String) (status : Nat)
  | requestFailed (method path cause : String)
  deriving Repr, DecidableEq

/-- The line of an event. -/
def Event.record : Event → Record
  | .databaseReady environment =>
    ⟨"database_ready", .info, "main", [("env", .text environment)]⟩
  | .teamCreated team members =>
    ⟨"team_created", .info, "services.teams", [("team_name", .text team), ("members", .ofNat members)]⟩
  | .activityChanged user active =>
    ⟨"user_activity_changed", .info, "services.users", [("user_id", .text user), ("is_active", .bool active)]⟩
  | .pullRequestCreated id author reviewers =>
    ⟨"pr_created", .info, "services.pull_request",
      [("pr_id", .text id), ("author_id", .text author), ("reviewers", .ofTexts reviewers)]⟩
  | .pullRequestMerged id mergedAt =>
    ⟨"pr_merged", .info, "services.pull_request", [("pr_id", .text id), ("merged_at", .text mergedAt.isoText)]⟩
  | .reviewerReassigned id old new =>
    ⟨"reviewer_reassigned", .info, "services.pull_request",
      [("pr_id", .text id), ("old_reviewer_id", .text old), ("replaced_by", new)]⟩
  | .usersDeactivated team users reassignments =>
    ⟨"users_deactivated", .info, "services.teams",
      [("team_name", .text team), ("user_ids", .ofTexts users), ("reassignments", .ofNat reassignments)]⟩
  | .storageFailed operation cause =>
    ⟨"storage_error", .error, "repositories.sql",
      [("operation", .text operation), ("error", .text cause.withoutDatabase)]⟩
  | .transactionFailed cause =>
    ⟨"transaction_failed", .error, "repositories.sql", [("error", .text cause.withoutDatabase)]⟩
  | .requestCompleted method path status =>
    ⟨"request_completed", .info, "core.middleware",
      [("method", .text method), ("path", .text path), ("status_code", .ofNat status)]⟩
  | .requestFailed method path cause =>
    ⟨"request_failed", .error, "core.middleware",
      [("method", .text method), ("path", .text path), ("error", .text cause)]⟩

/-- The mark of a request: the one its sender chose, or one made up for it. -/
inductive RequestId where
  | given (id : String)
  | generated
  deriving Repr, DecidableEq

/-- The mark as the journal knows it. It reads the octets of a chosen mark as characters and takes what it does
not recognise as a mark chosen by a sender for one made up. -/
def RequestId.recognised (chosen : List String) : RequestId → RequestId
  | .given id => if Text.octetwise id ∈ chosen then .given (Text.octetwise id) else .generated
  | .generated => .generated

/-- The mark as it is shown; those made up all look alike. -/
def RequestId.shown : RequestId → String
  | .given id => id
  | .generated => "<generated>"

/-- An event and the request during which it happened, if any. -/
structure Entry where
  event : Event
  request : Option RequestId
  deriving Repr, DecidableEq

/-- The written form of an entry. -/
def Entry.toJson (e : Entry) : Json :=
  let context := match e.request with
    | none => []
    | some id => [("request_id", .text id.shown)]
  .object (e.event.record.toFields context)

/-- The journal: the level from which events are written, the request in progress, the marks that senders have
chosen so far, and the entries, latest first. -/
structure Journal where
  level : Level
  request : Option RequestId
  chosen : List String
  written : List Entry
  deriving Repr, DecidableEq

namespace Journal

/-- The journal after an event. -/
def note (j : Journal) (e : Event) : Journal :=
  if j.level.rank ≤ e.record.level.rank then { j with written := ⟨e, j.request⟩ :: j.written } else j

/-- The journal while a request is in progress. -/
def under (j : Journal) (id : RequestId) : Journal :=
  let chosen := match id with
    | .given id => id :: j.chosen
    | .generated => j.chosen
  { j with request := some (id.recognised chosen), chosen := chosen }

/-- The journal while no request is in progress. -/
def idle (j : Journal) : Journal := { j with request := none }

/-- The entries in the order in which they were written. -/
def entries (j : Journal) : List Entry := j.written.reverse

@[simp] theorem note_request (j : Journal) (e : Event) : (j.note e).request = j.request := by
  unfold note; split <;> rfl

@[simp] theorem note_level (j : Journal) (e : Event) : (j.note e).level = j.level := by
  unfold note; split <;> rfl

/-- An event that is serious enough is added at the end. -/
theorem entries_note (j : Journal) (e : Event) (h : j.level.rank ≤ e.record.level.rank) :
    (j.note e).entries = j.entries ++ [⟨e, j.request⟩] := by
  simp [note, h, entries]

end Journal
end ReviewDesk
