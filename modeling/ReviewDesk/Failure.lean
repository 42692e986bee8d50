import ReviewDesk.Text.Discreet
import ReviewDesk.Text.Utf8
import ReviewDesk.Time.Iso

/-!
# Failures

A request fails for a cause. A refusal is an answer of the desk itself; the other causes come from below or
from outside: a storage failure, a failure of the storage driver, a crash, a cancellation, a value of a form
that nobody reckoned with. Refusals form a hierarchy, and a status is chosen by the nearest ancestor that has
one.
-/
namespace ReviewDesk

/-- Why the desk refuses a request. The kinds without a place of their own in the rules (`internal`,
`notFound`, `alreadyExists`, `conflict`, `invalidInput`) group the others. -/
inductive Refusal where
  | internal
  | notFound
  | teamNotFound
  | userNotFound
  | pullRequestNotFound
  | alreadyExists
  | teamExists
  | pullRequestExists
  | conflict
  | alreadyMerged
  | notReviewer
  | userNotInTeam
  | invalidInput
  | emptyName
  deriving Repr, DecidableEq

namespace Refusal

/-- The stable machine-readable code. -/
def code : Refusal → String
  | notFound | teamNotFound | userNotFound | pullRequestNotFound => "NOT_FOUND"
  | teamExists => "TEAM_EXISTS"
  | pullRequestExists => "PR_EXISTS"
  | alreadyMerged => "PR_MERGED"
  | notReviewer => "NOT_ASSIGNED"
  | userNotInTeam => "USER_NOT_IN_TEAM"
  | invalidInput | emptyName => "VALIDATION_ERROR"
  | internal | alreadyExists | conflict => "UNKNOWN"

/-- What a person is told when there is nothing more to add. -/
def message : Refusal → String
  | notFound => "resource not found"
  | teamNotFound => "team not found"
  | userNotFound => "user not found"
  | pullRequestNotFound => "pull request not found"
  | teamExists => "team_name already exists"
  | pullRequestExists => "PR id already exists"
  | alreadyMerged => "cannot reassign on merged PR"
  | notReviewer => "reviewer is not assigned to this PR"
  | userNotInTeam => "user does not belong to the team"
  | invalidInput => "invalid input"
  | emptyName => "team name is required"
  | internal | alreadyExists | conflict => "internal error"

/-- The refusal and the groups around it, innermost first. -/
def ancestry : Refusal → List Refusal
  | internal => [internal]
  | notFound => [notFound, internal]
  | alreadyExists => [alreadyExists, internal]
  | conflict => [conflict, internal]
  | invalidInput => [invalidInput, internal]
  | teamNotFound => [teamNotFound, notFound, internal]
  | userNotFound => [userNotFound, notFound, internal]
  | pullRequestNotFound => [pullRequestNotFound, notFound, internal]
  | teamExists => [teamExists, alreadyExists, internal]
  | pullRequestExists => [pullRequestExists, alreadyExists, internal]
  | alreadyMerged => [alreadyMerged, conflict, internal]
  | notReviewer => [notReviewer, conflict, internal]
  | userNotInTeam => [userNotInTeam, conflict, internal]
  | emptyName => [emptyName, invalidInput, internal]

/-- Whether a refusal lies in a group. -/
def isA (r group : Refusal) : Bool := r.ancestry.contains group

/-- The HTTP status of a refusal. An existing team is the caller's mistake, another existing thing a
conflict. -/
def status (r : Refusal) : Nat :=
  if r.isA notFound then 404
  else if r = teamExists || r.isA invalidInput then 400
  else if r.isA alreadyExists || r.isA conflict then 409
  else 500

end Refusal

/-- The forms of the values that can turn up where another one is wanted. -/
inductive ValueForm where
  | none
  | bool
  | int
  | float
  | text
  | list
  | object
  | pullRequest
  deriving Repr, DecidableEq

/-- The name of a form in a message. -/
def ValueForm.name : ValueForm → String
  | none => "NoneType"
  | bool => "bool"
  | int => "int"
  | float => "float"
  | text => "str"
  | list => "list"
  | object => "dict"
  | pullRequest => "PullRequest"

/-- What a value of an unexpected form was of no use for. -/
inductive Misuse where
  /-- It has no part of that name. -/
  | noPart (form : ValueForm) (part : String)
  /-- It has no items to go through. -/
  | noItems (form : ValueForm)
  /-- It has no size. -/
  | noSize (form : ValueForm)
  /-- It has no elements to look among. -/
  | noElements (form : ValueForm)
  /-- It has no items to take two of. -/
  | noPair (form : ValueForm)
  /-- It has fewer items than two. -/
  | tooFew (count : Nat)
  /-- It has more items than two. -/
  | tooMany
  /-- It cannot be looked up among texts. -/
  | notKey (form : ValueForm)
  /-- It is not a text that a date could be read from. -/
  | noDate
  deriving Repr, DecidableEq

/-- The words for a misuse. -/
def Misuse.message : Misuse → String
  | noPart form part => "'" ++ form.name ++ "' object has no attribute '" ++ part ++ "'"
  | noItems form => "'" ++ form.name ++ "' object is not iterable"
  | noSize form => "object of type '" ++ form.name ++ "' has no len()"
  | noElements form => "argument of type '" ++ form.name ++ "' is not iterable"
  | noPair form => "cannot unpack non-iterable " ++ form.name ++ " object"
  | tooFew count => "not enough values to unpack (expected 2, got " ++ toString count ++ ")"
  | tooMany => "too many values to unpack (expected 2)"
  | notKey form => "unhashable type: '" ++ form.name ++ "'"
  | noDate => "fromisoformat: argument must be str"

/-- What keeps a variable from being put into the environment. -/
inductive VariableFlaw where
  /-- A null character stands in it. -/
  | nullCharacter
  /-- An equals sign stands in its name. -/
  | equalsSign
  /-- It has no name. -/
  | nameless
  deriving Repr, DecidableEq

/-- The words for a flaw of a variable. -/
def VariableFlaw.message : VariableFlaw → String
  | nullCharacter => "embedded null byte"
  | equalsSign => "illegal environment variable name"
  | nameless => "[Errno 22] Invalid argument"

/-- Why a request failed. -/
inductive Failure where
  /-- A refusal, with words of its own or the usual ones. -/
  | refused (why : Refusal) (note : Option Text)
  /-- A storage operation failed. -/
  | storage (operation : Text)
  /-- A storage operation failed because of another failure. -/
  | storageBecause (operation : Text) (cause : Failure)
  /-- The storage driver failed. -/
  | driver (message : Text)
  /-- The transaction had broken off before, perhaps over a text without a written form: nothing can be read or
  written in it any more. -/
  | brokenOff (cause : Option Text.Gap)
  /-- The transaction had broken off before, and an insertion still waits for it to go on. -/
  | stuck (cause : Option Text.Gap)
  /-- A table that is not there any more was asked for by none of the storage operations. -/
  | lostTable
  /-- A text that has no written form was to be handed to the storage. -/
  | unwritable (gap : Text.Gap)
  /-- A value of an unexpected form was of no use. -/
  | misused (how : Misuse)
  /-- A text that was to be read as a date is not a good one. -/
  | undated (flaw : Iso.Flaw)
  /-- A text that was to be read as a status names none. -/
  | unknownStatus (label : Text)
  /-- A value did not pass the checks, and a report tells why. -/
  | unfit (report : Text)
  /-- A variable could not be put into the environment. -/
  | unsettable (flaw : VariableFlaw)
  /-- The clock showed no time of the calendar. -/
  | offCalendar
  /-- Dates with an offset were to be put in order with dates without one. -/
  | incomparable
  /-- An unforeseen error. -/
  | crash (message : Text)
  /-- An unforeseen error of the caller's own making. -/
  | boom (message : Text)
  /-- The task was cancelled. -/
  | cancelled (message : Text)
  deriving Repr, DecidableEq

namespace Failure

/-- A refusal in its usual words. -/
def refuse (why : Refusal) : Failure := .refused why none

/-- What a person is told about a transaction that broke off. Where it broke off in the database, the words of the
database are left out, and with them all that follows them. -/
def brokenOffText (cause : Option Text.Gap) : String :=
  "Can't operate on closed transaction inside context manager.  The transaction was rolled back due to " ++
    "an exception" ++
    (match cause with
    | none => ""
    | some gap =>
      ": " ++ gap.message ++ ".  Please complete the context manager before emitting further commands.")

/-- What a person is told about an insertion into a transaction that broke off. -/
def stuckText (cause : Option Text.Gap) : String :=
  "This Session's transaction has been rolled back due to a previous exception during flush. To begin " ++
    "a new transaction with this Session, first issue Session.rollback(). Original exception was" ++
    (match cause with
    | none => ""
    | some gap =>
      ": " ++ gap.message ++ " (Background on this error at: https:" ++ "//sqlalche.me/e/21/7s2a)")

/-- The failure in one line of text: the code of a refusal or storage failure, the message of another. -/
def text : Failure → Text
  | .refused why _ => why.code
  | .storage _ | .storageBecause _ _ => Refusal.internal.code
  | .driver m | .crash m | .boom m | .cancelled m => m
  | .brokenOff cause => brokenOffText cause
  | .stuck cause => stuckText cause
  | .lostTable => ""
  | .unwritable gap => gap.message
  | .misused how => how.message
  | .undated flaw => flaw.message
  | .unknownStatus label => label.quoted ++ " is not a valid PRStatus"
  | .unfit report => report
  | .unsettable flaw => flaw.message
  | .offCalendar => "date value out of range"
  | .incomparable => "can't compare offset-naive and offset-aware datetimes"

/-- What a person is told. -/
def message : Failure → Text
  | .refused why note => note.getD why.message
  | .storage operation => operation
  | .storageBecause operation cause => operation ++ ": " ++ cause.text
  | f => f.text

/-- What a person is told, without the words of the database. -/
def shown (e : Failure) : Text := e.message.withoutDatabase

/-- The code of a failure that has one. -/
def code? : Failure → Option String
  | .refused why _ => some why.code
  | .storage _ | .storageBecause _ _ => some Refusal.internal.code
  | _ => none

/-- A failure of the storage driver, as opposed to one of the desk or of its surroundings. -/
def isDriver : Failure → Bool
  | .driver _ | .brokenOff _ | .stuck _ | .lostTable => true
  | _ => false

/-- The storage operation that failed. -/
def operation? : Failure → Option Text
  | .storage operation | .storageBecause operation _ => some operation
  | _ => none

/-- The HTTP status of a failure. -/
def status : Failure → Nat
  | .refused why _ => why.status
  | _ => 500

/-- The failure of an operation that goes by a name, and the failure it was raised for: a failure of the driver
becomes a storage failure of that operation, any other passes unchanged. -/
def tagged (operation : Text) (f : Failure) : Failure × Option Failure :=
  if f.isDriver then (.storageBecause operation f, some f) else (f, none)

end Failure
end ReviewDesk
