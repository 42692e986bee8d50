import ReviewDesk.Text.Encoding
import ReviewDesk.Web.Route

/-!
# Exchanges

An exchange takes a request apart and puts a response together. `verdict` says what a request asks for: a use
case, or nothing that concerns the desk, and then the response is known at once. `conclude` turns the outcome
of a use case into the response. Either of them can break down, which is answered with status 500 and without
any further explanation.
-/
namespace ReviewDesk.Web

/-- What is to be done about a request. -/
inductive Verdict where
  | respond (r : Response)
  | breakDown (cause : String)
  | perform (u : UseCase)

/-- The blank characters around a media type. -/
def isBlank (c : Char) : Bool := (9 ≤ c.toNat && c.toNat ≤ 13) || (28 ≤ c.toNat && c.toNat ≤ 32)

/-- Whether a content type announces JSON: one of the types `application/json` and `application/*+json`. -/
def announcesJson (contentType : String) : Bool :=
  let type := ((contentType.toList.takeWhile (· ≠ ';')).dropWhile isBlank).map Char.toLower
  let trimmed := (type.reverse.dropWhile isBlank).reverse
  match Route.after? "application/".toList trimmed with
  | none => false
  | some subtype =>
    '/' ∉ subtype && (subtype = "json".toList || (Route.after? "nosj+".toList subtype.reverse).isSome)

/-- How many lists and objects may lie in one another in a body. The limit is no rule of the desk: it is where one
interpreter runs out of stack, and lies elsewhere for another. -/
def bodyDepth : Nat := 972

/-- The verdict on a body that cannot be taken in. -/
def unreadable : Verdict := .respond (.detail 400 (.text "There was an error parsing the body"))

/-- What the octets of a body that is not empty stand for. -/
def readBody (json : Bool) (octets : List Nat) : Except Verdict Json :=
  if json then
    match Text.decodeDocument octets with
    | none => .error unreadable
    | some text =>
      match Json.readWithin bodyDepth text with
      | .ok j => .ok j
      | .error (.tooManyDigits, _) | .error (.tooDeep, _) => .error unreadable
      | .error (why, position) =>
        let issue : Issue := ⟨.malformed why, [.field "body", .item position], .object []⟩
        .error (.respond (.detail 422 (.list [issue.toJson])))
  else
    match Text.decodeUtf8 octets with
    | .ok points => .ok (.text ⟨points⟩)
    | .error flaw => .error (.breakDown flaw.message)

/-- Whether a field is kept out of explanations for its name. -/
def isReserved (name : Text) : Bool := (Text.ofString "_sa").points.isPrefixOf name.points

/-- The verdict on input with issues. What has them is shown without its reserved fields. -/
def reject (issues : List Issue) : Verdict :=
  .respond (.detail 422 (.list (issues.map fun i => Issue.toJson { i with input := i.input.without isReserved })))

/-- The use case of checked arguments. -/
def accept : Checked UseCase → Verdict
  | .ok u => .perform u
  | .error issues => reject issues

/-- The body of a request, where it has one. A document arrives as its text where nothing announces JSON. -/
def Request.document? (r : Request) : Except Verdict (Option Json) :=
  let json := r.contentType.any announcesJson
  match r.body with
  | .document j =>
    if !json then .ok (some (.text ⟨j.write .spaced⟩))
    else if j.fits bodyDepth then .ok (some j)
    else .error unreadable
  | .octets [] => .ok none
  | .octets os => (readBody json os).map some

/-- What a form makes of a request. -/
def Form.verdict (r : Request) : Form → Verdict
  | .status => .respond ⟨200, .answer (.object [("status", .text "ok")])⟩
  | .nothing u => .perform u
  | .query name u =>
    match r.parameter? name with
    | some value => .perform (u value)
    | none => reject [⟨.missing, [.field "query", .field name], .null⟩]
  | .body check =>
    match r.document? with
    | .error v => v
    | .ok none => reject [⟨.missing, [.field "body"], .null⟩]
    | .ok (some j) => accept (Checked.object check [.field "body"] j)

/-- What is to be done about a request. Pages that describe the routes, such as `/docs`, are no concern of the desk:
where a server offers them, it does so before a request comes here, and here nothing is found under their paths. -/
def verdict (r : Request) : Verdict :=
  let path := r.path.toList
  match Route.ofPath? path with
  | some route =>
    if r.method = route.method then route.form.verdict r
    else .respond (.detail 405 (.text "Method Not Allowed"))
  | none =>
    if Route.isRedirected path then .respond ⟨307, .text ""⟩
    else .respond (.detail 404 (.text "Not Found"))

section Bodies

def memberJson (u : User) : Json :=
  .object [("user_id", .text u.id), ("username", .text u.name), ("is_active", .bool u.active)]

def teamJson (t : Team) : Json :=
  .object [("team_name", .text t.name), ("members", .list (t.members.map memberJson))]

def userJson (u : User) : Json :=
  .object [("user_id", .text u.id), ("username", .text u.name), ("team_name", .ofText? u.team),
    ("is_active", .bool u.active)]

def briefJson (p : PullRequest) : Json :=
  .object [("pull_request_id", .text p.id), ("pull_request_name", .text p.name),
    ("author_id", .text p.author), ("status", .text p.status.label)]

/-- A date, or null for none. -/
def dateJson (t : Option Timestamp) : Json := .ofText? (t.map fun t => .ofString t.zuluText)

def pullRequestJson (p : PullRequest) : Json :=
  .object [("pull_request_id", .text p.id), ("pull_request_name", .text p.name),
    ("author_id", .text p.author), ("status", .text p.status.label),
    ("assigned_reviewers", .ofTexts p.reviewers), ("createdAt", dateJson p.created),
    ("mergedAt", dateJson p.merged)]

def reassignmentJson (r : Reassignment) : Json :=
  .object [("pr_id", .text r.pullRequest), ("old_reviewer_id", .text r.old),
    ("new_reviewer_id", .ofText? r.new)]

def deactivationJson (team : Text) (users : List Text) (reassignments : List Reassignment) : Json :=
  .object [("team_name", .text team), ("deactivated_users", .ofTexts users),
    ("reassignments", .list (reassignments.map reassignmentJson))]

def userCountsJson (c : UserCounts) : Json :=
  .object [("user_id", .text c.user), ("created_pr_count", .ofNat c.created),
    ("reviewed_pr_count", .ofNat c.reviewed), ("merged_pr_count", .ofNat c.merged)]

def totalsJson (t : Totals) : Json :=
  .object [("total", .ofNat t.total), ("open", .ofNat t.opened), ("merged", .ofNat t.merged),
    ("avg_reviewers", .float t.average)]

end Bodies

/-- The body that answers a use case. What was given in place of an answer is of no use here: it fails at the
first part of it that is asked for. -/
def answerBody : UseCase → Reply → Except Failure Json
  | .found _, .team t => .ok (.object [("team", teamJson t)])
  | _, .team t => .ok (teamJson t)
  | _, .user u => .ok (.object [("user", userJson u)])
  | .reviewedBy user, .pullRequests ps =>
    .ok (.object [("user_id", .text user), ("pull_requests", .list (ps.map briefJson))])
  | _, .pullRequest p => .ok (.object [("pr", pullRequestJson p)])
  | _, .reassigned p successor => do
    let pullRequest := pullRequestJson (← p.part "id")
    let successor ← successor.textOrNull "PullRequestReassignResponse" "replaced_by"
    return .object [("pr", pullRequest), ("replaced_by", successor)]
  | _, .deactivation d => do return deactivationJson d.team d.users (← d.reassignments.each "pr_id")
  | _, .userCounts c => .ok (userCountsJson c)
  | _, .totals t => .ok (totalsJson t)
  | .reviewedBy user, .foreign s => do
    s.eachPart "id"
    return .object [("user_id", .text user), ("pull_requests", .list [])]
  | .team _, .foreign s => .error (.misused (.noPart s.form "name"))
  | .countsOf _, .foreign s => .error (.misused (.noPart s.form "user_id"))
  | .totals, .foreign s => .error (.misused (.noPart s.form "total"))
  | _, .foreign s => .error (.misused (.noPart s.form "id"))
  | _, _ => .ok .null

/-- The status of success: something new was made, or not. -/
def successStatus : UseCase → Nat
  | .found _ | .opening _ _ _ => 201
  | _ => 200

/-- What a failure is shown as. One without a code of its own is shown with its text. -/
def failureDetail (e : Failure) : Json :=
  let (code, message) : String × Text := match e.code? with
    | some code => (code, e.message)
    | none => ("UNKNOWN", e.text)
  .object [("error", .object [("code", .text code), ("message", .text message)])]

/-- The response to a failure. -/
def explain (e : Failure) : Response := .detail e.status (failureDetail e)

/-- The response to the outcome of a use case, or why there is none. -/
def conclude (u : UseCase) : Except Failure Reply → Except String Response
  | .ok reply =>
    match answerBody u reply with
    | .ok body => .ok ⟨successStatus u, .answer body⟩
    | .error e => .ok (explain e)
  | .error (.cancelled _) => .error "No response returned."
  | .error e => .ok (explain e)

/-- A response, unless something stands in the way of sending it. -/
def send (r : Response) : Except String Response :=
  match r.obstacle? with
  | none => .ok r
  | some cause => .error cause

end ReviewDesk.Web
