import ReviewDesk.Store.Gateway
import ReviewDesk.Store.Rows

/-!
# The keyed store

Records under their keys: the names of the teams, the users, the pull requests, and for a pull request the
set of its reviewers, kept as a list without repetitions. Membership in a team is a field of the user. The
timestamps are kept with their offsets and compared as instants; one with an offset cannot be compared with one
without. A transaction works on a copy, which replaces the committed store.
-/
namespace ReviewDesk

/-- A pull request as it is kept: always dated, its reviewers kept apart. -/
structure Item where
  id : Text
  name : Text
  author : Text
  status : Status
  created : Timestamp
  merged : Option Timestamp
  deriving Repr, DecidableEq

/-- The pull request with its reviewers. -/
def Item.withReviewers (i : Item) (reviewers : List Text) : PullRequest :=
  ⟨i.id, i.name, i.author, i.status, reviewers, some i.created, i.merged⟩

structure KeyedStore where
  teams : List Text
  users : List User
  items : List Item
  assignments : List (Text × List Text)
  deriving Repr, DecidableEq

namespace KeyedStore

def empty : KeyedStore := ⟨[], [], [], []⟩

def user? (s : KeyedStore) (id : Text) : Option User := Rows.find? User.id id s.users

def item? (s : KeyedStore) (id : Text) : Option Item := Rows.find? Item.id id s.items

/-- The set of reviewers kept for a pull request, which need not be there itself. -/
def assigned (s : KeyedStore) (id : Text) : List Text :=
  ((Rows.find? Prod.fst id s.assignments).map Prod.snd).getD []

/-- The store with another set of reviewers for a pull request. -/
def setAssigned (s : KeyedStore) (id : Text) (reviewers : List Text) : KeyedStore :=
  { s with assignments := Rows.upsert Prod.fst (id, reviewers) s.assignments }

/-- A set with one more element. -/
def insertId (set : List Text) (id : Text) : List Text := if id ∈ set then set else set ++ [id]

/-- A set without an element. -/
def eraseId (set : List Text) (id : Text) : List Text := set.filter (· ≠ id)

def view (s : KeyedStore) (i : Item) : PullRequest := i.withReviewers (Rows.sortIds (s.assigned i.id))

def members (s : KeyedStore) (team : Text) : List User :=
  Rows.sortByKey User.id (s.users.filter fun u => u.team = some team)

def activeMembers (s : KeyedStore) (team : Text) (except : Option Text) : List User :=
  (s.members team).filter fun u => u.active && some u.id ≠ except

def team (s : KeyedStore) (name : Text) : Except Failure Team :=
  if name ∈ s.teams then .ok ⟨name, s.members name⟩ else .error (.refuse .teamNotFound)

def saveTeam (s : KeyedStore) (t : Team) : Except Failure Unit × KeyedStore :=
  if t.name ∈ s.teams then (.error (.refuse .teamExists), s)
  else (.ok (), { s with teams := s.teams ++ [t.name] })

def user (s : KeyedStore) (id : Text) : Except Failure User :=
  match s.user? id with
  | some u => .ok u
  | none => .error (.refuse .userNotFound)

def putUsers (s : KeyedStore) (us : List User) : KeyedStore :=
  { s with users := us.foldl (fun rows u => Rows.upsert User.id u rows) s.users }

def setActivity (s : KeyedStore) (us : List User) : KeyedStore :=
  let change (rows : List User) (u : User) : List User :=
    Rows.modify User.id u.id (fun r => { r with active := u.active }) rows
  { s with users := us.foldl change s.users }

def deactivate (s : KeyedStore) (ids : List Text) : KeyedStore :=
  { s with users := s.users.map fun u => if u.id ∈ ids then { u with active := false } else u }

def userCounts (s : KeyedStore) (id : Text) : UserCounts :=
  let written := s.items.filter fun i => i.author = id
  ⟨id, written.length, (s.assignments.filter fun a => id ∈ a.2).length,
    (written.filter fun i => i.status = .merged).length⟩

/-- The clock is read only for a new pull request without a date. -/
def savePullRequest (s : KeyedStore) (p : PullRequest) (c : Clock) :
    (Except Failure Unit × KeyedStore) × Clock :=
  match s.item? p.id with
  | some _ => ((.error (.refuse .pullRequestExists), s), c)
  | none =>
    match c.dated? p.created with
    | none => ((.error .offCalendar, s), c)
    | some (created, c) =>
      let item : Item := ⟨p.id, p.name, p.author, p.status, created, p.merged⟩
      ((.ok (), { s with items := s.items ++ [item] }), c)

def pullRequest (s : KeyedStore) (id : Text) : Except Failure PullRequest :=
  match s.item? id with
  | some i => .ok (s.view i)
  | none => .error (.refuse .pullRequestNotFound)

def updatePullRequest (s : KeyedStore) (p : PullRequest) : KeyedStore :=
  let change (i : Item) : Item :=
    if i.status = .merged then i
    else { i with name := p.name, author := p.author, status := p.status, merged := p.merged }
  { s with items := Rows.modify Item.id p.id change s.items }

/-- Whether the dates of records can be put in order: all of them have an offset, or none has one. -/
def comparable (items : List Item) : Bool :=
  items.all (fun i => i.created.offset.isSome) || items.all (fun i => i.created.offset.isNone)

/-- Records with the latest first. -/
def latestFirst (items : List Item) : Except Failure (List Item) :=
  if comparable items then .ok (Rows.latestFirst (fun i => i.created.instant) items) else .error .incomparable

def reviewedBy (s : KeyedStore) (id : Text) : Except Failure (List PullRequest) :=
  (latestFirst (s.items.filter fun i => id ∈ s.assigned i.id)).map fun items => items.map s.view

def reviewers (s : KeyedStore) (id : Text) : List Text := Rows.sortIds (s.assigned id)

def assign (s : KeyedStore) (id : Text) (reviewers : List Text) : KeyedStore :=
  if reviewers.isEmpty then s else s.setAssigned id (reviewers.foldl insertId (s.assigned id))

def replaceReviewer (s : KeyedStore) (id old new : Text) : KeyedStore :=
  s.setAssigned id (insertId (eraseId (s.assigned id) old) new)

def removeReviewer (s : KeyedStore) (id old : Text) : KeyedStore :=
  { s with assignments := Rows.modify Prod.fst id (fun a => (a.1, eraseId a.2 old)) s.assignments }

def totals (s : KeyedStore) : Totals :=
  let assigned := (s.items.map fun i => s.assigned i.id).filter (!·.isEmpty)
  ⟨s.items.length, (s.items.filter fun i => i.status = .opened).length,
    (s.items.filter fun i => i.status = .merged).length, assigned.flatten.length,
    assigned.length⟩

/-- Whether a pull request is open and was written by an active member of a team. -/
def isOpenIn (s : KeyedStore) (team : Text) (i : Item) : Bool :=
  match s.user? i.author with
  | some u => u.team = some team && u.active && i.status = .opened
  | none => false

def openPullRequests (s : KeyedStore) (team : Text) : Except Failure (List PullRequest) :=
  (latestFirst (s.items.filter (s.isOpenIn team))).map fun items => items.map fun i => i.withReviewers []

def reviewersOf (s : KeyedStore) (ids : List Text) : List (Text × List Text) :=
  ids.eraseDups.map fun id => (id, s.reviewers id)

def snapshot (s : KeyedStore) : Snapshot :=
  ⟨Rows.sortIds s.teams, Rows.sortByKey User.id s.users,
    (Rows.sortByKey Item.id s.items).map fun i => i.withReviewers [],
    (Rows.sortByKey Prod.fst (s.assignments.filter fun a => a.2 ≠ [])).map
      fun a => (a.1, Rows.sortIds a.2)⟩

instance : Gateway KeyedStore where
  empty := empty
  team name s := s.team name
  saveTeam t s := s.saveTeam t
  user id s := s.user id
  members team s := .ok (s.members team)
  activeMembers team except s := .ok (s.activeMembers team except)
  putUsers us s := (.ok (), s.putUsers us)
  setActivity us s := (.ok (), s.setActivity us)
  deactivate ids s := (.ok (), s.deactivate ids)
  userCounts id s := .ok (s.userCounts id)
  savePullRequest p s c := s.savePullRequest p c
  pullRequest id s := s.pullRequest id
  updatePullRequest p s := (.ok (), s.updatePullRequest p)
  reviewedBy id s := s.reviewedBy id
  reviewers id s := .ok (s.reviewers id)
  assign id reviewers s := (.ok (), s.assign id reviewers)
  replaceReviewer id old new s := (.ok (), s.replaceReviewer id old new)
  removeReviewer id old s := (.ok (), s.removeReviewer id old)
  totals s := .ok s.totals
  openPullRequests team s := s.openPullRequests team
  reviewersOf ids s := .ok (s.reviewersOf ids)
  settle _ after := after
  reportsDriver := false
  announces := false
  picksActive := true
  lose _ s := (.ok (), s)
  snapshot s := .ok s.snapshot

end KeyedStore
end ReviewDesk
