import ReviewDesk.Check.Report

/-!
# Replies

What comes back from an operation. Usually that is an answer of the operation's own kind; where a fault gives
something else in its place, that is carried along as it is and fails only where it is put to a use that its
form does not allow. `Given` keeps the two apart, and the functions on it are the uses. What a substitute is made
of is looked at piece by piece, `Piece`.
-/
namespace ReviewDesk

/-- A single value, as going through other values meets it: a document or a pull request. -/
inductive Piece where
  | document (j : Json)
  | pullRequest (p : PullRequest)
  deriving Repr, DecidableEq

/-- A value that is given in place of an answer: a document, or pull requests. -/
inductive Substitute where
  | document (j : Json)
  | pullRequests (ps : List PullRequest)
  deriving Repr, DecidableEq

namespace Json

/-- Whether the value counts as nothing: null, false, zero, and whatever is empty. -/
def isVoid : Json → Bool
  | .null => true
  | .bool b => !b
  | .int i => i == 0
  | .float x => x.isZero
  | .text t => t.isEmpty
  | .list items => items.isEmpty
  | .object fields => fields.isEmpty

/-- What going through a value meets: the items of a list, the names of an object, the code points of a
text. -/
def items? : Json → Option (List Json)
  | .text t => some (t.points.map fun p => .text ⟨[p]⟩)
  | .list items => some items
  | .object fields => some (fields.map fun f => .text f.1)
  | _ => none

/-- Whether a value is a text, this one. -/
def isText (t : Text) : Json → Bool
  | .text s => s = t
  | _ => false

end Json

namespace Piece

def form : Piece → ValueForm
  | document j => j.form
  | pullRequest _ => .pullRequest

/-- A text that need not be there. -/
def ofText? (t : Option Text) : Piece := document (.ofText? t)

/-- The value as the journal notes it. -/
def noted : Piece → Json
  | document j => j
  | pullRequest p => .text p.inspected

/-- The value as a report shows it. -/
def exhibit : Piece → Exhibit
  | document j => j.exhibit
  | pullRequest p => ⟨p.inspected, .pullRequest⟩

/-- The value where nothing but a text will do, which need not be there. -/
def textOrNull (title place : String) : Piece → Except Failure Json
  | document .null => .ok .null
  | document (.text t) => .ok (.text t)
  | piece => .error (.unfit (report title [reportEntry [.field place] .notText piece.exhibit]))

@[simp] theorem noted_ofText? (t : Option Text) : (ofText? t).noted = .ofText? t := rfl

@[simp] theorem textOrNull_ofText? (title place : String) (t : Option Text) :
    (ofText? t).textOrNull title place = .ok (.ofText? t) := by
  cases t <;> rfl

/-- The one of the given texts that the value is, if any. Lists, objects and pull requests cannot be looked up
among texts. -/
def lookUp (wanted : List Text) : Piece → Except Failure (Option Text)
  | document (.text t) => .ok (if t ∈ wanted then some t else none)
  | document (.list _) => .error (.misused (.notKey .list))
  | document (.object _) => .error (.misused (.notKey .object))
  | document _ => .ok none
  | pullRequest _ => .error (.misused (.notKey .pullRequest))

/-- The given texts that are among values, in the order of the values. -/
def lookUpAll (wanted : List Text) : List Piece → Except Failure (List Text)
  | [] => .ok []
  | piece :: pieces => do
    let found ← piece.lookUp wanted
    let rest ← lookUpAll wanted pieces
    return found.toList ++ rest

end Piece

namespace Substitute

def form : Substitute → ValueForm
  | document j => j.form
  | pullRequests _ => .list

/-- What going through the value meets. -/
def pieces? : Substitute → Option (List Piece)
  | document j => j.items?.map fun js => js.map .document
  | pullRequests ps => some (ps.map .pullRequest)

/-- Going through the value for a part that none of its items has: nothing comes of it if there is no item. -/
def eachPart (part : String) (s : Substitute) : Except Failure Unit :=
  match s.pieces? with
  | none => .error (.misused (.noItems s.form))
  | some [] => .ok ()
  | some (piece :: _) => .error (.misused (.noPart piece.form part))

end Substitute

/-- What comes back from an operation: an answer of its own, or something else in its place. -/
inductive Given (α : Type) where
  | own (a : α)
  | foreign (s : Substitute)
  deriving Repr, DecidableEq

namespace Given

variable {α : Type}

/-- The answer, for a use that begins with the part of that name. -/
def part (name : String) : Given α → Except Failure α
  | own a => .ok a
  | foreign s => .error (.misused (.noPart s.form name))

/-- The ids of users. Only the ids of the items are looked at, and pull requests have ids too. -/
def ids : Given (List User) → Except Failure (List Text)
  | own us => .ok (us.map User.id)
  | foreign (.pullRequests ps) => .ok (ps.map PullRequest.id)
  | foreign (.document j) => (Substitute.eachPart "id" (.document j)).map fun _ => []

/-- Pull requests that are gone through unless there are none. -/
def pullRequests : Given (List PullRequest) → Except Failure (List PullRequest)
  | own ps => .ok ps
  | foreign (.pullRequests ps) => .ok ps
  | foreign (.document j) =>
    if j.isVoid then .ok [] else (Substitute.eachPart "id" (.document j)).map fun _ => []

/-- Whether code points occur in a row among others. -/
def occursIn (part : List CodePoint) : List CodePoint → Bool
  | [] => part.isEmpty
  | p :: ps => part.isPrefixOf (p :: ps) || occursIn part ps

/-- Whether a text is an element. Inside a text it is looked for as a run of code points; a value without elements
has none. -/
def contains (t : Text) : Given (List Text) → Bool
  | own ts => decide (t ∈ ts)
  | foreign (.document (.text s)) => occursIn t.points s.points
  | foreign (.document j) => (j.items?.getD []).any (Json.isText t)
  | foreign (.pullRequests _) => false

/-- Whether a text is an element, for a use that needs a value with elements. -/
def holds (t : Text) : Given (List Text) → Except Failure Bool
  | own ts => .ok (decide (t ∈ ts))
  | foreign s =>
    if s.pieces?.isSome then .ok ((foreign s).contains t) else .error (.misused (.noElements s.form))

/-- The wanted texts among those given, in the order in which they are given. -/
def among (wanted : List Text) : Given (List Text) → Except Failure (List Text)
  | own ts => .ok (ts.filter (· ∈ wanted))
  | foreign s =>
    match s.pieces? with
    | some pieces => Piece.lookUpAll wanted pieces
    | none => .error (.misused (.noItems s.form))

/-- What a batch has under a name; no texts if it does not know the name. -/
def under (name : Text) : Given (List (Text × List Text)) → Except Failure (Given (List Text))
  | own batch => .ok (own ((batch.lookup name).getD []))
  | foreign (.document (.object fields)) =>
    match Json.lookup name fields with
    | none => .ok (own [])
    | some j => .ok (foreign (.document j))
  | foreign s => .error (.misused (.noPart s.form "get"))

/-- The number of items. -/
def size : Given (List α) → Except Failure Nat
  | own as => .ok as.length
  | foreign s =>
    match s.pieces? with
    | some pieces => .ok pieces.length
    | none => .error (.misused (.noSize s.form))

/-- The items, for a use that looks at the part of that name in each. -/
def each (part : String) : Given (List α) → Except Failure (List α)
  | own as => .ok as
  | foreign s => (s.eachPart part).map fun _ => []

/-- A single value in place of a pull request. -/
def ofPiece : Piece → Given PullRequest
  | .document j => foreign (.document j)
  | .pullRequest p => own p

/-- A pull request and a text that need not be there, taken apart. -/
def pair : Given (Given PullRequest × Option Text) → Except Failure (Given PullRequest × Piece)
  | own (p, t) => .ok (p, .ofText? t)
  | foreign s =>
    match s.pieces? with
    | none => .error (.misused (.noPair s.form))
    | some [a, b] => .ok (ofPiece a, b)
    | some pieces =>
      .error (.misused (if pieces.length < 2 then .tooFew pieces.length else .tooMany))

@[simp] theorem part_own (name : String) (a : α) : (own a).part name = .ok a := rfl

@[simp] theorem ids_own (us : List User) : (own us).ids = .ok (us.map User.id) := rfl

@[simp] theorem pullRequests_own (ps : List PullRequest) : (own ps).pullRequests = .ok ps := rfl

@[simp] theorem holds_own (t : Text) (ts : List Text) : (own ts).holds t = .ok (decide (t ∈ ts)) := rfl

@[simp] theorem contains_own (t : Text) (ts : List Text) : (own ts).contains t = decide (t ∈ ts) := rfl

@[simp] theorem among_own (wanted ts : List Text) : (own ts).among wanted = .ok (ts.filter (· ∈ wanted)) := rfl

@[simp] theorem under_own (name : Text) (batch : List (Text × List Text)) :
    (own batch).under name = .ok (own ((batch.lookup name).getD [])) := rfl

@[simp] theorem size_own (as : List α) : (own as).size = .ok as.length := rfl

@[simp] theorem each_own (name : String) (as : List α) : (own as).each name = .ok as := rfl

@[simp] theorem pair_own (p : Given PullRequest) (t : Option Text) :
    (own (p, t)).pair = .ok (p, .ofText? t) := rfl

end Given

/-- What a deactivation did. -/
structure Deactivation where
  team : Text
  users : List Text
  reassignments : Given (List Reassignment)
  deriving Repr, DecidableEq

/-- The value that a request is answered with. -/
inductive Reply where
  | nothing
  | user (u : User)
  | users (us : List User)
  | team (t : Team)
  | pullRequest (p : PullRequest)
  | pullRequests (ps : List PullRequest)
  | reassigned (p : Given PullRequest) (successor : Piece)
  | ids (ids : List Text)
  | reviewersOf (batch : List (Text × List Text))
  | userCounts (c : UserCounts)
  | totals (t : Totals)
  | deactivation (d : Deactivation)
  | foreign (s : Substitute)
  deriving Repr, DecidableEq

/-- What was given as a reply. -/
def Given.reply {α : Type} (f : α → Reply) : Given α → Reply
  | own a => f a
  | foreign s => .foreign s

@[simp] theorem Given.reply_own {α : Type} (f : α → Reply) (a : α) : (own a).reply f = f a := rfl

end ReviewDesk
