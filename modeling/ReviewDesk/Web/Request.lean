import ReviewDesk.Journal
import ReviewDesk.Json.Writer

/-!
# Requests and responses

An HTTP request as it arrives: the path and the query are decoded, the body is not, unless it was handed over
as a document. A response holds a document or plain text. Not every document can be sent; `obstacle?` says what
stands in the way.
-/
namespace ReviewDesk.Web

/-- The body of a request. -/
inductive Body where
  | octets (os : List Nat)
  | document (j : Json)
  deriving Repr

structure Request where
  method : String
  path : String
  query : List (String × String)
  body : Body
  contentType : Option String
  id : Option String
  deriving Repr

/-- What a response holds: an answer, whose parts are written one by one, an explanation, which is written as a
whole, or plain text. -/
inductive Content where
  | answer (j : Json)
  | explanation (j : Json)
  | text (s : String)
  deriving Repr

structure Response where
  status : Nat
  content : Content
  deriving Repr

namespace Request

/-- The mark of a request: the one that its sender chose, unless it is empty. -/
def mark (r : Request) : RequestId :=
  match r.id with
  | some id => if id = "" then .generated else .given id
  | none => .generated

/-- The last value of a name in the query. -/
def parameter? (r : Request) (name : String) : Option String :=
  (r.query.reverse.lookup name)

/-- A character of a path as the journal shows it: those that would end the path of an address are escaped, and
the control characters that an address cannot hold are left out. -/
def shownChar : Char → List Char
  | '?' => ['%', '3', 'F']
  | '#' => ['%', '2', '3']
  | '\\' => ['%', '5', 'C']
  | '\t' | '\n' | '\r' => []
  | c => [c]

/-- A path that is not empty has a slash in front. -/
def absolute : List Char → List Char
  | [] => []
  | '/' :: path => '/' :: path
  | path => '/' :: path

/-- The path as the journal shows it. -/
def shownPath (r : Request) : String := String.ofList ((absolute r.path.toList).flatMap shownChar)

end Request

namespace Response

/-- A response with an explanation in place of an answer. -/
def detail (status : Nat) (j : Json) : Response := ⟨status, .explanation (.object [("detail", j)])⟩

/-- How many lists and objects may lie in one another in an explanation. Like `bodyDepth`, this is the limit of one
interpreter. -/
def explanationDepth : Nat := 970

/-- Why a response cannot be sent. A text without a written form stands in the way of any document. A number that
is not finite and too great a depth stand only in that of an explanation, in which they are looked for first. -/
def obstacle? (r : Response) : Option String :=
  match r.content with
  | .text _ => none
  | .answer j =>
    (j.texts.findSome? Text.gap?).map fun gap =>
      "Error serializing to JSON: UnicodeEncodeError: " ++ gap.message
  | .explanation j =>
    match j.hindrance? explanationDepth with
    | some .notFinite => some "Out of range float values are not JSON compliant"
    | some .tooDeep => some "maximum recursion depth exceeded while encoding a JSON object"
    | none => (Text.gap? ⟨j.write .dense⟩).map Text.Gap.message

/-- The fields of an object with the value of one of them changed. -/
def mapField (name : String) (f : Json → Json) : Json → Json
  | .object fields => .object (fields.map fun (n, j) => (n, if n = .ofString name then f j else j))
  | j => j

/-- A text without the words of the database. -/
def discreet : Json → Json
  | .text t => .text t.withoutDatabase
  | j => j

/-- The content as it is shown: what an explanation says about a failure is without the words of the database. -/
def shown (r : Response) : Content :=
  match r.content with
  | .explanation j => .explanation (mapField "detail" (mapField "error" (mapField "message" discreet)) j)
  | content => content

/-- The response to a request that broke down. -/
def broken : Response := ⟨500, .text "Internal Server Error"⟩

end Response
end ReviewDesk.Web
