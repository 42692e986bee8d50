import ReviewDesk.Entity
import ReviewDesk.Json.Writer
import ReviewDesk.Text.Quoted
import ReviewDesk.Time.Inspection

/-!
# Inspected values

Pull requests and documents as lines of text, for the places that show whatever they were given. A pull request
is shown by its kind and every part under its name, a document much as it would be written, but with the texts in
the quotes that suit them.
-/
namespace ReviewDesk

/-- A pull request as a line of text. -/
def PullRequest.inspected (p : PullRequest) : Text :=
  let status : String := match p.status with
    | .opened => "<PRStatus.OPEN: 'OPEN'>"
    | .merged => "<PRStatus.MERGED: 'MERGED'>"
  "PullRequest(id=" ++ p.id.quoted ++ ", name=" ++ p.name.quoted ++ ", author_id=" ++ p.author.quoted ++
    ", status=" ++ status ++ ", reviewers=[" ++ Text.joined ", " (p.reviewers.map Text.quoted) ++
    "], created_at=" ++ inspectedDate p.created ++ ", merged_at=" ++ inspectedDate p.merged ++ ")"

namespace Json

/-- A number with a fraction; where it is not finite, a word in its place. -/
def inspectedFloat (x : Binary64) : Text :=
  if x.isFinite then .ofChars (floatChars x)
  else if x.isNan then "nan"
  else if x.isNegative then "-inf"
  else "inf"

mutual
/-- A document as a line of text. -/
def inspected : Json → Text
  | .null => "None"
  | .bool b => Text.ofString (if b then "True" else "False")
  | .int i => .ofChars (intChars i)
  | .float x => inspectedFloat x
  | .text t => t.quoted
  | .list items => "[" ++ Text.joined ", " (inspectedItems items) ++ "]"
  | .object fields => "\x7b" ++ Text.joined ", " (inspectedFields fields) ++ "\x7d"
def inspectedItems : List Json → List Text
  | [] => []
  | j :: rest => inspected j :: inspectedItems rest
def inspectedFields : List (Text × Json) → List Text
  | [] => []
  | (name, j) :: rest => (name.quoted ++ ": " ++ inspected j) :: inspectedFields rest
end

example : inspected (.list [.text "it's", .int (-1), .null]) = "[\"it's\", -1, None]" := by decide +kernel

end Json
end ReviewDesk
