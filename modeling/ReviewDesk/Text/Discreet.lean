import ReviewDesk.Text.Basic

/-!
# Discreet texts

The words of the database are not for everybody: they tell about its inside and change from one release to the
next. A text that ends with them is shown without them.
-/
namespace ReviewDesk.Text

/-- Code points up to the first place where others stand in a row. -/
def upTo (mark : List CodePoint) : List CodePoint → List CodePoint
  | [] => []
  | p :: ps => if mark.isPrefixOf (p :: ps) then [] else p :: upTo mark ps

/-- How the database begins when it says something. -/
def databaseOpening : String := "(sqlite3."

/-- A text without what the database says, be that all of it or what stands behind a colon. -/
def withoutDatabase (t : Text) : Text :=
  if (ofString databaseOpening).points.isPrefixOf t.points then ofString ""
  else ⟨upTo (ofString (": " ++ databaseOpening)).points t.points⟩

example : withoutDatabase "get user: (sqlite3.Error) no such table" = "get user" := by decide +kernel
example : withoutDatabase "(sqlite3.Error)" = "" := by decide +kernel
example : withoutDatabase "get user (sqlite3.Error)" = "get user (sqlite3.Error)" := by decide +kernel

end ReviewDesk.Text
