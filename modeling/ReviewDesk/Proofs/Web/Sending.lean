import ReviewDesk.Web.Exchange

/-!
# What can be sent

Half of a surrogate pair has no written form. A document can be sent if each of its texts has one,
no matter whether its parts are written one by one or the document is written as a whole first.
-/
namespace ReviewDesk

/-- Code points that are characters. -/
def Whole (ps : List CodePoint) : Prop := ∀ p ∈ ps, p.char?.isSome = true

@[simp] theorem whole_nil : Whole [] := by simp [Whole]

@[simp] theorem whole_cons {p : CodePoint} {ps : List CodePoint} :
    Whole (p :: ps) ↔ p.char?.isSome = true ∧ Whole ps := by simp [Whole]

@[simp] theorem whole_append {ps qs : List CodePoint} :
    Whole (ps ++ qs) ↔ Whole ps ∧ Whole qs := by
  simp [Whole, or_imp, forall_and]

@[simp] theorem whole_map_char (cs : List Char) : Whole (cs.map .char) := by
  simp [Whole, CodePoint.char?]

theorem Text.gap?_eq_none_iff {t : Text} : t.gap? = none ↔ Whole t.points :=
  gapFrom_eq_none_iff 0 t.points

namespace Json

/-- A document all of whose texts have a written form. -/
def Writable (j : Json) : Prop := ∀ t ∈ j.texts, t.gap? = none

@[simp] theorem whole_literal (s : String) : Whole (literal s) := whole_map_char _

/-- In a dense document a code point is escaped only if it is a character. -/
theorem whole_pointWritten (p : CodePoint) :
    Whole (pointWritten .dense p) ↔ p.char?.isSome = true := by
  cases p with
  | char c =>
    have hchar : (CodePoint.char c).char?.isSome = true := rfl
    simp only [hchar, iff_true]
    unfold pointWritten
    dsimp only
    split
    · simp [CodePoint.char?]
    · split <;> simp [CodePoint.char?]
  | half o =>
    have hpoint : pointWritten .dense (.half o) = [.half o] := by
      have hrange : ¬ (CodePoint.half o).value < 0x20 := by
        simp only [CodePoint.value]
        omega
      simp [pointWritten, CodePoint.char?, Style.dense, hrange]
    simp [hpoint, CodePoint.char?]

@[simp] theorem whole_stringWritten (t : Text) :
    Whole (stringWritten .dense t) ↔ t.gap? = none := by
  have hpoints (ps : List CodePoint) : Whole (ps.flatMap (pointWritten .dense)) ↔ Whole ps := by
    induction ps with
    | nil => simp
    | cons p ps ih => simp [whole_pointWritten, ih]
  rw [Text.gap?_eq_none_iff, stringWritten]
  simp [hpoints, CodePoint.char?]

mutual
/-- A dense document is written in characters if all of its texts are. -/
theorem whole_write : ∀ j : Json, Whole (j.write .dense) ↔ ∀ t ∈ j.texts, t.gap? = none
  | .null => by simp [write, texts]
  | .bool b => by simp [write, texts]
  | .int i => by simp [write, texts]
  | .float x => by simp [write, texts]
  | .text t => by simp [write, texts]
  | .list items => by simp [write, texts, CodePoint.char?, whole_writeItems items]
  | .object fields => by simp [write, texts, CodePoint.char?, whole_writeFields fields]
theorem whole_writeItems : ∀ js : List Json,
    Whole (writeItems .dense js) ↔ ∀ t ∈ allTexts js, t.gap? = none
  | [] => by simp [writeItems, allTexts]
  | [j] => by simp [writeItems, allTexts, whole_write j]
  | j :: k :: rest => by
    rw [allTexts, List.forall_mem_append, ← whole_write j, ← whole_writeItems (k :: rest)]
    simp [writeItems]
theorem whole_writeFields : ∀ fields : List (Text × Json),
    Whole (writeFields .dense fields) ↔ ∀ t ∈ fieldTexts fields, t.gap? = none
  | [] => by simp [writeFields, fieldTexts]
  | [(name, j)] => by simp [writeFields, fieldTexts, whole_write j]
  | (name, j) :: (name', j') :: rest => by
    rw [fieldTexts, List.forall_mem_cons, List.forall_mem_append, ← whole_write j,
      ← whole_writeFields ((name', j') :: rest)]
    simp [writeFields]
end

theorem gap?_write_eq_none_iff {j : Json} :
    Text.gap? ⟨j.write .dense⟩ = none ↔ j.Writable := by
  rw [Text.gap?_eq_none_iff]
  exact whole_write j

end Json

namespace Web

/-- A response all of whose texts have a written form. -/
def Response.Writable (r : Response) : Prop :=
  match r.content with
  | .text _ => True
  | .answer j | .explanation j => j.Writable

theorem obstacle?_answer_iff {status : Nat} {j : Json} :
    (⟨status, .answer j⟩ : Response).obstacle? = none ↔ j.Writable := by
  simp [Response.obstacle?, Json.Writable, List.findSome?_eq_none_iff]

/-- An explanation that is not too deep and holds no number without a form can be sent if its texts
can. -/
theorem obstacle?_explanation_iff {status : Nat} {j : Json}
    (h : j.hindrance? Response.explanationDepth = none) :
    (⟨status, .explanation j⟩ : Response).obstacle? = none ↔ j.Writable := by
  simp [Response.obstacle?, h, Json.gap?_write_eq_none_iff]

/-- What is told about a failure stands in the way of nothing but by its texts. -/
theorem obstacle?_explain_iff {e : Failure} :
    (explain e).obstacle? = none ↔ (explain e).Writable := by
  refine obstacle?_explanation_iff ?_
  unfold failureDetail
  cases e.code? <;> rfl

end Web
end ReviewDesk
