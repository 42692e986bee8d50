import ReviewDesk.Proofs.Transaction
import ReviewDesk.Scenario

/-!
# Errands

What comes to the desk from outside comes as a tree: a use case is asked for, and just before its
transaction begins there can be more of the same. What else can happen besides requests is left
open: nothing, or single calls on the store, or failures that are laid in wait. Errands are
operations of a scenario, and what comes of them can be told request by request.
-/
namespace ReviewDesk

/-- What can happen besides requests, as an operation of a scenario. -/
class Deed (α : Type) where
  op : α → Op

/-- Nothing but requests. -/
instance : Deed Empty := ⟨nofun⟩

/-- A call of any shape. -/
abbrev AnyCall : Type := (s : Shape) × Call s

/-- Single calls on the store. -/
instance : Deed AnyCall := ⟨fun c => .call c.1 c.2⟩

/-- A use case is asked for, by itself or with errands that are run just before its transaction
begins, or something else happens. -/
inductive Errand (α : Type) where
  | alone (u : UseCase)
  | request (u : UseCase) (before : List (Errand α))
  | deed (a : α)

variable {α : Type}

section Operations

variable [Deed α]

mutual
/-- An errand as an operation of a scenario. -/
def Errand.op : Errand α → Op
  | .alone u => .ask u none
  | .request u before => .ask u (some (Errand.ops before))
  | .deed a => Deed.op a
/-- Errands as operations of a scenario. -/
def Errand.ops : List (Errand α) → List Op
  | [] => []
  | e :: es => e.op :: Errand.ops es
end

end Operations

mutual
/-- Something holds of all use cases that are asked for in an errand, and something of all that
happens besides. -/
def Errand.All (P : UseCase → Prop) (Q : α → Prop) : Errand α → Prop
  | .alone u => P u
  | .request u before => P u ∧ Errand.AllOf P Q before
  | .deed a => Q a
/-- Something holds of all use cases in errands, and something of all that happens besides. -/
def Errand.AllOf (P : UseCase → Prop) (Q : α → Prop) : List (Errand α) → Prop
  | [] => True
  | e :: es => e.All P Q ∧ Errand.AllOf P Q es
end

mutual
/-- What was answered to the requests in an errand, in the order of the answers. -/
def Errand.told : Errand α → Outcome → List (UseCase × Answer)
  | .alone u, .answered a _ => [(u, a)]
  | .request u before, .answered a outcomes =>
    Errand.toldAll before (outcomes.getD []) ++ [(u, a)]
  | _, _ => []
/-- What was answered to the requests in errands, in the order of the answers. -/
def Errand.toldAll : List (Errand α) → List Outcome → List (UseCase × Answer)
  | e :: es, o :: os => e.told o ++ Errand.toldAll es os
  | _, _ => []
end

theorem Errand.toldAll_nil (es : List (Errand α)) : Errand.toldAll es [] = [] := by
  cases es <;> rfl

section Runs

variable {σ : Type} [Gateway σ] [Deed α]

/-- Alone, a request is carried out as its use case. -/
theorem run_alone (u : UseCase) (w : World σ) :
    (Errand.alone u : Errand α).op.run w = (.answered (u.run w).1 none, (u.run w).2) := rfl

/-- A request is carried out as its use case with the other errands in between. -/
theorem run_request (u : UseCase) (before : List (Errand α)) (w : World σ) :
    (Errand.request u before).op.run w =
      let x := u.interleaved (Op.runAll (Errand.ops before)) w
      (.answered x.1.1 x.1.2, x.2) := rfl

theorem run_call {s : Shape} (c : Call s) (w : World σ) :
    (Errand.deed (⟨s, c⟩ : AnyCall)).op.run w =
      (.answered (answerCall .outside s c w).1 none, (answerCall .outside s c w).2) := rfl

theorem runAll_cons (e : Errand α) (es : List (Errand α)) (w : World σ) :
    Op.runAll (Errand.ops (e :: es)) w =
      ((e.op.run w).1 :: (Op.runAll (Errand.ops es) (e.op.run w).2).1,
        (Op.runAll (Errand.ops es) (e.op.run w).2).2) := rfl

theorem runAll_nil (w : World σ) : Op.runAll (Errand.ops ([] : List (Errand α))) w = ([], w) := rfl

/-- One request with nothing in its middle. -/
theorem runAll_request (u : UseCase) (w : World σ) :
    Op.runAll (Errand.ops [(.request u [] : Errand α)]) w =
      let x := u.interleaved (fun w => (([] : List Outcome), w)) w
      ([.answered x.1.1 x.1.2], x.2) := rfl

/-- A single call without faults: its answer is the reply, and only a call that succeeds changes the
store. -/
theorem answerCall_outside {s : Shape} (c : Call s) {w : World σ} (hw : w.faults = [])
    {r : Except Failure s.Answer} {after : σ} {k : Clock}
    (hc : c.on w.store w.clock = ((r, after), k)) :
    (answerCall .outside s c w).1 = r.map s.reply ∧
      (answerCall .outside s c w).2.Like
        { w with store := if r.toBool then after else w.store, clock := k } := by
  have hseen : w.seen .outside = w.store := rfl
  rw [answerCall, Job.guarded_of_no_faults _ _ _ w hw, Job.bind_apply,
    Job.reach_of_no_faults .outside c hw, Job.perform, hseen, hc]
  cases r with
  | ok a => exact ⟨rfl, .refl _⟩
  | error e => cases e <;> exact ⟨rfl, rfl, rfl, rfl, rfl⟩

end Runs

end ReviewDesk
