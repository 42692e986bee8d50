import ReviewDesk.Desk.Departure
import ReviewDesk.Desk.Roster

/-!
# Use cases

Everything that the desk can be asked for, as data. A use case has a plan; `UseCase.run` carries the plan out
with nothing in between, `UseCase.interleaved` lets something else happen just before the transaction begins.
-/
namespace ReviewDesk

/-- What the desk can be asked for. -/
inductive UseCase where
  | found (t : Team)
  | team (name : Text)
  | depart (team : Text) (users : List Text)
  | departAll (team : Text)
  | switch (user : Text) (active : Bool)
  | reviewedBy (user : Text)
  | countsOf (user : Text)
  | opening (id name author : Text)
  | merge (id : Text)
  | reassign (id old : Text)
  | totals
  deriving Repr, DecidableEq

namespace UseCase

variable {σ : Type} [Gateway σ]

/-- What a use case does before its transaction, and what is left to do then. -/
def plan : UseCase → Job σ (Plan σ Reply)
  | .found t => do return (← Roster.found t).map .team
  | .team name => do return .finished ((← Roster.team name).reply .team)
  | .depart name users => do return (← Departure.depart name users).map .deactivation
  | .departAll name => do return (← Departure.departAll name).map .deactivation
  | .switch user active => do return (← Roster.switch user active).map fun u => u.reply .user
  | .reviewedBy user => do return .finished ((← Review.reviewedBy user).reply .pullRequests)
  | .countsOf user => do return .finished ((← Review.countsOf user).reply .userCounts)
  | .opening id name author => do return (← Review.opening id name author).map .pullRequest
  | .merge id => do return (← Review.merge id).map .pullRequest
  | .reassign id old => do
    return (← Review.reassign id old).map fun (p, successor) => .reassigned p successor
  | .totals => do return .finished ((← Review.totals).reply .totals)

/-- A use case with nothing in between. -/
def run (u : UseCase) : Job σ Reply := do (← u.plan).finish

/-- A use case with something else happening just before its transaction begins, if it begins one. What
happened in between is part of the answer. The transaction is watched for then, and where it begins all of them
are alike: a fault that lies in wait for a silent one is not met. -/
def interleaved {β : Type} (u : UseCase) (between : World σ → β × World σ) (w : World σ) :
    (Except Failure Reply × Option β) × World σ :=
  match u.plan w with
  | (.error e, w) => ((.error e, none), w)
  | (.ok (.finished a), w) => ((.ok a, none), w)
  | (.ok (.pending rest), w) =>
    let (b, w) := between w
    let (answer, w) := Job.sparing .silentTransaction rest w
    ((answer, some b), w)

/-- If nothing happens in between and no fault lies in wait by then, the use case just runs. -/
theorem interleaved_nothing {β : Type} (u : UseCase) (b : β) (w : World σ)
    (h : (u.plan w).2.faults = []) :
    (((u.interleaved (fun w => (b, w)) w).1.1, (u.interleaved (fun w => (b, w)) w).2) :
      Except Failure Reply × World σ) = u.run w := by
  unfold interleaved run
  rw [Job.bind_apply]
  generalize u.plan w = planned at h
  rcases planned with ⟨_ | ⟨a⟩ | ⟨rest⟩, w⟩
  · rfl
  · rfl
  · simp [Job.sparing_of_no_faults .silentTransaction rest w h]

end UseCase
end ReviewDesk
