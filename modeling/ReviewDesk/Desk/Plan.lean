import ReviewDesk.Desk.World

/-!
# Plans

A request first looks around, and what it sees then is only advice: other requests may commit before its own
transaction begins. The outcome of looking around is a plan. Either the answer is settled and no transaction
is needed, or a rest is pending that begins with the transaction.
-/
namespace ReviewDesk

/-- What is left to do after looking around. -/
inductive Plan (σ α : Type) where
  | finished (a : α)
  | pending (rest : Job σ α)

namespace Plan

variable {σ α β : Type}

/-- What is left to do, with nothing in between. -/
def finish : Plan σ α → Job σ α
  | finished a => pure a
  | pending rest => rest

/-- The same plan with another form of the answer. -/
def map (f : α → β) : Plan σ α → Plan σ β
  | finished a => finished (f a)
  | pending rest => pending do return f (← rest)

@[simp] theorem finish_finished (a : α) : (finished a : Plan σ α).finish = pure a := rfl

@[simp] theorem finish_pending (rest : Job σ α) : (pending rest).finish = rest := rfl

end Plan

end ReviewDesk
