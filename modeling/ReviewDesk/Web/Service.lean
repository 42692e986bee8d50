import ReviewDesk.Web.Exchange

/-!
# The service

The desk behind HTTP. While a request runs, everything written into the journal carries its mark; at its end
the journal tells how it went. A request that runs in between takes its own mark away when it ends, so that
what follows inside the outer request is written without one.
-/
namespace ReviewDesk.Web

variable {σ : Type} [Gateway σ]

/-- The world with a request in progress. -/
def under (r : Request) (w : World σ) : World σ := { w with journal := w.journal.under r.mark }

/-- The world without a request in progress. -/
def idle (w : World σ) : World σ := { w with journal := w.journal.idle }

/-- The outcome of a use case, with something happening just before its transaction if there is anything to
happen. -/
def perform {β : Type} (between : Option (World σ → β × World σ)) (u : UseCase) (w : World σ) :
    (Except Failure Reply × Option β) × World σ :=
  match between with
  | some f => u.interleaved f w
  | none =>
    let (answer, w) := u.run w
    ((answer, none), w)

/-- The response of a verdict, or why there is none, with what happened in between. -/
def carryOut {β : Type} (between : Option (World σ → β × World σ)) (v : Verdict) (w : World σ) :
    (Except String Response × Option β) × World σ :=
  match v with
  | .respond r => ((send r, none), w)
  | .breakDown cause => ((.error cause, none), w)
  | .perform u =>
    let ((answer, b), w) := perform between u w
    (((conclude u answer).bind send, b), w)

/-- The end of a request: its last event, and the response with the mark that it carries. A request that broke
down is answered without a mark. -/
def close (r : Request) (outcome : Except String Response) (w : World σ) :
    (Response × Option RequestId) × World σ :=
  let w := under r w
  match outcome with
  | .ok response =>
    ((response, some r.mark), idle (w.note (.requestCompleted r.method r.shownPath response.status)))
  | .error cause => ((.broken, none), idle (w.note (.requestFailed r.method r.shownPath cause)))

/-- A request from beginning to end. -/
def serve {β : Type} (r : Request) (between : Option (World σ → β × World σ)) (w : World σ) :
    ((Response × Option RequestId) × Option β) × World σ :=
  let ((outcome, b), w) := carryOut between (verdict r) (under r w)
  let (answer, w) := close r outcome w
  ((answer, b), w)

end ReviewDesk.Web
