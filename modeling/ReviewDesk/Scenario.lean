import ReviewDesk.Settings
import ReviewDesk.Web.Service

/-!
# Scenarios

A scenario is a list of operations on one world: use cases and requests, each perhaps with other operations that
happen just before its transaction begins, single calls, transactions written out step by step, and what goes
wrong around them. Running it gives an outcome for each operation; failures do not end it. An operation whose
arguments could not be read fails for that.
-/
namespace ReviewDesk

/-- An answer or a failure. -/
abbrev Answer := Except Failure Reply

/-- A step of a transaction that is written out. A step that fails ends the transaction unless it is caught. -/
inductive Step where
  | call (scope : Scope) (s : Shape) (c : Call s) (caught : Bool)
  | fail (e : Failure) (caught : Bool)
  deriving Repr

/-- An operation of a scenario. -/
inductive Op where
  | ask (u : UseCase) (before : Option (List Op))
  | serve (r : Web.Request) (before : Option (List Op))
  | call (s : Shape) (c : Call s)
  | script (silent : Bool) (value : Json) (steps : List Step)
  | fault (f : Fault)
  | lose (k : Kind)
  | snapshot
  | fail (e : Failure)

/-- What comes of an operation. -/
inductive Outcome where
  | answered (a : Answer) (before : Option (List Outcome))
  | served (r : Web.Response) (mark : Option RequestId) (before : Option (List Outcome))
  | scripted (a : Answer) (steps : List Answer)
  | shown (s : Except Failure Snapshot)

variable {σ : Type} [Gateway σ]

/-- A single call, with its answer as a reply. Whatever a fault gives in its place is the answer. -/
def answerCall (scope : Scope) (s : Shape) (c : Call s) : Job σ Reply :=
  Job.guarded c.point (fun v => pure (.foreign v)) do return s.reply (← Job.reach scope c)

namespace Step

def caught : Step → Bool
  | .call _ _ _ caught => caught
  | .fail _ caught => caught

/-- One step. -/
def run : Step → World σ → Answer × World σ
  | .call scope s c _, w => answerCall scope s c w
  | .fail e _, w => (.error e, w)

/-- Steps in order, up to the first failure that is not caught: their answers, and that failure. -/
def runAll : List Step → World σ → (List Answer × Option Failure) × World σ
  | [], w => (([], none), w)
  | step :: steps, w =>
    match step.run w with
    | (.error e, w) =>
      if step.caught then
        let ((answers, failure), w) := runAll steps w
        ((.error e :: answers, failure), w)
      else (([.error e], some e), w)
    | (.ok reply, w) =>
      let ((answers, failure), w) := runAll steps w
      ((.ok reply :: answers, failure), w)

end Step

/-- A transaction of the given steps, with an answer of its own. -/
def runScript (value : Json) (steps : List Step) (w : World σ) : (Answer × List Answer) × World σ :=
  match w.pass .transaction with
  | (some (.fail e), w) => ((.error e, []), w)
  | (some (.give v), w) => ((.ok (.foreign v), []), w)
  | (none, w) =>
    match Step.runAll steps w.begin with
    | ((answers, none), w) => ((.ok (.foreign (.document value)), answers), w.commit)
    | ((answers, some e), w) =>
      let (e, w) := w.rollBack e
      ((.error e, answers), w)

/-- A transaction of the given steps whose answer does not matter. -/
def runSilentScript (steps : List Step) (w : World σ) : (Answer × List Answer) × World σ :=
  match w.pass .silentTransaction with
  | (some (.fail e), w) => ((.error e, []), w)
  | (some (.give v), w) => ((.ok (.foreign v), []), w)
  | (none, w) =>
    let ((answer, answers), w) := runScript .null steps w
    ((answer.map fun _ => .nothing, answers), w)

mutual
/-- One operation. -/
def Op.run : Op → World σ → Outcome × World σ
  | .ask u before, w =>
    let ((answer, outcomes), w) := Web.perform (Op.between before) u w
    (.answered answer outcomes, w)
  | .serve r before, w =>
    let (((response, mark), outcomes), w) := Web.serve r (Op.between before) w
    (.served response mark outcomes, w)
  | .call s c, w =>
    let (answer, w) := answerCall .outside s c w
    (.answered answer none, w)
  | .script silent value steps, w =>
    let ((answer, answers), w) := if silent then runSilentScript steps w else runScript value steps w
    (.scripted answer answers, w)
  | .fault f, w => (.answered (.ok .nothing) none, { w with faults := f.lay w.faults })
  | .lose k, w =>
    let (lost, store) := Gateway.lose k w.store
    (.answered (lost.map fun _ => .nothing) none, { w with store := store })
  | .snapshot, w => (.shown (Gateway.snapshot w.store), w)
  | .fail e, w => (.answered (.error e) none, w)
/-- What happens just before a transaction, if anything is to happen there. -/
def Op.between : Option (List Op) → Option (World σ → List Outcome × World σ)
  | none => none
  | some ops => some fun w => Op.runAll ops w
/-- Operations in order. -/
def Op.runAll : List Op → World σ → List Outcome × World σ
  | [], w => ([], w)
  | op :: ops, w =>
    let (outcome, w) := op.run w
    let (outcomes, w) := Op.runAll ops w
    (outcome :: outcomes, w)
end

/-- The world before anything happened, with an empty store. A store that announces itself has done so. -/
def World.initial (σ : Type) [Gateway σ] (draws : Draws) (clock : Clock) (level : Level) : World σ :=
  let w : World σ := ⟨Gateway.empty, none, draws, clock, [], ⟨level, none, [], []⟩⟩
  if Gateway.announces σ then w.note (.databaseReady Settings.defaults.environment) else w

end ReviewDesk
