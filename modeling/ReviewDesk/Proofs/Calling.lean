import ReviewDesk.Proofs.Scene

/-!
# Where calls lead

Anybody may call on the store, in whatever order and with whatever arguments: users of teams that are
not there, authors and reviewers whom nobody knows, assignments of pull requests that were never
saved. A call leads from a sound store to a sound one, and so does one that fails, unless it breaks a
transaction off, whose end then commits nothing. Thus the committed store is sound at all times, and
the store of a transaction is sound or broken off. Only an insertion that fails can break one off.

Main definitions: `World.Called` holds of the worlds that calls and transactions lead to, and
`World.Unbroken` of those where no insertion has failed in the transaction in progress.
-/
namespace ReviewDesk

open Job LawfulStore

variable {σ : Type} [Gateway σ]

/-- A call that puts a record in under a key of its own, which must not be there yet. -/
def Call.Inserts {s : Shape} : Call s → Prop
  | .saveTeam _ | .savePullRequest _ => True
  | _ => False

/-- A store of a transaction whose end commits what was committed before. -/
def BrokenOff (s : σ) : Prop := ∀ before : σ, Gateway.settle before s = before

/-- A lawful store in which calls that fail lead to sound states too, unless they are insertions,
which may break the transaction off. No call mends a transaction that has broken off. -/
class ClosedStore (σ : Type) [Gateway σ] [LawfulStore σ] : Prop where
  failed_on : ∀ {sh : Shape} {c : Call sh} {s s' : σ} {k k' : Clock} {e : Failure}, Sound s →
    c.on s k = ((.error e, s'), k') → Sound s' ∨ c.Inserts ∧ BrokenOff s'
  brokenOff_on : ∀ {sh : Shape} {c : Call sh} {s s' : σ} {k k' : Clock}
    {r : Except Failure sh.Answer}, BrokenOff s → c.on s k = ((r, s'), k') → BrokenOff s'

section Stores

variable [LawfulStore σ] [ResilientStore σ]

/-- A call that succeeds leads to a sound state. -/
theorem sound_on {sh : Shape} {c : Call sh} {s s' : σ} {k k' : Clock} {a : sh.Answer}
    (hs : Sound s) (h : c.on s k = ((.ok a, s'), k')) : Sound s' := by
  have hwrite {r : Except Failure Unit × σ} {admitted : Prop} {wanted : σ → Prop}
      (hc : Change admitted (fun x => Sound x ∧ wanted x) r) (hr : r = (.ok (), s')) : Sound s' :=
    (hc.of_ok hr).1
  cases c with
  | saveTeam t =>
    have hsave : Gateway.saveTeam t s = (.ok (), s') := congrArg Prod.fst h
    have hnew : t.name ∉ (contents s).teams := by
      intro htaken
      obtain ⟨s'', hfail⟩ := saveTeam_taken t hs htaken
      cases hsave.symm.trans hfail
    exact hwrite (saveTeam_change t hs hnew) hsave
  | putUsers us => exact hwrite (putUsers_change us hs) (congrArg Prod.fst h)
  | setActivity us => exact hwrite (setActivity_change us hs) (congrArg Prod.fst h)
  | deactivate ids => exact hwrite (deactivate_change ids hs) (congrArg Prod.fst h)
  | savePullRequest p => exact (contents_saved hs h).2.1
  | updatePullRequest p => exact hwrite (updatePullRequest_change p hs) (congrArg Prod.fst h)
  | assign id ids => exact hwrite (assign_change id ids hs) (congrArg Prod.fst h)
  | replaceReviewer id old new =>
    exact hwrite (replaceReviewer_change id old new hs) (congrArg Prod.fst h)
  | removeReviewer id old => exact hwrite (removeReviewer_change id old hs) (congrArg Prod.fst h)
  | _ =>
    obtain rfl := congrArg (fun x => x.1.2) h
    exact hs

end Stores

/-- The worlds that come about where the store is called on from outside and inside transactions,
where transactions begin and end as they please, and where time passes. -/
inductive World.Called : World σ → Prop
  | initial (draws : Draws) (clock : Clock) (level : Level) : Called (.initial σ draws clock level)
  | call {w : World σ} (h : Called w) (scope : Scope) {sh : Shape} (c : Call sh) :
      Called (answerCall scope sh c w).2
  | begin {w : World σ} (h : Called w) : Called w.begin
  | commit {w : World σ} (h : Called w) : Called w.commit
  | rollBack {w : World σ} (h : Called w) (e : Failure) : Called (w.rollBack e).2
  | elapse {w : World σ} (h : Called w) (clock : Clock) : Called { w with clock := clock }

/-- The worlds among them where no insertion has failed in the transaction that is in progress. -/
inductive World.Unbroken : World σ → Prop
  | initial (draws : Draws) (clock : Clock) (level : Level) :
      Unbroken (.initial σ draws clock level)
  | call {w : World σ} (h : Unbroken w) (scope : Scope) {sh : Shape} (c : Call sh)
      (hc : scope = .inside → c.Inserts → (answerCall scope sh c w).1.toBool = true) :
      Unbroken (answerCall scope sh c w).2
  | begin {w : World σ} (h : Called w) : Unbroken w.begin
  | commit {w : World σ} (h : Called w) : Unbroken w.commit
  | rollBack {w : World σ} (h : Called w) (e : Failure) : Unbroken (w.rollBack e).2
  | elapse {w : World σ} (h : Unbroken w) (clock : Clock) : Unbroken { w with clock := clock }

namespace World

/-- A world with a sound committed store, in which nothing lies in wait. A transaction in progress
works on a sound store or has broken off. -/
structure Intact [LawfulStore σ] (w : World σ) : Prop where
  calm : w.faults = []
  committed : Sound w.store
  working : ∀ x, w.work = some x → Sound x ∨ BrokenOff x

section Steps

variable {w : World σ}

/-- A single call without faults leaves behind what it made of the store that it saw. -/
theorem answerCall_keeps (hw : w.faults = []) (scope : Scope) {sh : Shape} (c : Call sh)
    {r : Except Failure sh.Answer} {after : σ} {k : Clock}
    (hc : c.on (w.seen scope) w.clock = ((r, after), k)) :
    (answerCall scope sh c w).1.toBool = r.toBool ∧ (answerCall scope sh c w).2.faults = [] ∧
      (answerCall scope sh c w).2.store = (w.keep scope r.toBool after).store ∧
      (answerCall scope sh c w).2.work = (w.keep scope r.toBool after).work := by
  rw [answerCall, guarded_of_no_faults _ _ _ w hw, bind_apply, reach_of_no_faults scope c hw,
    perform, hc]
  cases r with
  | ok a => cases scope <;> exact ⟨rfl, hw, rfl, rfl⟩
  | error e => cases e <;> cases scope <;> exact ⟨rfl, hw, rfl, rfl⟩

theorem work_initial (draws : Draws) (clock : Clock) (level : Level) :
    (World.initial σ draws clock level).work = none := by
  unfold World.initial
  dsimp only
  split <;> rfl

theorem work_rollBack (e : Failure) : (w.rollBack e).2.work = none := by
  unfold World.rollBack
  dsimp only
  split <;> rfl

theorem Unbroken.called (h : w.Unbroken) : w.Called := by
  induction h with
  | initial draws clock level => exact .initial draws clock level
  | call _ scope c _ ih => exact ih.call scope c
  | begin h => exact h.begin
  | commit h => exact h.commit
  | rollBack h e => exact h.rollBack e
  | elapse _ clock ih => exact ih.elapse clock

variable [LawfulStore σ]

theorem intact_initial (draws : Draws) (clock : Clock) (level : Level) :
    (World.initial σ draws clock level).Intact := by
  have ho : Orderly (World.initial σ draws clock level) := orderly_initial draws clock level
  refine ⟨ho.faults, ho.sound, fun x hx => ?_⟩
  cases (work_initial draws clock level).symm.trans hx

theorem Intact.begin (h : w.Intact) : w.begin.Intact := by
  refine ⟨h.calm, h.committed, ?_⟩
  rintro x ⟨⟩
  exact .inl h.committed

/-- Only a sound store of a transaction is committed. -/
theorem Intact.commit (h : w.Intact) : w.commit.Intact := by
  refine ⟨h.calm, ?_, nofun⟩
  show Sound (Gateway.settle w.store (w.work.getD w.store))
  cases hwork : w.work with
  | none =>
    rw [Option.getD_none, settle_sound w.store h.committed]
    exact h.committed
  | some x =>
    rw [Option.getD_some]
    rcases h.working x hwork with hx | hx
    · rw [settle_sound w.store hx]
      exact hx
    · rw [hx w.store]
      exact h.committed

theorem Intact.rollBack (h : w.Intact) (e : Failure) : (w.rollBack e).2.Intact := by
  unfold World.rollBack
  dsimp only
  split
  · exact ⟨h.calm, h.committed, nofun⟩
  · exact ⟨h.calm, h.committed, nofun⟩

theorem Intact.seen (h : w.Intact) (scope : Scope) :
    Sound (w.seen scope) ∨ scope = .inside ∧ BrokenOff (w.seen scope) := by
  cases scope with
  | outside => exact .inl h.committed
  | inside =>
    show Sound (w.work.getD w.store) ∨ _
    cases hwork : w.work with
    | none => exact .inl h.committed
    | some x =>
      rcases h.working x hwork with hx | hx
      · exact .inl hx
      · refine .inr ⟨rfl, ?_⟩
        rwa [World.seen, hwork, Option.getD_some]

variable [ResilientStore σ] [ClosedStore σ]

theorem Intact.call (h : w.Intact) (scope : Scope) {sh : Shape} (c : Call sh) :
    (answerCall scope sh c w).2.Intact := by
  rcases hon : c.on (w.seen scope) w.clock with ⟨⟨r, after⟩, k⟩
  obtain ⟨-, hfaults, hstore, hwork⟩ := answerCall_keeps h.calm scope c hon
  have hafter : Sound (w.seen scope) → Sound after ∨ BrokenOff after ∧ r.toBool = false := by
    intro hs
    cases r with
    | ok a => exact .inl (sound_on hs hon)
    | error e => exact (ClosedStore.failed_on hs hon).imp id fun hb => ⟨hb.2, rfl⟩
  refine ⟨hfaults, ?_, ?_⟩
  · rw [hstore]
    cases scope with
    | inside => exact h.committed
    | outside =>
      cases hr : r.toBool with
      | false => exact h.committed
      | true =>
        rcases hafter h.committed with hs | ⟨-, hfailed⟩
        · exact hs
        · cases hr.symm.trans hfailed
  · rw [hwork]
    cases scope with
    | outside =>
      cases r.toBool <;> exact h.working
    | inside =>
      rintro x ⟨⟩
      rcases h.seen .inside with hs | ⟨-, hb⟩
      · exact (hafter hs).imp id And.left
      · exact .inr (ClosedStore.brokenOff_on hb hon)

/-- Whatever is called, the committed store stays sound. -/
theorem Called.intact (h : w.Called) : w.Intact := by
  induction h with
  | initial draws clock level => exact intact_initial draws clock level
  | call _ scope c ih => exact ih.call scope c
  | begin _ ih => exact ih.begin
  | commit _ ih => exact ih.commit
  | rollBack _ e ih => exact ih.rollBack e
  | elapse _ clock ih => exact ⟨ih.calm, ih.committed, ih.working⟩

/-- A call leaves a transaction with a sound store, unless it is an insertion that fails. -/
theorem Intact.call_working (h : w.Intact) (hwork : ∀ x, w.work = some x → Sound x) (scope : Scope)
    {sh : Shape} (c : Call sh)
    (hc : scope = .inside → c.Inserts → (answerCall scope sh c w).1.toBool = true) :
    ∀ x, (answerCall scope sh c w).2.work = some x → Sound x := by
  rcases hon : c.on (w.seen scope) w.clock with ⟨⟨r, after⟩, k⟩
  obtain ⟨hanswer, -, -, hafter⟩ := answerCall_keeps h.calm scope c hon
  rw [hafter]
  cases scope with
  | outside =>
    cases r.toBool <;> exact hwork
  | inside =>
    rintro x ⟨⟩
    have hs : Sound (w.seen .inside) := by
      show Sound (w.work.getD w.store)
      cases hw : w.work with
      | none => exact h.committed
      | some x => exact hwork x hw
    cases r with
    | ok a => exact sound_on hs hon
    | error e =>
      refine (ClosedStore.failed_on hs hon).resolve_right fun ⟨hinserts, _⟩ => ?_
      cases hanswer.symm.trans (hc rfl hinserts)

/-- Until an insertion fails in it, a transaction works on a sound store. -/
theorem Unbroken.sound (h : w.Unbroken) : ∀ x, w.work = some x → Sound x := by
  have hover {v : World σ} (hv : v.work = none) : ∀ x, v.work = some x → Sound x :=
    fun x hx => absurd (hv.symm.trans hx) nofun
  induction h with
  | initial draws clock level => exact hover (work_initial draws clock level)
  | call h scope c hc ih => exact h.called.intact.call_working ih scope c hc
  | begin h =>
    rintro x ⟨⟩
    exact h.intact.committed
  | commit => exact hover rfl
  | rollBack _ e => exact hover (work_rollBack e)
  | elapse _ clock ih => exact ih

end Steps

end World

/-- An operation of a scenario that calls on the store, by itself or in a transaction that is written
out, or that changes nothing. -/
def Op.Calls : Op → Prop
  | .call _ _ | .script _ _ _ | .snapshot | .fail _ => True
  | _ => False

namespace World.Called

variable {w : World σ}

/-- The steps of a transaction are calls. -/
theorem steps (h : w.Called) (steps : List Step) : (Step.runAll steps w).2.Called := by
  induction steps generalizing w with
  | nil => exact h
  | cons step steps ih =>
    have hstep : (step.run w).2.Called := by
      cases step with
      | call scope sh c caught => exact h.call scope c
      | fail e caught => exact h
    rw [Step.runAll]
    rcases hrun : step.run w with ⟨e | reply, w₁⟩ <;> rw [hrun] at hstep
    · dsimp only
      split
      · exact ih hstep
      · exact hstep
    · exact ih hstep

variable [LawfulStore σ] [ResilientStore σ] [ClosedStore σ]

theorem script (h : w.Called) (value : Json) (steps : List Step) :
    (runScript value steps w).2.Called := by
  rw [runScript, World.pass_of_no_faults w _ h.intact.calm]
  have hsteps := h.begin.steps steps
  dsimp only
  rcases hrun : Step.runAll steps w.begin with ⟨⟨answers, _ | e⟩, w₁⟩ <;> rw [hrun] at hsteps
  · exact hsteps.commit
  · exact hsteps.rollBack _

theorem silentScript (h : w.Called) (steps : List Step) :
    (runSilentScript steps w).2.Called := by
  rw [runSilentScript, World.pass_of_no_faults w _ h.intact.calm]
  exact h.script .null steps

theorem run (h : w.Called) {op : Op} (hop : op.Calls) : (op.run w).2.Called := by
  cases op with
  | call sh c => exact h.call .outside c
  | script silent value steps =>
    cases silent with
    | true => exact h.silentScript steps
    | false => exact h.script value steps
  | snapshot | fail => exact h
  | _ => exact hop.elim

/-- Operations of a scenario that call on the store lead where calls lead. -/
theorem runAll (h : w.Called) {ops : List Op} (hops : ∀ op ∈ ops, op.Calls) :
    (Op.runAll ops w).2.Called := by
  induction ops generalizing w with
  | nil => exact h
  | cons op ops ih =>
    exact ih (h.run (hops op List.mem_cons_self)) fun op' hop => hops op' (List.mem_cons_of_mem op hop)

end World.Called

end ReviewDesk
