import ReviewDesk.Proofs.Enduring

/-!
# Failures that lie in wait for a job

Any number of failures may lie in wait. A job that ends well has met none of them, and so it ends in
the same way where none lies in wait: `Job.Steady` says this of jobs that take no failure for an
answer. Neither the store nor the transaction writes a report into the journal:
`Job.ReportsNothing` says this of all that the desk does up to the end of a transaction.
-/
namespace ReviewDesk

/-- Whether an event reports what became of a use case. -/
def Event.isReport : Event → Bool
  | .teamCreated _ _ | .activityChanged _ _ | .pullRequestCreated _ _ _ | .pullRequestMerged _ _
  | .reviewerReassigned _ _ _ | .usersDeactivated _ _ _ => true
  | _ => false

/-- Reports are written at the level of information. -/
theorem Event.level_of_isReport {e : Event} (h : e.isReport = true) : e.record.level = .info := by
  cases e <;> first | rfl | cases h

namespace Journal

/-- The reports in the order in which they were written. -/
def reports (j : Journal) : List Event := (j.entries.map Entry.event).filter Event.isReport

theorem reports_note {j : Journal} {e : Event} (he : e.isReport = true)
    (hlevel : j.level.rank ≤ Level.info.rank) : (j.note e).reports = j.reports ++ [e] := by
  have hserious : j.level.rank ≤ e.record.level.rank := by rwa [Event.level_of_isReport he]
  simp [reports, entries_note j e hserious, he]

theorem reports_note_of_not {j : Journal} {e : Event} (he : e.isReport = false) :
    (j.note e).reports = j.reports := by
  by_cases hlevel : j.level.rank ≤ e.record.level.rank
  · simp [reports, entries_note j e hlevel, he]
  · rw [note, if_neg hlevel]

end Journal

namespace World

variable {σ : Type}

/-- Whether all that lies in wait is failures. -/
def Raising (w : World σ) : Prop := ∀ f ∈ w.faults, ∃ e, f.effect = .fail e

/-- Nothing was reported between two worlds, and what lies in wait by then is failures. -/
structure SameReports (w w' : World σ) : Prop where
  level : w'.journal.level = w.journal.level
  reports : w'.journal.reports = w.journal.reports
  raising : w'.Raising

theorem Raising.sameReports {w : World σ} (h : w.Raising) : w.SameReports w := ⟨rfl, rfl, h⟩

theorem SameReports.trans {u v w : World σ} (h : u.SameReports v) (h' : v.SameReports w) :
    u.SameReports w :=
  ⟨h'.level.trans h.level, h'.reports.trans h.reports, h'.raising⟩

theorem Raising.note {w : World σ} (h : w.Raising) {e : Event} (he : e.isReport = false) :
    w.SameReports (w.note e) :=
  ⟨Journal.note_level _ _, Journal.reports_note_of_not he, h⟩

/-- What strikes is a failure, and what is left are failures. -/
theorem Raising.pass {w : World σ} (h : w.Raising) (p : Point) :
    ∃ fs, (w.facing fs).Raising ∧
      (w.pass p = (none, w.facing fs) ∨ ∃ e, w.pass p = (some (.fail e), w.facing fs)) := by
  have hstrike (fs : List Fault) (hfs : ∀ f ∈ fs, ∃ e, f.effect = .fail e) :
      (∀ f ∈ (Fault.strike p fs).2, ∃ e, f.effect = .fail e) ∧
        ((Fault.strike p fs).1 = none ∨ ∃ e, (Fault.strike p fs).1 = some (.fail e)) := by
    induction fs with
    | nil => exact ⟨nofun, .inl rfl⟩
    | cons f fs ih =>
      obtain ⟨hf, hrest⟩ := List.forall_mem_cons.1 hfs
      rw [Fault.strike]
      split
      · split
        · obtain ⟨e, he⟩ := hf
          exact ⟨hrest, .inr ⟨e, congrArg some he⟩⟩
        · exact ⟨List.forall_mem_cons.2 ⟨hf, hrest⟩, .inl rfl⟩
      · exact ⟨List.forall_mem_cons.2 ⟨hf, (ih hrest).1⟩, (ih hrest).2⟩
  obtain ⟨hleft, hnone | ⟨e, he⟩⟩ := hstrike w.faults h
  · exact ⟨_, hleft, .inl (Prod.ext hnone rfl)⟩
  · exact ⟨_, hleft, .inr ⟨e, Prod.ext he rfl⟩⟩

/-- Of a transaction that fails nothing is reported. -/
theorem Raising.rollBack [Gateway σ] {w : World σ} (h : w.Raising) (e : Failure) :
    w.SameReports (w.rollBack e).2 := by
  unfold World.rollBack
  split
  · have hover : ({ w with work := none } : World σ).Raising := h
    obtain ⟨hlevel, hreports, hraising⟩ := hover.note (e := .transactionFailed e.text) rfl
    exact ⟨hlevel, hreports, hraising⟩
  · exact ⟨rfl, rfl, h⟩

end World

namespace Job

variable {σ α β : Type}

/-- A job that reports nothing, whatever failures lie in wait for it. -/
def ReportsNothing (x : Job σ α) : Prop := ∀ w : World σ, w.Raising → w.SameReports (x w).2

/-- A job that reports nothing, and that ends well where failures lie in wait only if it ends in the
same way where none lies in wait. -/
structure Steady (x : Job σ α) : Prop where
  reportsNothing : x.ReportsNothing
  braves : ∀ (w : World σ) a w', w.Raising → x w = (.ok a, w') → x (w.facing []) = (.ok a, w'.facing [])

section Rules

variable {x : Job σ α} {f : α → Job σ β}

theorem ReportsNothing.bind (hx : x.ReportsNothing) (hf : ∀ a, (f a).ReportsNothing) :
    (x >>= f).ReportsNothing := by
  intro w hw
  have hfirst := hx w hw
  rw [bind_apply]
  rcases hr : x w with ⟨e | a, w'⟩ <;> rw [hr] at hfirst
  · exact hfirst
  · exact hfirst.trans (hf a w' hfirst.raising)

theorem reportsNothing_ensureAbsent {absent taken : Refusal} (hx : x.ReportsNothing) :
    (ensureAbsent x absent taken).ReportsNothing := by
  intro w hw
  rw [ensureAbsent_snd]
  exact hx w hw

theorem Steady.bind (hx : x.Steady) (hf : ∀ a, (f a).Steady) : (x >>= f).Steady where
  reportsNothing := hx.reportsNothing.bind fun a => (hf a).reportsNothing
  braves w b w' hw h := by
    have hfirst := hx.reportsNothing w hw
    rw [bind_apply] at h ⊢
    rcases hr : x w with ⟨e | a, w₁⟩ <;> rw [hr] at h hfirst
    · cases h
    · rw [hx.braves w a w₁ hw hr]
      exact (hf a).braves w₁ b w' hfirst.raising h

theorem Steady.ite {c : Prop} [Decidable c] {y : Job σ α} (hx : x.Steady) (hy : y.Steady) :
    (if c then x else y).Steady := by
  split
  · exact hx
  · exact hy

/-- What takes no notice of faults does not meet them. -/
theorem IgnoresFaults.steady (hx : x.IgnoresFaults)
    (hlevel : ∀ w, (x w).2.journal.level = w.journal.level)
    (hreports : ∀ w, (x w).2.journal.reports = w.journal.reports) : x.Steady := by
  have hfaults (w : World σ) : (x w).2.faults = w.faults := by
    have hself := hx w w.faults
    rw [World.facing_self rfl] at hself
    exact congrArg (fun r => r.2.faults) hself
  refine ⟨fun w hw => ⟨hlevel w, hreports w, ?_⟩, fun w a w' _ h => ?_⟩
  · intro f hf
    exact hw f (hfaults w ▸ hf)
  · have hwith := hx w w.faults
    rw [World.facing_self rfl, h] at hwith
    have hclean : (x (w.facing [])).2.facing [] = (x (w.facing [])).2 :=
      World.facing_self (hfaults _)
    obtain ⟨hanswer, rfl⟩ := Prod.mk.inj hwith
    exact Prod.ext hanswer.symm hclean.symm

theorem steady_ofExcept (r : Except Failure α) : (ofExcept r : Job σ α).Steady :=
  (quiet_ofExcept r).ignoresFaults.steady (fun _ => rfl) fun _ => rfl

theorem steady_pure (a : α) : (pure a : Job σ α).Steady := steady_ofExcept (.ok a)

theorem steady_fail (e : Failure) : (fail e : Job σ α).Steady := steady_ofExcept (.error e)

theorem steady_choose (f : ReviewDesk.Draws → α × ReviewDesk.Draws) : (choose f : Job σ α).Steady :=
  (quiet_choose f).ignoresFaults.steady (fun _ => rfl) fun _ => rfl

theorem steady_now : (now : Job σ Timestamp).Steady := by
  refine quiet_now.ignoresFaults.steady (fun w => ?_) fun w => ?_ <;> rw [now] <;> split <;> rfl

/-- A fault that strikes is a failure, so that nothing is done instead. -/
theorem Steady.guarded {q : Point} {instead : Substitute → Job σ α} (hx : x.Steady) :
    (guarded q instead x).Steady := by
  refine ⟨fun w hw => ?_, fun w a w' hw h => ?_⟩
  · obtain ⟨fs, hfs, hpass | ⟨e, hpass⟩⟩ := hw.pass q <;> rw [Job.guarded, hpass]
    · exact (⟨rfl, rfl, hfs⟩ : w.SameReports (w.facing fs)).trans (hx.reportsNothing _ hfs)
    · exact ⟨rfl, rfl, hfs⟩
  · have hclear : Job.guarded q instead x (w.facing []) = x (w.facing []) := by
      rw [Job.guarded, World.pass_facing_nil]
    rw [hclear]
    obtain ⟨fs, hfs, hpass | ⟨e, hpass⟩⟩ := hw.pass q <;> rw [Job.guarded, hpass] at h
    · exact hx.braves (w.facing fs) a w' hfs h
    · cases h

variable [Gateway σ]

theorem steady_perform {sh : Shape} (scope : Scope) (c : Call sh) :
    (perform scope c : Job σ sh.Answer).Steady := by
  have hkeep (w : World σ) (b : Bool) (s : σ) : (w.keep scope b s).journal = w.journal := by
    cases scope <;> cases b <;> rfl
  refine (ignoresFaults_perform scope c).steady (fun w => ?_) fun w => ?_ <;>
    rw [perform] <;> rcases c.on (w.seen scope) w.clock with ⟨⟨r, after⟩, k⟩
  · rcases r with e | a
    · cases e <;> simp [World.note, hkeep]
    · simp [hkeep]
  · rcases r with e | a
    · cases e with
      | storage operation =>
        exact (Journal.reports_note_of_not rfl).trans (congrArg Journal.reports (hkeep _ _ _))
      | storageBecause operation cause =>
        exact (Journal.reports_note_of_not rfl).trans (congrArg Journal.reports (hkeep _ _ _))
      | _ => exact congrArg Journal.reports (hkeep _ _ _)
    · exact congrArg Journal.reports (hkeep _ _ _)

theorem steady_ask {sh : Shape} (scope : Scope) (c : Call sh) :
    (ask scope c : Job σ (Given sh.Answer)).Steady := by
  have hreach : (reach scope c : Job σ sh.Answer).Steady := by
    cases c with
    | activeMembers team except =>
      unfold reach
      simp only
      exact .ite (steady_perform scope _).guarded (steady_perform scope _)
    | _ =>
      unfold reach
      exact steady_perform scope _
  exact (hreach.bind fun _ => steady_pure _).guarded

theorem steady_look {sh : Shape} (part : String) (scope : Scope) (c : Call sh) :
    (look part scope c : Job σ sh.Answer).Steady :=
  (steady_ask scope c).bind fun _ => steady_ofExcept _

theorem steady_tell (scope : Scope) (c : Call .nothing) : (tell scope c : Job σ Unit).Steady :=
  (steady_ask scope c).bind fun _ => steady_pure _

theorem steady_transaction {body : Job σ (Given α)} (h : body.Steady) :
    (transaction body).Steady := by
  refine Steady.guarded ⟨fun w hw => ?_, fun w a w' hw hx => ?_⟩
  · have hbody := h.reportsNothing w.begin hw
    rw [transact]
    rcases hr : body w.begin with ⟨e | a, w'⟩ <;> rw [hr] at hbody
    · obtain ⟨hlevel, hreports, hraising⟩ := hbody.trans (hbody.raising.rollBack e)
      exact ⟨hlevel, hreports, hraising⟩
    · exact ⟨hbody.level, hbody.reports, hbody.raising⟩
  · have hbegin : (w.facing []).begin = w.begin.facing [] := rfl
    rw [transact] at hx ⊢
    rcases hr : body w.begin with ⟨e | b, w₁⟩ <;> rw [hr] at hx
    · cases hx
    · rw [hbegin, h.braves w.begin b w₁ hw hr]
      cases hx
      rfl

theorem steady_silently {body : Job σ Unit} (h : body.Steady) : (silently body).Steady :=
  ((steady_transaction (h.bind fun _ => steady_pure _)).bind fun _ => steady_pure _).guarded

end Rules

end Job

open Job

namespace World

variable {σ α : Type} [Gateway σ] {w w' : World σ} {e : Failure}

/-- A transaction that does not begin, or that fails, leaves the store as it was. -/
theorem Raising.transaction_error {body : Job σ (Given α)} (hw : w.Raising)
    (h : body.Propagates fun _ _ => False) (hx : transaction body w = (.error e, w')) :
    w'.store = w.store := by
  obtain ⟨fs, -, hpass | ⟨e', hpass⟩⟩ := hw.pass .transaction <;>
    rw [transaction, guarded, hpass] at hx
  · exact transact_error (w := w.facing fs) h hx
  · cases hx
    rfl

theorem Raising.silently_error {body : Job σ Unit} (hw : w.Raising)
    (h : body.Propagates fun _ _ => False) (hx : silently body w = (.error e, w')) :
    w'.store = w.store := by
  have hbody : (do return .own (← body) : Job σ (Given Unit)).Propagates fun _ _ => False :=
    h.bind fun _ => propagates_pure _
  obtain ⟨fs, hfs, hpass | ⟨e', hpass⟩⟩ := hw.pass .silentTransaction <;>
    rw [silently, guarded, hpass] at hx
  · rcases bind_error (w := w.facing fs) hx with hr | ⟨a, w₁, -, hx⟩
    · exact hfs.transaction_error hbody hr
    · cases hx
  · cases hx
    rfl

end World

variable {σ : Type} [Gateway σ]

section Bodies

open Roster Review Departure

theorem steady_foundNow (t : Team) : (foundNow t : Job σ (Given Team)).Steady :=
  (steady_tell _ _).bind fun _ => (steady_tell _ _).bind fun _ => steady_ask _ _

theorem steady_switchNow (id : Text) (active : Bool) : (switchNow id active : Job σ Unit).Steady :=
  (steady_look _ _ _).bind fun _ => steady_tell _ _

theorem steady_teammates (scope : Scope) (team : Option Text) (except : Text) :
    (teammates scope team except : Job σ (List Text)).Steady := by
  cases team with
  | none => exact steady_pure _
  | some name => exact (steady_ask _ _).bind fun _ => steady_ofExcept _

theorem steady_openNow (id name author : Text) (reviewers : List Text) :
    (openNow id name author reviewers : Job σ (Given PullRequest)).Steady :=
  steady_now.bind fun _ => (steady_tell _ _).bind fun _ => (steady_tell _ _).bind fun _ =>
    steady_ask _ _

theorem steady_mergeNow (id : Text) : (mergeNow id : Job σ (Given PullRequest)).Steady :=
  (steady_look _ _ _).bind fun _ => .ite (steady_pure _) <|
    steady_now.bind fun _ => (steady_tell _ _).bind fun _ => steady_ask _ _

theorem steady_hand (id old : Text) (successor : Option Text) :
    (hand id old successor : Job σ Unit).Steady := by
  cases successor with
  | none => exact steady_tell _ _
  | some new => exact steady_tell _ _

theorem steady_reassignNow (id old : Text) :
    (reassignNow id old : Job σ (Given (Given PullRequest × Option Text))).Steady := by
  refine (steady_look _ _ _).bind fun current => .ite (steady_fail _) ?_
  refine (steady_ask _ _).bind fun reviewers => (steady_ofExcept _).bind fun assigned =>
    .ite (steady_fail _) ?_
  refine (steady_look _ _ _).bind fun reviewer =>
    (steady_teammates _ _ _).bind fun candidates => (steady_choose _).bind fun taken => ?_
  exact (steady_hand _ _ _).bind fun _ => (steady_ask _ _).bind fun _ => steady_pure _

theorem steady_relieve (id : Text) (leaving pool : List Text) :
    (relieve id leaving pool : Job σ (List Reassignment)).Steady := by
  induction leaving generalizing pool with
  | nil => exact steady_pure _
  | cons old leaving ih =>
    exact (steady_choose _).bind fun taken => (steady_hand _ _ _).bind fun _ =>
      (ih taken.2).bind fun _ => steady_pure _

theorem steady_relieveOn (leaving : List Text) (staying : Given (List User))
    (batch : Given (List (Text × List Text))) (p : PullRequest) :
    (relieveOn leaving staying batch p : Job σ (List Reassignment)).Steady :=
  (steady_ofExcept _).bind fun _ => (steady_ofExcept _).bind fun _ => .ite (steady_pure _) <|
    (steady_ofExcept _).bind fun _ => steady_relieve _ _ _

theorem steady_cascade (leaving : List Text) (staying : Given (List User))
    (batch : Given (List (Text × List Text))) (ps : List PullRequest) :
    (cascade leaving staying batch ps : Job σ (List Reassignment)).Steady := by
  induction ps with
  | nil => exact steady_pure _
  | cons p ps ih =>
    unfold cascade
    refine .ite ?_ (ih.bind fun _ => steady_pure _)
    exact (steady_relieveOn _ _ _ _).bind fun _ => ih.bind fun _ => steady_pure _

theorem steady_departNow (team : Text) (leaving : List Text) :
    (departNow team leaving : Job σ (Given (List Reassignment))).Steady := by
  refine (steady_ask _ _).bind fun given => (steady_tell _ _).bind fun _ =>
    (steady_ofExcept _).bind fun opened => .ite (steady_pure _) ?_
  exact (steady_ask _ _).bind fun batch => (steady_ask _ _).bind fun staying =>
    (steady_cascade _ _ _ _).bind fun _ => steady_pure _

end Bodies

section Plans

open Roster Review Departure

theorem steady_depart (team : Text) (users : List Text) :
    (depart team users : Job σ (Plan σ Deactivation)).Steady := by
  refine .ite (steady_pure _) ?_
  refine (steady_ask _ _).bind fun _ => (steady_ask _ _).bind fun members =>
    (steady_ofExcept _).bind fun ids => ?_
  split
  · exact steady_fail _
  · exact steady_pure _

theorem reportsNothing_found (t : Team) : (found t : Job σ (Plan σ Team)).ReportsNothing := by
  unfold found
  split
  · exact (steady_fail _).reportsNothing
  · exact (reportsNothing_ensureAbsent (steady_ask _ _).reportsNothing).bind fun _ =>
      (steady_pure _).reportsNothing

theorem reportsNothing_opening (id name author : Text) :
    (opening id name author : Job σ (Plan σ PullRequest)).ReportsNothing := by
  refine (steady_ask _ _).reportsNothing.bind fun given =>
    (reportsNothing_ensureAbsent (steady_ask _ _).reportsNothing).bind fun _ => ?_
  exact ((steady_ofExcept _).bind fun writer => (steady_teammates _ _ _).bind fun candidates =>
    (steady_choose _).bind fun reviewers => steady_pure _).reportsNothing

/-- Whether a use case looks whether something is absent, and takes a refusal for the answer. -/
def UseCase.Hopes : UseCase → Prop
  | .found _ | .opening _ _ _ => True
  | _ => False

/-- Looking around is steady where no failure is taken for an answer. -/
theorem steady_plan {u : UseCase} (h : ¬ u.Hopes) : (u.plan : Job σ (Plan σ Reply)).Steady := by
  cases u with
  | found t => exact absurd trivial h
  | team name => exact (steady_ask _ _).bind fun _ => steady_pure _
  | depart team users => exact (steady_depart team users).bind fun _ => steady_pure _
  | departAll team =>
    exact ((steady_look _ _ _).bind fun _ => steady_depart _ _).bind fun _ => steady_pure _
  | switch user active =>
    exact ((steady_ask _ _).bind fun _ => steady_pure _).bind fun _ => steady_pure _
  | reviewedBy user =>
    exact ((steady_ask _ _).bind fun _ => steady_ask _ _).bind fun _ => steady_pure _
  | countsOf user =>
    exact ((steady_ask _ _).bind fun _ => steady_ask _ _).bind fun _ => steady_pure _
  | opening id name author => exact absurd trivial h
  | merge id =>
    exact ((steady_look _ _ _).bind fun _ => .ite (steady_pure _) (steady_pure _)).bind fun _ =>
      steady_pure _
  | reassign id old =>
    exact ((steady_look _ _ _).bind fun _ => .ite (steady_fail _) (steady_pure _)).bind fun _ =>
      steady_pure _
  | totals => exact (steady_ask _ _).bind fun _ => steady_pure _

/-- Looking around reports nothing. -/
theorem reportsNothing_plan (u : UseCase) : (u.plan : Job σ (Plan σ Reply)).ReportsNothing := by
  by_cases h : u.Hopes
  · cases u with
    | found t => exact (reportsNothing_found t).bind fun _ => (steady_pure _).reportsNothing
    | opening id name author =>
      exact (reportsNothing_opening id name author).bind fun _ => (steady_pure _).reportsNothing
    | _ => exact h.elim
  · exact (steady_plan h).reportsNothing

end Plans

end ReviewDesk
