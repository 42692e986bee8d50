import Mathlib
import ReviewDesk.Proofs.Closing
import ReviewDesk.Proofs.Commits
import ReviewDesk.Proofs.Store.Keyed

/-!
# The journal is an audit of what was committed

Use cases are asked for one after the other, and in the middle of one, just before its transaction
begins, others may be; before each of them failures may be laid in wait. However such a run goes,
the reports in the journal are those of the transactions that were committed, in the order of the
commits, one for each of them.

Main definition: `Errand.commits`, the commits of a run.
-/
namespace ReviewDesk

open Job LawfulStore

/-- A failure that is laid in wait at a place. -/
structure Hazard where
  point : Point
  skip : Nat
  failure : Failure

/-- Failures are laid in wait. -/
instance : Deed Hazard := ⟨fun h => .fault ⟨h.point, h.skip, .fail h.failure⟩⟩

section Definitions

variable {σ : Type} [Gateway σ]

/-- Who is to review a pull request that is opened: what looking around draws for it. -/
def Review.drawn (id author : Text) : Job σ (List Text) := do
  let given ← ask .outside (.user author)
  ensureAbsent (ask .outside (.pullRequest id)) .pullRequestNotFound .pullRequestExists
  let writer ← ofExcept (given.part "team_name")
  let candidates ← teammates .outside writer.team author
  choose (selectUpTo candidates reviewerLimit)

theorem Review.opening_eq (id name author : Text) :
    (Review.opening id name author : Job σ (Plan σ PullRequest)) = do
      let reviewers ← drawn id author
      return .pending do
        let opened ← ofExcept ((← transaction (openNow id name author reviewers)).part "reviewers")
        note (.pullRequestCreated id author opened.reviewers)
        return opened := by
  simp only [Review.opening, drawn, bind_assoc]

/-- The undertaking that a use case has left to do if it looks around in a world and an undertaking
is left. -/
def UseCase.undertaking (u : UseCase) (w : World σ) : Option Undertaking :=
  match u with
  | .found t => some (.found t)
  | .depart name users => some (.depart name users.eraseDups)
  | .departAll name =>
    match look "members" .outside (.team name) w with
    | (.ok t, _) => some (.depart name ((t.members.filter User.active).map User.id).eraseDups)
    | (.error _, _) => none
  | .switch user active => some (.switch user active)
  | .opening id name author =>
    match Review.drawn id author w with
    | (.ok reviewers, _) => some (.opening id name author reviewers)
    | (.error _, _) => none
  | .merge id => some (.merge id)
  | .reassign id old => some (.reassign id old)
  | _ => none

/-- The undertaking that a use case has left to do after looking around, and the world by then. -/
def UseCase.pending (u : UseCase) (w : World σ) : Option (Undertaking × World σ) :=
  match u.plan w, u.undertaking w with
  | (.ok (.pending _), w₁), some t => some (t, w₁)
  | _, _ => none

/-- The world where no failure lies in wait for a silent transaction. -/
def World.sparing (w : World σ) : World σ :=
  w.facing (w.faults.filter fun f => f.point ≠ .silentTransaction)

variable [LawfulStore σ]

mutual
/-- The transactions that are committed in the course of an errand, in the order of the commits. -/
def Errand.commits : Errand Hazard → World σ → List Commit
  | .alone u, w =>
    match u.pending w with
    | some (t, w₁) => t.commits u w₁
    | none => []
  | .request u before, w =>
    match u.pending w with
    | some (t, w₁) =>
      Errand.commitsAll before w₁ ++ t.commits u (Op.runAll (Errand.ops before) w₁).2.sparing
    | none => []
  | .deed _, _ => []
/-- The transactions that are committed in the course of errands. -/
def Errand.commitsAll : List (Errand Hazard) → World σ → List Commit
  | [], _ => []
  | e :: es, w => e.commits w ++ Errand.commitsAll es (e.op.run w).2
end

end Definitions

variable {σ : Type} [Gateway σ] [LawfulStore σ] {w w₁ : World σ} {u : UseCase}

section Looking

variable {rest : Job σ Reply}

omit [Gateway σ] [LawfulStore σ] in
/-- What is found out by looking where failures lie in wait is what is found out where none does. -/
theorem Job.Steady.looks {α : Type} {x : Job σ α} (hx : x.Steady) (hw : w.Raising) {a : α}
    (h : x w = (.ok a, w₁)) {good : α → Prop} {bad : Failure → Prop}
    (hlooks : x.Looks (w.facing []) good bad) : good a ∧ w₁.store = w.store ∧ w₁.Raising := by
  have hclear := hx.braves w a w₁ hw h
  have hsilent := hx.reportsNothing w hw
  rw [h] at hsilent
  rcases hlooks with ⟨b, hb, hgood⟩ | ⟨e, he, -⟩
  · obtain ⟨hab, hstore⟩ := Prod.mk.inj (hclear.symm.trans hb)
    cases hab
    have hsame : (w₁.facing []).store = (w.facing []).store := congrArg World.store hstore
    exact ⟨hgood, hsame, hsilent.raising⟩
  · rw [hclear] at he
    cases he

/-- Where no failure is taken for an answer, what is left to do was advised. -/
theorem Auditable.advised_of_steady (h : Auditable w) (hu : ¬ u.Hopes)
    (hplan : u.plan w = (.ok (.pending rest), w₁)) :
    ∃ t, u.Undertakes t ∧ rest = t.rest ∧ t.Advised (contents w.store) := by
  have hclear := (steady_plan hu).braves w _ w₁ h.raising hplan
  rcases Undertaking.plan_cases (w := w.facing []) rfl h.sound u with
    ⟨e, w', hplan', -⟩ | ⟨a, w', hplan', -⟩ | ⟨t, d, hplan', ha, ht⟩ <;> rw [hclear] at hplan' <;>
    have hanswer := (Prod.mk.inj hplan').1
  · cases hanswer
  · cases hanswer
  · cases hanswer
    exact ⟨t, ht, rfl, ha⟩

/-- All active members of a team are let go who are listed when looking around. -/
theorem Auditable.advised_departAll (h : Auditable w) {team : Text}
    (hplan : (UseCase.departAll team).plan w = (.ok (.pending rest), w₁)) :
    ∃ t, (UseCase.departAll team).undertaking w = some t ∧ rest = t.rest ∧
      t.Advised (contents w.store) := by
  obtain ⟨p, w', hall, hp⟩ := bind_ok hplan
  obtain ⟨t, w₂, hteam, hdepart⟩ := bind_ok hall
  have hlook : (look "members" .outside (.team team) : Job σ Team).Looks (w.facing [])
      (fun _ => True) (fun _ => True) :=
    looks_look "members" rfl (fun _ => rfl) (team_lookup team h.sound) (fun _ _ _ => trivial)
      fun _ _ _ => trivial
  obtain ⟨-, hstore, hraising⟩ := (steady_look _ _ _).looks h.raising hteam hlook
  obtain ⟨hgood, -⟩ := (steady_depart team _).looks hraising hdepart
    (Undertaking.looks_depart (w := w₂.facing []) rfl (hstore ▸ h.sound) team _)
  refine ⟨.depart team ((t.members.filter User.active).map User.id).eraseDups, ?_, ?_⟩
  · rw [UseCase.undertaking, hteam]
  · rcases hgood with ⟨-, a, rfl⟩ | ⟨hmap, ht, hids⟩
    · cases hp
    · have hstore' : (w₂.facing []).store = w.store := hstore
      rw [hstore'] at ht hids
      rw [pure_apply, hmap] at hp
      cases hp
      exact ⟨rfl, Undertaking.advised_depart ht hids⟩

/-- The author is there, and so are those who are drawn, even if a failure was taken for the answer
that the id is free. -/
theorem Auditable.drawn (h : Auditable w) {id author : Text} {reviewers : List Text}
    (hdrawn : Review.drawn id author w = (.ok reviewers, w₁)) :
    author ∈ (contents w.store).userIds ∧ reviewers.length ≤ 2 ∧
      ∀ r ∈ reviewers, r ≠ author ∧ r ∈ (contents w.store).userIds := by
  obtain ⟨given, w₂, huser, hrest⟩ := bind_ok hdrawn
  obtain ⟨⟨v, hv, rfl, rfl⟩, hstore, hraising⟩ := (steady_ask _ _).looks h.raising huser
    (Undertaking.looks_user (w := w.facing []) rfl h.sound author)
  obtain ⟨_, w₃, habsent, hrest⟩ := bind_ok hrest
  let absence : Job σ Unit := ensureAbsent (ask .outside (.pullRequest id)) .pullRequestNotFound
    .pullRequestExists
  have hsilent : w₂.SameReports (absence w₂).2 :=
    reportsNothing_ensureAbsent (steady_ask _ _).reportsNothing w₂ hraising
  have hpropagates : absence.Propagates fun _ _ => True :=
    propagates_ensureAbsent _ (fun _ _ => rfl) rfl fun _ => trivial
  have hstill := hpropagates.still w₂
  have habsence : absence w₂ = (.ok (), w₃) := habsent
  rw [habsence] at hsilent hstill
  have hsame : w₃.store = w.store := hstill.trans hstore
  have hpool : ∃ pool w₄, Review.teammates .outside v.team v.id w₃ = (.ok pool, w₄) ∧
      choose (selectUpTo pool Review.reviewerLimit) w₄ = (.ok reviewers, w₁) := bind_ok hrest
  obtain ⟨pool, w₄, hteam, hchoose⟩ := hpool
  obtain ⟨hothers, -⟩ := (steady_teammates _ _ _).looks hsilent.raising hteam
    (Undertaking.looks_teammates (w := w₃.facing []) rfl (hsame ▸ h.sound) v.team v.id)
  have hfacing : (w₃.facing []).store = w.store := hsame
  rw [hfacing, ← Contents.teammates_eq (injOn_user h.sound) hv] at hothers
  have hselected : selectUpTo ((contents w.store).teammates v.id).sort 2 w₄.draws =
      (reviewers, w₁.draws) := by
    rw [hothers] at hchoose
    cases hchoose
    rfl
  obtain ⟨-, hsub, hlength⟩ := Undertaking.drawn_spec 2 hselected
  refine ⟨((contents w.store).mem_userIds v.id).2 ⟨v, hv, rfl⟩, by omega, fun r hr => ⟨?_, ?_⟩⟩
  · exact (((contents w.store).mem_teammates v.id r).1 (hsub r hr)).1
  · exact (contents w.store).teammates_subset_userIds v.id (hsub r hr)

theorem Auditable.advised_opening (h : Auditable w) {id name author : Text}
    (hplan : (UseCase.opening id name author).plan w = (.ok (.pending rest), w₁)) :
    ∃ t, (UseCase.opening id name author).undertaking w = some t ∧ rest = t.rest ∧
      t.Advised (contents w.store) := by
  obtain ⟨p, w', hopening, hp⟩ := bind_ok hplan
  rw [Review.opening_eq] at hopening
  obtain ⟨reviewers, w₂, hdrawn, hreviewers⟩ := bind_ok hopening
  cases hreviewers
  cases hp
  refine ⟨.opening id name author reviewers, ?_, rfl, h.drawn hdrawn⟩
  rw [UseCase.undertaking, hdrawn]

/-- What a use case has left to do is its undertaking, which was advised. -/
theorem Auditable.undertaking (h : Auditable w) (hplan : u.plan w = (.ok (.pending rest), w₁)) :
    ∃ t, u.undertaking w = some t ∧ rest = t.rest ∧ t.Advised (contents w.store) := by
  have hsteady (hu : ¬ u.Hopes) {t : Undertaking} (ht : u.undertaking w = some t)
      (honly : ∀ t', u.Undertakes t' → t' = t) :
      ∃ t, u.undertaking w = some t ∧ rest = t.rest ∧ t.Advised (contents w.store) := by
    obtain ⟨t', ht', hrest, ha⟩ := h.advised_of_steady hu hplan
    obtain rfl := honly t' ht'
    exact ⟨t', ht, hrest, ha⟩
  cases u with
  | found t =>
    obtain ⟨t', rfl, hrest⟩ := plan_returns _ _ _ _ hplan rest rfl
    refine ⟨.found t, rfl, hrest, ?_⟩
    obtain ⟨p, w', hfound, -⟩ := bind_ok hplan
    by_contra hname
    rw [Roster.found, if_pos (by simpa [Undertaking.Advised] using hname)] at hfound
    cases hfound
  | departAll name => exact h.advised_departAll hplan
  | opening id name author => exact h.advised_opening hplan
  | depart name users => exact hsteady id rfl fun _ ht => ht
  | switch user active => exact hsteady id rfl fun _ ht => ht
  | merge id => exact hsteady (fun h => h) rfl fun _ ht => ht
  | reassign id old => exact hsteady (fun h => h) rfl fun _ ht => ht
  | _ =>
    obtain ⟨t, ht, -⟩ := plan_returns _ _ _ _ hplan rest rfl
    exact ht.elim

end Looking

section Runs

/-- Looking around reports nothing and commits nothing. -/
theorem Auditable.looking (h : Auditable w) (u : UseCase) : Audited w (u.plan w).2 [] :=
  h.sameReports (reportsNothing_plan u w h.raising) ((propagates_plan u).still w)

/-- What looking around comes to: a failure or an answer, and nothing is pending, or an undertaking is
pending that was advised. -/
theorem Auditable.pending_cases (h : Auditable w) (u : UseCase) :
    (∃ e w₁, u.plan w = (.error e, w₁) ∧ u.pending w = none) ∨
    (∃ a w₁, u.plan w = (.ok (.finished a), w₁) ∧ u.pending w = none) ∨
    ∃ t w₁, u.plan w = (.ok (.pending t.rest), w₁) ∧ u.pending w = some (t, w₁) ∧
      u.undertaking w = some t ∧ t.Advised (contents w.store) := by
  rcases hplan : u.plan w with ⟨e | ⟨a⟩ | ⟨rest⟩, w₁⟩
  · refine .inl ⟨e, w₁, rfl, ?_⟩
    rw [UseCase.pending, hplan]
  · refine .inr (.inl ⟨a, w₁, rfl, ?_⟩)
    rw [UseCase.pending, hplan]
  · obtain ⟨t, ht, rfl, ha⟩ := h.undertaking hplan
    refine .inr (.inr ⟨t, w₁, rfl, ?_, ht, ha⟩)
    rw [UseCase.pending, hplan, ht]

/-- A failure that is laid in wait is neither reported nor committed. -/
theorem Auditable.lay (h : Auditable w) (p : Point) (skip : Nat) (e : Failure) :
    Audited w (w.facing ((⟨p, skip, .fail e⟩ : Fault).lay w.faults)) [] := by
  refine h.facing fun f hf => ?_
  rcases List.mem_cons.1 hf with rfl | hf
  · exact ⟨e, rfl⟩
  · exact h.raising f (List.mem_of_mem_filter hf)

variable [ResilientStore σ]

/-- Carrying out what a use case has left to do reports what it commits. -/
theorem Auditable.carryOut (h : Auditable w) {v : World σ} {t : Undertaking}
    (hu : u.undertaking v = some t) (ha : t.Advised (contents w.store)) :
    Audited w (t.rest w).2 (t.commits u w) := by
  cases u with
  | found team =>
    cases hu
    exact Undertaking.found_audited h team ha
  | depart name users =>
    cases hu
    exact Undertaking.depart_audited h (Rows.nodup_eraseDups users) rfl ha
  | departAll name =>
    rw [UseCase.undertaking] at hu
    split at hu
    · cases hu
      exact Undertaking.depart_audited h (Rows.nodup_eraseDups _) ⟨_, rfl⟩ ha
    · cases hu
  | switch id active =>
    cases hu
    exact Undertaking.switch_audited h id active ha
  | opening id name author =>
    rw [UseCase.undertaking] at hu
    split at hu
    · cases hu
      exact Undertaking.opening_audited h id name author _ ha
    · cases hu
  | merge id =>
    cases hu
    exact Undertaking.merge_audited h id ha
  | reassign id old =>
    cases hu
    exact Undertaking.reassign_audited h id old ha
  | _ => cases hu

/-- A request with nothing in between is audited. -/
theorem Auditable.run (h : Auditable w) (u : UseCase) :
    Audited w (u.run w).2 (match u.pending w with
      | some (t, w₁) => t.commits u w₁
      | none => []) := by
  have hlooking := h.looking u
  rw [UseCase.run, bind_apply]
  rcases h.pending_cases u with ⟨e, w₁, hplan, hnone⟩ | ⟨a, w₁, hplan, hnone⟩ |
    ⟨t, w₁, hplan, hsome, hu, ha⟩ <;> rw [hplan] at hlooking ⊢
  · rw [hnone]
    exact hlooking
  · rw [hnone]
    exact hlooking
  · rw [hsome]
    exact hlooking.trans (hlooking.auditable.carryOut hu (ha.mono hlooking.precedes))

/-- A request in whose middle something happens that is audited is audited itself. What lies in wait
for a silent transaction is laid aside for it. -/
theorem Auditable.interleaved (h : Auditable w) (u : UseCase) {β : Type}
    {between : World σ → β × World σ} {inner : World σ → List Commit}
    (hbetween : ∀ w, Auditable w → Audited w (between w).2 (inner w)) :
    Audited w (u.interleaved between w).2 (match u.pending w with
      | some (t, w₁) => inner w₁ ++ t.commits u (between w₁).2.sparing
      | none => []) := by
  have hlooking := h.looking u
  rw [UseCase.interleaved]
  rcases h.pending_cases u with ⟨e, w₁, hplan, hnone⟩ | ⟨a, w₁, hplan, hnone⟩ |
    ⟨t, w₁, hplan, hsome, hu, ha⟩ <;> rw [hplan] at hlooking ⊢
  · rw [hnone]
    exact hlooking
  · rw [hnone]
    exact hlooking
  · rw [hsome]
    have hinner : Audited w (between w₁).2 (inner w₁) :=
      hlooking.trans (hbetween w₁ hlooking.auditable)
    have hspared : Audited (between w₁).2 (between w₁).2.sparing [] :=
      hinner.auditable.facing fun f hf => hinner.auditable.raising f (List.mem_of_mem_filter hf)
    have hcarried := hspared.auditable.carryOut hu
      (ha.mono (hinner.precedes.trans hspared.precedes))
    let after := (t.rest (between w₁).2.sparing).2
    have hraising : (after.facing (after.faults ++
        (between w₁).2.faults.filter fun f => f.point = .silentTransaction)).Raising := by
      intro f hf
      rcases List.mem_append.1 hf with hf | hf
      · exact hcarried.auditable.raising f hf
      · exact hinner.auditable.raising f (List.mem_of_mem_filter hf)
    have hback := hcarried.auditable.facing hraising
    have hall := hinner.trans (hspared.trans (hcarried.trans hback))
    rw [List.append_nil] at hall
    exact hall

end Runs

mutual
/-- What an errand reports is what is committed in its course. -/
theorem Errand.audited [ResilientStore σ] (e : Errand Hazard) {w : World σ} (h : Auditable w) :
    Audited w (e.op.run w).2 (e.commits w) := by
  match e with
  | .alone u => exact h.run u
  | .request u before => exact h.interleaved u fun _ hw => Errand.audited_all before hw
  | .deed ⟨p, skip, e⟩ => exact h.lay p skip e
/-- What errands report is what is committed in their course. -/
theorem Errand.audited_all [ResilientStore σ] (es : List (Errand Hazard)) {w : World σ}
    (h : Auditable w) : Audited w (Op.runAll (Errand.ops es) w).2 (Errand.commitsAll es w) := by
  match es with
  | [] => exact h.sameReports h.raising.sameReports rfl
  | e :: es =>
    have hfirst := Errand.audited e h
    exact hfirst.trans (Errand.audited_all es hfirst.auditable)
end

/-- In the beginning nothing is reported. -/
theorem auditable_initial (draws : Draws) (clock : Clock) {level : Level}
    (hlevel : level = .debug ∨ level = .info) :
    Auditable (World.initial σ draws clock level) ∧
      (World.initial σ draws clock level).journal.reports = [] := by
  have ho : Orderly (World.initial σ draws clock level) := orderly_initial draws clock level
  have hraising : (World.initial σ draws clock level).Raising := by
    intro f hf
    rw [ho.faults] at hf
    cases hf
  have hjournal : (World.initial σ draws clock level).journal.level = level ∧
      (World.initial σ draws clock level).journal.reports = [] := by
    unfold World.initial
    simp only
    split
    · exact ⟨Journal.note_level _ _, Journal.reports_note_of_not rfl⟩
    · exact ⟨rfl, rfl⟩
  refine ⟨⟨hraising, ho.sound, ho.consistent, ?_⟩, hjournal.2⟩
  rw [hjournal.1]
  rcases hlevel with rfl | rfl <;> decide

/-- A run of requests from an empty store, with others in their middle and failures that lie in wait,
where the journal is kept at the level of information or of debugging. The reports are those of the
commits, in their order, one for each; the commits lead from nothing to what is in the store. -/
theorem reports_describe_commits [ResilientStore σ] (draws : Draws) (clock : Clock) {level : Level}
    (hlevel : level = .debug ∨ level = .info) (es : List (Errand Hazard)) :
    let w := World.initial σ draws clock level
    let w' := (Op.runAll (Errand.ops es) w).2
    w'.journal.reports.Forall₂ Event.Describes (Errand.commitsAll es w) ∧
      Commit.Chain .empty (Errand.commitsAll es w) (contents w'.store) := by
  intro w w'
  obtain ⟨hw, hreports⟩ := auditable_initial (σ := σ) draws clock hlevel
  have haudited : Audited w w' (Errand.commitsAll es w) := Errand.audited_all es hw
  obtain ⟨reports, hwritten, hdescribe⟩ := haudited.reports
  have hempty : contents w.store = .empty := by
    rw [(World.like_initial draws clock level).store]
    exact contents_empty
  refine ⟨?_, hempty ▸ haudited.chain⟩
  rw [hwritten, hreports]
  exact hdescribe

/-- A team is founded. The transaction of an opening does not begin, and in the middle of another
one the only teammate of the author, who is drawn by then, is switched inactive. Then all who are
left of the team leave, and that is the author. -/
theorem reports_describe_commits_of_lost :
    let team : Team := ⟨"T", [⟨"a", "Ann", none, true⟩, ⟨"b", "Bob", none, true⟩]⟩
    let es : List (Errand Hazard) := [.alone (.found team),
      .deed ⟨.transaction, 0, .boom "lost"⟩, .alone (.opening "p" "Title" "a"),
      .request (.opening "p" "Title" "a") [.alone (.switch "b" false)],
      .alone (.departAll "T")]
    let w := World.initial KeyedStore (.ofList []) ⟨0, 1, 0⟩ .info
    let w' := (Op.runAll (Errand.ops es) w).2
    (Level.info = .debug ∨ Level.info = .info) ∧
      w'.journal.reports =
        [.teamCreated "T" 2, .activityChanged "b" false, .pullRequestCreated "p" "a" ["b"],
          .usersDeactivated "T" ["a"] 0] ∧
      w'.journal.reports.Forall₂ Event.Describes (Errand.commitsAll es w) ∧
      Commit.Chain .empty (Errand.commitsAll es w) (contents w'.store) := by
  intro team es w w'
  refine ⟨.inr rfl, ?_, ?_⟩
  · unfold w' w es team
    cbv
  · -- Nothing is to be evaluated here.
    clear_value es
    exact reports_describe_commits (.ofList []) ⟨0, 1, 0⟩ (.inr rfl) es

end ReviewDesk
