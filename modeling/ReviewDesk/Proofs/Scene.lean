import Mathlib
import ReviewDesk.Proofs.Course
import ReviewDesk.Proofs.Kept
import ReviewDesk.Proofs.Errand
import ReviewDesk.Proofs.Store.Keyed

/-!
# Requests at once

Any number of requests can be in progress. Each has looked around and waits for its transaction to
begin, and which of them goes on next is open. Pull requests can also be saved and updated by calls
that belong to no request, with whatever they hold. A scene is the world together with the requests
in progress and the answers given so far; the invariant `Scene.UpToDate` is what its steps preserve.
-/
namespace ReviewDesk

/-- The calls by which a pull request is saved or updated. -/
def Call.Puts : (s : Shape) → Call s → Prop
  | _, .savePullRequest _ | _, .updatePullRequest _ => True
  | _, _ => False

/-- The world, the requests whose transactions have not begun, and the answers given so far. -/
structure Scene (σ : Type) where
  world : World σ
  pending : List (UseCase × Job σ Reply)
  answers : List (UseCase × Answer)

namespace Scene

section Steps

variable {σ : Type} [Gateway σ]

/-- Nothing is asked for yet. -/
def initial (σ : Type) [Gateway σ] (draws : Draws) (clock : Clock) (level : Level) : Scene σ :=
  ⟨World.initial σ draws clock level, [], []⟩

/-- A request looks around. It is answered, or its transaction is pending. -/
def look (x : Scene σ) (u : UseCase) : Scene σ :=
  match u.plan x.world with
  | (.error e, w) => ⟨w, x.pending, x.answers ++ [(u, .error e)]⟩
  | (.ok (.finished r), w) => ⟨w, x.pending, x.answers ++ [(u, .ok r)]⟩
  | (.ok (.pending rest), w) => ⟨w, x.pending ++ [(u, rest)], x.answers⟩

section Looking

variable {x : Scene σ} {u : UseCase} {w : World σ}

theorem look_of_error {e : Failure} (h : u.plan x.world = (.error e, w)) :
    x.look u = ⟨w, x.pending, x.answers ++ [(u, .error e)]⟩ := by
  rw [look, h]

theorem look_of_finished {r : Reply} (h : u.plan x.world = (.ok (.finished r), w)) :
    x.look u = ⟨w, x.pending, x.answers ++ [(u, .ok r)]⟩ := by
  rw [look, h]

theorem look_of_pending {rest : Job σ Reply} (h : u.plan x.world = (.ok (.pending rest), w)) :
    x.look u = ⟨w, x.pending ++ [(u, rest)], x.answers⟩ := by
  rw [look, h]

end Looking

/-- What can happen next. -/
inductive Step : Scene σ → Scene σ → Prop
  | look (x : Scene σ) (u : UseCase) : Step x (x.look u)
  | carryOut (w : World σ) (before after : List (UseCase × Job σ Reply)) (u : UseCase)
      (rest : Job σ Reply) (answers : List (UseCase × Answer)) :
      Step ⟨w, before ++ (u, rest) :: after, answers⟩
        ⟨(rest w).2, before ++ after, answers ++ [(u, (rest w).1)]⟩
  | call (x : Scene σ) {s : Shape} (c : Call s) (hc : c.Puts) :
      Step x ⟨(answerCall .outside s c x.world).2, x.pending, x.answers⟩

/-- A scene after errands that were run in it. -/
def moved (x : Scene σ) (ms : List (Errand AnyCall)) : Scene σ :=
  ⟨(Op.runAll (Errand.ops ms) x.world).2, x.pending,
    x.answers ++ Errand.toldAll ms (Op.runAll (Errand.ops ms) x.world).1⟩

/-- Any number of steps. -/
abbrev Run : Scene σ → Scene σ → Prop := Relation.ReflTransGen Step

/-- Steps among which are those of requests and those of some calls. -/
structure Covers (R : Scene σ → Scene σ → Prop) (Q : (s : Shape) → Call s → Prop) : Prop where
  look : ∀ x u, R x (x.look u)
  carryOut : ∀ w before after u rest answers, R ⟨w, before ++ (u, rest) :: after, answers⟩
    ⟨(rest w).2, before ++ after, answers ++ [(u, (rest w).1)]⟩
  call : ∀ (x : Scene σ) {s : Shape} (c : Call s), Q s c →
    R x ⟨(answerCall .outside s c x.world).2, x.pending, x.answers⟩

theorem covers_step : Covers (σ := σ) Step Call.Puts where
  look := .look
  carryOut := .carryOut
  call x _ c hc := .call x c hc

section Covering

variable {R : Scene σ → Scene σ → Prop} {Q : (s : Shape) → Call s → Prop}

/-- What a request comes to by itself, it comes to step by step. -/
theorem Covers.alone (hR : Covers R Q) (x : Scene σ) (u : UseCase) : Relation.ReflTransGen R x
    ⟨(u.run x.world).2, x.pending, x.answers ++ [(u, (u.run x.world).1)]⟩ := by
  have hlook : Relation.ReflTransGen R x (x.look u) := .single (hR.look x u)
  rw [UseCase.run, Job.bind_apply]
  rcases hplan : u.plan x.world with ⟨e | ⟨r⟩ | ⟨rest⟩, w⟩
  · rwa [look_of_error hplan] at hlook
  · rwa [look_of_finished hplan] at hlook
  · rw [look_of_pending hplan] at hlook
    simpa using hlook.tail (hR.carryOut w x.pending [] u rest x.answers)

/-- What a request comes to with errands in between, it comes to step by step if they do, as long as
there are no faults. -/
theorem Covers.interleaved (hR : Covers R Q) {x : Scene σ}
    (h : ∀ y, Relation.ReflTransGen R x y → y.world.faults = []) (u : UseCase)
    (es : List (Errand AnyCall))
    (hes : ∀ y : Scene σ, Relation.ReflTransGen R x y → Relation.ReflTransGen R y (y.moved es)) :
    let z := u.interleaved (Op.runAll (Errand.ops es)) x.world
    Relation.ReflTransGen R x ⟨z.2, x.pending,
      x.answers ++ (Errand.toldAll es (z.1.2.getD []) ++ [(u, z.1.1)])⟩ := by
  have hlook : Relation.ReflTransGen R x (x.look u) := .single (hR.look x u)
  rw [UseCase.interleaved]
  rcases hplan : u.plan x.world with ⟨e | ⟨r⟩ | ⟨rest⟩, w⟩
  · rw [look_of_error hplan] at hlook
    simpa [Errand.toldAll_nil] using hlook
  · rw [look_of_finished hplan] at hlook
    simpa [Errand.toldAll_nil] using hlook
  · rw [look_of_pending hplan] at hlook
    have hbetween := hlook.trans (hes _ hlook)
    have hfaults : (Op.runAll (Errand.ops es) w).2.faults = [] := h _ hbetween
    have hend := hbetween.tail (hR.carryOut _ x.pending [] u rest _)
    simpa [Job.sparing_of_no_faults .silentTransaction rest _ hfaults] using hend

mutual
/-- What an errand comes to in a scenario, it comes to step by step, as long as there are no
faults. -/
theorem Covers.run_op (hR : Covers R Q) {x : Scene σ}
    (h : ∀ y, Relation.ReflTransGen R x y → y.world.faults = []) (m : Errand AnyCall)
    (hm : m.All (fun _ => True) fun c => Q c.1 c.2) : Relation.ReflTransGen R x
      ⟨(m.op.run x.world).2, x.pending, x.answers ++ m.told (m.op.run x.world).1⟩ := by
  match m with
  | .deed ⟨s, c⟩ =>
    have hstep := Relation.ReflTransGen.single (hR.call x c hm)
    rw [run_call]
    simpa [Errand.told] using hstep
  | .alone u => exact hR.alone x u
  | .request u before =>
    exact hR.interleaved h u before fun y hy =>
      hR.run_ops (fun z hz => h z (hy.trans hz)) before hm.2
/-- What errands come to in a scenario, they come to step by step, as long as there are no
faults. -/
theorem Covers.run_ops (hR : Covers R Q) {x : Scene σ}
    (h : ∀ y, Relation.ReflTransGen R x y → y.world.faults = []) (ms : List (Errand AnyCall))
    (hms : Errand.AllOf (fun _ => True) (fun c => Q c.1 c.2) ms) :
    Relation.ReflTransGen R x (x.moved ms) := by
  match ms with
  | [] =>
    have hnil : x.moved [] = x := by simp [moved, Errand.ops, Op.runAll, Errand.toldAll]
    rw [hnil]
  | m :: ms =>
    have hfirst := hR.run_op h m hms.1
    have hrest := hR.run_ops (fun y hy => h y (hfirst.trans hy)) ms hms.2
    rw [moved, runAll_cons]
    simpa [moved, Errand.toldAll] using hfirst.trans hrest
end

end Covering

end Steps

end Scene

open Job LawfulStore

variable {σ : Type} [Gateway σ] [LawfulStore σ]

namespace Undertaking

variable {w : World σ}

variable [ResilientStore σ]

/-- Listing the open pull requests of a team succeeds or fails without a trace. -/
theorem opened_of_resilient (hw : w.faults = []) (hs : Sound w.store) (team : Text) :
    Opened w team fun e _ _ => e.Plain := by
  have hask {r : Except Failure (List PullRequest)}
      (hr : Gateway.openPullRequests team w.store = r) (hplain : ∀ e, r = .error e → e.Plain) :
      ask .inside (.openPullRequests team) (w.inside w.store w.draws 0) =
        (r.map .own, w.inside w.store w.draws 0) :=
    ask_inside (.openPullRequests team) hw w.store w.draws 0 (by rw [Call.on, hr]) hplain
  rcases ResilientStore.openPullRequests_cases team hs with
    ⟨ps, hps, hnodup, hmem⟩ | hfail | ⟨gap, hfail⟩
  · refine .inl ⟨.own ps, w.store, w.draws, 0, hask hps nofun,
      ⟨ps, hps, rfl, hnodup, fun p => ?_⟩, rfl, rfl, rfl⟩
    rw [hmem p]
    simp only [Contents.Concerned, and_assoc]
  · refine .inr ⟨.incomparable, w.store, w.draws, 0, hask hfail ?_, trivial⟩
    rintro _ ⟨⟩
    trivial
  · refine .inr ⟨.unwritable gap, w.store, w.draws, 0, hask hfail ?_, trivial⟩
    rintro _ ⟨⟩
    trivial

/-- Carrying an undertaking out leaves merged pull requests as they are, and the answer to a merge
shows one. -/
theorem rest_told (hw : w.faults = []) (hs : Sound w.store) (t : Undertaking)
    (ha : t.Advised (contents w.store)) :
    (t.rest w).2.faults = [] ∧ Sound (t.rest w).2.store ∧
      (contents w.store).Kept (contents (t.rest w).2.store) ∧
      ∀ id r, t = .merge id → (t.rest w).1 = .ok r →
        (contents (t.rest w).2.store).ShowsMerged id r := by
  have hinj : Set.InjOn Item.id (contents w.store).items := injOn_item hs
  have hshown (id : Text) (r : Reply) (ht : t = .merge id) (hr : (t.rest w).1 = .ok r) :
      (contents (t.rest w).2.store).ShowsMerged id r := by
    subst ht
    exact merge_shows hw hs id hr
  rcases rest_settles hw hs (fun team _ => opened_of_resilient hw hs team) t ha with
    ⟨r, s, d, n, w', hrest, hlike, hs', he⟩ | ⟨e, d, n, w', hrest, hlike, -⟩ <;>
  rw [hrest] at hshown ⊢
  · have hstore : w'.store = s := hlike.store
    exact ⟨hlike.faults.trans hw, hstore ▸ hs', hstore ▸ he.kept hinj, hshown⟩
  · have hstore : w'.store = w.store := hlike.store
    have hkept : (contents w.store).Kept (contents w'.store) := by
      rw [hstore]
      exact .refl hinj
    exact ⟨hlike.faults.trans hw, hstore ▸ hs, hkept, hshown⟩

end Undertaking

section Calls

variable [ResilientStore σ] {w : World σ}

/-- A pull request is saved under a new id only, dated or not. -/
theorem contents_saved {s s' : σ} (hs : Sound s) {p : PullRequest} {k k' : Clock}
    (h : Gateway.savePullRequest p s k = ((.ok (), s'), k')) :
    p.id ∉ (contents s).itemIds ∧ Sound s' ∧ ∃ t, contents s' = (contents s).addItem
      ⟨p.id, p.name, p.author, p.status, keep σ t, p.merged.map (keep σ)⟩ := by
  have hdated {p : PullRequest} {t : Timestamp} (ht : p.created = some t) {k : Clock}
      (h : Gateway.savePullRequest p s k = ((.ok (), s'), k')) :
      p.id ∉ (contents s).itemIds ∧ Sound s' ∧ ∃ t, contents s' = (contents s).addItem
        ⟨p.id, p.name, p.author, p.status, keep σ t, p.merged.map (keep σ)⟩ := by
    have hnew : p.id ∉ (contents s).itemIds := by
      intro htaken
      obtain ⟨e, s'', he, -⟩ := savePullRequest_taken p k hs (by rw [ht]; rfl) htaken
      rw [h] at he
      cases he
    obtain ⟨r, hr, hchange⟩ := savePullRequest_change p t k hs ht hnew
    rw [h] at hr
    cases hr
    rcases hchange with ⟨-, s'', hs'', hwanted⟩ | ⟨-, gap, s'', hs''⟩
    · cases hs''
      exact ⟨hnew, hwanted.1, t, hwanted.2⟩
    · cases hs''
  cases hcreated : p.created with
  | some t => exact hdated hcreated h
  | none =>
    rcases ResilientStore.savePullRequest_undated s p k hcreated with
      ⟨t, k'', hsame⟩ | ⟨e, s'', k'', hfail⟩
    · exact hdated (p := { p with created := some t }) rfl (hsame.symm.trans h)
    · rw [h] at hfail
      cases hfail

/-- Whatever is saved or updated, merged pull requests stay as they are. -/
theorem call_kept (hw : w.faults = []) (hs : Sound w.store) {s : Shape} (c : Call s) (hc : c.Puts) :
    (answerCall .outside s c w).2.faults = [] ∧ Sound (answerCall .outside s c w).2.store ∧
      (contents w.store).Kept (contents (answerCall .outside s c w).2.store) := by
  have hinj : Set.InjOn Item.id (contents w.store).items := injOn_item hs
  rcases hon : c.on w.store w.clock with ⟨⟨r, after⟩, k⟩
  have hlike := (answerCall_outside c hw hon).2
  have hstore := hlike.store
  refine ⟨hlike.faults.trans hw, ?_⟩
  rw [hstore]
  cases r with
  | error e => exact ⟨hs, .refl hinj⟩
  | ok a =>
    show Sound after ∧ (contents w.store).Kept (contents after)
    cases c with
    | savePullRequest p =>
      obtain ⟨hnew, hs', t, hcontents⟩ := contents_saved hs hon
      rw [hcontents]
      exact ⟨hs', Contents.kept_addItem hinj hnew⟩
    | updatePullRequest p =>
      have hupdate : Gateway.updatePullRequest p w.store = (.ok a, after) :=
        congrArg Prod.fst hon
      have hchange := updatePullRequest_change p hs
      rw [hupdate] at hchange
      rcases hchange with ⟨-, s', hs', hsound, hcontents⟩ | ⟨-, gap, s', hs'⟩
      · cases hs'
        rw [hcontents]
        exact ⟨hsound, Contents.kept_updateItem hinj p.id (fun _ => rfl) fun _ => rfl⟩
      · cases hs'
    | _ => exact hc.elim

end Calls

namespace Scene

/-- What holds of a scene at all times: a request in progress is advised, and the answers to merges
show what is merged. -/
structure UpToDate (x : Scene σ) : Prop where
  faults : x.world.faults = []
  sound : Sound x.world.store
  advised : ∀ p ∈ x.pending, ∃ t : Undertaking, p.2 = t.rest ∧
    t.Advised (contents x.world.store) ∧ ∀ id, p.1 = .merge id → t = .merge id
  shown : ∀ id r, (UseCase.merge id, .ok r) ∈ x.answers →
    (contents x.world.store).ShowsMerged id r

theorem upToDate_initial (draws : Draws) (clock : Clock) (level : Level) :
    (initial σ draws clock level).UpToDate := by
  have ho : Orderly (World.initial σ draws clock level) := orderly_initial draws clock level
  exact ⟨ho.faults, ho.sound, by simp [initial], by simp [initial]⟩

/-- A scene stays up to date in a world that keeps what was there, with other requests in progress
and another answer. -/
theorem UpToDate.of_kept {x : Scene σ} (h : x.UpToDate) {w : World σ} (hw : w.faults = [])
    (hs : Sound w.store) (hk : (contents x.world.store).Kept (contents w.store))
    {pending : List (UseCase × Job σ Reply)} {answers : List (UseCase × Answer)}
    (hpending : ∀ p ∈ pending, p ∈ x.pending ∨ ∃ t : Undertaking, p.2 = t.rest ∧
      t.Advised (contents x.world.store) ∧ ∀ id, p.1 = .merge id → t = .merge id)
    (hanswers : ∀ id r, (UseCase.merge id, .ok r) ∈ answers →
      (UseCase.merge id, .ok r) ∈ x.answers ∨ (contents w.store).ShowsMerged id r) :
    UpToDate ⟨w, pending, answers⟩ where
  faults := hw
  sound := hs
  advised p hp := by
    have hadvised : ∃ t : Undertaking, p.2 = t.rest ∧ t.Advised (contents x.world.store) ∧
        ∀ id, p.1 = .merge id → t = .merge id := by
      rcases hpending p hp with hp | ht
      · exact h.advised p hp
      · exact ht
    obtain ⟨t, hrest, ha, hmerge⟩ := hadvised
    exact ⟨t, hrest, ha.mono hk.toPrecedes, hmerge⟩
  shown id r hr := by
    rcases hanswers id r hr with hold | hnew
    · exact (h.shown id r hold).mono hk
    · exact hnew

theorem UpToDate.refl_kept {x : Scene σ} (h : x.UpToDate) :
    (contents x.world.store).Kept (contents x.world.store) := .refl (injOn_item h.sound)

/-- Looking around keeps a scene up to date and its store as it is. -/
theorem UpToDate.look {x : Scene σ} (h : x.UpToDate) (u : UseCase) :
    (x.look u).UpToDate ∧ (contents x.world.store).Kept (contents (x.look u).world.store) := by
  have hsame {w : World σ} (hstore : w.store = x.world.store) :
      (contents x.world.store).Kept (contents w.store) := hstore ▸ h.refl_kept
  have hold (p : UseCase × Job σ Reply) (hp : p ∈ x.pending) : p ∈ x.pending ∨
      ∃ t : Undertaking, p.2 = t.rest ∧ t.Advised (contents x.world.store) ∧
        ∀ id, p.1 = .merge id → t = .merge id := .inl hp
  rcases Undertaking.plan_cases h.faults h.sound u with
    ⟨e, w, hplan, hlike⟩ | ⟨r, w, hplan, hlike, hshown⟩ | ⟨t, d, hplan, ha, hundertakes⟩
  · have hkept := hsame hlike.store
    rw [look_of_error hplan]
    refine ⟨h.of_kept (hlike.faults.trans h.faults) (hlike.store ▸ h.sound) hkept hold ?_, hkept⟩
    intro id r hr
    exact .inl (by simpa using hr)
  · have hkept := hsame hlike.store
    rw [look_of_finished hplan]
    refine ⟨h.of_kept (hlike.faults.trans h.faults) (hlike.store ▸ h.sound) hkept hold ?_, hkept⟩
    intro id r' hr
    rcases List.mem_append.1 hr with hr | hr
    · exact .inl hr
    · cases List.mem_singleton.1 hr
      exact .inr (hshown.mono hkept)
  · have hkept := h.refl_kept
    rw [look_of_pending hplan]
    refine ⟨h.of_kept (w := { x.world with draws := d }) h.faults h.sound hkept (fun p hp => ?_)
      fun _ _ hr => .inl hr, hkept⟩
    rcases List.mem_append.1 hp with hp | hp
    · exact .inl hp
    · obtain rfl := List.mem_singleton.1 hp
      exact .inr ⟨t, rfl, ha, by rintro id rfl; exact hundertakes⟩

variable [ResilientStore σ]

/-- Each step keeps a scene up to date, and pull requests as they are once they are merged. -/
theorem UpToDate.step {x y : Scene σ} (h : x.UpToDate) (hstep : Step x y) :
    y.UpToDate ∧ (contents x.world.store).Kept (contents y.world.store) := by
  cases hstep with
  | look _ u => exact h.look u
  | carryOut w before after u rest answers =>
    obtain ⟨t, hrest, ha, hmerge⟩ := h.advised (u, rest) (by simp)
    obtain rfl : rest = t.rest := hrest
    obtain ⟨hfaults, hsound, hkept, hshown⟩ := Undertaking.rest_told h.faults h.sound t ha
    refine ⟨h.of_kept hfaults hsound hkept (fun p hp => .inl ?_) fun id r hr => ?_, hkept⟩
    · rcases List.mem_append.1 hp with hp | hp
      · exact List.mem_append_left _ hp
      · exact List.mem_append_right _ (List.mem_cons_of_mem _ hp)
    · rcases List.mem_append.1 hr with hr | hr
      · exact .inl hr
      · obtain ⟨rfl, hanswer⟩ := Prod.mk.inj (List.mem_singleton.1 hr)
        exact .inr (hshown id r (hmerge id rfl) hanswer.symm)
  | call _ c hc =>
    obtain ⟨hfaults, hsound, hkept⟩ := call_kept h.faults h.sound c hc
    exact ⟨h.of_kept hfaults hsound hkept (fun _ hp => .inl hp) fun _ _ hr => .inl hr, hkept⟩

/-- What each step keeps, any number of them keeps. -/
theorem UpToDate.run {x y : Scene σ} (h : x.UpToDate) (hrun : Run x y) :
    y.UpToDate ∧ (contents x.world.store).Kept (contents y.world.store) := by
  induction hrun with
  | refl => exact ⟨h, h.refl_kept⟩
  | tail _ hstep ih =>
    obtain ⟨hcurrent, hkept⟩ := ih
    obtain ⟨hcurrent', hkept'⟩ := hcurrent.step hstep
    exact ⟨hcurrent', hkept.trans hkept'⟩

/-- What errands come to in a scenario, they come to step by step. -/
theorem UpToDate.run_ops {x : Scene σ} (h : x.UpToDate) (ms : List (Errand AnyCall))
    (hms : Errand.AllOf (fun _ => True) (fun c => c.2.Puts) ms) : Run x (x.moved ms) :=
  covers_step.run_ops (fun _ hrun => (h.run hrun).1.faults) ms hms

/-- Requests come and go in any order, and pull requests are saved and updated besides. Of one moment
and a later one: every pull request is still there with the date of its creation, and every merged
one is as it was, with its reviewers. Whatever was answered to merges shows the merged pull request
as it is, so that all of them who merge it get the same answer. -/
theorem run_kept {x y : Scene σ}
    (hx : ∃ draws clock level, Run (initial σ draws clock level) x) (hxy : Run x y) :
    (contents x.world.store).Kept (contents y.world.store) ∧
    (∀ id r, (UseCase.merge id, .ok r) ∈ y.answers →
      (contents y.world.store).ShowsMerged id r) ∧
    ∀ id r r', (UseCase.merge id, .ok r) ∈ y.answers → (UseCase.merge id, .ok r') ∈ y.answers →
      r = r' := by
  obtain ⟨draws, clock, level, hrun⟩ := hx
  have hcurrent : x.UpToDate := ((upToDate_initial draws clock level).run hrun).1
  obtain ⟨hcurrent', hkept⟩ := hcurrent.run hxy
  refine ⟨hkept, hcurrent'.shown, fun id r r' hr hr' => ?_⟩
  exact (hcurrent'.shown id r hr).eq (injOn_item hcurrent'.sound) (hcurrent'.shown id r' hr')

/-- A pull request is merged while somebody else merges it, and then somebody updates it. -/
theorem run_kept_of_two_merges :
    let team : Team := ⟨"T", [⟨"a", "Ann", none, true⟩, ⟨"b", "Bob", none, true⟩]⟩
    let late : PullRequest := ⟨"p", "Other", "b", .opened, [], none, none⟩
    let x := (initial KeyedStore (.ofList []) ⟨0, 1, 0⟩ .info).moved
      [.request (.found team) [], .request (.opening "p" "Title" "a") [],
        .request (.merge "p") [.request (.merge "p") []]]
    let y := x.moved [.deed ⟨_, .updatePullRequest late⟩, .request (.merge "p") []]
    ((∃ draws clock level, Run (initial KeyedStore draws clock level) x) ∧ Run x y) ∧
      (contents x.world.store).Kept (contents y.world.store) ∧
      (∀ id r, (UseCase.merge id, .ok r) ∈ y.answers →
        (contents y.world.store).ShowsMerged id r) ∧
      ∀ id r r', (UseCase.merge id, .ok r) ∈ y.answers →
        (UseCase.merge id, .ok r') ∈ y.answers → r = r' := by
  intro team late x y
  have hcurrent : (initial KeyedStore (.ofList []) ⟨0, 1, 0⟩ .info).UpToDate :=
    upToDate_initial _ _ _
  have hx : Run (initial KeyedStore (.ofList []) ⟨0, 1, 0⟩ .info) x :=
    hcurrent.run_ops _ (by simp [Errand.AllOf, Errand.All])
  have hxy : Run x y :=
    (hcurrent.run hx).1.run_ops _ (by simp [Errand.AllOf, Errand.All, Call.Puts])
  exact ⟨⟨⟨_, _, _, hx⟩, hxy⟩, run_kept ⟨_, _, _, hx⟩ hxy⟩

end Scene
end ReviewDesk
