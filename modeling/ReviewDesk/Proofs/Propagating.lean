import ReviewDesk.Proofs.Faults
import ReviewDesk.Proofs.Undertaking

/-!
# Failures are passed on

Looking around leaves the committed store alone and passes on every failure, apart from the two
places where a refusal is the answer that was hoped for. The same holds of what is done inside a
transaction, where nothing is taken for an answer.
-/
namespace ReviewDesk

open Job

/-- The failures that a use case takes for an answer: what it is about to add is not there. -/
def UseCase.Absorbs : UseCase → Point → Failure → Prop
  | .found _, p, e => p = .team ∧ ∃ note, e = .refused .teamNotFound note
  | .opening _ _ _, p, e => p = .pullRequest ∧ ∃ note, e = .refused .pullRequestNotFound note
  | _, _, _ => False

variable {σ : Type} [Gateway σ] {absorbed : Point → Failure → Prop}

section Bodies

open Roster Review Departure

theorem propagates_foundNow (t : Team) : (foundNow t : Job σ (Given Team)).Propagates absorbed :=
  (propagates_tell _).bind fun _ => (propagates_tell _).bind fun _ => propagates_inside _

theorem propagates_switchNow (id : Text) (active : Bool) :
    (switchNow id active : Job σ Unit).Propagates absorbed :=
  (propagates_look _ (.inl rfl)).bind fun _ => propagates_tell _

theorem propagates_teammates (scope : Scope) (team : Option Text) (except : Text) :
    (teammates scope team except : Job σ (List Text)).Propagates absorbed := by
  cases team with
  | none => exact propagates_pure _
  | some name => exact (propagates_ask (.inr fun _ _ => rfl)).bind fun _ => propagates_ofExcept _

theorem propagates_openNow (id name author : Text) (reviewers : List Text) :
    (openNow id name author reviewers : Job σ (Given PullRequest)).Propagates absorbed :=
  propagates_now.bind fun _ => (propagates_tell _).bind fun _ => (propagates_tell _).bind fun _ =>
    propagates_inside _

theorem propagates_mergeNow (id : Text) :
    (mergeNow id : Job σ (Given PullRequest)).Propagates absorbed :=
  (propagates_look _ (.inl rfl)).bind fun _ => .ite (propagates_pure _) <|
    propagates_now.bind fun _ => (propagates_tell _).bind fun _ => propagates_inside _

theorem propagates_hand (id old : Text) (successor : Option Text) :
    (hand id old successor : Job σ Unit).Propagates absorbed := by
  cases successor with
  | none => exact propagates_tell _
  | some new => exact propagates_tell _

theorem propagates_reassignNow (id old : Text) :
    (reassignNow id old : Job σ (Given (Given PullRequest × Option Text))).Propagates absorbed := by
  refine (propagates_look _ (.inl rfl)).bind fun current => .ite (propagates_fail _) ?_
  refine (propagates_inside _).bind fun reviewers => (propagates_ofExcept _).bind fun assigned =>
    .ite (propagates_fail _) ?_
  refine (propagates_look _ (.inl rfl)).bind fun reviewer =>
    (propagates_teammates _ _ _).bind fun candidates => (propagates_choose _).bind fun taken => ?_
  exact (propagates_hand _ _ _).bind fun _ => (propagates_inside _).bind fun _ => propagates_pure _

theorem propagates_relieve (id : Text) (leaving pool : List Text) :
    (relieve id leaving pool : Job σ (List Reassignment)).Propagates absorbed := by
  induction leaving generalizing pool with
  | nil => exact propagates_pure _
  | cons old leaving ih =>
    exact (propagates_choose _).bind fun taken => (propagates_hand _ _ _).bind fun _ =>
      (ih taken.2).bind fun _ => propagates_pure _

theorem propagates_relieveOn (leaving : List Text) (staying : Given (List User))
    (batch : Given (List (Text × List Text))) (p : PullRequest) :
    (relieveOn leaving staying batch p : Job σ (List Reassignment)).Propagates absorbed :=
  (propagates_ofExcept _).bind fun _ => (propagates_ofExcept _).bind fun _ =>
    .ite (propagates_pure _) <| (propagates_ofExcept _).bind fun _ => propagates_relieve _ _ _

theorem propagates_cascade (leaving : List Text) (staying : Given (List User))
    (batch : Given (List (Text × List Text))) (ps : List PullRequest) :
    (cascade leaving staying batch ps : Job σ (List Reassignment)).Propagates absorbed := by
  induction ps with
  | nil => exact propagates_pure _
  | cons p ps ih =>
    unfold cascade
    refine .ite ?_ (ih.bind fun _ => propagates_pure _)
    exact (propagates_relieveOn _ _ _ _).bind fun _ => ih.bind fun _ => propagates_pure _

theorem propagates_departNow (team : Text) (leaving : List Text) :
    (departNow team leaving : Job σ (Given (List Reassignment))).Propagates absorbed := by
  refine (propagates_inside _).bind fun given => (propagates_tell _).bind fun _ =>
    (propagates_ofExcept _).bind fun opened => .ite (propagates_pure _) ?_
  exact (propagates_inside _).bind fun batch => (propagates_inside _).bind fun staying =>
    (propagates_cascade _ _ _ _).bind fun _ => propagates_pure _

end Bodies

section Plans

open Roster Review Departure

theorem propagates_depart (team : Text) (users : List Text) :
    (depart team users : Job σ (Plan σ Deactivation)).Propagates absorbed := by
  refine .ite (propagates_pure _) ?_
  refine (propagates_ask (.inr fun _ _ => rfl)).bind fun _ =>
    (propagates_ask (.inr fun _ _ => rfl)).bind fun members =>
      (propagates_ofExcept _).bind fun ids => ?_
  split
  · exact propagates_fail _
  · exact propagates_pure _

theorem propagates_found (t : Team) :
    (found t : Job σ (Plan σ Team)).Propagates (UseCase.found t).Absorbs := by
  refine .ite (propagates_fail _) ?_
  exact (propagates_ensureAbsent _ (fun _ _ => rfl) rfl fun note => ⟨rfl, note, rfl⟩).bind fun _ =>
    propagates_pure _

theorem propagates_opening (id name author : Text) :
    (opening id name author : Job σ (Plan σ PullRequest)).Propagates
      (UseCase.opening id name author).Absorbs := by
  refine (propagates_ask (.inr fun _ _ => rfl)).bind fun given =>
    (propagates_ensureAbsent _ (fun _ _ => rfl) rfl fun note => ⟨rfl, note, rfl⟩).bind fun _ => ?_
  exact (propagates_ofExcept _).bind fun writer =>
    (propagates_teammates _ _ _).bind fun candidates =>
      (propagates_choose _).bind fun reviewers => propagates_pure _

/-- Looking around passes on every failure apart from the refusals that are hoped for. -/
theorem propagates_plan (u : UseCase) : (u.plan : Job σ (Plan σ Reply)).Propagates u.Absorbs := by
  have hread {sh : Shape} {c : Call sh} (hreads : ∀ (s : σ) k, (c.on s k).1.2 = s)
      {absorbed : Point → Failure → Prop} :
      (ask .outside c : Job σ (Given sh.Answer)).Propagates absorbed := propagates_ask (.inr hreads)
  cases u with
  | found t => exact (propagates_found t).bind fun _ => propagates_pure _
  | team name => exact (hread fun _ _ => rfl).bind fun _ => propagates_pure _
  | depart team users => exact (propagates_depart team users).bind fun _ => propagates_pure _
  | departAll team =>
    refine Propagates.bind ?_ fun _ => propagates_pure _
    exact (propagates_look _ (.inr fun _ _ => rfl)).bind fun _ => propagates_depart _ _
  | switch user active =>
    exact ((hread fun _ _ => rfl).bind fun _ => propagates_pure _).bind fun _ => propagates_pure _
  | reviewedBy user =>
    exact ((hread fun _ _ => rfl).bind fun _ => hread fun _ _ => rfl).bind
      fun _ => propagates_pure _
  | countsOf user =>
    exact ((hread fun _ _ => rfl).bind fun _ => hread fun _ _ => rfl).bind
      fun _ => propagates_pure _
  | opening id name author =>
    exact (propagates_opening id name author).bind fun _ => propagates_pure _
  | merge id =>
    refine Propagates.bind ?_ fun _ => propagates_pure _
    exact (propagates_look _ (.inr fun _ _ => rfl)).bind fun _ => .ite (propagates_pure _)
      (propagates_pure _)
  | reassign id old =>
    refine Propagates.bind ?_ fun _ => propagates_pure _
    exact (propagates_look _ (.inr fun _ _ => rfl)).bind fun _ => .ite (propagates_fail _)
      (propagates_pure _)
  | totals => exact (hread fun _ _ => rfl).bind fun _ => propagates_pure _

/-- A refusal that is hoped for does no harm where it lies in wait for a later call. -/
theorem plan_meets (u : UseCase) {w : World σ} {p : Point} {n : Nat} {e : Failure}
    (h : ¬ (n = 0 ∧ u.Absorbs p e)) :
    (u.plan : Job σ (Plan σ Reply)).Meets w p n e fun e' _ => p.isCall = true ∧ e' = e := by
  by_cases ha : u.Absorbs p e
  · obtain ⟨n, rfl⟩ : ∃ k, n = k + 1 := Nat.exists_eq_succ_of_ne_zero fun hn => h ⟨hn, ha⟩
    -- The first call at the place is the one that looks whether something is absent.
    have hclean {sh : Shape} {c : Call sh} {absent taken : Refusal} (w : World σ)
        (hreads : ∀ (s : σ) k, (c.on s k).1.2 = s) :
        (ensureAbsent (ask .outside c) absent taken (w.facing [])).2.faults = [] := by
      have hask : (ask .outside c : Job σ (Given sh.Answer)).Propagates fun _ _ => False :=
        propagates_ask (.inr hreads)
      rw [ensureAbsent_snd]
      exact hask.clean _ rfl
    cases u with
    | found t =>
      obtain ⟨rfl, note, rfl⟩ := ha
      refine Meets.bind ?_ ((propagates_found t).clean _ rfl) fun _ _ _ _ =>
        (quiet_pure _).ignoresFaults.meets
      unfold found
      split
      · exact (quiet_fail _).ignoresFaults.meets
      · exact meets_bind_same (ensureAbsent_same (ask_same_of_succ rfl))
          (hclean w fun _ _ => rfl) fun _ _ _ => (quiet_pure _).ignoresFaults.meets
    | opening id name author =>
      obtain ⟨rfl, note, rfl⟩ := ha
      refine Meets.bind ?_ ((propagates_opening id name author).clean _ rfl) fun _ _ _ _ =>
        (quiet_pure _).ignoresFaults.meets
      have huser : (ask .outside (.user author) : Job σ (Given User)).Propagates fun _ _ => False :=
        propagates_ask (.inr fun _ _ => rfl)
      refine meets_bind_same (ask_same_of_ne rfl nofun) (huser.clean _ rfl)
        fun given w' _ => ?_
      refine meets_bind_same (ensureAbsent_same (ask_same_of_succ rfl))
        (hclean w' fun _ _ => rfl) fun _ w'' _ => ?_
      refine Propagates.meets_any ?_ w'' _ n _
      exact (propagates_ofExcept _).bind fun writer => (propagates_teammates _ _ _).bind
        fun candidates => (propagates_choose _).bind fun reviewers => propagates_pure _
    | _ => exact ha.elim
  · exact (propagates_plan u).meets w p n e ha

end Plans
end ReviewDesk
