import Mathlib
import ReviewDesk.Proofs.Course
import ReviewDesk.Proofs.Store.Keyed

/-!
# Requests that might have come later

What some requests find out by looking around is found out again by their transactions. Other
requests that are carried out in between might then have come before: the answer, the store, the
draws and the clock are the same. What is compared is the transaction with the whole request, both
from the world in which the transaction begins.
-/
namespace ReviewDesk

/-- The use cases whose transaction finds out again what looking around has found out. -/
def UseCase.Rechecked : UseCase → Prop
  | .found _ | .switch _ _ | .merge _ | .reassign _ _ => True
  | _ => False

namespace Job

variable {σ α : Type} {w : World σ}

/-- Two jobs that give the same answer in a world and leave what a request cannot tell apart. -/
def Agrees (x y : Job σ α) (w : World σ) : Prop := (x w).1 = (y w).1 ∧ (x w).2.Like (y w).2

/-- A job that stops and leaves all as it is agrees with another that ends in a world like it. -/
theorem agrees_of_still {x y : Job σ α} {r : Except Failure α} {w' : World σ} (hx : x w = (r, w'))
    (hlike : w'.Like (w.left w.store w.draws 0)) (hy : y w = (r, w)) : x.Agrees y w := by
  rw [Agrees, hx, hy]
  exact ⟨rfl, hlike.trans ⟨rfl, rfl, rfl, rfl⟩⟩

end Job

namespace UseCase

variable {σ : Type} [Gateway σ] {u : UseCase} {w w' : World σ}

theorem run_of_pending {rest : Job σ Reply} (h : u.plan w = (.ok (.pending rest), w')) :
    u.run w = rest w' := by
  rw [run, Job.bind_apply, h]
  rfl

theorem run_of_finished {r : Reply} (h : u.plan w = (.ok (.finished r), w')) :
    u.run w = (.ok r, w') := by
  rw [run, Job.bind_apply, h]
  rfl

theorem run_of_error {e : Failure} (h : u.plan w = (.error e, w')) : u.run w = (.error e, w') := by
  rw [run, Job.bind_apply, h]

omit [Gateway σ] in
theorem exists_run_answer {x : Except Failure Reply × World σ} (h : x.1.toBool = true) :
    ∃ reply w, x = (.ok reply, w) := by
  rcases x with ⟨_ | reply, w⟩
  · cases h
  · exact ⟨reply, w, rfl⟩

/-- What follows looking around if it leaves all as it is and a rest is pending. -/
theorem agrees_of_pending {rest : Job σ Reply} (h : u.plan w = (.ok (.pending rest), w)) :
    rest.Agrees u.run w := by
  rw [Job.Agrees, run_of_pending h]
  exact ⟨rfl, .refl _⟩

end UseCase

namespace Undertaking

open Job LawfulStore

variable {σ : Type} [Gateway σ] [LawfulStore σ] {w : World σ}

/-- Who looks late finds the team taken exactly where the transaction does. -/
theorem found_agrees (hw : w.faults = []) (hs : Sound w.store) {t : Team}
    (hname : t.name.isEmpty = false)
    (hadmits : Admits σ t.name) : (found t).rest.Agrees (UseCase.found t).run w := by
  rcases plan_found hw hs t with ⟨_, hplan, rfl, -, -⟩ | ⟨e, hplan, he⟩
  · exact UseCase.agrees_of_pending hplan
  · have htaken : t.name ∈ (contents w.store).teams ∧ e = .refuse .teamExists := by
      rcases he with ⟨hempty, -⟩ | htaken | ⟨hn, -⟩
      · rw [hname] at hempty
        cases hempty
      · exact htaken
      · exact absurd hadmits hn
    obtain ⟨htaken, rfl⟩ := htaken
    rcases found_settles hw hs t with ⟨_, s, _, _, _, -, -, -, heffect⟩ |
      ⟨e, d, n, w', hrest, hlike, ⟨-, rfl, rfl, rfl⟩ | ⟨hfree, -⟩⟩
    · obtain ⟨hfree, -⟩ := heffect
      exact absurd htaken hfree
    · exact agrees_of_still hrest hlike (UseCase.run_of_error hplan)
    · exact absurd htaken hfree

/-- Who looks late finds the user, since nobody is ever removed. -/
theorem switch_agrees (hw : w.faults = []) (hs : Sound w.store) {id : Text} (active : Bool)
    (hid : id ∈ (contents w.store).userIds) :
    (switch id active).rest.Agrees (UseCase.switch id active).run w := by
  rcases plan_switch hw hs id active with ⟨_, hplan, rfl, -⟩ | ⟨e, -, hn, -⟩
  · exact UseCase.agrees_of_pending hplan
  · exact absurd hid hn

/-- Who looks late finds a merged pull request to be shown exactly where the transaction leaves it
alone. -/
theorem merge_agrees (hw : w.faults = []) (hs : Sound w.store)
    (hc : (contents w.store).Consistent) {id : Text}
    (hid : id ∈ (contents w.store).itemIds) : (merge id).rest.Agrees (UseCase.merge id).run w := by
  rcases plan_merge hw hs id with ⟨p, hplan, i, hi, rfl, ⟨hmerged, rfl⟩ | ⟨-, rfl⟩⟩ | ⟨e, -, hn, -⟩
  · rcases merge_settles hw hs hc i.id with
      ⟨r, s, d, n, w', hrest, hlike, -, -, hstill⟩ | ⟨_, _, _, _, -, -, hopen, -⟩
    · obtain ⟨rfl, rfl, rfl, rfl⟩ := hstill i hi rfl hmerged
      exact agrees_of_still hrest hlike (UseCase.run_of_finished hplan)
    · have hstatus := hopen i hi rfl
      rw [hmerged] at hstatus
      cases hstatus
  · exact UseCase.agrees_of_pending hplan
  · exact absurd hid hn

/-- Who looks late finds a pull request merged exactly where the transaction refuses for that. -/
theorem reassign_agrees (hw : w.faults = []) (hs : Sound w.store) {id : Text} (old : Text)
    (hid : id ∈ (contents w.store).itemIds) :
    (reassign id old).rest.Agrees (UseCase.reassign id old).run w := by
  rcases plan_reassign hw hs id old with ⟨_, hplan, rfl, -⟩ | ⟨e, hplan, he⟩
  · exact UseCase.agrees_of_pending hplan
  · obtain ⟨i, hi, rfl, hmerged, rfl⟩ := he.resolve_left fun hn => hn.1 hid
    rcases reassign_settles hw hs i.id old with
      ⟨_, _, _, _, _, -, -, -, heffect⟩ | ⟨e, d, n, w', hrest, hlike, -, he, -⟩
    · obtain ⟨j, hj, hji, hopen, -⟩ := heffect
      have hsame : j = i := injOn_item hs hj hi hji
      rw [hsame] at hopen
      exact absurd hmerged hopen
    · obtain ⟨rfl, rfl, rfl⟩ := he i hi rfl hmerged
      exact agrees_of_still hrest hlike (UseCase.run_of_error hplan)

end Undertaking

section Later

open LawfulStore

variable {σ : Type} [Gateway σ] [LawfulStore σ] {w w₁ w₂ : World σ} {u : UseCase}
    {rest : Job σ Reply}

/-- A request that is rechecked looks around in an orderly world, which stays as it is. What is
pending then agrees with the whole request in any orderly world that has lost nothing since. -/
theorem Orderly.agrees_later (ho : Orderly w) (hu : u.Rechecked)
    (hplan : u.plan w = (.ok (.pending rest), w₁)) :
    w₁ = w ∧ ∀ {w₂ : World σ}, Orderly w₂ → (contents w.store).Precedes (contents w₂.store) →
      rest.Agrees u.run w₂ := by
  have hlooks {good : Plan σ Reply → Prop} {bad : Failure → Prop} (h : u.plan.Looks w good bad) :
      w₁ = w ∧ good (.pending rest) := by
    rcases h with ⟨p, hx, hp⟩ | ⟨e, hx, -⟩
    · rw [hplan] at hx
      cases hx
      exact ⟨rfl, hp⟩
    · rw [hplan] at hx
      cases hx
  cases u with
  | found t =>
    obtain ⟨hsame, hrest, hname, hadmits⟩ := hlooks (Undertaking.plan_found ho.faults ho.sound t)
    cases hrest
    exact ⟨hsame, fun ho₂ _ => Undertaking.found_agrees ho₂.faults ho₂.sound hname hadmits⟩
  | switch id active =>
    obtain ⟨hsame, hrest, hid⟩ := hlooks (Undertaking.plan_switch ho.faults ho.sound id active)
    cases hrest
    exact ⟨hsame, fun ho₂ hp => Undertaking.switch_agrees ho₂.faults ho₂.sound active
      (hp.userIds hid)⟩
  | merge id =>
    obtain ⟨hsame, i, hi, hid, ⟨-, hrest⟩ | ⟨-, hrest⟩⟩ :=
      hlooks (Undertaking.plan_merge ho.faults ho.sound id)
    · cases hrest
    · cases hrest
      have hmem : id ∈ (contents w.store).itemIds :=
        ((contents w.store).mem_itemIds id).2 ⟨i, hi, hid⟩
      exact ⟨hsame, fun ho₂ hp =>
        Undertaking.merge_agrees ho₂.faults ho₂.sound ho₂.consistent (hp.itemIds hmem)⟩
  | reassign id old =>
    obtain ⟨hsame, hrest, hid⟩ := hlooks (Undertaking.plan_reassign ho.faults ho.sound id old)
    cases hrest
    exact ⟨hsame, fun ho₂ hp => Undertaking.reassign_agrees ho₂.faults ho₂.sound old
      (hp.itemIds hid)⟩
  | _ => exact hu.elim

/-- A request is rechecked and has a transaction to begin, and errands are carried out before that.
It comes to what it comes to after them: its answer, the store, the draws and the clock are the
same, and so is all that the errands come to. -/
theorem rechecked_serial (hw : Reachable w) (hu : u.Rechecked)
    (hpending : Plan.isPending (u.plan w).1 = true) (es : List (Errand Empty)) :
    let others := Op.runAll (Errand.ops es) w
    ∃ r w₁ w₂, u.interleaved (Op.runAll (Errand.ops es)) w = ((r, some others.1), w₁) ∧
      u.run others.2 = (r, w₂) ∧
      w₁.store = w₂.store ∧ w₁.draws = w₂.draws ∧ w₁.clock = w₂.clock := by
  intro others
  obtain ⟨rest, w', hplan⟩ := Plan.exists_pending hpending
  obtain ⟨rfl, hagrees⟩ := hw.orderly.agrees_later hu hplan
  obtain ⟨ho, hp⟩ := hw.orderly.leads (leads_ops es hw.orderly)
  obtain ⟨hanswer, hlike⟩ := hagrees ho hp
  refine ⟨(rest others.2).1, (rest others.2).2, (u.run others.2).2, ?_, ?_, hlike.store,
    hlike.draws, hlike.clock⟩
  · rw [UseCase.interleaved, hplan]
    show (((Job.sparing .silentTransaction rest others.2).1, some others.1),
      (Job.sparing .silentTransaction rest others.2).2) = _
    rw [Job.sparing_of_no_faults .silentTransaction rest others.2 ho.faults]
  · rw [hanswer]

end Later

/-- A reviewer is to be relieved, and before that somebody merges the pull request. -/
theorem rechecked_serial_reassign_merge :
    let team : Team := ⟨"T", [⟨"a", "Ann", none, true⟩, ⟨"b", "Bob", none, true⟩]⟩
    let w := ((UseCase.opening "p" "Title" "a").run
      ((UseCase.found team).run (World.initial KeyedStore (.ofList []) ⟨0, 1, 0⟩ .info)).2).2
    let es : List (Errand Empty) := [.request (.merge "p") []]
    let others := Op.runAll (Errand.ops es) w
    let u := UseCase.reassign "p" "b"
    u.Rechecked ∧ Plan.isPending (u.plan w).1 = true ∧
      ∃ r w₁ w₂, u.interleaved (Op.runAll (Errand.ops es)) w = ((r, some others.1), w₁) ∧
        u.run others.2 = (r, w₂) ∧
        w₁.store = w₂.store ∧ w₁.draws = w₂.draws ∧ w₁.clock = w₂.clock := by
  intro team w es others u
  have hw : Reachable w := ((reachable_initial _ _ _).run _).run _
  have hpending : Plan.isPending (u.plan w).1 = true := by
    unfold u w team
    cbv
  have hrechecked : u.Rechecked := trivial
  exact ⟨hrechecked, hpending, rechecked_serial hw hrechecked hpending es⟩

end ReviewDesk
