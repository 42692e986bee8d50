import Mathlib
import ReviewDesk.Proofs.Serial

/-!
# Reviews that are kept by people who left

A departure takes people off the open pull requests that active members of the team wrote. Where the
author has fallen inactive before, the people who leave go on reviewing, and later departures do not
change that. So it matters whether people are let go at once or one after the other.
-/
namespace ReviewDesk
namespace Contents

/-- What a departure from a team leaves as it was. -/
structure Thinned (team : Text) (c c' : Contents) : Prop where
  items : c'.items = c.items
  active_subset : c'.active team ⊆ c.active team
  reviewers_subset : ∀ i ∈ c.items, c'.reviewers i.id ⊆ c.reviewers i.id ∪ c.active team
  unconcerned : ∀ i ∈ c.items, i.author ∉ c.active team → c'.reviewers i.id = c.reviewers i.id

@[refl] theorem Thinned.refl (team : Text) (c : Contents) : c.Thinned team c :=
  ⟨rfl, Finset.Subset.refl _, fun _ _ => Finset.subset_union_left, fun _ _ _ => rfl⟩

theorem Thinned.trans {team : Text} {a b c : Contents} (h : a.Thinned team b)
    (h' : b.Thinned team c) : a.Thinned team c where
  items := h'.items.trans h.items
  active_subset := h'.active_subset.trans h.active_subset
  reviewers_subset i hi := by
    have hb : i ∈ b.items := h.items ▸ hi
    refine (h'.reviewers_subset i hb).trans (Finset.union_subset (h.reviewers_subset i hi) ?_)
    exact h.active_subset.trans Finset.subset_union_right
  unconcerned i hi hauthor := by
    have hb : i ∈ b.items := h.items ▸ hi
    rw [h'.unconcerned i hb fun ha => hauthor (h.active_subset ha), h.unconcerned i hi hauthor]

end Contents

namespace Undertaking.Effect

open Contents

variable {c c' : Contents} {keep : Timestamp → Timestamp} {now : Timestamp} {team : Text}
    {leaving : List Text} (hinj : Set.InjOn Item.id c.items)
    (he : (depart team leaving).Effect keep now c c')

include hinj he

/-- Only the pull requests of active authors are concerned. -/
theorem reviewers_unconcerned {i : Item} (hi : i ∈ c.items) (hauthor : i.author ∉ c.active team) :
    c'.reviewers i.id = c.reviewers i.id := by
  obtain ⟨-, -, -, -, hother⟩ := he
  refine hother i.id fun j hj hid => hauthor ?_
  obtain rfl : j = i := hinj hj.1 hi hid
  exact hj.2.2

theorem thinned : c.Thinned team c' where
  items := he.2.2.1
  active_subset := by
    rw [he.active_depart]
    exact Finset.sdiff_subset
  reviewers_subset i _ r hr := by
    rcases he.reviewers_cases i.id with ⟨j, -, hid, hrelieved⟩ | hsame
    · rw [← hid] at hr hrelieved ⊢
      rcases hrelieved.mem hr with hold | ⟨hactive, -⟩
      · exact Finset.mem_union_left _ hold
      · exact Finset.mem_union_right _ hactive
    · rw [hsame] at hr
      exact Finset.mem_union_left _ hr
  unconcerned _ hi hauthor := he.reviewers_unconcerned hinj hi hauthor

/-- Who leaves goes on reviewing exactly where the author is not active. -/
theorem retained_iff {i : Item} (hi : i ∈ c.items) (hopen : i.status = .opened) {r : Text}
    (hr : r ∈ leaving) :
    r ∈ c'.reviewers i.id ↔ r ∈ c.reviewers i.id ∧ i.author ∉ c.active team := by
  by_cases hauthor : i.author ∈ c.active team
  · have hrelieved := he.2.2.2.1 i ⟨hi, hopen, hauthor⟩
    have hgone : r ∉ c'.reviewers i.id :=
      Finset.disjoint_right.1 hrelieved.disjoint (List.mem_toFinset.2 hr)
    exact iff_of_false hgone fun h => h.2 hauthor
  · rw [he.reviewers_unconcerned hinj hi hauthor]
    exact (and_iff_left hauthor).symm

end Undertaking.Effect

open LawfulStore

section Departures

variable {σ : Type} [Gateway σ]

/-- Groups of people are to be let go from a team, one group after the other. -/
def departures (team : Text) (groups : List (List Text)) (w : World σ) : World σ :=
  groups.foldl (fun w ids => ((UseCase.depart team ids).run w).2) w

variable [LawfulStore σ]

/-- What a departure with nothing in between comes to: it has its effect, or it changes nothing, and
then it is not about anybody or does not succeed. -/
theorem Orderly.depart_run {w : World σ} (ho : Orderly w) (team : Text) (ids : List Text) :
    let x := (UseCase.depart team ids).run w
    (x.2.store = w.store ∧ (x.1.toBool = true → ids = [])) ∨
      (Undertaking.depart team ids.eraseDups).Effect (keep σ) w.clock.now (contents w.store)
        (contents x.2.store) := by
  intro x
  rcases Undertaking.plan_depart_members ho.faults ho.sound team ids with
    ⟨p, hplan, ⟨hnil, a, rfl⟩ | ⟨rfl, hteam, hmembers⟩⟩ | ⟨e, hplan, -⟩
  · have hx : x = (.ok a, w) := UseCase.run_of_finished hplan
    rw [hx]
    exact .inl ⟨rfl, fun _ => hnil⟩
  · have hx : x = (Undertaking.depart team ids.eraseDups).rest w := UseCase.run_of_pending hplan
    obtain ⟨reply, w', hrest, he⟩ := ho.depart_rest (Undertaking.advised_depart hteam hmembers)
    rw [hx, hrest]
    exact .inr he
  · have hx : x = (.error e, w) := UseCase.run_of_error hplan
    rw [hx]
    exact .inl ⟨rfl, nofun⟩

/-- Whatever groups leave, one after the other. -/
theorem Orderly.thinned_departures {w : World σ} (ho : Orderly w) (team : Text)
    (groups : List (List Text)) :
    (contents w.store).Thinned team (contents (departures team groups w).store) := by
  induction groups generalizing w with
  | nil => exact .refl team _
  | cons ids groups ih =>
    have hfirst : (contents w.store).Thinned team
        (contents ((UseCase.depart team ids).run w).2.store) := by
      rcases ho.depart_run team ids with ⟨hstore, -⟩ | he
      · rw [hstore]
      · exact he.thinned (injOn_item ho.sound)
    exact hfirst.trans (ih (ho.leads (leads_run ho _)).1)

/-- People are let go from a team with nothing in between, and other groups are let go from it later.
On an open pull request somebody of them goes on reviewing exactly if they reviewed it and its
author was not an active member of the team when they left. -/
theorem departed_reviews_iff {w w₁ : World σ} (hw : Reachable w) {team : Text} {ids : List Text}
    {reply : Reply} (h : (UseCase.depart team ids).run w = (.ok reply, w₁))
    (groups : List (List Text)) :
    ∀ i ∈ (contents (departures team groups w₁).store).items, i.status = .opened → ∀ r ∈ ids,
      (r ∈ (contents (departures team groups w₁).store).reviewers i.id ↔
        r ∈ (contents w.store).reviewers i.id ∧ i.author ∉ (contents w.store).active team) := by
  intro i hi hopen r hr
  have ho := hw.orderly
  have ho₁ : Orderly w₁ := by
    have hrun := (ho.leads (leads_run ho (.depart team ids))).1
    rwa [h] at hrun
  have hlater := ho₁.thinned_departures team groups
  have hcases := ho.depart_run team ids
  simp only [h] at hcases
  rcases hcases with ⟨-, hnobody⟩ | he
  · rw [hnobody rfl] at hr
    exact absurd hr List.not_mem_nil
  · have hinj : Set.InjOn Item.id (contents w.store).items := injOn_item ho.sound
    have hfirst := he.thinned hinj
    have hi₁ : i ∈ (contents w₁.store).items := hlater.items ▸ hi
    have hi₀ : i ∈ (contents w.store).items := hfirst.items ▸ hi₁
    have hleaving : r ∈ ids.eraseDups := List.mem_eraseDups.2 hr
    have hiff := he.retained_iff hinj hi₀ hopen hleaving
    by_cases hauthor : i.author ∈ (contents w.store).active team
    · -- Whoever is gone does not come back, since only active members take over.
      have hgone : r ∉ (contents w₁.store).reviewers i.id := fun hmem => (hiff.1 hmem).2 hauthor
      have hinactive : r ∉ (contents w₁.store).active team := by
        rw [he.active_depart]
        exact fun hmem => (Finset.mem_sdiff.1 hmem).2 (List.mem_toFinset.2 hleaving)
      refine iff_of_false (fun hmem => ?_) fun hmem => hmem.2 hauthor
      rcases Finset.mem_union.1 (hlater.reviewers_subset i hi₁ hmem) with hold | hactive
      · exact hgone hold
      · exact hinactive hactive
    · have hauthor₁ : i.author ∉ (contents w₁.store).active team :=
        fun ha => hauthor (hfirst.active_subset ha)
      rw [hlater.unconcerned i hi₁ hauthor₁]
      exact hiff

end Departures

/-- One of three teammates leaves, who reviews, and then the author of the pull request. -/
theorem departed_reviews_iff_one_of_three :
    let team : Team := ⟨"T",
      [⟨"a", "Ann", none, true⟩, ⟨"b", "Bob", none, true⟩, ⟨"c", "Cat", none, true⟩]⟩
    let w := ((UseCase.opening "p" "Title" "a").run
      ((UseCase.found team).run (World.initial KeyedStore (.ofList []) ⟨0, 1, 0⟩ .info)).2).2
    let ids : List Text := ["b"]
    let groups : List (List Text) := [["a"]]
    Reachable w ∧ ∃ reply w₁, (UseCase.depart "T" ids).run w = (.ok reply, w₁) ∧
      ∀ i ∈ (contents (departures "T" groups w₁).store).items, i.status = .opened → ∀ r ∈ ids,
        (r ∈ (contents (departures "T" groups w₁).store).reviewers i.id ↔
          r ∈ (contents w.store).reviewers i.id ∧ i.author ∉ (contents w.store).active "T") := by
  intro team w ids groups
  have hw : Reachable w := ((reachable_initial _ _ _).run _).run _
  have hanswer : ((UseCase.depart "T" ids).run w).1.toBool = true := by
    unfold w team ids
    cbv
  obtain ⟨reply, w₁, h⟩ := UseCase.exists_run_answer hanswer
  exact ⟨hw, reply, w₁, h, departed_reviews_iff hw h groups⟩

/-- The author of a pull request leaves, and then its reviewer, who goes on reviewing it. -/
theorem departed_reviewer_kept :
    let team : Team := ⟨"T", [⟨"a", "Ann", none, true⟩, ⟨"b", "Bob", none, true⟩]⟩
    let w := ((UseCase.opening "p" "Title" "a").run
      ((UseCase.found team).run (World.initial KeyedStore (.ofList []) ⟨0, 1, 0⟩ .info)).2).2
    let x := (UseCase.depart "T" ["a"]).run w
    let y := (UseCase.depart "T" ["b"]).run x.2
    Reachable w ∧ x.1.toBool = true ∧ y.1.toBool = true ∧
      ∃ i ∈ (contents y.2.store).items, i.status = .opened ∧
        i.author ∈ (contents y.2.store).staff "T" ∧
        ("b" : Text) ∈ (contents y.2.store).reviewers i.id := by
  intro team w x y
  have hw : Reachable w := ((reachable_initial _ _ _).run _).run _
  have hy : x.1.toBool = true ∧ y.1.toBool = true ∧ y.2.store.assigned "p" = ["b"] ∧
      y.2.store.items = [⟨"p", "Title", "a", .opened, .ofInstant 0, none⟩] ∧
      y.2.store.users = [⟨"a", "Ann", some "T", false⟩, ⟨"b", "Bob", some "T", false⟩] := by
    unfold y x w team
    refine ⟨?_, ?_, ?_, ?_, ?_⟩
    · cbv
    · cbv
    · cbv
    · cbv
    · cbv
  obtain ⟨hx, hanswer, hassigned, hitems, husers⟩ := hy
  refine ⟨hw, hx, hanswer, ⟨"p", "Title", "a", .opened, .ofInstant 0, none⟩, ?_, rfl, ?_, ?_⟩
  · show _ ∈ y.2.store.items.toFinset
    rw [hitems]
    decide
  · refine (Contents.mem_staff _ _ _).2 ⟨⟨"a", "Ann", some "T", false⟩, ?_, rfl, rfl⟩
    exact (KeyedStore.mem_contents_users _ _).2 (by rw [husers]; decide)
  · show ("b" : Text) ∈ (y.2.store.assigned "p").toFinset
    rw [hassigned]
    decide

end ReviewDesk
