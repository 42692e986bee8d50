import Mathlib
import ReviewDesk.Proofs.Closing
import ReviewDesk.Proofs.Course
import ReviewDesk.Proofs.Store.Keyed

/-!
# Relieving a reviewer

One random call picks the successor from the active teammates of the reviewer other than the author.
A successor may review the pull request already: then nobody joins, and one reviewer less is left.
-/
namespace ReviewDesk

open LawfulStore

/-- What relieving a reviewer of a pull request makes of the contents of a store and of a random
source, by which successor, and how the pull request is shown afterwards. -/
structure Contents.Reassigned (c c' : Contents) (i : Item) (old : Text) (next : Option Text)
    (d d' : Draws) (p : PullRequest) : Prop where
  /-- The successor is chosen from the active teammates of the reviewer other than the author, in
  the ascending order of their ids. -/
  chosen : Chosen (c.successors old i.author).sort d next d'
  reviewers_eq : c'.reviewers i.id = (c.reviewers i.id).erase old ∪ next.toFinset
  /-- Nothing else is changed. -/
  contents_eq : c' = c.setReviewers i.id (c'.reviewers i.id)
  card_eq_iff : (c'.reviewers i.id).card = (c.reviewers i.id).card ↔
    ∃ x, next = some x ∧ x ∉ c.reviewers i.id
  card_succ : (¬ ∃ x, next = some x ∧ x ∉ c.reviewers i.id) →
    (c'.reviewers i.id).card + 1 = (c.reviewers i.id).card
  old_notMem : old ∉ c'.reviewers i.id
  next_ne_author : next ≠ some i.author
  author_notMem : i.author ∉ c.reviewers i.id → i.author ∉ c'.reviewers i.id
  shown : p = c'.shown i
  ascending : p.reviewers.Pairwise (· < ·)

namespace Contents

variable {c : Contents} {old author x : Text}

theorem ne_of_mem_successors (h : x ∈ c.successors old author) : x ≠ author ∧ x ≠ old := by
  obtain ⟨hauthor, hx⟩ := Finset.mem_erase.1 h
  exact ⟨hauthor, ((c.mem_teammates old x).1 hx).1⟩

/-- Handing a review over leaves as many reviewers exactly if somebody joins. -/
theorem card_handed {R : Finset Text} {next : Option Text} (hold : old ∈ R)
    (hnext : ∀ x, next = some x → x ≠ old) :
    ((∃ x, next = some x ∧ x ∉ R) ∧ (R.erase old ∪ next.toFinset).card = R.card) ∨
      (¬ ∃ x, next = some x ∧ x ∉ R) ∧ (R.erase old ∪ next.toFinset).card + 1 = R.card := by
  cases next with
  | none => exact .inr ⟨by simp, by simpa using Finset.card_erase_add_one hold⟩
  | some x =>
    have hunion : R.erase old ∪ (some x).toFinset = insert x (R.erase old) := by
      rw [Option.toFinset_some, Finset.union_comm, ← Finset.insert_eq]
    rw [hunion]
    by_cases hx : x ∈ R
    · have hmem : x ∈ R.erase old := Finset.mem_erase.2 ⟨hnext x rfl, hx⟩
      rw [Finset.insert_eq_of_mem hmem]
      exact .inr ⟨by simpa using hx, Finset.card_erase_add_one hold⟩
    · have hnot : x ∉ R.erase old := fun hmem => hx (Finset.mem_of_mem_erase hmem)
      rw [Finset.card_insert_of_notMem hnot]
      exact .inl ⟨⟨x, rfl, hx⟩, Finset.card_erase_add_one hold⟩

end Contents

variable {σ : Type} [Gateway σ] [LawfulStore σ]

namespace Undertaking

variable {w : World σ} {i : Item} {old : Text} {next : Option Text} {s : σ} {d : Draws}

theorem Relief.ne (h : Relief w i old next s d) {x : Text} (hx : next = some x) :
    x ≠ i.author ∧ x ≠ old :=
  Contents.ne_of_mem_successors (h.subset (by simp [hx]))

/-- A reviewer who is relieved is relieved by that law. -/
theorem Relief.reassigned (h : Relief w i old next s d) :
    (contents w.store).Reassigned (contents s) i old next w.draws d ((contents s).shown i) := by
  have hreviewers : (contents s).reviewers i.id =
      ((contents w.store).reviewers i.id).erase old ∪ next.toFinset := by
    rw [h.contents_eq, Contents.setReviewers_self]
  have hcard := Contents.card_handed h.reviewing fun x hx => (h.ne hx).2
  rw [← hreviewers] at hcard
  have hmem {x : Text} : x ∈ (contents s).reviewers i.id ↔
      (x ≠ old ∧ x ∈ (contents w.store).reviewers i.id) ∨ next = some x := by
    rw [hreviewers, Finset.mem_union, Finset.mem_erase, Option.mem_toFinset, Option.mem_def]
  constructor
  case chosen => exact h.chosen
  case reviewers_eq => exact hreviewers
  case contents_eq => rw [hreviewers, ← h.contents_eq]
  case card_eq_iff =>
    rcases hcard with ⟨hjoins, hcard⟩ | ⟨hnobody, hcard⟩
    · exact iff_of_true hcard hjoins
    · exact iff_of_false (by omega) hnobody
  case card_succ => exact fun hnobody => (hcard.resolve_left fun hjoins => hnobody hjoins.1).2
  case old_notMem =>
    rw [hmem]
    rintro (⟨hne, -⟩ | hx)
    · exact hne rfl
    · exact (h.ne hx).2 rfl
  case next_ne_author => exact fun hx => (h.ne hx).1 rfl
  case author_notMem =>
    intro hauthor
    rw [hmem]
    rintro (⟨-, hx⟩ | hx)
    · exact hauthor hx
    · exact (h.ne hx).1 rfl
  case shown => rfl
  case ascending => exact Finset.sortedLT_sort _ |>.pairwise

end Undertaking

/-- A reviewer is to be relieved, and the transaction begins in a world without faults, with any
draws. If the pull request is open and the reviewer is there, in a team whose name the store keeps,
if in any, the reviewer is relieved; a merged pull request, and after that one that is not reviewed
by that person, is refused, and everything stays as it is. -/
theorem reassign_relieves {w₀ w₁ w : World σ} {id old : Text} {rest : Job σ Reply}
    (hplan : (UseCase.reassign id old).plan w₀ = (.ok (.pending rest), w₁)) (hw : w.faults = [])
    (hs : Sound w.store) (draws : Draws) {i : Item} (hi : i ∈ (contents w.store).items)
    (hid : i.id = id) :
    (i.status = .opened → old ∈ (contents w.store).reviewers id →
      (∃ v ∈ (contents w.store).users, v.id = old ∧ ∀ name ∈ v.team, Admits σ name) →
      ∃ p next w', rest { w with draws := draws } =
          (.ok (.reassigned (.own p) (.ofText? next)), w') ∧
        (contents w.store).Reassigned (contents w'.store) i old next draws w'.draws p ∧
        Gateway.pullRequest id w'.store = .ok p ∧ w'.clock = w.clock ∧
        (Reachable w → i.author ∉ (contents w'.store).reviewers id)) ∧
    (i.status = .merged → ∃ w', rest { w with draws := draws } =
      (.error (.refuse .alreadyMerged), w') ∧ w'.Like { w with draws := draws }) ∧
    (i.status = .opened → old ∉ (contents w.store).reviewers id →
      ∃ w', rest { w with draws := draws } = (.error (.refuse .notReviewer), w') ∧
        w'.Like { w with draws := draws }) := by
  obtain ⟨t, rfl, rfl⟩ := plan_returns _ _ _ _ hplan rest rfl
  subst hid
  let begun : World σ := { w with draws := draws }
  have hsame {j : Item} (hj : j ∈ (contents w.store).items) (hji : j.id = i.id) : j = i :=
    injOn_item hs hj hi hji
  rcases Undertaking.reassign_settles_shown (w := begun) hw hs i.id old with
    ⟨r, s, d, n, w', hrest, hlike, j, hj, hji, hopen, next, rfl, hs', rfl, hrelief⟩ |
      ⟨e, d, n, w', hrest, hlike, hwithheld, rfl, rfl⟩
  · obtain rfl := hsame hj hji
    have hlaw := hrelief.reassigned
    have hold := hrelief.reviewing
    obtain rfl : w'.store = s := hlike.store
    obtain rfl : w'.draws = d := hlike.draws
    refine ⟨fun _ _ _ => ⟨_, next, w', hrest, hlaw, ?_, hlike.clock, fun hR => ?_⟩, ?_, ?_⟩
    · have hitem : j ∈ (contents w'.store).items := by
        rw [hlaw.contents_eq]
        exact hj
      obtain ⟨p, hp, k, hk, hkj, rfl⟩ := (pullRequest_lookup j.id hs').eq_ok
        (((contents w'.store).mem_itemIds j.id).2 ⟨j, hitem, rfl⟩)
      rw [hp, injOn_item hs' hk hitem hkj]
    · exact hlaw.author_notMem (hR.orderly.consistent.author_notMem j hj)
    · intro hm
      rw [hopen] at hm
      cases hm
    · exact fun _ hnot => absurd hold hnot
  · have hlike' : w'.Like begun := ⟨hlike.store, hlike.draws, hlike.clock, hlike.faults⟩
    rcases hwithheld with ⟨hn, -⟩ | ⟨j, hj, hji, h⟩
    · exact absurd (((contents w.store).mem_itemIds i.id).2 ⟨i, hi, rfl⟩) hn
    · obtain rfl := hsame hj hji
      rcases h with ⟨hm, rfl⟩ | ⟨hopen, hnot, rfl⟩ | ⟨hopen, hold, -, hn⟩
      · rw [hm]
        exact ⟨nofun, fun _ => ⟨w', hrest, hlike'⟩, nofun⟩
      · refine ⟨fun _ hold => absurd hold hnot, ?_, fun _ _ => ⟨w', hrest, hlike'⟩⟩
        rw [hopen]
        exact nofun
      · refine ⟨fun _ _ hv => absurd hv hn, ?_, fun _ hnot => absurd hold hnot⟩
        rw [hopen]
        exact nofun

/-- Two of three teammates review, and one of them is relieved after falling inactive. The only
successor is the other one, so that one reviewer is left. -/
theorem reassign_relieves_without_joining :
    let team : Team := ⟨"T",
      [⟨"a", "Ann", none, true⟩, ⟨"b", "Bob", none, true⟩, ⟨"c", "Cat", none, true⟩]⟩
    let w₀ := ((UseCase.opening "p" "Title" "a").run
      ((UseCase.found team).run (World.initial KeyedStore (.ofList []) ⟨0, 1, 0⟩ .info)).2).2
    let w₁ := ((UseCase.reassign "p" "b").plan w₀).2
    let w := ((UseCase.switch "b" false).run w₁).2
    let i : Item := ⟨"p", "Title", "a", .opened, ⟨0, some 0⟩, none⟩
    ∃ rest, (UseCase.reassign "p" "b").plan w₀ = (.ok (.pending rest), w₁) ∧
      ∃ p next w', rest { w with draws := .ofList [5] } =
          (.ok (.reassigned (.own p) (.ofText? next)), w') ∧
        (contents w.store).Reassigned (contents w'.store) i "b" next (.ofList [5]) w'.draws p ∧
        Gateway.pullRequest "p" w'.store = .ok p ∧ w'.clock = w.clock ∧
        (Reachable w → i.author ∉ (contents w'.store).reviewers "p") := by
  intro team w₀ w₁ w i
  have hw₀ : Reachable w₀ := ((reachable_initial _ _ _).run _).run _
  have hpending : Plan.isPending ((UseCase.reassign "p" "b").plan w₀).1 = true := by
    unfold w₀ team
    cbv
  obtain ⟨rest, w₂, hplan⟩ := Plan.exists_pending hpending
  obtain rfl : w₁ = w₂ := congrArg Prod.snd hplan
  have hw₁ : Orderly w₁ := (hw₀.orderly.plan (.reassign "p" "b")).1
  have hw : Orderly w := (hw₁.leads (leads_run hw₁ _)).1
  have hitems : w.store.items = [i] := by
    unfold w w₁ w₀ team
    cbv
  have hassigned : w.store.assigned "p" = (["b", "c"] : List Text) := by
    unfold w w₁ w₀ team
    cbv
  have husers : w.store.users = [⟨"a", "Ann", some "T", true⟩, ⟨"b", "Bob", some "T", false⟩,
      ⟨"c", "Cat", some "T", true⟩] := by
    unfold w w₁ w₀ team
    cbv
  have hi : i ∈ (contents w.store).items :=
    (KeyedStore.mem_contents_items _ _).2 (hitems ▸ List.mem_cons_self)
  have hold : ("b" : Text) ∈ w.store.assigned "p" := hassigned ▸ List.mem_cons_self
  have hthere : (⟨"b", "Bob", some "T", false⟩ : User) ∈ w.store.users :=
    husers ▸ List.mem_cons_of_mem _ List.mem_cons_self
  exact ⟨rest, hplan, (reassign_relieves hplan hw.faults hw.sound (.ofList [5]) hi rfl).1 rfl
    (List.mem_toFinset.2 hold)
    ⟨_, (KeyedStore.mem_contents_users _ _).2 hthere, rfl, fun _ _ => trivial⟩⟩

end ReviewDesk
