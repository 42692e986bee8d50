import Mathlib
import ReviewDesk.Proofs.Course
import ReviewDesk.Proofs.Store.Keyed

/-!
# Reviewers of a new pull request

The reviewers of a new pull request are drawn before its transaction begins, and the transaction
takes them as they are. Whether they suit the state that is committed depends on what was committed
in between: nobody who was drawn may have become unsuited, and no more may be wanted than were
drawn.
-/
namespace ReviewDesk
namespace Contents

/-- A pull request of an author is reviewed by active teammates of the author, by two of them or by
all there are. -/
def Staffed (c : Contents) (id author : Text) : Prop :=
  c.reviewers id ⊆ c.teammates author ∧ (c.reviewers id).card = min 2 (c.teammates author).card

theorem teammates_congr {c c' : Contents} (h : c'.users = c.users) (id : Text) :
    c'.teammates id = c.teammates id := by
  unfold teammates
  rw [h]

end Contents

open Job LawfulStore

variable {σ : Type} [Gateway σ] [LawfulStore σ]

/-- Opening a pull request under a new id gives it the reviewers that were drawn and leaves all
users as they are. -/
theorem Undertaking.Effect.opened {c c' : Contents} (hc : c.Consistent) {id name author : Text}
    {drawn : List Text}
    {keep : Timestamp → Timestamp} {now : Timestamp}
    (he : (Undertaking.opening id name author drawn).Effect keep now c c') :
    c'.reviewers id = drawn.toFinset ∧ c'.users = c.users := by
  obtain ⟨hnew, rfl⟩ := he
  rw [hc.reviewers_eq_empty hnew, Finset.empty_union]
  exact ⟨Contents.setReviewers_self _ _ _, rfl⟩

/-- Who was drawn from the teammates of an author suits the contents that were looked at. -/
theorem Contents.drawn_suits {c : Contents} {author : Text} {drawn : List Text} {d d' : Draws}
    (h : selectUpTo (c.teammates author).sort 2 d = (drawn, d')) :
    drawn.toFinset ⊆ c.teammates author ∧
      drawn.toFinset.card = min 2 (c.teammates author).card := by
  obtain ⟨hnodup, hsub, hlength⟩ := Undertaking.drawn_spec 2 h
  constructor
  · intro r hr
    exact hsub r (List.mem_toFinset.1 hr)
  · rw [List.toFinset_card_of_nodup hnodup]
    exact hlength

/-- A pull request is opened, and errands are carried out after its reviewers were drawn. It gets
the reviewers that were drawn from those who were active teammates of the author by then. They suit
the state that is committed exactly if they are still active teammates of the author when the
transaction begins, and as many are wanted. -/
theorem opening_staffed_iff {w w' : World σ} (hw : Reachable w) {id name author : Text}
    (es : List (Errand Empty)) {reply : Reply} {outcomes : Option (List Outcome)}
    (h : (UseCase.opening id name author).interleaved (Op.runAll (Errand.ops es)) w =
      ((.ok reply, outcomes), w')) :
    ∃ drawn draws,
      selectUpTo ((contents w.store).teammates author).sort 2 w.draws = (drawn, draws) ∧
      drawn.toFinset ⊆ (contents w.store).teammates author ∧
      drawn.toFinset.card = min 2 ((contents w.store).teammates author).card ∧
      (∃ i ∈ (contents w'.store).items, i.id = id ∧
        reply = .pullRequest ((contents w'.store).shown i)) ∧
      (contents w'.store).reviewers id = drawn.toFinset ∧
      let begun := (Op.runAll (Errand.ops es) { w with draws := draws }).2
      ((contents w'.store).Staffed id author ↔
        drawn.toFinset ⊆ (contents begun.store).teammates author ∧
          min 2 ((contents w.store).teammates author).card =
            min 2 ((contents begun.store).teammates author).card) := by
  have ho := hw.orderly
  unfold UseCase.interleaved at h
  rcases Undertaking.plan_opening ho.faults ho.sound id name author with
    ⟨_, draws, hplan, drawn, hdrawn, rfl, -⟩ | ⟨e, hplan⟩
  · rw [hplan] at h
    have hlooked : Orderly { w with draws := draws } := ho.withDraws draws
    obtain ⟨hbegun, -⟩ := hlooked.leads (leads_ops es hlooked)
    simp only [Job.sparing_of_no_faults .silentTransaction _ _ hbegun.faults] at h
    obtain ⟨hsub, hcard⟩ := Contents.drawn_suits hdrawn
    refine ⟨drawn, draws, hdrawn, hsub, hcard, ?_⟩
    rcases Undertaking.opening_settles hbegun.faults hbegun.sound id name author drawn with
      ⟨r, s, d, n, w₃, hrest, hlike, hshown, -, -, he⟩ | ⟨e, d, n, w₃, hrest, -, -⟩
    · rw [hrest] at h
      cases h
      obtain ⟨hreviewers, husers⟩ := he.opened hbegun.consistent
      have hstore : w₃.store = s := hlike.store
      rw [hstore]
      refine ⟨hshown, hreviewers, ?_⟩
      rw [Contents.Staffed, hreviewers, Contents.teammates_congr husers, hcard]
    · rw [hrest] at h
      cases h
  · rw [hplan] at h
    cases h

/-- A pull request is opened while its author is switched inactive. -/
theorem opening_staffed_iff_of_inactive_author :
    let team : Team := ⟨"T", [⟨"a", "Ann", none, true⟩, ⟨"r", "Roy", none, true⟩]⟩
    let es : List (Errand Empty) := [.request (.switch "a" false) []]
    let w := ((UseCase.found team).run (World.initial KeyedStore (.ofList []) ⟨0, 1, 0⟩ .info)).2
    ∃ reply outcomes w',
      (UseCase.opening "p" "Title" "a").interleaved (Op.runAll (Errand.ops es)) w =
        ((.ok reply, outcomes), w') ∧
      ∃ drawn draws, selectUpTo ((contents w.store).teammates "a").sort 2 w.draws = (drawn, draws) ∧
        drawn.toFinset ⊆ (contents w.store).teammates "a" ∧
        drawn.toFinset.card = min 2 ((contents w.store).teammates "a").card ∧
        (∃ i ∈ (contents w'.store).items, i.id = "p" ∧
          reply = .pullRequest ((contents w'.store).shown i)) ∧
        (contents w'.store).reviewers "p" = drawn.toFinset ∧
        let begun := (Op.runAll (Errand.ops es) { w with draws := draws }).2
        ((contents w'.store).Staffed "p" "a" ↔
          drawn.toFinset ⊆ (contents begun.store).teammates "a" ∧
            min 2 ((contents w.store).teammates "a").card =
              min 2 ((contents begun.store).teammates "a").card) := by
  intro team es w
  have hw : Reachable w := (reachable_initial _ _ _).run _
  have hanswer : ((UseCase.opening "p" "Title" "a").interleaved (Op.runAll (Errand.ops es))
      w).1.1.toBool = true := by
    unfold es w team
    rw [funext (runAll_request _)]
    cbv
  obtain ⟨reply, outcomes, w', h⟩ := exists_answer hanswer
  exact ⟨reply, outcomes, w', h, opening_staffed_iff hw es h⟩

/-- The only teammate is switched inactive after having been drawn, and reviews the new pull request
all the same. -/
theorem opening_not_staffed :
    let team : Team := ⟨"T", [⟨"a", "Ann", none, true⟩, ⟨"r", "Roy", none, true⟩]⟩
    let es : List (Errand Empty) := [.request (.switch "r" false) []]
    let w := ((UseCase.found team).run (World.initial KeyedStore (.ofList []) ⟨0, 1, 0⟩ .info)).2
    Reachable w ∧ ∃ reply outcomes w',
      (UseCase.opening "p" "Title" "a").interleaved (Op.runAll (Errand.ops es)) w =
        ((.ok reply, outcomes), w') ∧
      ¬ (contents w'.store).Staffed "p" "a" := by
  intro team es w
  have hw : Reachable w := (reachable_initial _ _ _).run _
  let x := (UseCase.opening "p" "Title" "a").interleaved (Op.runAll (Errand.ops es)) w
  have hx : x.1.1.toBool = true ∧ x.2.store.assigned "p" = ["r"] ∧
      x.2.store.users = [⟨"a", "Ann", some "T", true⟩, ⟨"r", "Roy", some "T", false⟩] := by
    unfold x es w team
    rw [funext (runAll_request _)]
    refine ⟨?_, ?_, ?_⟩
    · cbv
    · cbv
    · cbv
  obtain ⟨hanswer, hassigned, husers⟩ := hx
  obtain ⟨reply, outcomes, w', h⟩ := exists_answer hanswer
  refine ⟨hw, reply, outcomes, w', h, fun hstaffed => ?_⟩
  have hw' : x.2 = w' := congrArg Prod.snd h
  rw [hw'] at hassigned husers
  have hreviews : ("r" : Text) ∈ (contents w'.store).reviewers "p" := by
    show ("r" : Text) ∈ (w'.store.assigned "p").toFinset
    rw [hassigned]
    decide
  obtain ⟨-, u, hu, hid, hactive, -⟩ := (Contents.mem_teammates _ _ _).1 (hstaffed.1 hreviews)
  have hmem : u ∈ w'.store.users := (KeyedStore.mem_contents_users _ u).1 hu
  rw [husers] at hmem
  simp only [List.mem_cons, List.not_mem_nil, or_false] at hmem
  rcases hmem with rfl | rfl
  · exact absurd hid (by decide)
  · cases hactive

end ReviewDesk
