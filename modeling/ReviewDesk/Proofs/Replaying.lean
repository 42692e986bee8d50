import Mathlib
import ReviewDesk.Proofs.Chronicle
import ReviewDesk.Proofs.Course
import ReviewDesk.Proofs.Store.Chronicle

/-!
# The report of a departure is what the departure did

A departure reports an entry for each review that it ends, in the order of the pull requests with
the latest first, and for each of them in the order of the ids. The entries, carried out in any
order on the reviewers that the departure found, give those that it left, and nothing else has
changed apart from who is active.
-/
namespace ReviewDesk

open LawfulStore Reassignment

/-- What a departure reports, told from the contents that it found and from those that it left,
where pull requests were saved in a given order. -/
structure Contents.Told (c c' : Contents) (saved : List Item) (team : Text) (leaving : Finset Text)
    (rs : List Reassignment) : Prop where
  /-- The reviews that end, in the order of the report. -/
  ended_eq : ∃ is : List Item, LatestFirst saved is ∧ is.Nodup ∧
    (∀ i, i ∈ is ↔ c.Concerned team i) ∧ rs.map ended =
      is.flatMap fun i => ((c.reviewers i.id ∩ leaving).sort).map (Prod.mk i.id)
  /-- Each of them has one entry. -/
  nodup : (rs.map ended).Nodup
  mem_ended : ∀ id r, (id, r) ∈ rs.map ended ↔
    (∃ i, c.Concerned team i ∧ i.id = id) ∧ r ∈ c.reviewers id ∧ r ∈ leaving
  replayed : ∀ rs' : List Reassignment, rs'.Perm rs →
    (rs'.foldl replay c).reviewers = c'.reviewers
  others : ∀ id, (∀ i, c.Concerned team i → i.id ≠ id) → c'.reviewers id = c.reviewers id
  teams : c'.teams = c.teams
  items : c'.items = c.items
  users : c'.users = (c.switch leaving false).users

namespace Contents

variable {c c' : Contents} {team : Text} {leaving : Finset Text} {is : List Item}
    {rs : List Reassignment}

/-- A departure that is accounted for in the order in which its pull requests were listed is told by
its report. -/
theorem Account.told {leaving : List Text} {saved : List Item}
    (h : c.Account team leaving.toFinset is rs c') (hlatest : LatestFirst saved is) :
    c.Told c' saved team leaving.toFinset rs := by
  have heffect : (Undertaking.depart team leaving).Effect id (.ofInstant 0) c c' := h.effect
  obtain ⟨hteams, husers, hitems, -, hothers⟩ := heffect
  constructor
  case ended_eq => exact ⟨is, hlatest, h.nodup.of_map Item.id, h.mem_iff, h.reported.ended_eq⟩
  case nodup => exact h.nodup_ended
  case mem_ended => exact h.mem_ended_iff
  case replayed =>
    intro rs' hp
    rw [foldl_replay_perm c h.reported.apart hp, h.reviewers]
  case others => exact hothers
  case teams => exact hteams
  case items => exact hitems
  case users => exact husers

end Contents

variable {σ : Type} [Gateway σ] [LawfulStore σ] [ChronicleStore σ]

/-- A departure that was advised tells what it did, wherever the dates of the pull requests can be
put in order. Those of one date are reported in the order in which they were saved. -/
theorem Undertaking.depart_told {w : World σ} (hw : w.faults = []) (hs : Sound w.store)
    (hc : (contents w.store).Comparable) {team : Text} {leaving : List Text}
    (ha : (Undertaking.depart team leaving).Advised (contents w.store)) :
    ∃ rs w', (Undertaking.depart team leaving).rest w =
        (.ok (.deactivation ⟨team, leaving, .own rs⟩), w') ∧
      (contents w.store).Told (contents w'.store) (ChronicleStore.saved w.store) team
        leaving.toFinset rs ∧
      w'.draws = w.draws.skip (joining rs).length := by
  obtain ⟨is, rs, w', hrest, hlisted, haccount, hlike, -⟩ :=
    Undertaking.depart_accounted hw hs hc ha
  have hlatest : LatestFirst (ChronicleStore.saved w.store) is := by
    have hlist := ChronicleStore.openPullRequests_eq hs hlisted
    rw [List.map_injective_iff.2 (Contents.withReviewers_injective []) hlist]
    exact latestFirst_filter _ _
  exact ⟨rs, w', hrest, haccount.told hlatest, hlike.draws⟩

/-- People are let go in a reachable world, other requests are carried out before the transaction
begins, and it begins with any draws: what is answered names them once each, and reports exactly
what was changed; each who took over was drawn. -/
theorem depart_tells {w w₁ w₂ : World σ} {team : Text} {ids : List Text} {rest : Job σ Reply}
    (hw : Reachable w)
    (hplan : (UseCase.depart team ids).plan w = (.ok (.pending rest), w₁)) (hbetween : Leads w₁ w₂)
    (draws : Draws) : ∃ rs w₃, rest { w₂ with draws := draws } =
        (.ok (.deactivation ⟨team, ids.eraseDups, .own rs⟩), w₃) ∧
      (contents w₂.store).Told (contents w₃.store) (ChronicleStore.saved w₂.store) team
        ids.toFinset rs ∧
      w₃.draws = draws.skip (joining rs).length := by
  obtain ⟨ho, t, rfl, rfl, ha⟩ := hw.orderly.pending hplan hbetween
  have ho' : Orderly { w₂ with draws := draws } := ho.withDraws draws
  have hleaving : ids.eraseDups.toFinset = ids.toFinset := by
    ext id
    simp
  rw [← hleaving]
  exact Undertaking.depart_told ho'.faults ho'.sound ho'.comparable ha

/-- Two of four teammates are let go, one of them named twice, and another pull request is opened
before the transaction begins. -/
theorem depart_tells_two :
    let team : Team := ⟨"T",
      [⟨"a", "Ann", none, true⟩, ⟨"b", "Bob", none, true⟩, ⟨"c", "Cat", none, true⟩,
        ⟨"d", "Dan", none, true⟩]⟩
    let leaving : List Text := ["b", "c", "b"]
    let w := ((UseCase.opening "p" "Title" "a").run
      ((UseCase.found team).run (World.initial KeyedStore (.ofList []) ⟨0, 1, 0⟩ .info)).2).2
    ∃ rest w₁, (UseCase.depart "T" leaving).plan w = (.ok (.pending rest), w₁) ∧
      ∃ rs w₃, rest { ((UseCase.opening "q" "Title" "a").run w₁).2 with draws := .ofList [1] } =
          (.ok (.deactivation ⟨"T", leaving.eraseDups, .own rs⟩), w₃) ∧
        (contents ((UseCase.opening "q" "Title" "a").run w₁).2.store).Told (contents w₃.store)
          (ChronicleStore.saved ((UseCase.opening "q" "Title" "a").run w₁).2.store) "T"
          leaving.toFinset rs ∧
        w₃.draws = (Draws.ofList [1]).skip (joining rs).length := by
  intro team leaving w
  have hw : Reachable w := ((reachable_initial _ _ _).run _).run _
  have hpending : Plan.isPending ((UseCase.depart "T" leaving).plan w).1 = true := by
    unfold w team leaving
    cbv
  obtain ⟨rest, w₁, hplan⟩ := Plan.exists_pending hpending
  have ho : Orderly w₁ := by
    have h := (hw.orderly.plan (.depart "T" leaving)).1
    rwa [hplan] at h
  exact ⟨rest, w₁, hplan, depart_tells hw hplan (leads_run ho _) (.ofList [1])⟩

end ReviewDesk
