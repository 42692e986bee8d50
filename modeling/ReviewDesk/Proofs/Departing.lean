import Mathlib
import ReviewDesk.Proofs.Course
import ReviewDesk.Proofs.Store.Keyed

/-!
# What becomes of the reviews of people who leave

The transaction of a departure begins in some state, whatever was committed since its request looked
around. It does not fail, and it leaves each open pull request of the team with as many reviewers as
can be had.
-/
namespace ReviewDesk

open LawfulStore

variable {σ : Type} [Gateway σ] [LawfulStore σ]

/-- Those who are switched inactive are inactive in the users that result. -/
theorem Contents.inactive_of_switch {c : Contents} {ids : Finset Text} {u : User}
    (hu : u ∈ (c.switch ids false).users) (hid : u.id ∈ ids) : u.active = false := by
  obtain ⟨v, -, rfl⟩ := (c.mem_switch ids false u).1 hu
  by_cases hv : v.id ∈ ids
  · rw [if_pos hv]
  · rw [if_neg hv] at hid
    exact absurd hid hv

/-- What a departure makes of the contents of a store, from the state in which its transaction
begins. -/
structure Contents.Departed (c c' : Contents) (team : Text) (leaving : Finset Text) : Prop where
  /-- The reviewers are those who stay and as many others as leave, as long as there are any. -/
  relieved : ∀ i, c.Concerned team i → c.Relieved team leaving i (c'.reviewers i.id)
  disjoint : ∀ i, c.Concerned team i → Disjoint (c'.reviewers i.id) leaving
  card_le : ∀ i, c.Concerned team i → (c'.reviewers i.id).card ≤ (c.reviewers i.id).card
  joined : ∀ i, c.Concerned team i → ∀ r ∈ c'.reviewers i.id, r ∉ c.reviewers i.id →
    r ≠ i.author ∧ r ∈ c'.active team
  saturated : ∀ i, c.Concerned team i → (c'.reviewers i.id).card < (c.reviewers i.id).card →
    ∀ k ∈ c'.active team, k ≠ i.author → k ∈ c'.reviewers i.id
  present : ∀ id ∈ leaving, ∃ u ∈ c'.users, u.id = id
  inactive : ∀ u ∈ c'.users, u.id ∈ leaving → u.active = false

/-- The effect of a departure, put in terms of the state that it leaves. -/
theorem Undertaking.Effect.departed {c c' : Contents} {team : Text} {leaving : List Text}
    {keep : Timestamp → Timestamp} {now : Timestamp}
    (he : (Undertaking.depart team leaving).Effect keep now c c')
    (hids : ∀ id ∈ leaving, id ∈ c.userIds) : c.Departed c' team leaving.toFinset := by
  have hactive := he.active_depart
  obtain ⟨-, husers, -, hconcerned, -⟩ := he
  constructor
  case relieved => exact hconcerned
  case disjoint => exact fun i hi => (hconcerned i hi).disjoint
  case card_le => exact fun i hi => (hconcerned i hi).card_le
  case joined =>
    intro i hi r hr hnew
    rw [hactive]
    exact (hconcerned i hi).joined hr hnew
  case saturated =>
    intro i hi hlt k hk hauthor
    rw [hactive] at hk
    obtain ⟨hk, hstays⟩ := Finset.mem_sdiff.1 hk
    exact (hconcerned i hi).saturated hlt hk hstays hauthor
  case present =>
    intro id hid
    have hsame : c'.userIds = (c.switch leaving.toFinset false).userIds := by
      rw [Contents.userIds, Contents.userIds, husers]
    rw [Contents.userIds_switch] at hsame
    exact (c'.mem_userIds id).1 (hsame ▸ hids id (List.mem_toFinset.1 hid))
  case inactive =>
    intro u hu hid
    rw [husers] at hu
    exact Contents.inactive_of_switch hu hid

/-- People are let go in a reachable world, other requests are carried out before the transaction
begins, and it begins with any draws: it commits, and the state that it commits is told from the one
in which it began. -/
theorem depart_commits {w w₁ w₂ : World σ} {team : Text} {ids : List Text} {rest : Job σ Reply}
    (hw : Reachable w)
    (hplan : (UseCase.depart team ids).plan w = (.ok (.pending rest), w₁)) (hbetween : Leads w₁ w₂)
    (draws : Draws) : ∃ reply w₃, rest { w₂ with draws := draws } = (.ok reply, w₃) ∧
      (contents w₂.store).Departed (contents w₃.store) team ids.toFinset := by
  have ho := hw.orderly
  have ho₁ : Orderly w₁ ∧ w₁.store = w.store := by
    have h := ho.plan (.depart team ids)
    rwa [hplan] at h
  obtain ⟨ho₂, hp⟩ := ho₁.1.leads hbetween
  rw [ho₁.2] at hp
  have hpending : rest = (Undertaking.depart team ids.eraseDups).rest ∧
      (Undertaking.depart team ids.eraseDups).Advised (contents w.store) := by
    rcases Undertaking.plan_depart ho.faults ho.sound team ids with ⟨p, hx, hp⟩ | ⟨e, hx, -⟩
    · rw [hplan] at hx
      obtain rfl : .pending rest = p := Except.ok.inj (congrArg Prod.fst hx)
      rcases hp with ⟨a, ha⟩ | ⟨hrest, hteam, hids⟩
      · cases ha
      · exact ⟨Plan.pending.inj hrest, hteam, fun id hid =>
          (contents w.store).staff_subset_userIds team (hids id (List.mem_eraseDups.1 hid))⟩
    · rw [hplan] at hx
      cases hx
  obtain ⟨rfl, hadvised⟩ := hpending
  have ho₃ : Orderly { w₂ with draws := draws } := ho₂.withDraws draws
  have hadvised₂ := hadvised.mono hp
  rcases Undertaking.depart_settles ho₃.faults ho₃.sound ho₃.comparable hadvised₂ with
    ⟨reply, s, d, n, w₃, hrest, hlike, -, he⟩ | ⟨_, _, _, _, _, _, h⟩
  · have hstore : w₃.store = s := hlike.store
    have hleaving : ids.eraseDups.toFinset = ids.toFinset := by
      ext id
      simp
    refine ⟨reply, w₃, hrest, ?_⟩
    rw [hstore, ← hleaving]
    exact he.departed hadvised₂.2
  · exact h.elim

/-- Two of three teammates review, and one of the two leaves after the third has fallen inactive. -/
theorem depart_commits_one_of_two :
    let team : Team := ⟨"T",
      [⟨"a", "Ann", none, true⟩, ⟨"b", "Bob", none, true⟩, ⟨"c", "Cat", none, true⟩]⟩
    let leaving : List Text := ["b"]
    let w := ((UseCase.opening "p" "Title" "a").run
      ((UseCase.found team).run (World.initial KeyedStore (.ofList []) ⟨0, 1, 0⟩ .info)).2).2
    ∃ rest w₁, (UseCase.depart "T" leaving).plan w = (.ok (.pending rest), w₁) ∧
      ∃ reply w₃, rest { ((UseCase.switch "c" false).run w₁).2 with draws := .ofList [1] } =
          (.ok reply, w₃) ∧
        (contents ((UseCase.switch "c" false).run w₁).2.store).Departed
          (contents w₃.store) "T" leaving.toFinset := by
  intro team leaving w
  have hw : Reachable w := ((reachable_initial _ _ _).run _).run _
  have hpending : Plan.isPending ((UseCase.depart "T" leaving).plan w).1 = true := by
    unfold w team leaving
    cbv
  obtain ⟨rest, w₁, hplan⟩ := Plan.exists_pending hpending
  have ho : Orderly w₁ := by
    have h := (hw.orderly.plan (.depart "T" leaving)).1
    rwa [hplan] at h
  exact ⟨rest, w₁, hplan, depart_commits hw hplan (leads_run ho _) (.ofList [1])⟩

end ReviewDesk
