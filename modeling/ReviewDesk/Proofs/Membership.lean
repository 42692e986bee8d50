import Mathlib
import ReviewDesk.Proofs.Course
import ReviewDesk.Proofs.Store.Keyed

/-!
# Who is switched inactive by a departure

That the people who are to leave belong to the team is found out before the transaction begins, and
the transaction does not ask again. Whoever was moved to another team in between is switched
inactive like the others: who is switched is told by the ids alone.
-/
namespace ReviewDesk
namespace Contents

/-- The activity of the user with an id is not what it was. -/
def Switched (c c' : Contents) (id : Text) : Prop :=
  ∃ u ∈ c.users, ∃ v ∈ c'.users, u.id = id ∧ v.id = id ∧ u.active ≠ v.active

/-- Users who are switched inactive are the active ones among the given. -/
theorem switched_iff {c c' : Contents} (hinj : Set.InjOn User.id c.users)
    (hteam : ∀ u ∈ c.users, ∃ t ∈ c.teams, u.team = some t) {ids : Finset Text}
    (h : c'.users = (c.switch ids false).users) (id : Text) :
    c.Switched c' id ↔ id ∈ ids ∧ ∃ t, id ∈ c.active t := by
  unfold Switched
  rw [h]
  constructor
  · rintro ⟨u, hu, v, hv, rfl, hid, hne⟩
    obtain ⟨x, hx, rfl⟩ := (c.mem_switch ids false v).1 hv
    by_cases hmem : x.id ∈ ids
    · rw [if_pos hmem] at hid hne
      obtain rfl : x = u := hinj hx hu hid
      obtain ⟨t, -, ht⟩ := hteam x hx
      have hactive : x.active = true := by simpa using hne
      exact ⟨hmem, t, (c.mem_active t x.id).2 ⟨x, hx, ht, hactive, rfl⟩⟩
    · rw [if_neg hmem] at hid hne
      obtain rfl : x = u := hinj hx hu hid
      exact absurd rfl hne
  · rintro ⟨hmem, t, hactive⟩
    obtain ⟨u, hu, -, ha, rfl⟩ := (c.mem_active t id).1 hactive
    refine ⟨u, hu, { u with active := false }, ?_, rfl, rfl, by simp [ha]⟩
    exact (c.mem_switch ids false _).2 ⟨u, hu, if_pos hmem⟩

/-- An active user of a team is an active user of no other. -/
theorem active_team_eq {c : Contents} (hinj : Set.InjOn User.id c.users) {id team other : Text}
    (ha : id ∈ c.active other) (hs : id ∈ c.staff team) : other = team := by
  obtain ⟨u, hu, hother, -, rfl⟩ := (c.mem_active other id).1 ha
  obtain ⟨v, hv, hteam, hid⟩ := (c.mem_staff team u.id).1 hs
  obtain rfl : v = u := hinj hv hu hid
  exact Option.some.inj (hother.symm.trans hteam)

end Contents

open Job LawfulStore

variable {σ : Type} [Gateway σ] [LawfulStore σ]

/-- People are let go who are members of the team when the request looks around, and errands are
carried out before its transaction begins. The transaction commits. -/
theorem Orderly.depart_commits_after {w : World σ} (ho : Orderly w) {team : Text} {ids : List Text}
    (hids : ids ≠ []) (hteam : team ∈ (contents w.store).teams)
    (hmembers : ∀ id ∈ ids, id ∈ (contents w.store).staff team) (es : List (Errand Empty)) :
    let begun := Op.runAll (Errand.ops es) w
    ∃ reply w', (UseCase.depart team ids).interleaved (Op.runAll (Errand.ops es)) w =
        ((.ok reply, some begun.1), w') ∧
      (Undertaking.depart team ids.eraseDups).Effect (keep σ) begun.2.clock.now
        (contents begun.2.store) (contents w'.store) := by
  intro begun
  rcases Undertaking.plan_depart_members ho.faults ho.sound team ids with
    ⟨p, hplan, ⟨hnil, -⟩ | ⟨rfl, -, -⟩⟩ | ⟨e, -, he⟩
  · exact absurd hnil hids
  · have hadvised := Undertaking.advised_depart hteam hmembers
    obtain ⟨hbegun, hp⟩ := ho.leads (leads_ops es ho)
    obtain ⟨reply, w', hrest, he⟩ := hbegun.depart_rest (hadvised.mono hp)
    refine ⟨reply, w', ?_, he⟩
    unfold UseCase.interleaved
    rw [hplan]
    simp only [Job.sparing_of_no_faults .silentTransaction _ _ hbegun.faults, hrest, begun]
  · obtain ⟨stranger, hmem, hstranger, -⟩ := he hteam
    exact absurd (hmembers stranger hmem) hstranger

/-- People are to be let go from a team that is there, and errands are carried out before the
transaction begins. If somebody is not a member of the team when the request looks around, it is
refused and nothing happens. Otherwise it commits, whatever the errands do, and switches everybody
who is active by then, in whatever team. Only members of the team are switched exactly if nobody of
those who are still active was moved to another team. -/
theorem depart_switched_iff {w : World σ} (hw : Reachable w) {team : Text} {ids : List Text}
    (hids : ids ≠ []) (hteam : team ∈ (contents w.store).teams) (es : List (Errand Empty)) :
    let x := (UseCase.depart team ids).interleaved (Op.runAll (Errand.ops es)) w
    let begun := (Op.runAll (Errand.ops es) w).2
    ((∃ id ∈ ids, id ∉ (contents w.store).staff team) →
      ∃ stranger ∈ ids, stranger ∉ (contents w.store).staff team ∧
        x = ((.error (Departure.strangerNote stranger team), none), w)) ∧
    ((∀ id ∈ ids, id ∈ (contents w.store).staff team) →
      x.1.1.toBool = true ∧
      (∀ id, (contents begun.store).Switched (contents x.2.store) id ↔
        id ∈ ids ∧ ∃ t, id ∈ (contents begun.store).active t) ∧
      ((∀ id, (contents begun.store).Switched (contents x.2.store) id →
          id ∈ (contents begun.store).staff team) ↔
        ∀ id ∈ ids, ∀ t, id ∈ (contents begun.store).active t → t = team)) := by
  intro x begun
  have ho := hw.orderly
  constructor
  · rintro ⟨id, hid, hnot⟩
    rcases Undertaking.plan_depart_members ho.faults ho.sound team ids with
      ⟨p, -, ⟨hnil, -⟩ | ⟨-, -, hmembers⟩⟩ | ⟨e, hplan, he⟩
    · exact absurd hnil hids
    · exact absurd (hmembers id hid) hnot
    · obtain ⟨stranger, hmem, hstranger, rfl⟩ := he hteam
      refine ⟨stranger, hmem, hstranger, ?_⟩
      unfold x UseCase.interleaved
      rw [hplan]
  · intro hmembers
    obtain ⟨reply, w', hx, -, husers, -⟩ := ho.depart_commits_after hids hteam hmembers es
    have hbegun : Orderly begun := (ho.leads (leads_ops es ho)).1
    have hinj : Set.InjOn User.id (contents begun.store).users := injOn_user hbegun.sound
    have hswitched (id : Text) : (contents begun.store).Switched (contents w'.store) id ↔
        id ∈ ids ∧ ∃ t, id ∈ (contents begun.store).active t := by
      rw [Contents.switched_iff hinj hbegun.consistent.team_mem husers]
      simp
    have hx' : x = ((.ok reply, some (Op.runAll (Errand.ops es) w).1), w') := hx
    rw [hx']
    refine ⟨rfl, hswitched, ?_⟩
    simp only [hswitched]
    constructor
    · rintro hall id hid t ht
      exact Contents.active_team_eq hinj ht (hall id ⟨hid, t, ht⟩)
    · rintro hall id ⟨hid, t, ht⟩
      obtain rfl := hall id hid t ht
      exact (contents begun.store).active_subset_staff t ht

/-- Of two teammates one is let go while the other is founding a team. -/
theorem depart_switched_iff_of_one :
    let team : Team := ⟨"T", [⟨"a", "Ann", none, true⟩, ⟨"b", "Bob", none, true⟩]⟩
    let es : List (Errand Empty) := [.request (.found ⟨"U", [⟨"a", "Ann", none, true⟩]⟩) []]
    let ids : List Text := ["b"]
    let w := ((UseCase.found team).run (World.initial KeyedStore (.ofList []) ⟨0, 1, 0⟩ .info)).2
    let x := (UseCase.depart "T" ids).interleaved (Op.runAll (Errand.ops es)) w
    let begun := (Op.runAll (Errand.ops es) w).2
    Reachable w ∧ ids ≠ [] ∧ ("T" : Text) ∈ (contents w.store).teams ∧
    ((∃ id ∈ ids, id ∉ (contents w.store).staff "T") →
      ∃ stranger ∈ ids, stranger ∉ (contents w.store).staff "T" ∧
        x = ((.error (Departure.strangerNote stranger "T"), none), w)) ∧
    ((∀ id ∈ ids, id ∈ (contents w.store).staff "T") →
      x.1.1.toBool = true ∧
      (∀ id, (contents begun.store).Switched (contents x.2.store) id ↔
        id ∈ ids ∧ ∃ t, id ∈ (contents begun.store).active t) ∧
      ((∀ id, (contents begun.store).Switched (contents x.2.store) id →
          id ∈ (contents begun.store).staff "T") ↔
        ∀ id ∈ ids, ∀ t, id ∈ (contents begun.store).active t → t = "T")) := by
  intro team es ids w x begun
  have hw : Reachable w := (reachable_initial _ _ _).run _
  have hids : ids ≠ [] := List.cons_ne_nil _ _
  have hteams : w.store.teams = ["T"] := by
    unfold w team
    cbv
  have hteam : ("T" : Text) ∈ (contents w.store).teams := by
    show ("T" : Text) ∈ w.store.teams.toFinset
    rw [hteams]
    decide
  exact ⟨hw, hids, hteam, depart_switched_iff hw hids hteam es⟩

/-- A member of the team is moved to another one after having been looked at. The departure commits,
and the stranger is switched inactive. -/
theorem depart_switches_stranger :
    let team : Team := ⟨"T", [⟨"a", "Ann", none, true⟩, ⟨"b", "Bob", none, true⟩]⟩
    let es : List (Errand Empty) := [.request (.found ⟨"U", [⟨"b", "Bob", none, true⟩]⟩) []]
    let w := ((UseCase.found team).run (World.initial KeyedStore (.ofList []) ⟨0, 1, 0⟩ .info)).2
    let x := (UseCase.depart "T" ["b"]).interleaved (Op.runAll (Errand.ops es)) w
    let begun := (Op.runAll (Errand.ops es) w).2
    Reachable w ∧ x.1.1.toBool = true ∧ ("b" : Text) ∉ (contents begun.store).staff "T" ∧
      (contents begun.store).Switched (contents x.2.store) "b" := by
  intro team es w x begun
  have hw : Reachable w := (reachable_initial _ _ _).run _
  have hx : x.1.1.toBool = true ∧
      begun.store.users = [⟨"a", "Ann", some "T", true⟩, ⟨"b", "Bob", some "U", true⟩] ∧
      x.2.store.users = [⟨"a", "Ann", some "T", true⟩, ⟨"b", "Bob", some "U", false⟩] := by
    unfold x begun es w team
    rw [funext (runAll_request _)]
    refine ⟨?_, ?_, ?_⟩
    · cbv
    · cbv
    · cbv
  obtain ⟨hanswer, hbegun, hafter⟩ := hx
  have hbefore : (⟨"b", "Bob", some "U", true⟩ : User) ∈ (contents begun.store).users :=
    (KeyedStore.mem_contents_users _ _).2 (by rw [hbegun]; decide)
  have hlater : (⟨"b", "Bob", some "U", false⟩ : User) ∈ (contents x.2.store).users :=
    (KeyedStore.mem_contents_users _ _).2 (by rw [hafter]; decide)
  refine ⟨hw, hanswer, fun hmem => ?_, _, hbefore, _, hlater, rfl, rfl, by decide⟩
  obtain ⟨u, hu, hteam, hid⟩ := (Contents.mem_staff _ _ _).1 hmem
  have hu' := (KeyedStore.mem_contents_users _ u).1 hu
  rw [hbegun] at hu'
  simp only [List.mem_cons, List.not_mem_nil, or_false] at hu'
  rcases hu' with rfl | rfl
  · exact absurd hid (by decide)
  · exact absurd hteam (by decide)

end ReviewDesk
