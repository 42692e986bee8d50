import Mathlib
import ReviewDesk.Proofs.Departing
import ReviewDesk.Proofs.Rolls
import ReviewDesk.Proofs.Serial
import ReviewDesk.Proofs.Store.Chronicle

/-!
# Departures that are repeated

After a departure those who left are inactive, and on none of the open pull requests that are still
listed does any of them review: whoever took over stays, and a pull request that is not listed any
more because its author left does not come back. A second departure of the same people therefore
reports nothing. Where a whole team is let go nobody is left to take over, so that nothing is drawn.
-/
namespace ReviewDesk

open Job LawfulStore Reassignment

/-- A lawful store in which it leaves no trace to switch people inactive who are inactive. -/
class IdleStore (σ : Type) [Gateway σ] [LawfulStore σ] : Prop where
  deactivate_idle : ∀ {s s' : σ} {ids}, Sound s →
    (∀ u ∈ (contents s).users, u.id ∈ ids → u.active = false) →
      Gateway.deactivate ids s = (.ok (), s') → s' = s

instance : IdleStore KeyedStore where
  deactivate_idle {s s' ids} _ hinactive h := by
    obtain rfl : s.deactivate ids = s' := congrArg Prod.snd h
    have husers : (s.users.map fun u => if u.id ∈ ids then { u with active := false } else u) =
        s.users := by
      refine (List.map_congr_left fun u hu => ?_).trans (List.map_id s.users)
      split
      · next hid =>
        have hu' := hinactive u ((KeyedStore.mem_contents_users s u).2 hu) hid
        cases u
        cases hu'
        rfl
      · rfl
    rw [KeyedStore.deactivate, husers]

instance : IdleStore RelationalStore where
  deactivate_idle {s s' ids} hs hinactive h := by
    cases hs with | @intro teams users rows pairs =>
    have husers : (users.map fun u =>
        if u.id ∈ ids ∧ u.active then { u with active := false } else u) = users := by
      refine (List.map_congr_left fun u hu => ?_).trans (List.map_id users)
      have hu' : u.id ∈ ids → u.active = false :=
        hinactive u.toUser ((RelationalStore.mem_contents_users _).2 ⟨u, hu, rfl⟩)
      split
      · next hid =>
        rw [hu' hid.1] at hid
        exact absurd hid.2 Bool.false_ne_true
      · rfl
    have hdeactivate : RelationalStore.deactivate _ ids = (.ok (), s') := h
    unfold RelationalStore.deactivate at hdeactivate
    split at hdeactivate
    · cases hdeactivate
      rfl
    · obtain ⟨users', -, hsame, rfl⟩ := RelationalStore.change_eq_ok hdeactivate
      obtain rfl := Option.some.inj hsame
      rw [husers]

namespace Contents

variable {c c' : Contents} {team : Text} {leaving : Finset Text}

/-- Nobody changes the team by being switched. -/
theorem staff_switch (c : Contents) (ids : Finset Text) (b : Bool) (team : Text) :
    (c.switch ids b).staff team = c.staff team := by
  ext id
  simp only [mem_staff, mem_switch]
  constructor
  · rintro ⟨_, ⟨u, hu, rfl⟩, hteam, rfl⟩
    refine ⟨u, hu, ?_, ?_⟩
    · rw [← hteam]
      split <;> rfl
    · split <;> rfl
  · rintro ⟨u, hu, hteam, rfl⟩
    refine ⟨_, ⟨u, hu, rfl⟩, ?_, ?_⟩
    · rw [← hteam]
      split <;> rfl
    · split <;> rfl

/-- Nothing is left to do of a departure: those who left are inactive, and none of them reviews an
open pull request of the team. -/
structure Vacated (c : Contents) (team : Text) (leaving : Finset Text) : Prop where
  inactive : ∀ u ∈ c.users, u.id ∈ leaving → u.active = false
  disjoint : ∀ i, c.Concerned team i → Disjoint (c.reviewers i.id) leaving

/-- What a departure of a whole team makes of the contents, and reports. -/
structure Dismissed (c c' : Contents) (team : Text) (rs : List Reassignment) : Prop where
  /-- Nobody takes over. -/
  nobody : ∀ r ∈ rs, r.new = none
  active_eq : c'.active team = ∅
  taken : ∀ i, c.Concerned team i → c'.reviewers i.id = c.reviewers i.id \ c.active team
  others : ∀ id, (∀ i, c.Concerned team i → i.id ≠ id) → c'.reviewers id = c.reviewers id
  items : c'.items = c.items

/-- From a team without active members nobody is taken off. -/
theorem dismissed_nobody (h : c.active team = ∅) : c.Dismissed c team [] where
  nobody := nofun
  active_eq := h
  taken i _ := by rw [h, Finset.sdiff_empty]
  others _ _ := rfl
  items := rfl

/-- Where all active members leave nobody may take over. -/
theorem stayers_active (c : Contents) (team : Text) (i : Item) :
    c.stayers team (c.active team) i = ∅ := by
  rw [stayers, Finset.sdiff_self, Finset.erase_empty, Finset.empty_sdiff]

variable {is : List Item} {rs : List Reassignment} {ids : List Text}

/-- Of people of whom nothing is left to take off nothing is reported. -/
theorem Account.eq_nil (h : c.Account team leaving is rs c') (hv : c.Vacated team leaving) :
    rs = [] := by
  have hnone : rs.map ended = [] := by
    rw [h.reported.ended_eq, List.flatMap_eq_nil_iff]
    intro i hi
    rw [Finset.disjoint_iff_inter_eq_empty.1 (hv.disjoint i ((h.mem_iff i).1 hi)),
      Finset.sort_empty, List.map_nil]
  exact List.map_eq_nil_iff.1 hnone

/-- All active members of a team are let go. -/
theorem Account.dismissed (h : c.Account team ids.toFinset is rs c')
    (hids : ids.toFinset = c.active team) : c.Dismissed c' team rs := by
  have heffect : (Undertaking.depart team ids).Effect id (.ofInstant 0) c c' := h.effect
  have hactive := heffect.active_depart
  obtain ⟨-, -, hitems, hrelieved, hothers⟩ := heffect
  rw [hids] at h hactive hrelieved
  constructor
  case nobody =>
    intro r hr
    obtain ⟨i, -, -, -, hnew⟩ := h.reported.mem hr
    refine Option.eq_none_iff_forall_not_mem.2 fun x hx => ?_
    have hstays := hnew x hx
    rw [stayers_active] at hstays
    exact Finset.notMem_empty x hstays
  case active_eq => rw [hactive, Finset.sdiff_self]
  case taken =>
    intro i hi
    obtain ⟨joining, hsub, -, hafter⟩ := hrelieved i hi
    rw [stayers_active, Finset.subset_empty] at hsub
    rw [hafter, hsub, Finset.union_empty]
  case others => exact hothers
  case items => exact hitems

end Contents

/-- A departure leaves nothing to do of it. A pull request whose author left is not listed any
more. -/
theorem Undertaking.Effect.vacated {c c' : Contents} {team : Text} {leaving : List Text}
    {keep : Timestamp → Timestamp} {now : Timestamp}
    (he : (Undertaking.depart team leaving).Effect keep now c c') :
    c'.Vacated team leaving.toFinset := by
  have hactive := he.active_depart
  obtain ⟨-, husers, hitems, hrelieved, -⟩ := he
  constructor
  case inactive =>
    intro u hu hid
    rw [husers] at hu
    exact Contents.inactive_of_switch hu hid
  case disjoint =>
    rintro i ⟨hi, hopen, hauthor⟩
    rw [hitems] at hi
    rw [hactive] at hauthor
    exact (hrelieved i ⟨hi, hopen, (Finset.mem_sdiff.1 hauthor).1⟩).disjoint

section Requests

/-- A departure leaves the members of the team what they are. -/
theorem Undertaking.Effect.staff_depart {c c' : Contents} {team : Text} {leaving : List Text}
    {keep : Timestamp → Timestamp} {now : Timestamp}
    (he : (Undertaking.depart team leaving).Effect keep now c c') :
    c'.staff team = c.staff team := by
  obtain ⟨-, husers, -⟩ := he
  rw [Contents.staff, husers]
  exact c.staff_switch leaving.toFinset false team

variable {σ : Type} [Gateway σ]

/-- A request is answered in this way whatever is drawn next, and a later request cannot tell that
it was made. -/
def UseCase.Rests (u : UseCase) (reply : Reply) (w : World σ) : Prop :=
  ∀ draws, ∃ w', u.run { w with draws := draws } = (.ok reply, w') ∧
    w'.Like { w with draws := draws }

/-- To let nobody go is answered at once. -/
theorem run_depart_nobody (team : Text) (w : World σ) :
    (UseCase.depart team []).run w = (.ok (.deactivation ⟨team, [], .own []⟩), w) := rfl

variable [LawfulStore σ] {w w' : World σ} {team : Text} {ids leaving : List Text} {reply : Reply}

/-- Members of a team that is there can be let go. -/
theorem plan_depart_pending (hw : w.faults = []) (hs : Sound w.store) (hids : ids ≠ [])
    (hteam : team ∈ (contents w.store).teams)
    (hmembers : ∀ id ∈ ids, id ∈ (contents w.store).staff team) :
    (UseCase.depart team ids).plan w =
      (.ok (.pending (Undertaking.depart team ids.eraseDups).rest), w) := by
  rcases Undertaking.plan_depart_members hw hs team ids with
    ⟨p, hplan, ⟨hnil, -⟩ | ⟨rfl, -, -⟩⟩ | ⟨e, -, he⟩
  · exact absurd hnil hids
  · exact hplan
  · obtain ⟨stranger, hmem, hstranger, -⟩ := he hteam
    exact absurd (hmembers stranger hmem) hstranger

/-- All active members of a team are let go, if it has any. -/
theorem plan_departAll_active (hw : w.faults = []) (hs : Sound w.store) (team : Text) :
    (UseCase.departAll team).plan.Looks w
      (fun p => team ∈ (contents w.store).teams ∧
        p = if (contents w.store).active team = ∅ then
            .finished (.deactivation ⟨team, [], .own []⟩)
          else .pending (Undertaking.depart team ((contents w.store).active team).sort).rest)
      (fun e => team ∉ (contents w.store).teams ∧ Denied (Admits σ team) .teamNotFound e) := by
  have hteam : (look "members" .outside (.team team) : Job σ Team).Looks w
      (fun t => team ∈ (contents w.store).teams ∧
        (contents w.store).Roll ((contents w.store).staff team) t.members)
      (fun e => team ∉ (contents w.store).teams ∧ Denied (Admits σ team) .teamNotFound e) :=
    looks_look "members" hw (fun _ => rfl) (team_lookup team hs) (fun hp _ ht => ⟨hp, ht.2⟩)
      fun hn _ he => ⟨hn, he⟩
  have hall : (Departure.departAll team).Looks w
      (fun p => team ∈ (contents w.store).teams ∧ p.map Reply.deactivation =
        if (contents w.store).active team = ∅ then
          .finished (.deactivation ⟨team, [], .own []⟩)
        else .pending (Undertaking.depart team ((contents w.store).active team).sort).rest)
      (fun e => team ∉ (contents w.store).teams ∧ Denied (Admits σ team) .teamNotFound e) := by
    refine hteam.bind ?_
    rintro t ⟨hp, hroll⟩
    have hids : (t.members.filter User.active).map User.id =
        ((contents w.store).active team).sort := by
      have hactive := (hroll.filter_active (injOn_user hs) none).1
      simpa using hactive
    rw [hids]
    split
    · next hnobody =>
      rw [hnobody, Finset.sort_empty]
      exact looks_pure ⟨hp, rfl⟩
    · next hsome =>
      refine (Undertaking.looks_depart hw hs team _).mono ?_ ?_
      · rintro p (⟨hnil, -⟩ | ⟨hpending, -⟩)
        · refine absurd ?_ hsome
          rw [← Finset.sort_toFinset ((contents w.store).active team) (· ≤ ·), hnil]
          rfl
        · rw [hpending, Rows.eraseDups_of_nodup (Finset.sort_nodup _ _)]
          exact ⟨hp, rfl⟩
      · rintro e (he | ⟨stranger, hmem, hstranger, -⟩)
        · exact he
        · exact absurd ((contents w.store).active_subset_staff team
            ((Finset.mem_sort _).1 hmem)) hstranger
  exact hall.bind fun p hp => looks_pure hp

/-- Where nothing is left to do of a departure, it leaves no trace. -/
theorem Orderly.depart_still [IdleStore σ] (ho : Orderly w)
    (ha : (Undertaking.depart team leaving).Advised (contents w.store))
    (hv : (contents w.store).Vacated team leaving.toFinset) :
    ∃ w', (Undertaking.depart team leaving).rest w =
        (.ok (.deactivation ⟨team, leaving, .own []⟩), w') ∧ w'.Like w := by
  obtain ⟨is, rs, w', hrest, -, haccount, hlike, hidle⟩ :=
    Undertaking.depart_accounted ho.faults ho.sound ho.comparable ha
  obtain rfl := haccount.eq_nil hv
  have hstore : w'.store = w.store :=
    IdleStore.deactivate_idle ho.sound
      (fun u hu hid => hv.inactive u hu (List.mem_toFinset.2 hid)) (hidle rfl)
  exact ⟨w', hrest, hstore, hlike.draws, hlike.clock, hlike.faults⟩

/-- Members of a team are let go. Whoever names them again, at once, finds nothing left to do. -/
theorem Orderly.depart_again [IdleStore σ] (ho : Orderly w)
    (h : (UseCase.depart team ids).run w = (.ok reply, w')) :
    ∃ rs, reply = .deactivation ⟨team, ids.eraseDups, .own rs⟩ ∧
      (UseCase.depart team ids).Rests (.deactivation ⟨team, ids.eraseDups, .own []⟩) w' := by
  by_cases hids : ids = []
  · subst hids
    rw [run_depart_nobody] at h
    cases h
    exact ⟨[], rfl, fun draws => ⟨_, run_depart_nobody team _, .refl _⟩⟩
  rcases Undertaking.plan_depart_refused ho.faults ho.sound team ids with
    ⟨p, hplan, ⟨hnil, -⟩ | ⟨rfl, hteam, hmembers⟩⟩ | ⟨e, hplan, -⟩
  · exact absurd hnil hids
  · have ha := Undertaking.advised_depart hteam hmembers
    obtain ⟨is, rs, w₁, hrest, -, haccount, -⟩ :=
      Undertaking.depart_accounted ho.faults ho.sound ho.comparable ha
    have horderly := (ho.rest ha).1
    rw [UseCase.run_of_pending hplan, hrest] at h
    rw [hrest] at horderly
    cases h
    have heffect : (Undertaking.depart team ids.eraseDups).Effect (keep σ) w.clock.now
      (contents w.store) (contents w'.store) := haccount.effect
    refine ⟨rs, rfl, fun draws => ?_⟩
    have ho' : Orderly { w' with draws := draws } := horderly.withDraws draws
    have hstaff := heffect.staff_depart
    have hteams := heffect.1
    have hplan' := plan_depart_pending ho'.faults ho'.sound hids (hteams ▸ hteam)
      fun id hid => hstaff ▸ hmembers id hid
    rw [UseCase.run_of_pending hplan']
    exact ho'.depart_still (ha.mono heffect.precedes) heffect.vacated
  · rw [UseCase.run_of_error hplan] at h
    cases h

/-- From a team without active members nobody is let go. -/
theorem Orderly.rests_departAll (ho : Orderly w) (hteam : team ∈ (contents w.store).teams)
    (hnobody : (contents w.store).active team = ∅) :
    (UseCase.departAll team).Rests (.deactivation ⟨team, [], .own []⟩) w := by
  intro draws
  rcases plan_departAll_active (ho.withDraws draws).faults (ho.withDraws draws).sound team with
    ⟨p, hplan, -, rfl⟩ | ⟨e, -, hn, -⟩
  · rw [if_pos hnobody] at hplan
    exact ⟨_, UseCase.run_of_finished hplan, .refl _⟩
  · exact absurd hteam hn

/-- A whole team is let go. -/
theorem Orderly.departAll_again (ho : Orderly w)
    (h : (UseCase.departAll team).run w = (.ok reply, w')) :
    ∃ rs, reply = .deactivation ⟨team, ((contents w.store).active team).sort, .own rs⟩ ∧
      (contents w.store).Dismissed (contents w'.store) team rs ∧ w'.draws = w.draws ∧
      (UseCase.departAll team).Rests (.deactivation ⟨team, [], .own []⟩) w' := by
  rcases plan_departAll_active ho.faults ho.sound team with ⟨p, hplan, hteam, rfl⟩ | ⟨e, hplan, -⟩
  · by_cases hnobody : (contents w.store).active team = ∅
    · rw [if_pos hnobody] at hplan
      rw [UseCase.run_of_finished hplan] at h
      cases h
      rw [hnobody, Finset.sort_empty]
      exact ⟨[], rfl, Contents.dismissed_nobody hnobody, rfl, ho.rests_departAll hteam hnobody⟩
    · rw [if_neg hnobody] at hplan
      have hleaving := Finset.sort_toFinset ((contents w.store).active team) (· ≤ ·)
      have ha : (Undertaking.depart team ((contents w.store).active team).sort).Advised
          (contents w.store) := by
        refine ⟨hteam, fun id hid => ?_⟩
        exact (contents w.store).staff_subset_userIds team
          ((contents w.store).active_subset_staff team ((Finset.mem_sort _).1 hid))
      obtain ⟨is, rs, w₁, hrest, -, haccount, hlike, -⟩ :=
        Undertaking.depart_accounted ho.faults ho.sound ho.comparable ha
      have horderly := (ho.rest ha).1
      rw [UseCase.run_of_pending hplan, hrest] at h
      rw [hrest] at horderly
      cases h
      have hdismissed := haccount.dismissed hleaving
      have hnone : joining rs = [] := List.filterMap_eq_nil_iff.2 hdismissed.nobody
      have heffect : (Undertaking.depart team ((contents w.store).active team).sort).Effect
        (keep σ) w.clock.now (contents w.store) (contents w'.store) := haccount.effect
      refine ⟨rs, rfl, hdismissed, ?_, ?_⟩
      · rw [hlike.draws, hnone]
        rfl
      · exact horderly.rests_departAll (heffect.1 ▸ hteam) hdismissed.active_eq
  · rw [UseCase.run_of_error hplan] at h
    cases h

/-- Members of a team are let go in a reachable world, with any draws. The same request, repeated at
once, names the same people, reports nothing and leaves no trace. If the whole team is let go,
nothing is drawn and nobody takes over: its active members are taken off the open pull requests of
the team, and there is nobody left to be named when the request is repeated. -/
theorem departures_repeated [IdleStore σ] (hw : Reachable w) (team : Text) (draws : Draws) :
    (∀ ids reply w', (UseCase.depart team ids).run { w with draws := draws } = (.ok reply, w') →
      ∃ rs, reply = .deactivation ⟨team, ids.eraseDups, .own rs⟩ ∧
        (UseCase.depart team ids).Rests (.deactivation ⟨team, ids.eraseDups, .own []⟩) w') ∧
    ∀ reply w', (UseCase.departAll team).run { w with draws := draws } = (.ok reply, w') →
      ∃ rs, reply = .deactivation ⟨team, ((contents w.store).active team).sort, .own rs⟩ ∧
        (contents w.store).Dismissed (contents w'.store) team rs ∧ w'.draws = draws ∧
        (UseCase.departAll team).Rests (.deactivation ⟨team, [], .own []⟩) w' := by
  have ho : Orderly { w with draws := draws } := hw.orderly.withDraws draws
  exact ⟨fun _ _ _ h => ho.depart_again h, fun _ _ h => ho.departAll_again h⟩

/-- One of three teammates is let go, or all of them are. -/
theorem departures_repeated_of_three :
    let team : Team := ⟨"T",
      [⟨"a", "Ann", none, true⟩, ⟨"b", "Bob", none, true⟩, ⟨"c", "Cat", none, true⟩]⟩
    let w := ((UseCase.opening "p" "Title" "a").run
      ((UseCase.found team).run (World.initial KeyedStore (.ofList []) ⟨0, 1, 0⟩ .info)).2).2
    ∃ reply w₁ reply' w₂,
      (UseCase.depart "T" ["b"]).run { w with draws := .ofList [1] } = (.ok reply, w₁) ∧
      (∃ rs, reply = .deactivation ⟨"T", (["b"] : List Text).eraseDups, .own rs⟩ ∧
        (UseCase.depart "T" ["b"]).Rests
          (.deactivation ⟨"T", (["b"] : List Text).eraseDups, .own []⟩) w₁) ∧
      (UseCase.departAll "T").run { w with draws := .ofList [1] } = (.ok reply', w₂) ∧
      ∃ rs, reply' = .deactivation ⟨"T", ((contents w.store).active "T").sort, .own rs⟩ ∧
        (contents w.store).Dismissed (contents w₂.store) "T" rs ∧ w₂.draws = .ofList [1] ∧
        (UseCase.departAll "T").Rests (.deactivation ⟨"T", [], .own []⟩) w₂ := by
  intro team w
  have hw : Reachable w := ((reachable_initial _ _ _).run _).run _
  have hone : ((UseCase.depart "T" ["b"]).run { w with draws := .ofList [1] }).1.toBool = true := by
    unfold w team
    cbv
  have hall : ((UseCase.departAll "T").run { w with draws := .ofList [1] }).1.toBool = true := by
    unfold w team
    cbv
  obtain ⟨reply, w₁, hone⟩ := UseCase.exists_run_answer hone
  obtain ⟨reply', w₂, hall⟩ := UseCase.exists_run_answer hall
  obtain ⟨hagain, hagainAll⟩ := departures_repeated hw "T" (.ofList [1])
  exact ⟨reply, w₁, reply', w₂, hone, hagain _ _ _ hone, hall, hagainAll _ _ hall⟩

end Requests

end ReviewDesk
