import Mathlib.Data.Set.List
import ReviewDesk.Proofs.Report
import ReviewDesk.Proofs.Settling

/-!
# Departures

The reviewers of one pull request are relieved one after the other from a pool that shrinks. The
pool holds nobody twice and nobody who reviews. What each step makes of the store is the entry of
the report that it adds, carried out, and it draws as often as somebody takes over. Over the pull
requests of the team what was read before stays true of those to come, so that the report tells of
the contents that the departure found.
-/
namespace ReviewDesk
namespace Contents

/-- A list of the pull requests of a team from which people who leave are taken off, each once and
without its reviewers. -/
structure Lists (c : Contents) (team : Text) (ps : List PullRequest) : Prop where
  nodup : (ps.map PullRequest.id).Nodup
  mem_iff : ∀ p, p ∈ ps ↔ ∃ i, c.Concerned team i ∧ p = i.withReviewers []

theorem withReviewers_injective (rs : List Text) :
    Function.Injective fun i : Item => i.withReviewers rs := by
  rintro ⟨_, _, _, _, _, _⟩ ⟨_, _, _, _, _, _⟩ h
  injection h with hid hname hauthor hstatus _ hcreated hmerged
  cases hcreated
  subst hid hname hauthor hstatus hmerged
  rfl

/-- Such a list shows the pull requests concerned. -/
theorem Lists.items {c : Contents} {team : Text} {ps : List PullRequest} (h : c.Lists team ps) :
    ∃ is : List Item, ps = is.map (·.withReviewers []) ∧ (is.map Item.id).Nodup ∧
      ∀ i, i ∈ is ↔ c.Concerned team i := by
  have hrange : ps ∈ Set.range (List.map fun i : Item => i.withReviewers []) := by
    rw [Set.range_list_map]
    intro p hp
    obtain ⟨i, -, rfl⟩ := (h.mem_iff p).1 hp
    exact ⟨i, rfl⟩
  obtain ⟨is, rfl⟩ := hrange
  refine ⟨is, rfl, ?_, fun i => ?_⟩
  · have hnodup := h.nodup
    rwa [List.map_map] at hnodup
  · have hmem := h.mem_iff (i.withReviewers [])
    rw [List.mem_map_of_injective (withReviewers_injective [])] at hmem
    rw [hmem]
    constructor
    · rintro ⟨j, hj, hij⟩
      obtain rfl := withReviewers_injective [] hij
      exact hj
    · exact fun hi => ⟨i, hi, rfl⟩

end Contents

namespace Undertaking

open Job LawfulStore Reassignment

section Relief

variable {σ : Type} [Gateway σ] [LawfulStore σ] {w : World σ}

/-- A report was carried out on a store, and as often was drawn as somebody took over. Where nothing
is reported, the store was left alone. -/
structure Carried (s : σ) (d : Draws) (n : Nat) (rs : List Reassignment) (s' : σ) (d' : Draws)
    (n' : Nat) : Prop where
  sound : Sound s'
  contents_eq : contents s' = rs.foldl Contents.replay (contents s)
  draws_eq : d' = d.skip (joining rs).length
  ticks_eq : n' = n
  idle : rs = [] → s' = s

theorem carried_nil {s : σ} (hs : Sound s) (d : Draws) (n : Nat) : Carried s d n [] s d n :=
  ⟨hs, rfl, rfl, rfl, fun _ => rfl⟩

theorem Carried.append {s s' s'' : σ} {d d' d'' : Draws} {n n' n'' : Nat}
    {rs rs' : List Reassignment} (h : Carried s d n rs s' d' n')
    (h' : Carried s' d' n' rs' s'' d'' n'') : Carried s d n (rs ++ rs') s'' d'' n'' := by
  refine ⟨h'.sound, ?_, ?_, h'.ticks_eq.trans h.ticks_eq, fun hnil => ?_⟩
  · rw [h'.contents_eq, h.contents_eq, List.foldl_append]
  · rw [h'.draws_eq, h.draws_eq, Draws.skip_skip, joining_append, List.length_append]
  · obtain ⟨hrs, hrs'⟩ := List.append_eq_nil_iff.1 hnil
    exact (h'.idle hrs').trans (h.idle hrs)

/-- People leave one pull request. As many join as leave, as long as the pool lasts. -/
theorem relieve_ends (hw : w.faults = []) {id : Text} (hid : Admits σ id) (leaving : List Text) :
    ∀ {s : σ} {d : Draws} {n : Nat} {pool : List Text}, Sound s → pool.Nodup →
      (∀ old ∈ leaving, Admits σ old) → (∀ x ∈ pool, Admits σ x) →
      (Departure.relieve id leaving pool).Ends w s d n
        (fun rs s' d' n' => Handed id leaving pool rs ∧ Carried s d n rs s' d' n')
        (fun _ _ _ => False) := by
  induction leaving with
  | nil =>
    intro s d n pool hs _ _ _
    exact ends_pure ⟨handed_nil id pool, carried_nil hs d n⟩
  | cons old leaving ih =>
    intro s d n pool hs hpool hadmitsLeaving hadmitsPool
    apply (take_ends s d n pool).bind
    rintro ⟨next, rest⟩ s d₁ n ⟨rfl, rfl, hchosen, htaken⟩
    have htaken : Taken pool next rest := htaken hpool
    have hadmits : Admits σ id ∧ Admits σ old ∧ ∀ new ∈ next, Admits σ new :=
      ⟨hid, hadmitsLeaving old List.mem_cons_self, fun x hx =>
        hadmitsPool x (htaken.next_mem (Option.mem_toFinset.2 hx))⟩
    apply ((hand_ends hw hs d₁ n id old next).mono (fun _ _ _ _ h => h)
      fun _ _ _ he => he.1 hadmits).bind
    rintro - s₁ d₁ n ⟨rfl, rfl, hs₁, hc₁⟩
    have hfirst : Carried s d n [⟨id, old, next⟩] s₁ d₁ n := by
      refine ⟨hs₁, hc₁, ?_, rfl, nofun⟩
      rw [hchosen.draws_eq, joining_cons, joining_nil, List.append_nil]
    apply (ih hs₁ htaken.nodup (fun x hx => hadmitsLeaving x (List.mem_cons_of_mem old hx))
      fun x hx => hadmitsPool x (htaken.rest_subset hx)).bind
    rintro rs s₂ d₂ n₂ ⟨hhanded, hrest⟩
    exact ends_pure ⟨hhanded.cons htaken, hfirst.append hrest⟩

/-- What a batch of reviewers has under an id that was asked for. -/
theorem lookup_batch (f : Text → List Text) {ids : List Text} {id : Text} (h : id ∈ ids) :
    (ids.map fun id => (id, f id)).lookup id = some (f id) := by
  induction ids with
  | nil => cases h
  | cons k ids ih =>
    rw [List.map_cons, List.lookup_cons]
    by_cases hk : id = k
    · subst hk
      simp
    · have hne : (id == k) = false := by simpa using hk
      rw [hne]
      exact ih ((List.mem_cons.1 h).resolve_left hk)

section Departure

variable (c : Contents) (team : Text) (leaving : List Text)

/-- Of the reviewers of a pull request, those who leave. -/
theorem filter_reviewers (id : Text) :
    ((c.reviewers id).sort).filter (· ∈ leaving) = (c.reviewers id ∩ leaving.toFinset).sort := by
  rw [Rows.filter_sort (c.reviewers id) (· ∈ leaving)]
  congr 1
  ext k
  simp

/-- Those who can take over on a pull request stay. -/
theorem successors_eq_stayers (i : Item) :
    Departure.successors (c.active team \ leaving.toFinset).sort i.author
      (.own (c.reviewers i.id).sort) = (c.stayers team leaving.toFinset i).sort := by
  have hfilter : (c.active team \ leaving.toFinset).filter
      (fun id => id ≠ i.author ∧ id ∉ c.reviewers i.id) = c.stayers team leaving.toFinset i := by
    ext k
    simp only [Contents.stayers, Finset.mem_filter, Finset.mem_sdiff, Finset.mem_erase]
    tauto
  rw [← hfilter, ← Rows.filter_sort]
  refine List.filter_congr fun k _ => ?_
  simp [Given.contains_own]

omit [LawfulStore σ] in
/-- What a departure does on one pull request, given what it read before. -/
theorem relieveOn_eq {i : Item} {ids : List Text} (hid : i.id ∈ ids) {staying : List User}
    (hstaying : staying.map User.id = (c.active team \ leaving.toFinset).sort) :
    (Departure.relieveOn leaving (.own staying)
      (.own (ids.map fun id => (id, (c.reviewers id).sort)))
      (i.withReviewers []) : Job σ (List Reassignment)) =
        if (c.reviewers i.id ∩ leaving.toFinset).sort.isEmpty then pure []
        else Departure.relieve i.id (c.reviewers i.id ∩ leaving.toFinset).sort
          (c.stayers team leaving.toFinset i).sort := by
  have hunder : (Given.own (ids.map fun id => (id, (c.reviewers id).sort))).under
      (i.withReviewers []).id = .ok (.own (c.reviewers i.id).sort) := by
    rw [Given.under_own]
    exact congrArg (fun o => Except.ok (Given.own (o.getD [])))
      (lookup_batch (fun id => (c.reviewers id).sort) hid)
  rw [Departure.relieveOn, hunder, Given.ids_own, hstaying, ← filter_reviewers,
    ← successors_eq_stayers]
  rfl

/-- What the people who leave are asked about on one pull request of the team. -/
theorem relieveOn_ends (hw : w.faults = []) {s : σ} (hs : Sound s) (d : Draws) (n : Nat) {i : Item}
    (hadmitsItem : Admits σ i.id) {ids : List Text} (hid : i.id ∈ ids) {staying : List User}
    (hstaying : staying.map User.id = (c.active team \ leaving.toFinset).sort)
    (hadmitsLeaving : ∀ old ∈ leaving, Admits σ old)
    (hadmitsActive : ∀ x ∈ c.active team, Admits σ x) :
    (Departure.relieveOn leaving (.own staying)
      (.own (ids.map fun id => (id, (c.reviewers id).sort)))
      (i.withReviewers [])).Ends w s d n
      (fun rs s' d' n' => Handed i.id (c.reviewers i.id ∩ leaving.toFinset).sort
        (c.stayers team leaving.toFinset i).sort rs ∧ Carried s d n rs s' d' n')
      (fun _ _ _ => False) := by
  rw [relieveOn_eq c team leaving hid hstaying]
  split
  · next hnobody =>
    rw [List.isEmpty_iff.1 hnobody]
    exact ends_pure ⟨handed_nil _ _, carried_nil hs d n⟩
  · refine relieve_ends hw hadmitsItem _ hs (Finset.sort_nodup _ _) (fun old hold => ?_)
      fun x hx => ?_
    · have hmem := Finset.mem_of_mem_inter_right ((Finset.mem_sort _).1 hold)
      exact hadmitsLeaving old (List.mem_toFinset.1 hmem)
    · exact hadmitsActive x
        (c.stayers_subset_active team leaving.toFinset i ((Finset.mem_sort _).1 hx))

/-- What is asked about on one open pull request of the team after the other. What was read before
is still true of those to come. -/
theorem cascade_ends (hw : w.faults = []) {ids : List Text} {staying : List User}
    (hstaying : staying.map User.id = (c.active team \ leaving.toFinset).sort)
    (hadmitsLeaving : ∀ old ∈ leaving, Admits σ old)
    (hadmitsActive : ∀ x ∈ c.active team, Admits σ x) (is : List Item) :
    ∀ {s : σ} {d : Draws} {n : Nat}, Sound s →
      (∀ i ∈ is, i.id ∈ ids ∧ i.status = .opened ∧ Admits σ i.id) →
      (Departure.cascade leaving (.own staying)
        (.own (ids.map fun id => (id, (c.reviewers id).sort)))
        (is.map (·.withReviewers []))).Ends w s d n
        (fun rs s' d' n' =>
          c.Reported team leaving.toFinset is rs ∧ Carried s d n rs s' d' n')
        (fun _ _ _ => False) := by
  induction is with
  | nil =>
    intro s d n hs _
    exact ends_pure ⟨.nil, carried_nil hs d n⟩
  | cons i is ih =>
    intro s d n hs his
    obtain ⟨hid, hstatus, hadmits⟩ := his i List.mem_cons_self
    have hopen : (i.withReviewers []).status = .opened := hstatus
    rw [List.map_cons]
    unfold Departure.cascade
    simp only [hopen, if_true]
    apply (relieveOn_ends c team leaving hw hs d n hadmits hid hstaying hadmitsLeaving
      hadmitsActive).bind
    rintro first s₁ d₁ n₁ ⟨hhead, hfirst⟩
    apply (ih hfirst.sound fun j hj => his j (List.mem_cons_of_mem i hj)).bind
    rintro rest s₂ d₂ n₂ ⟨htail, hrest⟩
    exact ends_pure ⟨.cons hhead htail, hfirst.append hrest⟩

section Reading

variable {c team leaving} {s : σ} {d : Draws} {n : Nat}

/-- The reviewers of the pull requests are read at once. -/
theorem batch_ends (hw : w.faults = []) (hs : Sound s) {ids : List Text}
    (hadmits : ∀ id ∈ ids, Admits σ id) :
    (ask .inside (.reviewersOf ids) : Job σ (Given _)).Ends w s d n
      (fun g s' d' n' => g = .own
        (ids.eraseDups.map fun id => (id, ((contents s).reviewers id).sort)) ∧ s = s' ∧ d = d' ∧
          n = n')
      (fun _ _ _ => False) :=
  ends_listing hw (fun _ => rfl) (reviewersOf_listing ids hs)
    (fun _ hbatch => ⟨congrArg Given.own hbatch, rfl, rfl, rfl⟩)
    fun hn _ => hn hadmits

/-- Those who stay are listed after those who leave were switched inactive. -/
theorem staying_ends (hw : w.faults = []) (hs : Sound s)
    (hc : contents s = c.switch leaving.toFinset false)
    (hadmits : Admits σ team) :
    (ask .inside (.activeMembers team none) : Job σ (Given (List User))).Ends w s d n
      (fun g s' d' n' => (∃ us, g = .own us ∧
        us.map User.id = (c.active team \ leaving.toFinset).sort) ∧ s = s' ∧ d = d' ∧ n = n')
      (fun _ _ _ => False) := by
  refine ends_listing hw (fun _ => rfl) (activeMembers_listing team none hs) (fun us hus => ?_)
    fun hn _ => hn ⟨hadmits, by simp⟩
  refine ⟨⟨us, rfl, hus.1.trans ?_⟩, rfl, rfl, rfl⟩
  rw [hc, Contents.active_switch_false]
  simp

end Reading

/-- What a transaction comes to that begins by listing the open pull requests of a team. -/
def Opened (w : World σ) (team : Text) (bad : Failure → ReviewDesk.Draws → Nat → Prop) : Prop :=
  (ask .inside (.openPullRequests team) : Job σ (Given (List PullRequest))).Ends w w.store w.draws 0
    (fun g s d n => (∃ ps, Gateway.openPullRequests team w.store = .ok ps ∧ g = .own ps ∧
      (contents w.store).Lists team ps) ∧ s = w.store ∧ d = w.draws ∧ n = 0) bad

/-- The open pull requests of the team are listed. -/
theorem opened_ends {team : Text} (hw : w.faults = []) (hs : Sound w.store)
    (hc : (contents w.store).Comparable) (hadmits : Admits σ team) :
    Opened w team fun _ _ _ => False := by
  refine ends_listing hw (fun _ => rfl) (openPullRequests_listing team hs hc).known
    (fun ps hps => ?_) fun hn _ => hn hadmits
  obtain ⟨hlisted, hnodup, hmem⟩ := hps
  refine ⟨⟨ps, hlisted, rfl, hnodup, fun p => (hmem p).trans ?_⟩, rfl, rfl, rfl⟩
  simp only [Contents.Concerned, and_assoc]

/-- The transaction of a departure does not fail once the pull requests are listed, and its report
accounts for what it makes of them in the order in which they are listed. Where nothing is reported,
it has only switched people inactive. -/
theorem departNow_ends (hw : w.faults = []) (hs : Sound w.store)
    {bad : Failure → ReviewDesk.Draws → Nat → Prop} (hopened : Opened w team bad)
    (hteam : team ∈ (contents w.store).teams)
    (hleaving : ∀ id ∈ leaving, id ∈ (contents w.store).userIds) :
    (Departure.departNow team leaving).Ends w w.store w.draws 0
      (fun g s d n => ∃ is rs,
        Gateway.openPullRequests team w.store = .ok (is.map (·.withReviewers [])) ∧
        (contents w.store).Account team leaving.toFinset is rs (contents s) ∧ g = .own rs ∧
        Sound s ∧ d = w.draws.skip (joining rs).length ∧ n = 0 ∧
        (rs = [] → Gateway.deactivate leaving w.store = (.ok (), s)))
      bad := by
  have hadmitsTeam : Admits σ team := admits_team hs team hteam
  have hadmitsLeaving (old : Text) (h : old ∈ leaving) : Admits σ old :=
    admits_user hs old (hleaving old h)
  have hadmitsActive (x : Text) (hx : x ∈ (contents w.store).active team) : Admits σ x :=
    admits_user hs x ((contents w.store).staff_subset_userIds team
      ((contents w.store).active_subset_staff team hx))
  unfold Departure.departNow
  apply hopened.bind
  rintro _ _ _ _ ⟨⟨ps, hlisted, rfl, hps⟩, rfl, rfl, rfl⟩
  obtain ⟨is, rfl, hnodup, hmem⟩ := hps.items
  refine Ends.mono ?_ (fun _ _ _ _ h => h) fun _ _ _ (h : False) => h.elim
  have hswitch : (tell .inside (.deactivate leaving)).Ends w w.store w.draws 0
      (fun _ s d n => Gateway.deactivate leaving w.store = (.ok (), s) ∧ Sound s ∧
        contents s = (contents w.store).switch leaving.toFinset false ∧ d = w.draws ∧ n = 0)
      (fun _ _ _ => False) :=
    ends_change hw rfl (deactivate_change leaving hs).known
      (fun _ h => ⟨h.1, h.2.1, h.2.2, rfl, rfl⟩) fun hn _ => hn hadmitsLeaving
  apply hswitch.bind
  rintro - s₁ _ _ ⟨hswitched, hs₁, hc₁, rfl, rfl⟩
  have hreviewers (id : Text) : (contents s₁).reviewers id = (contents w.store).reviewers id := by
    rw [hc₁]
    rfl
  rw [Given.pullRequests_own, ofExcept_ok]
  refine (ends_pure ⟨rfl, rfl, rfl, rfl⟩ :
    (pure (is.map fun i => i.withReviewers []) : Job σ _).Ends w s₁ w.draws 0
      (fun qs s d n => is.map (fun i => i.withReviewers []) = qs ∧ s₁ = s ∧ w.draws = d ∧ 0 = n)
      fun _ _ _ => False).bind ?_
  rintro _ _ _ _ ⟨rfl, rfl, rfl, rfl⟩
  split
  · next hnone =>
    obtain rfl : is = [] := List.map_eq_nil_iff.1 (List.isEmpty_iff.1 hnone)
    exact ends_pure ⟨[], [], hlisted, ⟨List.nodup_nil, hmem, .nil, hc₁⟩, rfl, hs₁, rfl, rfl,
      fun _ => hswitched⟩
  · have hids : (is.map fun i => i.withReviewers []).map PullRequest.id = is.map Item.id :=
      List.map_map
    have hadmitsItem (i : Item) (hi : i ∈ is) : Admits σ i.id :=
      (admits_item hs i ((hmem i).1 hi).1).1
    rw [hids]
    apply (batch_ends hw hs₁ (List.forall_mem_map.2 hadmitsItem)).bind
    rintro _ _ _ _ ⟨rfl, rfl, rfl, rfl⟩
    apply (staying_ends hw hs₁ hc₁ hadmitsTeam).bind
    rintro _ _ _ _ ⟨⟨staying, rfl, hstaying⟩, rfl, rfl, rfl⟩
    simp only [hreviewers]
    refine (cascade_ends (contents w.store) team leaving hw hstaying hadmitsLeaving hadmitsActive
      is hs₁ fun i hi => ?_).bind ?_
    · exact ⟨List.mem_eraseDups.2 (List.mem_map_of_mem hi), ((hmem i).1 hi).2.1, hadmitsItem i hi⟩
    rintro rs s₂ d n ⟨hreported, hcarried⟩
    refine ends_pure ⟨is, rs, hlisted, ⟨hnodup, hmem, hreported, ?_⟩, rfl, hcarried.sound,
      hcarried.draws_eq, hcarried.ticks_eq, fun hnil => ?_⟩
    · rw [hcarried.contents_eq, hc₁]
    · rw [hcarried.idle hnil]
      exact hswitched

end Departure

end Relief

section Settling

variable {σ : Type} [Gateway σ] [LawfulStore σ] {w : World σ}

/-- What is answered to a departure is a report that accounts for it. -/
theorem depart_settles_shown (hw : w.faults = []) (hs : Sound w.store) {team : Text}
    {leaving : List Text} {bad : Failure → ReviewDesk.Draws → Nat → Prop}
    (hopened : Opened w team bad) (hbad : ∀ e d n, bad e d n → e.Plain)
    (ha : (depart team leaving).Advised (contents w.store)) :
    (depart team leaving).rest.Settles w
      (fun r s d n => ∃ is rs,
        Gateway.openPullRequests team w.store = .ok (is.map (·.withReviewers [])) ∧
        (contents w.store).Account team leaving.toFinset is rs (contents s) ∧
        r = .deactivation ⟨team, leaving, .own rs⟩ ∧ Sound s ∧
        d = w.draws.skip (joining rs).length ∧ n = 0 ∧
        (rs = [] → Gateway.deactivate leaving w.store = (.ok (), s)))
      bad := by
  have htransaction := (departNow_ends team leaving hw hs hopened ha.1 ha.2).transaction hw
    (fun _ _ _ _ ⟨_, _, _, _, _, h, _⟩ => h) hbad
  refine replying_settles (htransaction.bind fun g s d n hg w' _ => ?_)
  obtain ⟨is, rs, hlisted, haccount, rfl, hrest⟩ := hg
  exact ⟨⟨team, leaving, .own rs⟩, _, rfl, w'.like_note _, is, rs, hlisted, haccount, rfl, hrest⟩

/-- A departure that was advised is carried out where the dates of the pull requests can be put in
order, and its report accounts for it. -/
theorem depart_accounted (hw : w.faults = []) (hs : Sound w.store)
    (hc : (contents w.store).Comparable) {team : Text} {leaving : List Text}
    (ha : (depart team leaving).Advised (contents w.store)) :
    ∃ is rs w', (depart team leaving).rest w =
        (.ok (.deactivation ⟨team, leaving, .own rs⟩), w') ∧
      Gateway.openPullRequests team w.store = .ok (is.map (·.withReviewers [])) ∧
      (contents w.store).Account team leaving.toFinset is rs (contents w'.store) ∧
      w'.Like { w with store := w'.store, draws := w.draws.skip (joining rs).length } ∧
      (rs = [] → Gateway.deactivate leaving w.store = (.ok (), w'.store)) := by
  have hopened := opened_ends hw hs hc (admits_team hs team ha.1)
  rcases depart_settles_shown hw hs hopened (fun _ _ _ h => h.elim) ha with
    ⟨_, s, _, _, w', hrest, hlike, is, rs, hlisted, haccount, rfl, -, rfl, rfl, hidle⟩ |
      ⟨_, _, _, _, _, _, h⟩
  · have hstore : w'.store = s := hlike.store
    rw [← hstore] at haccount hidle
    exact ⟨is, rs, w', hrest, hlisted, haccount,
      ⟨rfl, hlike.draws, hlike.clock, hlike.faults⟩, hidle⟩
  · exact h.elim

theorem depart_settles_of_opened (hw : w.faults = []) (hs : Sound w.store) {team : Text}
    {leaving : List Text} {bad : Failure → ReviewDesk.Draws → Nat → Prop}
    (hopened : Opened w team bad) (hbad : ∀ e d n, bad e d n → e.Plain)
    (ha : (depart team leaving).Advised (contents w.store)) :
    (depart team leaving).rest.Settles w
      (fun _ s _ _ => Sound s ∧ (depart team leaving).Effect (keep σ) w.clock.now (contents w.store)
        (contents s))
      bad :=
  (depart_settles_shown hw hs hopened hbad ha).mono
    (fun _ _ _ _ ⟨_, _, _, haccount, _, hs', _⟩ => ⟨hs', haccount.effect⟩) fun _ _ _ h => h

theorem depart_settles (hw : w.faults = []) (hs : Sound w.store)
    (hc : (contents w.store).Comparable) {team : Text}
    {leaving : List Text} (ha : (depart team leaving).Advised (contents w.store)) :
    (depart team leaving).rest.Settles w
      (fun _ s _ _ => Sound s ∧ (depart team leaving).Effect (keep σ) w.clock.now (contents w.store)
        (contents s))
      (fun _ _ _ => False) :=
  depart_settles_of_opened hw hs (opened_ends hw hs hc (admits_team hs team ha.1))
    (fun _ _ _ h => h.elim) ha

/-- Whatever an undertaking comes to, its transaction has its effect or none. -/
theorem rest_settles (hw : w.faults = []) (hs : Sound w.store)
    (hopened : ∀ team ∈ (contents w.store).teams, Opened w team fun e _ _ => e.Plain)
    (t : Undertaking) (ha : t.Advised (contents w.store)) :
    t.rest.Settles w
      (fun _ s _ _ => Sound s ∧ t.Effect (keep σ) w.clock.now (contents w.store) (contents s))
      (fun _ _ _ => True) := by
  cases t with
  | found t => exact (found_settles hw hs t).mono (fun _ _ _ _ h => h) fun _ _ _ _ => trivial
  | switch id active =>
    exact (switch_settles hw hs id active ha).mono (fun _ _ _ _ h => h) fun _ _ _ _ => trivial
  | depart team leaving =>
    exact (depart_settles_of_opened hw hs (hopened team ha.1) (fun _ _ _ h => h) ha).mono
      (fun _ _ _ _ h => h) fun _ _ _ _ => trivial
  | opening id name author reviewers =>
    exact (opening_settles hw hs id name author reviewers).mono (fun _ _ _ _ h => ⟨h.2.1, h.2.2.2⟩)
      fun _ _ _ _ => trivial
  | merge id =>
    exact (merge_settles_shown hw hs id).mono (fun _ _ _ _ h => ⟨h.2.1, h.2.2.1⟩)
      fun _ _ _ _ => trivial
  | reassign id old =>
    exact (reassign_settles hw hs id old).mono (fun _ _ _ _ h => h) fun _ _ _ _ => trivial

end Settling

end Undertaking
end ReviewDesk
