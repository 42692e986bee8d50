import ReviewDesk.Proofs.Enduring

/-!
# How requests end

Looking around leaves an undertaking to be carried out, or nothing. What is left to do makes no call
after its transaction, so that a failure that is met is met within, and changes nothing. Only a
switch reads back what it has committed. Which of its readings a failure strikes is a matter of
counting: it reads the user once when it looks around, once within the transaction, and once
afterwards.
-/
namespace ReviewDesk

open Job

variable {σ : Type} [Gateway σ]

section Counting

variable {α β : Type} {x : Job σ α} {p : Point} {k l : Nat}

/-- A job passes a place as often as given, if it ends well. A failure that lies in wait there for a
later pass is not met. -/
def Job.Passes (x : Job σ α) (p : Point) (k : Nat) : Prop :=
  ∀ w n e, w.faults = [⟨p, n, .fail e⟩] →
    (∃ m, (x w).2.faults = [⟨p, m, .fail e⟩] ∧ ((x w).1.toBool = true → n = m + k)) ∨
    n < k ∧ (x w).1.toBool = false

omit [Gateway σ] in
theorem Job.Quiet.passes (h : x.Quiet) (p : Point) : x.Passes p 0 := by
  intro w n e hw
  exact .inl ⟨n, (h.clean w).trans hw, fun _ => rfl⟩

omit [Gateway σ] in
theorem Job.Passes.bind {f : α → Job σ β} (hx : x.Passes p k) (hf : ∀ a, (f a).Passes p l) :
    (x >>= f).Passes p (k + l) := by
  intro w n e hw
  have hfirst := hx w n e hw
  rw [bind_apply]
  rcases hr : x w with ⟨e' | a, w'⟩ <;> rw [hr] at hfirst
  · rcases hfirst with ⟨m, hm, -⟩ | ⟨hn, -⟩
    · exact .inl ⟨m, hm, nofun⟩
    · exact .inr ⟨Nat.lt_add_right l hn, rfl⟩
  · rcases hfirst with ⟨m, hm, hn⟩ | ⟨-, hfailed⟩
    · obtain rfl := hn rfl
      rcases hf a w' m e hm with ⟨m', hm', hn'⟩ | ⟨hn', hfailed⟩
      · exact .inl ⟨m', hm', fun hok => by rw [hn' hok, Nat.add_assoc, Nat.add_comm l]⟩
      · exact .inr ⟨by omega, hfailed⟩
    · cases hfailed

omit [Gateway σ] in
theorem Job.Passes.guarded {q : Point} {instead : Substitute → Job σ α} (hx : x.Passes p k)
    (hq : p ≠ q) : (guarded q instead x).Passes p k := by
  intro w n e hw
  have hsame : Job.guarded q instead x w = x w := by
    rw [← World.facing_self hw, Job.guarded, World.pass_facing_of_ne w hq]
  rw [hsame]
  exact hx w n e hw

theorem passes_ask {sh : Shape} (scope : Scope) {c : Call sh}
    (hreach : reach scope c = (perform scope c : Job σ sh.Answer)) :
    (ask scope c : Job σ (Given sh.Answer)).Passes c.point 1 := by
  intro w n e hw
  rw [← World.facing_self hw]
  cases n with
  | zero =>
    rw [ask_struck]
    exact .inr ⟨Nat.one_pos, rfl⟩
  | succ n =>
    rw [ask_same_of_succ hreach]
    exact .inl ⟨n, rfl, fun _ => rfl⟩

theorem passes_ask_of_ne {sh : Shape} (scope : Scope) {c : Call sh}
    (hreach : reach scope c = (perform scope c : Job σ sh.Answer)) (hp : p ≠ c.point) :
    (ask scope c : Job σ (Given sh.Answer)).Passes p 0 := by
  intro w n e hw
  rw [← World.facing_self hw, ask_same_of_ne hreach hp]
  exact .inl ⟨n, rfl, fun _ => rfl⟩

/-- What a transaction passes is what its body passes. -/
theorem Job.Passes.transaction {body : Job σ (Given α)} (h : body.Passes p k)
    (hp : p.isCall = true) : (transaction body).Passes p k := by
  refine Passes.guarded ?_ (by rintro rfl; cases hp)
  intro w n e hw
  have hbody := h w.begin n e hw
  rw [transact]
  rcases hr : body w.begin with ⟨e' | a, w'⟩ <;> rw [hr] at hbody
  · rcases hbody with ⟨m, hm, -⟩ | ⟨hn, -⟩
    · refine .inl ⟨m, (w'.rollBack_faults e').trans hm, fun hok => ?_⟩
      cases hok
    · exact .inr ⟨hn, rfl⟩
  · exact hbody

theorem passes_switchNow (id : Text) (active : Bool) :
    (silently (Roster.switchNow id active) : Job σ Unit).Passes .user 1 := by
  have hlook : (look "is_active" .inside (.user id) : Job σ User).Passes .user 1 :=
    (passes_ask .inside (c := .user id) rfl).bind fun _ => (quiet_ofExcept _).passes _
  have htell (us : List User) : (tell .inside (.setActivity us) : Job σ Unit).Passes .user 0 :=
    (passes_ask_of_ne .inside (c := .setActivity us) rfl (by rintro ⟨⟩)).bind fun _ =>
      (quiet_pure _).passes _
  have hbody : (do return .own (← Roster.switchNow id active) : Job σ (Given Unit)).Passes .user 1 :=
    (hlook.bind fun _ => htell _).bind fun _ => (quiet_pure _).passes _
  exact ((hbody.transaction rfl).bind fun _ => (quiet_pure _).passes _).guarded nofun

theorem passes_plan_switch (id : Text) (active : Bool) :
    ((UseCase.switch id active).plan : Job σ (Plan σ Reply)).Passes .user 1 :=
  ((passes_ask .outside (c := .user id) rfl).bind fun _ => (quiet_pure _).passes _).bind fun _ =>
    (quiet_pure _).passes _

end Counting

section Requests

/-- What a plan of a use case leaves to do is one of its undertakings. -/
def UseCase.Leaves (u : UseCase) (plan : Plan σ Reply) : Prop :=
  ∀ rest, plan = .pending rest → ∃ t, u.Undertakes t ∧ rest = t.rest

theorem UseCase.leaves_finished {u : UseCase} {a : Reply} : u.Leaves (σ := σ) (.finished a) := nofun

theorem UseCase.leaves_rest {u : UseCase} {t : Undertaking} (h : u.Undertakes t) :
    u.Leaves (σ := σ) (.pending t.rest) := by
  rintro _ ⟨⟩
  exact ⟨t, h, rfl⟩

omit [Gateway σ] in
theorem returns_map {α : Type} {P : Plan σ Reply → Prop} {x : Job σ (Plan σ α)} {f : α → Reply}
    (h : x.Returns fun plan => P (plan.map f)) :
    (do return (← x).map f : Job σ (Plan σ Reply)).Returns P :=
  h.bind fun _ hplan => returns_pure hplan

theorem returns_depart {u : UseCase} (team : Text) (users : List Text)
    (h : u.Undertakes (.depart team users.eraseDups)) :
    (Departure.depart team users : Job σ (Plan σ Deactivation)).Returns fun plan =>
      u.Leaves (plan.map .deactivation) := by
  refine .ite (returns_pure UseCase.leaves_finished) ?_
  refine returns_after fun _ => returns_after fun _ => returns_after fun _ => ?_
  split
  · exact returns_fail _
  · exact returns_pure (UseCase.leaves_rest (t := .depart team users.eraseDups) h)

/-- What is left to do after looking around is an undertaking. -/
theorem plan_returns (u : UseCase) : (u.plan : Job σ (Plan σ Reply)).Returns u.Leaves := by
  have hrest (t : Undertaking) (h : u.Undertakes t) :
      u.Leaves (σ := σ) (.pending t.rest) := UseCase.leaves_rest h
  cases u with
  | found t =>
    exact returns_map (.ite (returns_fail _)
      (returns_after fun _ => returns_pure (hrest (.found t) rfl)))
  | switch user active =>
    exact returns_map (returns_after fun _ => returns_pure (hrest (.switch user active) rfl))
  | depart team users => exact returns_map (returns_depart team users rfl)
  | departAll team => exact returns_map (returns_after fun _ => returns_depart _ _ ⟨_, rfl⟩)
  | opening id name author =>
    refine returns_map (returns_after fun _ => returns_after fun _ => returns_after fun _ => ?_)
    exact returns_after fun _ => returns_after fun reviewers =>
      returns_pure (hrest (.opening id name author reviewers) ⟨_, rfl⟩)
  | merge id =>
    exact returns_map (returns_after fun _ => .ite (returns_pure UseCase.leaves_finished)
      (returns_pure (hrest (.merge id) rfl)))
  | reassign id old =>
    exact returns_map (returns_after fun _ => .ite (returns_fail _)
      (returns_pure (hrest (.reassign id old) rfl)))
  | _ => exact returns_after fun _ => returns_pure UseCase.leaves_finished

/-- What is left to do ends the request, unless it reads back what it has committed. -/
theorem closing_rest {t : Undertaking} (ht : ∀ id active, t ≠ .switch id active) :
    (t.rest : Job σ Reply).Closing := by
  have hreply {α : Type} {x : Job σ α} (h : x.Closing) (f : α → Reply) :
      (Undertaking.replying f x).Closing := h.bind fun _ => quiet_pure _
  cases t with
  | found t =>
    refine hreply ((closing_transaction (propagates_foundNow t)).bind fun _ => ?_) _
    exact (quiet_ofExcept _).bind fun _ => (quiet_note (by rintro _ _ ⟨⟩)).bind fun _ => quiet_pure _
  | switch id active => exact absurd rfl (ht id active)
  | depart team leaving =>
    refine hreply ((closing_transaction (propagates_departNow team leaving)).bind fun _ => ?_) _
    exact (quiet_ofExcept _).bind fun _ => (quiet_note (by rintro _ _ ⟨⟩)).bind fun _ => quiet_pure _
  | opening id name author reviewers =>
    refine hreply ((closing_transaction (propagates_openNow id name author reviewers)).bind
      fun _ => ?_) _
    exact (quiet_ofExcept _).bind fun _ => (quiet_note (by rintro _ _ ⟨⟩)).bind fun _ => quiet_pure _
  | merge id =>
    refine hreply ((closing_transaction (propagates_mergeNow id)).bind fun _ => ?_) _
    refine (quiet_ofExcept _).bind fun p => ?_
    unfold Review.announceMerge
    split
    · exact quiet_fail _
    · exact (quiet_note (by rintro _ _ ⟨⟩)).bind fun _ => quiet_pure _
  | reassign id old =>
    refine hreply ((closing_transaction (propagates_reassignNow id old)).bind fun _ => ?_) _
    exact (quiet_ofExcept _).bind fun _ => (quiet_note (by rintro _ _ ⟨⟩)).bind fun _ => quiet_pure _

theorem propagates_readBack (id : Text) (active : Bool) :
    (do note (.activityChanged id active); ask .outside (.user id) :
      Job σ (Given User)).Propagates fun _ _ => False :=
  (quiet_note (by rintro _ _ ⟨⟩)).propagates.bind fun _ => propagates_ask (.inr fun _ _ => rfl)

theorem closing_switch (id : Text) (active : Bool) :
    (silently (Roster.switchNow id active) : Job σ Unit).Closing :=
  closing_silently (propagates_switchNow id active)

/-- The reading with which a switch ends succeeds, unless the failure strikes it. -/
theorem readBack_meets {w : World σ} (hw : w.faults = []) {id : Text} {u : User} (active : Bool)
    (hread : Gateway.user id w.store = .ok u) (p : Point) (m : Nat) (e : Failure) :
    (do note (.activityChanged id active); ask .outside (.user id) : Job σ (Given User)).Meets
      w p m e fun e' w' => (p = .user ∧ m = 0) ∧ e' = e ∧ w'.store = w.store ∧
        ∃ g w'', (do note (.activityChanged id active); ask .outside (.user id) :
          Job σ (Given User)) w = (.ok g, w'') ∧ w''.store = w.store := by
  have hon : (Call.user id).on w.store w.clock = ((.ok u, w.store), w.clock) :=
    congrArg (fun r => ((r, w.store), w.clock)) hread
  have hback : ask .outside (.user id) (w.note (.activityChanged id active)) =
      (.ok (.own u), w.note (.activityChanged id active)) :=
    ask_outside (.user id) (w := w.note _) hw hon nofun
  refine meets_bind_same (m := m) rfl rfl ?_
  rintro _ _ ⟨⟩
  by_cases hp : p = .user
  · subst hp
    cases m with
    | zero =>
      refine .inr ⟨e, _, ask_struck .outside (.user id) _ e, rfl, ⟨rfl, rfl⟩, rfl, rfl, ?_⟩
      exact ⟨_, _, hback, rfl⟩
    | succ m => exact .inl ⟨m, ask_same_of_succ (c := .user id) rfl⟩
  · exact .inl ⟨m, ask_same_of_ne (c := .user id) rfl hp⟩

/-- What comes of a switch that a failure strikes after it has looked around. -/
theorem switch_meets [EnduringStore σ] (id : Text) (active : Bool) (w : World σ) (p : Point)
    (n : Nat) (e : Failure) :
    ((Undertaking.switch id active).rest : Job σ Reply).Meets w p n e fun e' w' =>
      e' = e.surfaced σ p ∧ w'.store = w.store ∧ ¬ (p = .user ∧ n = 1) ∨
      (p = .user ∧ n = 1) ∧ e' = e ∧ ∃ reply w'',
        (Undertaking.switch id active).rest (w.facing []) = (.ok reply, w'') ∧
          w'.store = w''.store := by
  have hpasses := passes_switchNow (σ := σ) id active (w.facing [⟨.user, n, .fail e⟩]) n e rfl
  have hclosing : (silently (Roster.switchNow id active) : Job σ Unit).Closing :=
    closing_switch id active
  rcases hclosing.meets w p n e with ⟨m, hsame⟩ | ⟨e', w', hstruck, hw', he', hstore⟩
  · refine Meets.bind ?_ (clean_bind hclosing.clean
      (fun _ => (propagates_readBack id active).clean) _ rfl) fun _ _ _ _ =>
        (quiet_pure _).ignoresFaults.meets
    refine meets_bind_same hsame (hclosing.clean _ rfl) fun _ w₁ hswitched => ?_
    obtain ⟨hw₁, u, hread⟩ := switchNow_read rfl hswitched
    refine (readBack_meets hw₁ active hread p m e).mono ?_
    rintro e' w' ⟨⟨rfl, rfl⟩, rfl, hstore, g, w'', hback, hstore'⟩
    rw [hsame, hswitched] at hpasses
    rcases hpasses with ⟨m, hm, hn⟩ | ⟨-, hfailed⟩
    · cases hm
      refine .inr ⟨⟨rfl, hn rfl⟩, rfl, g.reply .user, w'', ?_, hstore.trans hstore'.symm⟩
      rw [Undertaking.rest, Undertaking.replying, bind_apply, bind_apply, hswitched]
      dsimp only
      rw [hback]
      rfl
    · cases hfailed
  · refine .inr ⟨e', w', ?_, hw', .inl ⟨he', hstore, ?_⟩⟩
    · rw [Undertaking.rest, Undertaking.replying, bind_apply, bind_apply, hstruck]
    · rintro ⟨rfl, rfl⟩
      rw [hstruck] at hpasses
      rcases hpasses with ⟨m, hm, -⟩ | ⟨hn, -⟩
      · rw [hw'] at hm
        cases hm
      · omega

theorem faithful_rest (t : Undertaking) : (t.rest : Job σ Reply).Faithful := by
  by_cases ht : ∃ id active, t = .switch id active
  · obtain ⟨id, active, rfl⟩ := ht
    exact ((closing_switch id active).toFaithful.bind fun _ =>
      (propagates_readBack id active).toFaithful).bind fun _ => (quiet_pure _).toFaithful
  · exact (closing_rest fun id active h => ht ⟨id, active, h⟩).toFaithful

/-- What comes of a request does not depend on what was written down before, and a storage failure
that is reported in its course is what it ends with. -/
theorem faithful_run (u : UseCase) : (u.run : Job σ Reply).Faithful := by
  refine (propagates_plan u).toFaithful.bind_of fun w plan w' hplan => ?_
  cases plan with
  | finished a => exact (quiet_pure a).toFaithful
  | pending rest =>
    obtain ⟨t, -, rfl⟩ := plan_returns u _ _ _ hplan rest rfl
    exact faithful_rest t

end Requests
end ReviewDesk
