import ReviewDesk.Proofs.Cascade
import ReviewDesk.Proofs.Errand

/-!
# Courses of events

A request can be in progress while others are carried out, just before its transaction begins, and
others during those. `Leads` says which worlds follow on a world in the course of any such requests,
including the worlds in the middle of them, and `Reachable` which of them follow on the beginning.
What is reachable is orderly: each undertaking finds what looking around found out for it, since
that is still true whatever came in between.
-/
namespace ReviewDesk

section Courses

variable {σ : Type} [Gateway σ]

/-- Where requests lead: one looks around, and if a rest is pending, it is carried out after
others. -/
inductive Leads : World σ → World σ → Prop
  | refl (w : World σ) : Leads w w
  | look {w w' : World σ} (h : Leads w w') (u : UseCase) : Leads w (u.plan w').2
  | carryOut {w w' w₁ w₂ : World σ} {u : UseCase} {rest : Job σ Reply} (h : Leads w w')
    (hplan : u.plan w' = (.ok (.pending rest), w₁)) (hbetween : Leads w₁ w₂) : Leads w (rest w₂).2

/-- Whether looking around left a rest to be carried out. -/
def Plan.isPending : Except Failure (Plan σ Reply) → Bool
  | .ok (.pending _) => true
  | _ => false

omit [Gateway σ] in
theorem Plan.exists_pending {x : Except Failure (Plan σ Reply) × World σ}
    (h : isPending x.1 = true) :
    ∃ rest w, x = (.ok (.pending rest), w) := by
  rcases x with ⟨_ | ⟨a⟩ | ⟨rest⟩, w⟩
  · cases h
  · cases h
  · exact ⟨rest, w, rfl⟩

omit [Gateway σ] in
theorem exists_answer {β : Type} {x : (Except Failure Reply × β) × World σ}
    (h : x.1.1.toBool = true) : ∃ reply b w, x = ((.ok reply, b), w) := by
  rcases x with ⟨⟨_ | reply, b⟩, w⟩
  · cases h
  · exact ⟨reply, b, w, rfl⟩

/-- The worlds that requests lead to from an empty store. -/
def Reachable (w : World σ) : Prop :=
  ∃ (draws : Draws) (clock : Clock) (level : Level), Leads (World.initial σ draws clock level) w

theorem Leads.trans {u v w : World σ} (h : Leads u v) (h' : Leads v w) : Leads u w := by
  induction h' with
  | refl v => exact h
  | look _ c ih => exact (ih h).look c
  | carryOut _ hplan hbetween ih _ => exact (ih h).carryOut hplan hbetween

theorem Reachable.leads {w w' : World σ} (h : Reachable w) (h' : Leads w w') : Reachable w' := by
  obtain ⟨draws, clock, level, h⟩ := h
  exact ⟨draws, clock, level, h.trans h'⟩

end Courses

open LawfulStore

variable {σ : Type} [Gateway σ] [LawfulStore σ]

/-- A world without faults whose store is sound and holds consistent contents. -/
structure Orderly (w : World σ) : Prop where
  faults : w.faults = []
  sound : Sound w.store
  consistent : (contents w.store).Consistent
  dated : (contents w.store).Dated (keep σ) w.clock

theorem Orderly.comparable {w : World σ} (h : Orderly w) : (contents w.store).Comparable :=
  h.dated.comparable offset_keep

/-- Whatever is drawn next, an orderly world is orderly. -/
theorem Orderly.withDraws {w : World σ} (h : Orderly w) (d : Draws) :
    Orderly { w with draws := d } :=
  ⟨h.faults, h.sound, h.consistent, h.dated⟩

theorem Orderly.like {w w' : World σ} (h : Orderly w) (hl : w'.Like w) : Orderly w' := by
  obtain ⟨hs, -, hc, hf⟩ := hl
  exact ⟨hf.trans h.faults, hs ▸ h.sound, hs ▸ h.consistent, by rw [hs, hc]; exact h.dated⟩

omit [LawfulStore σ] in
/-- That a store announces itself is all that has happened in the beginning. -/
theorem World.like_initial (draws : Draws) (clock : Clock) (level : Level) :
    (World.initial σ draws clock level).Like
      ⟨Gateway.empty, none, draws, clock, [], ⟨level, none, [], []⟩⟩ := by
  unfold World.initial
  simp only
  split
  · exact World.like_note _ _
  · exact .refl _

theorem orderly_initial (draws : Draws) (clock : Clock) (level : Level) :
    Orderly (World.initial σ draws clock level) := by
  refine Orderly.like ⟨rfl, sound_empty, ?_, ?_⟩ (World.like_initial draws clock level)
  · rw [contents_empty]
    exact Contents.consistent_empty
  · rw [contents_empty]
    exact Contents.dated_empty _ _

/-- Looking around leaves an orderly world with the same contents. -/
theorem Orderly.plan {w : World σ} (h : Orderly w) (u : UseCase) :
    Orderly (u.plan w).2 ∧ (u.plan w).2.store = w.store := by
  rcases Undertaking.plan_cases h.faults h.sound u with
    ⟨e, w', hplan, hlike⟩ | ⟨a, w', hplan, hlike, -⟩ | ⟨t, d, hplan, -⟩
  · rw [hplan]
    exact ⟨h.like hlike, hlike.store⟩
  · rw [hplan]
    exact ⟨h.like hlike, hlike.store⟩
  · rw [hplan]
    exact ⟨h.withDraws d, rfl⟩

/-- Carrying an undertaking out leaves an orderly world: it has its effect, or it fails and leaves
the store as it was. -/
theorem Orderly.rest_cases {w : World σ} (h : Orderly w) {t : Undertaking}
    (ha : t.Advised (contents w.store)) :
    Orderly (t.rest w).2 ∧ (∃ n, (t.rest w).2.clock = w.clock.after n) ∧
      ((∃ r, (t.rest w).1 = .ok r ∧
          t.Effect (keep σ) w.clock.now (contents w.store) (contents (t.rest w).2.store)) ∨
        ∃ e, (t.rest w).1 = .error e ∧ (t.rest w).2.store = w.store) := by
  have hleft {s : σ} {d : Draws} {n : Nat} (hs : Sound s) (hc : (contents s).Consistent)
      (hd : (contents s).Dated (keep σ) w.clock) : Orderly (w.left s d n) :=
      ⟨h.faults, hs, hc, hd.after n⟩
  have hopened (team : Text) (ht : team ∈ (contents w.store).teams) :
      Undertaking.Opened w team fun e _ _ => e.Plain :=
    (Undertaking.opened_ends h.faults h.sound h.comparable (admits_team h.sound team ht)).mono
      (fun _ _ _ _ h => h) fun _ _ _ h => h.elim
  rcases Undertaking.rest_settles h.faults h.sound hopened t ha with
    ⟨r, s, d, n, w', hrest, hlike, hs, he⟩ | ⟨e, d, n, w', hrest, hlike, -⟩
  · rw [hrest]
    have hstore : w'.store = s := hlike.store
    refine ⟨(hleft hs (he.consistent h.consistent (injOn_item h.sound) ha) (he.dated h.dated)).like
      hlike, ⟨n, hlike.clock⟩, .inl ⟨r, rfl, ?_⟩⟩
    rw [hstore]
    exact he
  · rw [hrest]
    exact ⟨(hleft h.sound h.consistent h.dated).like hlike, ⟨n, hlike.clock⟩,
      .inr ⟨e, rfl, hlike.store⟩⟩

/-- Nothing is lost where an undertaking is carried out. -/
theorem Orderly.rest {w : World σ} (h : Orderly w) {t : Undertaking}
    (ha : t.Advised (contents w.store)) :
    Orderly (t.rest w).2 ∧ (contents w.store).Precedes (contents (t.rest w).2.store) := by
  obtain ⟨ho, -, ⟨r, -, he⟩ | ⟨e, -, hstore⟩⟩ := h.rest_cases ha
  · exact ⟨ho, he.precedes⟩
  · refine ⟨ho, ?_⟩
    rw [hstore]

/-- The transaction of a departure is never in vain. -/
theorem Orderly.depart_rest {w : World σ} (h : Orderly w) {team : Text} {leaving : List Text}
    (ha : (Undertaking.depart team leaving).Advised (contents w.store)) :
    ∃ reply w', (Undertaking.depart team leaving).rest w = (.ok reply, w') ∧
      (Undertaking.depart team leaving).Effect (keep σ) w.clock.now (contents w.store)
        (contents w'.store) := by
  rcases Undertaking.depart_settles h.faults h.sound h.comparable ha with
    ⟨reply, s, d, n, w', hrest, hlike, -, he⟩ | ⟨_, _, _, _, _, _, hfalse⟩
  · have hstore : w'.store = s := hlike.store
    exact ⟨reply, w', hrest, by rw [hstore]; exact he⟩
  · exact hfalse.elim

/-- Whatever requests lead to from an orderly world is orderly, and nothing is lost on the way. -/
theorem Orderly.leads {w w' : World σ} (h : Orderly w) (hl : Leads w w') :
    Orderly w' ∧ (contents w.store).Precedes (contents w'.store) := by
  induction hl with
  | refl w => exact ⟨h, .refl _⟩
  | look _ u ih =>
    obtain ⟨ho, hp⟩ := ih h
    obtain ⟨ho', hstore⟩ := ho.plan u
    exact ⟨ho', by rw [hstore]; exact hp⟩
  | @carryOut w w' w₁ w₂ u rest _ hplan _ ih ihBetween =>
    obtain ⟨ho, hp⟩ := ih h
    rcases Undertaking.plan_cases ho.faults ho.sound u with
      ⟨e, w', hplan', -⟩ | ⟨a, w', hplan', -⟩ | ⟨t, d, hplan', ha, -⟩
    · rw [hplan] at hplan'
      cases hplan'
    · rw [hplan] at hplan'
      cases hplan'
    · rw [hplan] at hplan'
      cases hplan'
      obtain ⟨ho₂, hp₂⟩ := ihBetween (ho.withDraws d)
      obtain ⟨ho₃, hp₃⟩ := ho₂.rest (ha.mono hp₂)
      exact ⟨ho₃, hp.trans (hp₂.trans hp₃)⟩

/-- What a request has left to do is one of its undertakings, and whenever that begins, what looking
around found out is still true. -/
theorem Orderly.pending {w w₁ w₂ : World σ} {u : UseCase} {rest : Job σ Reply} (h : Orderly w)
    (hplan : u.plan w = (.ok (.pending rest), w₁)) (hbetween : Leads w₁ w₂) :
    Orderly w₂ ∧ ∃ t : Undertaking, u.Undertakes t ∧ rest = t.rest ∧
      t.Advised (contents w₂.store) := by
  rcases Undertaking.plan_cases h.faults h.sound u with
    ⟨e, w', hplan', -⟩ | ⟨a, w', hplan', -⟩ | ⟨t, d, hplan', ha, ht⟩
  · rw [hplan] at hplan'
    cases hplan'
  · rw [hplan] at hplan'
    cases hplan'
  · rw [hplan] at hplan'
    cases hplan'
    obtain ⟨ho, hp⟩ := (h.withDraws d).leads hbetween
    exact ⟨ho, t, ht, rfl, ha.mono hp⟩

theorem Reachable.orderly {w : World σ} (h : Reachable w) : Orderly w := by
  obtain ⟨draws, clock, level, h⟩ := h
  exact ((orderly_initial draws clock level).leads h).1

section Runs

variable {w : World σ}

/-- A request in whose middle something happens leads where that leads. -/
theorem leads_interleaved {β : Type} (between : World σ → β × World σ)
    (hbetween : ∀ w, Orderly w → Leads w (between w).2) (h : Orderly w) (u : UseCase) :
    Leads w (u.interleaved between w).2 := by
  have hlook : Leads w (u.plan w).2 := (Leads.refl w).look u
  have horderly := (h.plan u).1
  unfold UseCase.interleaved
  rcases hplan : u.plan w with ⟨_ | ⟨a⟩ | ⟨rest⟩, w₁⟩
  · rwa [hplan] at hlook
  · rwa [hplan] at hlook
  · rw [hplan] at horderly
    have hlead : Leads w₁ (between w₁).2 := hbetween w₁ horderly
    have hfaults : (between w₁).2.faults = [] := (horderly.leads hlead).1.faults
    show Leads w (Job.sparing .silentTransaction rest (between w₁).2).2
    rw [Job.sparing_of_no_faults .silentTransaction rest _ hfaults]
    exact (Leads.refl w).carryOut hplan hlead

/-- A request with nothing in between leads somewhere. -/
theorem leads_run (h : Orderly w) (u : UseCase) : Leads w (u.run w).2 := by
  have hrun := u.interleaved_nothing () w (h.plan u).1.faults
  rw [← congrArg Prod.snd hrun]
  exact leads_interleaved (fun w => ((), w)) (fun w _ => .refl w) h u

mutual
/-- An errand leads somewhere. -/
theorem leads_op (e : Errand Empty) {w : World σ} (h : Orderly w) : Leads w (e.op.run w).2 := by
  match e with
  | .alone u => exact leads_run h u
  | .request u before =>
    exact leads_interleaved (Op.runAll (Errand.ops before)) (fun _ h => leads_ops before h) h u
/-- Errands lead somewhere. -/
theorem leads_ops (es : List (Errand Empty)) {w : World σ} (h : Orderly w) :
    Leads w (Op.runAll (Errand.ops es) w).2 := by
  match es with
  | [] => exact .refl w
  | e :: es =>
    have hfirst := leads_op e h
    exact hfirst.trans (leads_ops es (h.leads hfirst).1)
end

/-- Errands that are carried out from a reachable world lead to another. -/
theorem Reachable.runAll (h : Reachable w) (es : List (Errand Empty)) :
    Reachable (Op.runAll (Errand.ops es) w).2 :=
  h.leads (leads_ops es h.orderly)

theorem Reachable.run (h : Reachable w) (u : UseCase) : Reachable (u.run w).2 :=
  h.leads (leads_run h.orderly u)

omit [LawfulStore σ] in
theorem reachable_initial (draws : Draws) (clock : Clock) (level : Level) :
    Reachable (World.initial σ draws clock level) := ⟨draws, clock, level, .refl _⟩

end Runs

end ReviewDesk
