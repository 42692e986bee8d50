import ReviewDesk.Desk.UseCase
import ReviewDesk.Proofs.Transaction

/-!
# A failure that lies in wait

A single fault lies in wait somewhere, and a job either gets past it and comes to what it comes to
without it, or the fault strikes and its failure is what the job ends with. Either way what the store
reports in the journal is what the job ends with, too. `Job.Propagates` says so of a job that leaves
the committed store alone; it is put together along the steps of the job, one rule for each kind of
step.
-/
namespace ReviewDesk

/-- Whether a place is that of a call, and not the beginning of a transaction. -/
def Point.isCall : Point → Bool
  | .transaction | .silentTransaction => false
  | _ => true

namespace World

variable {σ : Type}

/-- The world with other faults that lie in wait. -/
def facing (w : World σ) (fs : List Fault) : World σ := { w with faults := fs }

@[simp] theorem facing_store (w : World σ) (fs : List Fault) : (w.facing fs).store = w.store := rfl

@[simp] theorem facing_faults (w : World σ) (fs : List Fault) : (w.facing fs).faults = fs := rfl

@[simp] theorem facing_facing (w : World σ) (fs gs : List Fault) :
    (w.facing fs).facing gs = w.facing gs := rfl

theorem facing_self {w : World σ} {fs : List Fault} (h : w.faults = fs) : w.facing fs = w := by
  subst h
  rfl

theorem pass_facing_nil (w : World σ) (p : Point) :
    (w.facing []).pass p = (none, w.facing []) := rfl

/-- A fault at another place is not touched. -/
theorem pass_facing_of_ne (w : World σ) {p q : Point} (h : p ≠ q) (n : Nat) (f : Effect) :
    (w.facing [⟨p, n, f⟩]).pass q = (none, w.facing [⟨p, n, f⟩]) := by
  simp [pass, facing, Fault.strike, h]

theorem pass_facing_zero (w : World σ) (p : Point) (f : Effect) :
    (w.facing [⟨p, 0, f⟩]).pass p = (some f, w.facing []) := by
  simp [pass, facing, Fault.strike]

theorem pass_facing_succ (w : World σ) (p : Point) (n : Nat) (f : Effect) :
    (w.facing [⟨p, n + 1, f⟩]).pass p = (none, w.facing [⟨p, n, f⟩]) := by
  simp [pass, facing, Fault.strike]

/-- The world with another journal. -/
def writing (w : World σ) (j : Journal) : World σ := { w with journal := j }

/-- Passing a place changes nothing but the faults. -/
theorem pass_eq (w : World σ) (p : Point) : ∃ fs, (w.pass p).2 = w.facing fs := ⟨_, rfl⟩

end World

namespace Job

variable {σ α β : Type}

/-- A job that takes no notice of faults. -/
def IgnoresFaults (x : Job σ α) : Prop :=
  ∀ (w : World σ) (fs : List Fault), x (w.facing fs) = ((x (w.facing [])).1, (x (w.facing [])).2.facing fs)

/-- A job that takes no notice of the journal, but may write into it. -/
def IgnoresJournal (x : Job σ α) : Prop :=
  ∀ (w : World σ) (j : Journal), ∃ j', x (w.writing j) = ((x w).1, (x w).2.writing j')

/-- What a job comes to where a single failure lies in wait: to what it comes to without it, and it
still lies in wait, or to a failure that stems from it, and nothing lies in wait any more. -/
def Meets (x : Job σ α) (w : World σ) (p : Point) (n : Nat) (e : Failure)
    (struck : Failure → World σ → Prop) : Prop :=
  (∃ m, x (w.facing [⟨p, n, .fail e⟩]) =
    ((x (w.facing [])).1, (x (w.facing [])).2.facing [⟨p, m, .fail e⟩])) ∨
  ∃ e' w', x (w.facing [⟨p, n, .fail e⟩]) = (.error e', w') ∧ w'.faults = [] ∧ struck e' w'

/-- A job ends with the storage failure that was reported in its course, if there was one. -/
def Tells (x : Job σ α) : Prop :=
  ∀ w, ∃ new, (x w).2.journal.written = new ++ w.journal.written ∧
    ∀ entry ∈ new, ∀ operation cause, entry.event = .storageFailed operation cause →
      ∃ e, (x w).1 = .error e ∧ e.operation? = some operation

/-- A job that takes no notice of the journal, and ends with what it reports there. -/
structure Faithful (x : Job σ α) : Prop where
  ignoresJournal : x.IgnoresJournal
  tells : x.Tells

section Rules

variable {x : Job σ α} {f : α → Job σ β} {w : World σ} {p : Point} {n : Nat} {e : Failure}
  {struck : Failure → World σ → Prop}

theorem IgnoresFaults.meets (h : x.IgnoresFaults) : x.Meets w p n e struck := .inl ⟨n, h w _⟩

theorem IgnoresFaults.bind (hx : x.IgnoresFaults) (hf : ∀ a, (f a).IgnoresFaults) :
    (x >>= f).IgnoresFaults := by
  intro w fs
  rw [bind_apply, bind_apply, hx w fs]
  rcases hr : x (w.facing []) with ⟨e | a, w'⟩
  · rfl
  · have hw' := hf a w' []
    have hfs := hf a w' fs
    have hnil := hx w []
    rw [hr] at hnil
    have hself : w'.facing [] = w' := (congrArg Prod.snd hnil).symm
    rw [hself] at hfs
    exact hfs

theorem IgnoresJournal.of_same
    (h : ∀ (w : World σ) j, x (w.writing j) = ((x w).1, (x w).2.writing j)) : x.IgnoresJournal :=
  fun w j => ⟨j, h w j⟩

theorem IgnoresJournal.bind_of (hx : x.IgnoresJournal)
    (hf : ∀ w a w', x w = (.ok a, w') → (f a).IgnoresJournal) : (x >>= f).IgnoresJournal := by
  intro w j
  obtain ⟨j', hj'⟩ := hx w j
  rw [bind_apply, bind_apply, hj']
  rcases hr : x w with ⟨e | a, w'⟩
  · exact ⟨j', rfl⟩
  · exact hf w a w' hr w' j'

theorem ignoresJournal_guarded {q : Point} {instead : Substitute → Job σ α}
    (hinstead : ∀ v, (instead v).IgnoresJournal) (hx : x.IgnoresJournal) :
    (guarded q instead x).IgnoresJournal := by
  intro w j
  have hpass : (w.writing j).pass q = ((w.pass q).1, (w.pass q).2.writing j) := rfl
  rw [guarded, guarded, hpass]
  rcases w.pass q with ⟨_ | e | v, w'⟩
  · exact hx w' j
  · exact ⟨j, rfl⟩
  · exact hinstead v w' j

theorem Meets.mono {struck' : Failure → World σ → Prop} (h : x.Meets w p n e struck)
    (hs : ∀ e' w', struck e' w' → struck' e' w') : x.Meets w p n e struck' := by
  rcases h with hsame | ⟨e', w', hx, hw', he'⟩
  · exact .inl hsame
  · exact .inr ⟨e', w', hx, hw', hs e' w' he'⟩

/-- Once a job has got past the failure, it is up to what follows. -/
theorem meets_bind_same {m : Nat} (hx : x (w.facing [⟨p, n, .fail e⟩]) =
      ((x (w.facing [])).1, (x (w.facing [])).2.facing [⟨p, m, .fail e⟩]))
    (hclean : (x (w.facing [])).2.faults = [])
    (hf : ∀ a w', x (w.facing []) = (.ok a, w') → (f a).Meets w' p m e struck) :
    (x >>= f).Meets w p n e struck := by
  rcases hr : x (w.facing []) with ⟨e' | a, w'⟩
  · rw [hr] at hx
    refine .inl ⟨m, ?_⟩
    rw [bind_apply, bind_apply, hx, hr]
  · rw [hr] at hx hclean
    have hwith : (x >>= f) (w.facing [⟨p, n, .fail e⟩]) = f a (w'.facing [⟨p, m, .fail e⟩]) := by
      rw [bind_apply, hx]
    have hwithout : (x >>= f) (w.facing []) = f a (w'.facing []) := by
      rw [bind_apply, hr, World.facing_self hclean]
    rw [Meets, hwith, hwithout]
    exact hf a w' hr

/-- Jobs one after the other. -/
theorem Meets.bind (hx : x.Meets w p n e struck) (hclean : (x (w.facing [])).2.faults = [])
    (hf : ∀ a w' m, x (w.facing []) = (.ok a, w') → (f a).Meets w' p m e struck) :
    (x >>= f).Meets w p n e struck := by
  rcases hx with ⟨m, hx⟩ | ⟨e', w', hx, hw', he'⟩
  · exact meets_bind_same hx hclean fun a w' ha => hf a w' m ha
  · refine .inr ⟨e', w', ?_, hw', he'⟩
    rw [bind_apply, hx]

/-- At the place of the failure the job meets it, or goes on with one pass less. -/
theorem guarded_meets {q : Point} {instead : Substitute → Job σ α}
    (hx : ∀ m, x.Meets w p m e struck) (hs : p = q → struck e (w.facing [])) :
    (guarded q instead x).Meets w p n e struck := by
  have hwithout : guarded q instead x (w.facing []) = x (w.facing []) := by
    rw [guarded, World.pass_facing_nil]
  by_cases hpq : p = q
  · subst hpq
    cases n with
    | zero =>
      refine .inr ⟨e, w.facing [], ?_, rfl, hs rfl⟩
      rw [guarded, World.pass_facing_zero]
    | succ n =>
      have hwith : guarded p instead x (w.facing [⟨p, n + 1, .fail e⟩]) =
          x (w.facing [⟨p, n, .fail e⟩]) := by
        rw [guarded, World.pass_facing_succ]
      rw [Meets, hwith, hwithout]
      exact hx n
  · have hwith : guarded q instead x (w.facing [⟨p, n, .fail e⟩]) =
        x (w.facing [⟨p, n, .fail e⟩]) := by
      rw [guarded, World.pass_facing_of_ne w hpq]
    rw [Meets, hwith, hwithout]
    exact hx n

theorem Tells.of_journal (h : ∀ w, (x w).2.journal = w.journal) : x.Tells := by
  intro w
  exact ⟨[], by rw [h w]; rfl, fun _ hmem => absurd hmem List.not_mem_nil⟩

/-- Only what the first job can answer has to be followed by a job that tells. -/
theorem Tells.bind_of (hx : x.Tells) (hf : ∀ w a w', x w = (.ok a, w') → (f a).Tells) :
    (x >>= f).Tells := by
  intro w
  obtain ⟨new, hnew, htold⟩ := hx w
  rw [bind_apply]
  rcases hr : x w with ⟨e' | a, w'⟩
  · rw [hr] at hnew htold
    exact ⟨new, hnew, fun entry hmem operation cause he => by
      obtain ⟨e, he, hoperation⟩ := htold entry hmem operation cause he
      cases he
      exact ⟨e', rfl, hoperation⟩⟩
  · rw [hr] at hnew htold
    obtain ⟨later, hlater, htold'⟩ := hf w a w' hr w'
    refine ⟨later ++ new, ?_, fun entry hmem operation cause he => ?_⟩
    · rw [hlater, hnew, List.append_assoc]
    · rcases List.mem_append.1 hmem with hmem | hmem
      · exact htold' entry hmem operation cause he
      · obtain ⟨_, hok, -⟩ := htold entry hmem operation cause he
        cases hok

/-- A fault that strikes is no report of the store. -/
theorem tells_guarded {q : Point} {instead : Substitute → Job σ α} (hinstead : ∀ v, (instead v).Tells)
    (hx : x.Tells) : (guarded q instead x).Tells := by
  intro w
  obtain ⟨fs, hpass⟩ := w.pass_eq q
  rw [guarded]
  rcases hp : w.pass q with ⟨_ | e | v, w'⟩ <;> rw [hp] at hpass <;> subst hpass
  · exact hx _
  · exact ⟨[], rfl, fun _ hmem => absurd hmem List.not_mem_nil⟩
  · exact hinstead v _

theorem Faithful.bind_of (hx : x.Faithful) (hf : ∀ w a w', x w = (.ok a, w') → (f a).Faithful) :
    (x >>= f).Faithful where
  ignoresJournal := hx.ignoresJournal.bind_of fun w a w' ha => (hf w a w' ha).ignoresJournal
  tells := hx.tells.bind_of fun w a w' ha => (hf w a w' ha).tells

theorem Faithful.bind (hx : x.Faithful) (hf : ∀ a, (f a).Faithful) : (x >>= f).Faithful :=
  hx.bind_of fun _ a _ _ => hf a

theorem faithful_guarded {q : Point} {instead : Substitute → Job σ α}
    (hinstead : ∀ v, (instead v).Faithful) (hx : x.Faithful) :
    (guarded q instead x).Faithful where
  ignoresJournal := ignoresJournal_guarded (fun v => (hinstead v).ignoresJournal) hx.ignoresJournal
  tells := tells_guarded (fun v => (hinstead v).tells) hx.tells

theorem still_bind (hx : ∀ w, (x w).2.store = w.store) (hf : ∀ a w, (f a w).2.store = w.store)
    (w : World σ) : ((x >>= f) w).2.store = w.store := by
  have hfirst := hx w
  rw [bind_apply]
  rcases hr : x w with ⟨e | a, w'⟩
  · rwa [hr] at hfirst
  · rw [hr] at hfirst
    exact (hf a w').trans hfirst

theorem clean_bind (hx : ∀ w, w.faults = [] → (x w).2.faults = [])
    (hf : ∀ a w, w.faults = [] → (f a w).2.faults = []) (w : World σ) (hw : w.faults = []) :
    ((x >>= f) w).2.faults = [] := by
  have hfirst := hx w hw
  rw [bind_apply]
  rcases hr : x w with ⟨e | a, w'⟩
  · rwa [hr] at hfirst
  · rw [hr] at hfirst
    exact hf a w' hfirst

end Rules

/-- A job in whose course no call is made. -/
structure Quiet (x : Job σ α) : Prop extends x.Faithful where
  still : ∀ w, (x w).2.store = w.store
  ignoresFaults : x.IgnoresFaults

/-- A job that leaves the committed store alone, and that ends with the failure of a call that
fails. `absorbed` are the failures that it may take for an answer. -/
structure Propagates (x : Job σ α) (absorbed : Point → Failure → Prop) : Prop extends
    x.Faithful where
  still : ∀ w, (x w).2.store = w.store
  clean : ∀ w, w.faults = [] → (x w).2.faults = []
  lone : ∀ (w : World σ) p n e, (x (w.facing [⟨p, n, .fail e⟩])).2.faults = [] ∨
    ∃ m, (x (w.facing [⟨p, n, .fail e⟩])).2.faults = [⟨p, m, .fail e⟩]
  meets : ∀ w p n e, ¬ absorbed p e →
    x.Meets w p n e fun e' _ => p.isCall = true ∧ e' = e

section Steps

variable {x : Job σ α} {absorbed : Point → Failure → Prop}

theorem Quiet.clean (h : x.Quiet) (w : World σ) : (x w).2.faults = w.faults := by
  have hself := h.ignoresFaults w w.faults
  rw [World.facing_self rfl] at hself
  exact congrArg (fun r => r.2.faults) hself

theorem Quiet.propagates (h : x.Quiet) : x.Propagates absorbed where
  toFaithful := h.toFaithful
  still := h.still
  clean w hw := (h.clean w).trans hw
  lone _ _ n _ := .inr ⟨n, h.clean _⟩
  meets _ _ _ _ _ := h.ignoresFaults.meets

theorem Quiet.bind {f : α → Job σ β} (hx : x.Quiet) (hf : ∀ a, (f a).Quiet) :
    (x >>= f).Quiet where
  toFaithful := hx.toFaithful.bind fun a => (hf a).toFaithful
  still := still_bind hx.still fun a => (hf a).still
  ignoresFaults := hx.ignoresFaults.bind fun a => (hf a).ignoresFaults

theorem quiet_ofExcept (r : Except Failure α) : (ofExcept r : Job σ α).Quiet :=
  ⟨⟨.of_same fun _ _ => rfl, .of_journal fun _ => rfl⟩, fun _ => rfl, fun _ _ => rfl⟩

theorem quiet_pure (a : α) : (pure a : Job σ α).Quiet := quiet_ofExcept (.ok a)

theorem quiet_fail (e : Failure) : (fail e : Job σ α).Quiet := quiet_ofExcept (.error e)

theorem quiet_choose (f : Draws → α × Draws) : (choose f : Job σ α).Quiet :=
  ⟨⟨.of_same fun _ _ => rfl, .of_journal fun _ => rfl⟩, fun _ => rfl, fun _ _ => rfl⟩

theorem quiet_now : (now : Job σ Timestamp).Quiet := by
  refine ⟨⟨.of_same fun w j => ?_, .of_journal fun w => ?_⟩, fun w => ?_, fun w fs => ?_⟩ <;>
    simp only [now, World.facing, World.writing] <;> split <;> rfl

/-- An event that is no storage failure tells of none. -/
theorem quiet_note {e : Event} (he : ∀ operation cause, e ≠ .storageFailed operation cause) :
    (note e : Job σ Unit).Quiet := by
  refine ⟨⟨fun _ j => ⟨j.note e, rfl⟩, fun w => ?_⟩, fun _ => rfl, fun _ _ => rfl⟩
  by_cases hlevel : w.journal.level.rank ≤ e.record.level.rank
  · refine ⟨[⟨e, w.journal.request⟩], ?_, fun entry hmem operation cause hevent => ?_⟩
    · simp [note, World.note, Journal.note, hlevel]
    · obtain rfl := List.mem_singleton.1 hmem
      exact absurd hevent (he operation cause)
  · refine ⟨[], ?_, fun _ hmem => absurd hmem List.not_mem_nil⟩
    simp [note, World.note, Journal.note, hlevel]

/-- Where nothing is taken for an answer, every failure is passed on. -/
theorem Propagates.meets_any (h : x.Propagates fun _ _ => False) (w : World σ) (p : Point) (n : Nat)
    (e : Failure) : x.Meets w p n e fun e' _ => p.isCall = true ∧ e' = e :=
  h.meets w p n e not_false

theorem propagates_pure (a : α) : (pure a : Job σ α).Propagates absorbed :=
  (quiet_pure a).propagates

theorem propagates_fail (e : Failure) : (fail e : Job σ α).Propagates absorbed :=
  (quiet_fail e).propagates

theorem propagates_ofExcept (r : Except Failure α) : (ofExcept r : Job σ α).Propagates absorbed :=
  (quiet_ofExcept r).propagates

theorem propagates_choose (f : Draws → α × Draws) : (choose f : Job σ α).Propagates absorbed :=
  (quiet_choose f).propagates

theorem propagates_now : (now : Job σ Timestamp).Propagates absorbed := quiet_now.propagates

theorem Propagates.bind {f : α → Job σ β} (hx : x.Propagates absorbed)
    (hf : ∀ a, (f a).Propagates absorbed) : (x >>= f).Propagates absorbed where
  toFaithful := hx.toFaithful.bind fun a => (hf a).toFaithful
  still := still_bind hx.still fun a => (hf a).still
  clean := clean_bind hx.clean fun a => (hf a).clean
  lone w p n e := by
    have hfirst := hx.lone w p n e
    rw [bind_apply]
    rcases hr : x (w.facing [⟨p, n, .fail e⟩]) with ⟨e' | a, w'⟩
    · rwa [hr] at hfirst
    · rw [hr] at hfirst
      rcases hfirst with hnone | ⟨m, hm⟩
      · exact .inl ((hf a).clean w' hnone)
      · have hself : w'.facing [⟨p, m, .fail e⟩] = w' := World.facing_self hm
        exact hself ▸ (hf a).lone w' p m e
  meets w p n e he := (hx.meets w p n e he).bind (hx.clean _ rfl) fun a w' m _ =>
    (hf a).meets w' p m e he

theorem Propagates.ite {c : Prop} [Decidable c] {y : Job σ α} (hx : x.Propagates absorbed)
    (hy : y.Propagates absorbed) : (if c then x else y).Propagates absorbed := by
  split
  · exact hx
  · exact hy

theorem Propagates.guarded {q : Point} (hq : q.isCall = true) {instead : Substitute → Job σ α}
    (hinstead : ∀ v, (instead v).Propagates absorbed) (hx : x.Propagates absorbed) :
    (guarded q instead x).Propagates absorbed where
  toFaithful := faithful_guarded (fun v => (hinstead v).toFaithful) hx.toFaithful
  still w := by
    obtain ⟨fs, hpass⟩ := w.pass_eq q
    rw [Job.guarded]
    rcases hp : w.pass q with ⟨_ | e | v, w'⟩ <;> rw [hp] at hpass <;> subst hpass
    · exact hx.still _
    · rfl
    · exact (hinstead v).still _
  clean w hw := by
    rw [guarded_of_no_faults _ _ _ w hw]
    exact hx.clean w hw
  lone w p n e := by
    rw [Job.guarded]
    by_cases hpq : p = q
    · subst hpq
      cases n with
      | zero =>
        rw [World.pass_facing_zero]
        exact .inl rfl
      | succ n =>
        rw [World.pass_facing_succ]
        exact hx.lone w p n e
    · rw [World.pass_facing_of_ne w hpq]
      exact hx.lone w p n e
  meets w p n e he := guarded_meets (fun m => hx.meets w p m e he) fun hpq => ⟨hpq ▸ hq, rfl⟩

section Absence

variable {look : Job σ α} {absent taken : Refusal} {w : World σ}

theorem ensureAbsent_snd : (ensureAbsent look absent taken w).2 = (look w).2 := by
  rw [ensureAbsent]
  rcases look w with ⟨e | a, w'⟩
  · cases e <;> rfl
  · rfl

/-- A storage failure is never taken for an answer. -/
theorem ensureAbsent_of_operation {e : Failure} {operation : Text} (h : (look w).1 = .error e)
    (he : e.operation? = some operation) : (ensureAbsent look absent taken w).1 = .error e := by
  rw [ensureAbsent]
  rcases hr : look w with ⟨r, w'⟩
  rw [hr] at h
  obtain rfl : r = .error e := h
  cases e <;> first | rfl | cases he

/-- Looking whether something is absent gets past a failure where looking for it does. -/
theorem ensureAbsent_same {fs gs : List Fault}
    (h : look (w.facing fs) = ((look (w.facing [])).1, (look (w.facing [])).2.facing gs)) :
    ensureAbsent look absent taken (w.facing fs) =
      ((ensureAbsent look absent taken (w.facing [])).1,
        (ensureAbsent look absent taken (w.facing [])).2.facing gs) := by
  rw [ensureAbsent, ensureAbsent, h]
  rcases look (w.facing []) with ⟨e | a, w'⟩
  · cases e <;> rfl
  · rfl

theorem faithful_ensureAbsent (h : look.Faithful) :
    (ensureAbsent look absent taken).Faithful where
  ignoresJournal w j := by
    obtain ⟨j', hj'⟩ := h.ignoresJournal w j
    rw [ensureAbsent, ensureAbsent, hj']
    rcases look w with ⟨e | a, w'⟩
    · cases e <;> exact ⟨j', rfl⟩
    · exact ⟨j', rfl⟩
  tells w := by
    obtain ⟨new, hnew, htold⟩ := h.tells w
    rw [ensureAbsent_snd]
    refine ⟨new, hnew, fun entry hmem operation cause hevent => ?_⟩
    obtain ⟨e, he, hoperation⟩ := htold entry hmem operation cause hevent
    exact ⟨e, ensureAbsent_of_operation he hoperation, hoperation⟩

end Absence

end Steps

section Calls

variable [Gateway σ] {sh : Shape} {scope : Scope} {c : Call sh} {w : World σ} {p : Point} {n : Nat}
  {e : Failure} {absorbed : Point → Failure → Prop}

theorem ignoresFaults_perform (scope : Scope) (c : Call sh) :
    (perform scope c : Job σ sh.Answer).IgnoresFaults := by
  intro w fs
  have hseen : (w.facing fs).seen scope = (w.facing []).seen scope := by cases scope <;> rfl
  have hclock : (w.facing fs).clock = (w.facing []).clock := rfl
  rw [perform, perform, hseen, hclock]
  rcases c.on ((w.facing []).seen scope) (w.facing []).clock with ⟨⟨r, after⟩, k⟩
  cases r with
  | ok a => cases scope <;> rfl
  | error e => cases scope <;> cases e <;> rfl

theorem ignoresJournal_perform (scope : Scope) (c : Call sh) :
    (perform scope c : Job σ sh.Answer).IgnoresJournal := by
  intro w j
  have hseen : (w.writing j).seen scope = w.seen scope := by cases scope <;> rfl
  have hclock : (w.writing j).clock = w.clock := rfl
  rw [perform, perform, hseen, hclock]
  rcases c.on (w.seen scope) w.clock with ⟨⟨r, after⟩, k⟩
  cases r with
  | ok a => cases scope <;> exact ⟨j, rfl⟩
  | error e => cases scope <;> cases e <;> exact ⟨_, rfl⟩

/-- The store reports no failure but the one that the call fails with. -/
theorem tells_perform (scope : Scope) (c : Call sh) : (perform scope c : Job σ sh.Answer).Tells := by
  have hkeep (w : World σ) (b : Bool) (s : σ) : (w.keep scope b s).journal = w.journal := by
    cases scope <;> cases b <;> rfl
  have hquiet (w : World σ) (r : Except Failure sh.Answer) (b : Bool) (s : σ) (k : Clock) :
      ∃ new, (({ w with clock := k } : World σ).keep scope b s).journal.written =
        new ++ w.journal.written ∧ ∀ entry ∈ new, ∀ operation cause,
          entry.event = .storageFailed operation cause →
            ∃ e, r = .error e ∧ e.operation? = some operation :=
    ⟨[], congrArg Journal.written (hkeep _ _ _), fun _ hmem => absurd hmem List.not_mem_nil⟩
  -- A report is the last entry, if the journal is kept at its level.
  have hreport (w : World σ) (operation cause : Text) (e : Failure) (s : σ) (k : Clock)
      (he : e.operation? = some operation) :
      ∃ new, ((({ w with clock := k } : World σ).keep scope false s).note
          (.storageFailed operation cause)).journal.written = new ++ w.journal.written ∧
        ∀ entry ∈ new, ∀ operation' cause', entry.event = .storageFailed operation' cause' →
          ∃ e', (.error e : Except Failure sh.Answer) = .error e' ∧
            e'.operation? = some operation' := by
    have hsame : (({ w with clock := k } : World σ).keep scope false s).journal = w.journal :=
      hkeep _ _ _
    by_cases hlevel : w.journal.level.rank ≤ (Event.storageFailed operation cause).record.level.rank
    · refine ⟨[⟨.storageFailed operation cause, w.journal.request⟩], ?_, ?_⟩
      · simp [World.note, Journal.note, hsame, hlevel]
      · intro entry hmem operation' cause' hevent
        obtain rfl := List.mem_singleton.1 hmem
        cases hevent
        exact ⟨e, rfl, he⟩
    · refine ⟨[], ?_, fun _ hmem => absurd hmem List.not_mem_nil⟩
      simp [World.note, Journal.note, hsame, hlevel]
  intro w
  rw [perform]
  rcases c.on (w.seen scope) w.clock with ⟨⟨r, after⟩, k⟩
  cases r with
  | ok a => exact hquiet w (.ok a) true after k
  | error e =>
    cases e with
    | storage operation => exact hreport w operation _ _ after k rfl
    | storageBecause operation cause => exact hreport w operation _ _ after k rfl
    | _ => exact hquiet w (.error _) false after k

/-- A call inside a transaction leaves the committed store alone, and so does a reading. -/
theorem propagates_perform (h : scope = .inside ∨ ∀ (s : σ) k, (c.on s k).1.2 = s) :
    (perform scope c : Job σ sh.Answer).Propagates absorbed := by
  refine Quiet.propagates
    ⟨⟨ignoresJournal_perform scope c, tells_perform scope c⟩, fun w => ?_,
      ignoresFaults_perform scope c⟩
  rcases h with rfl | hreads
  · rw [perform]
    rcases c.on (w.seen .inside) w.clock with ⟨⟨r, after⟩, k⟩
    cases r with
    | ok a => rfl
    | error e => cases e <;> rfl
  · have hafter := hreads (w.seen scope) w.clock
    rw [perform]
    rcases hon : c.on (w.seen scope) w.clock with ⟨⟨r, after⟩, k⟩
    rw [hon] at hafter
    obtain rfl : after = w.seen scope := hafter
    cases r with
    | ok a => cases scope <;> rfl
    | error e => cases scope <;> cases e <;> rfl

theorem propagates_ask (h : scope = .inside ∨ ∀ (s : σ) k, (c.on s k).1.2 = s) :
    (ask scope c : Job σ (Given sh.Answer)).Propagates absorbed := by
  have hpoint : c.point.isCall = true := by cases c <;> rfl
  have hreach : (reach scope c : Job σ sh.Answer).Propagates absorbed := by
    cases c with
    | activeMembers team except =>
      unfold reach
      simp only
      refine .ite (.guarded rfl (fun v => ?_) (propagates_perform h)) (propagates_perform h)
      exact ((quiet_ofExcept _).bind fun us => quiet_pure _).propagates
    | _ => exact propagates_perform h
  exact .guarded hpoint (fun v => propagates_pure _) (hreach.bind fun a => propagates_pure _)

theorem propagates_inside (c : Call sh) :
    (ask .inside c : Job σ (Given sh.Answer)).Propagates absorbed :=
  propagates_ask (.inl rfl)

theorem propagates_look (part : String) (h : scope = .inside ∨ ∀ (s : σ) k, (c.on s k).1.2 = s) :
    (look part scope c : Job σ sh.Answer).Propagates absorbed :=
  (propagates_ask h).bind fun _ => propagates_ofExcept _

theorem propagates_tell (c : Call .nothing) : (tell .inside c : Job σ Unit).Propagates absorbed :=
  (propagates_inside c).bind fun _ => propagates_pure _

/-- A call gets past a failure that lies in wait at another place. -/
theorem ask_same_of_ne (hreach : reach scope c = (perform scope c : Job σ sh.Answer))
    (h : p ≠ c.point) : ask scope c (w.facing [⟨p, n, .fail e⟩]) =
      ((ask scope c (w.facing [])).1,
        (ask scope c (w.facing [])).2.facing [⟨p, n, .fail e⟩]) := by
  have hignores : (do return .own (← perform scope c) : Job σ (Given sh.Answer)).IgnoresFaults :=
    (ignoresFaults_perform scope c).bind fun _ _ _ => rfl
  rw [ask, hreach, guarded, guarded, World.pass_facing_of_ne w h, World.pass_facing_nil]
  exact hignores w _

/-- A call gets past a failure that lies in wait for a later one. -/
theorem ask_same_of_succ (hreach : reach scope c = (perform scope c : Job σ sh.Answer)) :
    ask scope c (w.facing [⟨c.point, n + 1, .fail e⟩]) =
      ((ask scope c (w.facing [])).1,
        (ask scope c (w.facing [])).2.facing [⟨c.point, n, .fail e⟩]) := by
  have hignores : (do return .own (← perform scope c) : Job σ (Given sh.Answer)).IgnoresFaults :=
    (ignoresFaults_perform scope c).bind fun _ _ _ => rfl
  rw [ask, hreach, guarded, guarded, World.pass_facing_succ, World.pass_facing_nil]
  exact hignores w _

theorem ask_struck (scope : Scope) (c : Call sh) (w : World σ) (e : Failure) :
    ask scope c (w.facing [⟨c.point, 0, .fail e⟩]) = (.error e, w.facing []) := by
  rw [ask, guarded, World.pass_facing_zero]

/-- Looking whether something is absent passes on every failure apart from the refusal that tells
so. -/
theorem propagates_ensureAbsent {absent : Refusal} (taken : Refusal)
    (hreads : ∀ (s : σ) k, (c.on s k).1.2 = s)
    (hreach : reach .outside c = (perform .outside c : Job σ sh.Answer))
    (habsorbed : ∀ note, absorbed c.point (.refused absent note)) :
    (ensureAbsent (ask .outside c : Job σ (Given sh.Answer)) absent taken).Propagates absorbed := by
  have hask : (ask .outside c : Job σ (Given sh.Answer)).Propagates absorbed :=
    propagates_ask (.inr hreads)
  refine ⟨faithful_ensureAbsent hask.toFaithful, ?_, ?_, ?_, ?_⟩
  · intro w
    rw [ensureAbsent_snd]
    exact hask.still w
  · intro w hw
    rw [ensureAbsent_snd]
    exact hask.clean w hw
  · intro w p n e
    rw [ensureAbsent_snd]
    exact hask.lone w p n e
  · intro w p n e he
    by_cases hp : p = c.point
    · subst hp
      cases n with
      | zero =>
        refine .inr ⟨e, w.facing [], ?_, rfl, by cases c <;> rfl, rfl⟩
        rw [ensureAbsent, ask_struck]
        cases e with
        | refused why note =>
          have hne : why ≠ absent := by
            rintro rfl
            exact he (habsorbed note)
          simp [hne]
        | _ => rfl
      | succ n => exact .inl ⟨n, ensureAbsent_same (ask_same_of_succ hreach)⟩
    · exact .inl ⟨n, ensureAbsent_same (ask_same_of_ne hreach hp)⟩

/-- What is answered without faults is the store's own answer. -/
theorem ask_own {g : Given sh.Answer} {w' : World σ} (h : ask scope c w = (.ok g, w'))
    (hw : w.faults = []) : ∃ a after k, g = .own a ∧
      c.on (w.seen scope) w.clock = ((.ok a, after), k) ∧
      w' = ({ w with clock := k } : World σ).keep scope true after := by
  rw [ask, guarded_of_no_faults _ _ _ w hw, bind_apply, reach_of_no_faults scope c hw,
    perform] at h
  rcases hon : c.on (w.seen scope) w.clock with ⟨⟨r, after⟩, k⟩
  rw [hon] at h
  cases r with
  | ok a =>
    cases h
    exact ⟨a, after, k, rfl, rfl, rfl⟩
  | error e => cases e <;> cases h

end Calls

end Job
end ReviewDesk
