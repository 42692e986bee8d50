import ReviewDesk.Proofs.Errand
import ReviewDesk.Proofs.Paired

/-!
# The agreement of both stores

Whatever is done with the desk from outside comes to the same on the keyed store and on the
relational one, if every text that is passed on has a written form, every date is in universal time
and no pull request is saved without one. The answers are the same apart from the offsets of dates,
the failures are the same, and in the end both stores hold the same, have drawn the same and have
read the clock as often.
-/
namespace ReviewDesk

open RelationalStore (Writable)

/-- A reply with dates as a wall clock shows them. -/
def Reply.wallOnly : Reply → Reply
  | .pullRequest p => .pullRequest p.wallOnly
  | .pullRequests ps => .pullRequests (ps.map PullRequest.wallOnly)
  | .reassigned (.own p) successor => .reassigned (.own p.wallOnly) successor
  | reply => reply

/-- Two plans that are followed in the same way. -/
def Plan.Paired {α β : Type} (p : Plan KeyedStore α) (q : Plan RelationalStore β)
    (R : α → β → Prop) : Prop :=
  (∃ a b, p = .finished a ∧ q = .finished b ∧ R a b) ∨
    ∃ x y, p = .pending x ∧ q = .pending y ∧ x.Paired .outside y R

/-- Jobs that plan are paired, and so are plans that give their answers in another form. -/
theorem Job.Paired.map {α β γ δ : Type} {x : Job KeyedStore (Plan KeyedStore α)}
    {y : Job RelationalStore (Plan RelationalStore β)} {R : α → β → Prop}
    (h : x.Paired .outside y fun p q => p.Paired q R) {f : α → γ} {g : β → δ}
    {S : γ → δ → Prop} (hfg : ∀ a b, R a b → S (f a) (g b)) :
    (do return (← x).map f : Job KeyedStore _).Paired .outside
      (do return (← y).map g : Job RelationalStore _) fun p q => p.Paired q S := by
  refine h.bind fun p q hpq => paired_pure ?_
  rcases hpq with ⟨a, b, rfl, rfl, hab⟩ | ⟨x, y, rfl, rfl, hxy⟩
  · exact .inl ⟨f a, g b, rfl, rfl, hfg a b hab⟩
  · exact .inr ⟨_, _, rfl, rfl, hxy.bind fun a b hab => paired_pure (hfg a b hab)⟩

section Roster

open Job Roster

variable {t : Team}

theorem paired_foundNow (ht : Writable t.name)
    (hmembers : ∀ u ∈ t.members, Writable u.id ∧ Writable u.name) :
    (foundNow t : Job KeyedStore _).Paired .inside (foundNow t) Shape.team.Shown := by
  have hput : (Call.putUsers (membersOf t)).Plain := by
    intro u hu
    obtain ⟨v, hv, rfl⟩ := List.mem_map.1 hu
    obtain ⟨hid, hname⟩ := hmembers v hv
    exact ⟨⟨hid, fun team hteam => Option.some.inj hteam ▸ ht⟩, hname⟩
  exact (paired_tell (.saveTeam ⟨t.name, []⟩) ht).bind fun _ _ _ =>
    (paired_tell _ hput).bind fun _ _ _ => paired_ask (.team t.name) ht

theorem paired_found (ht : Writable t.name)
    (hmembers : ∀ u ∈ t.members, Writable u.id ∧ Writable u.name) :
    (found t : Job KeyedStore _).Paired .outside (found t)
      fun p q => p.Paired q fun a b => b = a := by
  unfold found
  refine Paired.ite Iff.rfl (fun _ => paired_fail rfl) fun _ => ?_
  refine (paired_ensureAbsent (.team t.name) ht _ _).bind fun _ _ _ =>
    paired_pure (.inr ⟨_, _, rfl, rfl, ?_⟩)
  refine (paired_foundNow ht hmembers).transaction.bind ?_
  rintro _ _ ⟨founded, rfl, rfl, -⟩
  exact paired_ofExcept ((paired_note _ _).bind fun _ _ _ => paired_pure rfl)

theorem paired_switch {id : Text} (hid : Writable id) (active : Bool) :
    (switch id active : Job KeyedStore _).Paired .outside (switch id active)
      fun p q => p.Paired q Shape.user.Shown := by
  have hnow : (switchNow id active : Job KeyedStore _).Paired .inside (switchNow id active)
      fun _ _ => True := by
    refine (paired_look "is_active" (.user id) hid).bind ?_
    rintro _ u ⟨rfl, hu⟩
    exact paired_tell (.setActivity [{ u with active := active }]) fun v hv =>
      List.mem_singleton.1 hv ▸ hu.1
  refine (paired_ask (.user id) hid).bind fun _ _ _ => paired_pure (.inr ⟨_, _, rfl, rfl, ?_⟩)
  exact hnow.silently.bind fun _ _ _ => (paired_note _ _).bind fun _ _ _ =>
    paired_ask (.user id) hid

end Roster

section Review

open Job Review

theorem paired_teammates {scope : Scope} {team : Option Text} {except : Text}
    (hteam : ∀ t ∈ team, Writable t) (hexcept : Writable except) :
    (teammates scope team except : Job KeyedStore _).Paired scope (teammates scope team except)
      fun a b => b = a ∧ ∀ id ∈ a, Writable id := by
  cases team with
  | none => exact paired_pure ⟨rfl, fun _ h => by cases h⟩
  | some name =>
    have hcall : (Call.activeMembers name (some except)).Plain :=
      ⟨hteam name rfl, fun id hid => Option.some.inj hid ▸ hexcept⟩
    refine (paired_ask _ hcall).bind ?_
    rintro _ _ ⟨us, rfl, rfl, hus⟩
    refine paired_pure ⟨rfl, fun id hid => ?_⟩
    obtain ⟨u, hu, rfl⟩ := List.mem_map.1 hid
    exact (hus u hu).1

theorem paired_opening {id name author : Text} (hid : Writable id) (hname : Writable name)
    (hauthor : Writable author) :
    (opening id name author : Job KeyedStore _).Paired .outside (opening id name author)
      fun p q => p.Paired q fun a b => b = a.wallOnly := by
  refine (paired_ask (.user author) hauthor).bind ?_
  rintro _ _ ⟨u, rfl, rfl, hu⟩
  refine (paired_ensureAbsent (.pullRequest id) hid _ _).bind fun _ _ _ => paired_ofExcept ?_
  refine (paired_teammates hu.2 hauthor).bind ?_
  rintro _ candidates ⟨rfl, hcandidates⟩
  refine (paired_choose (P := fun rs => ∀ r ∈ rs, Writable r) fun d r hr =>
    hcandidates r (mem_of_mem_selectUpTo hr)).bind ?_
  rintro _ reviewers ⟨rfl, hreviewers⟩
  refine paired_pure (.inr ⟨_, _, rfl, rfl, ?_⟩)
  have hnow : (openNow id name author reviewers : Job KeyedStore _).Paired .inside
      (openNow id name author reviewers) Shape.pullRequest.Shown := by
    refine paired_now.bind ?_
    rintro _ created ⟨rfl, hoffset⟩
    have hsave : (Call.savePullRequest
        ⟨id, name, author, .opened, [], some created, none⟩).Plain :=
      ⟨⟨hid, hname, hauthor⟩, created, rfl, hoffset⟩
    exact (paired_tell _ hsave).bind fun _ _ _ =>
      (paired_tell (.assign id reviewers) ⟨hid, hreviewers⟩).bind fun _ _ _ =>
        paired_ask (.pullRequest id) hid
  refine hnow.transaction.bind ?_
  rintro _ _ ⟨p, rfl, rfl, -⟩
  exact paired_ofExcept ((paired_note _ _).bind fun _ _ _ => paired_pure rfl)

theorem paired_mergeNow {id : Text} (hid : Writable id) :
    (mergeNow id : Job KeyedStore _).Paired .inside (mergeNow id) Shape.pullRequest.Shown := by
  refine (paired_look "status" (.pullRequest id) hid).bind ?_
  rintro p _ ⟨rfl, hp⟩
  refine Paired.ite Iff.rfl (fun _ => paired_pure ⟨p, rfl, rfl, hp⟩) fun _ => ?_
  refine paired_now.bind ?_
  rintro _ merged ⟨rfl, -⟩
  -- An update passes over the date of the creation.
  have hupdate : (tell .inside (.updatePullRequest
        { p with status := .merged, merged := some merged }) : Job KeyedStore Unit).Paired .inside
      (tell .inside (.updatePullRequest
        { p.wallOnly with status := .merged, merged := some merged })) fun _ _ => True :=
    paired_tell (.updatePullRequest { p with status := .merged, merged := some merged }) hp
  exact hupdate.bind fun _ _ _ => paired_ask (.pullRequest id) hid

theorem paired_merge {id : Text} (hid : Writable id) :
    (merge id : Job KeyedStore _).Paired .outside (merge id)
      fun p q => p.Paired q fun a b => b = a.wallOnly := by
  refine (paired_look "status" (.pullRequest id) hid).bind ?_
  rintro p _ ⟨rfl, -⟩
  refine Paired.ite Iff.rfl (fun _ => paired_pure (.inl ⟨p, p.wallOnly, rfl, rfl, rfl⟩)) fun _ =>
    paired_pure (.inr ⟨_, _, rfl, rfl, ?_⟩)
  refine (paired_mergeNow hid).transaction.bind ?_
  rintro _ _ ⟨⟨id, name, author, status, reviewers, created, _ | merged⟩, rfl, rfl, -⟩
  · exact paired_ofExcept (paired_fail rfl)
  · exact paired_ofExcept ((paired_note _ _).bind fun _ _ _ => paired_pure rfl)

theorem paired_hand {id old : Text} {next : Option Text} (hid : Writable id) (hold : Writable old)
    (hnext : ∀ x ∈ next, Writable x) :
    (hand id old next : Job KeyedStore _).Paired .inside (hand id old next) fun _ _ => True := by
  cases next with
  | none => exact paired_tell (.removeReviewer id old) ⟨hid, hold⟩
  | some x => exact paired_tell (.replaceReviewer id old x) ⟨hid, hold, hnext x rfl⟩

/-- A reviewer is relieved by the same person on both sides. -/
theorem paired_reassignNow {id old : Text} (hid : Writable id) (hold : Writable old) :
    (reassignNow id old : Job KeyedStore _).Paired .inside (reassignNow id old) fun x y =>
      ∃ p next, x = .own (.own p, next) ∧ y = .own (.own p.wallOnly, next) := by
  refine (paired_look "status" (.pullRequest id) hid).bind ?_
  rintro p _ ⟨rfl, hp⟩
  refine Paired.ite Iff.rfl (fun _ => paired_fail rfl) fun _ => ?_
  refine (paired_ask (.reviewers id) hid).bind ?_
  rintro _ _ ⟨ids, rfl, rfl, -⟩
  refine paired_ofExcept (Paired.ite Iff.rfl (fun _ => paired_fail rfl) fun _ => ?_)
  refine (paired_look "team_name" (.user old) hold).bind ?_
  rintro _ u ⟨rfl, hu⟩
  refine (paired_teammates hu.2 hp.2.2).bind ?_
  rintro _ candidates ⟨rfl, hcandidates⟩
  refine (paired_take _).bind ?_
  rintro _ ⟨next, rest⟩ ⟨rfl, hnext, -⟩
  have hwritten : ∀ x ∈ next, Writable x := fun x hx =>
    hcandidates x (List.mem_filter.1 (hnext x hx)).1
  refine (paired_hand hid hold hwritten).bind fun _ _ _ =>
    (paired_ask (.pullRequest id) hid).bind ?_
  rintro _ _ ⟨updated, rfl, rfl, -⟩
  exact paired_pure ⟨updated, next, rfl, rfl⟩

theorem paired_reassign {id old : Text} (hid : Writable id) (hold : Writable old) :
    (reassign id old : Job KeyedStore _).Paired .outside (reassign id old)
      fun p q => p.Paired q fun a b => ∃ r successor, a = (.own r, successor) ∧
        b = (.own r.wallOnly, successor) := by
  refine (paired_look "status" (.pullRequest id) hid).bind ?_
  rintro p _ ⟨rfl, -⟩
  refine Paired.ite Iff.rfl (fun _ => paired_fail rfl) fun _ =>
    paired_pure (.inr ⟨_, _, rfl, rfl, ?_⟩)
  refine (paired_reassignNow hid hold).transaction.bind ?_
  rintro _ _ ⟨r, next, rfl, rfl⟩
  exact paired_ofExcept ((paired_note _ _).bind fun _ _ _ => paired_pure ⟨r, _, rfl, rfl⟩)

end Review

section Departure

open Job Departure

/-- The same people are relieved one after the other, and the same people take over. -/
theorem paired_relieve {id : Text} (hid : Writable id) {leaving pool : List Text}
    (hleaving : ∀ old ∈ leaving, Writable old) (hpool : ∀ x ∈ pool, Writable x) :
    (relieve id leaving pool : Job KeyedStore _).Paired .inside (relieve id leaving pool)
      fun a b => b = a := by
  induction leaving generalizing pool with
  | nil => exact paired_pure rfl
  | cons old leaving ih =>
    obtain ⟨hold, hrest⟩ := List.forall_mem_cons.1 hleaving
    refine (paired_take pool).bind ?_
    rintro _ ⟨next, left⟩ ⟨rfl, hnext, hleft⟩
    refine (paired_hand hid hold fun x hx => hpool x (hnext x hx)).bind fun _ _ _ => ?_
    refine (ih hrest fun x hx => hpool x (hleft x hx)).bind ?_
    rintro _ rest rfl
    exact paired_pure rfl

variable {leaving : List Text} {staying : List User}

/-- The dates of a pull request do not matter for those who are relieved on it. -/
theorem paired_relieveOn (hleaving : ∀ old ∈ leaving, Writable old)
    (hstaying : ∀ u ∈ staying, u.Written) (batch : List (Text × List Text)) {p : PullRequest}
    (hp : p.Written) :
    (relieveOn leaving (.own staying) (.own batch) p : Job KeyedStore _).Paired .inside
      (relieveOn leaving (.own staying) (.own batch) p.wallOnly) fun a b => b = a := by
  let reviewers := (batch.lookup p.id).getD []
  refine paired_ofExcept (paired_ofExcept (Paired.ite Iff.rfl (fun _ => paired_pure rfl)
    fun _ => paired_ofExcept ?_))
  have hrelieved : ∀ old ∈ reviewers.filter (· ∈ leaving), Writable old := fun old hold =>
    hleaving old (by simpa using (List.mem_filter.1 hold).2)
  have hpool : ∀ x ∈ successors (staying.map User.id) p.author (.own reviewers), Writable x := by
    intro x hx
    obtain ⟨u, hu, rfl⟩ := List.mem_map.1 (List.mem_filter.1 hx).1
    exact (hstaying u hu).1
  exact paired_relieve hp.1 hrelieved hpool

theorem paired_cascade (hleaving : ∀ old ∈ leaving, Writable old)
    (hstaying : ∀ u ∈ staying, u.Written) (batch : List (Text × List Text))
    {ps : List PullRequest} (hps : ∀ p ∈ ps, p.Written) :
    (cascade leaving (.own staying) (.own batch) ps : Job KeyedStore _).Paired .inside
      (cascade leaving (.own staying) (.own batch) (ps.map PullRequest.wallOnly))
      fun a b => b = a := by
  induction ps with
  | nil => exact paired_pure rfl
  | cons p ps ih =>
    obtain ⟨hp, hrest⟩ := List.forall_mem_cons.1 hps
    unfold cascade
    have hnext : ∀ first, (do return first ++ (← cascade leaving (.own staying) (.own batch) ps) :
        Job KeyedStore _).Paired .inside
        (do return first ++ (← cascade leaving (.own staying) (.own batch)
          (ps.map PullRequest.wallOnly))) fun a b => b = a := by
      intro first
      refine (ih hrest).bind ?_
      rintro _ rest rfl
      exact paired_pure rfl
    refine Paired.ite Iff.rfl (fun _ => ?_) fun _ => hnext []
    refine (paired_relieveOn hleaving hstaying batch hp).bind ?_
    rintro _ first rfl
    exact hnext first

theorem paired_departNow {team : Text} (hteam : Writable team)
    (hleaving : ∀ old ∈ leaving, Writable old) :
    (departNow team leaving : Job KeyedStore _).Paired .inside (departNow team leaving)
      fun x y => ∃ l, x = .own l ∧ y = .own l := by
  refine (paired_ask (.openPullRequests team) hteam).bind ?_
  rintro _ _ ⟨ps, rfl, rfl, hps⟩
  refine (paired_tell (.deactivate leaving) hleaving).bind fun _ _ _ => paired_ofExcept ?_
  refine Paired.ite (by simp [Shape.wallOnly]) (fun _ => paired_pure ⟨[], rfl, rfl⟩) fun _ => ?_
  have hids : (ps.map PullRequest.wallOnly).map PullRequest.id = ps.map PullRequest.id := by
    rw [List.map_map]
    rfl
  have hasked : (Call.reviewersOf (ps.map PullRequest.id)).Plain := by
    intro id hid
    obtain ⟨p, hp, rfl⟩ := List.mem_map.1 hid
    exact (hps p hp).1
  have hbatch : (ask .inside (.reviewersOf (ps.map PullRequest.id)) : Job KeyedStore _).Paired
      .inside (ask .inside (.reviewersOf ((ps.map PullRequest.wallOnly).map PullRequest.id)))
      Shape.reviewersOf.Shown := by
    rw [hids]
    exact paired_ask _ hasked
  refine hbatch.bind ?_
  rintro _ _ ⟨batch, rfl, rfl, -⟩
  have hactive : (Call.activeMembers team none).Plain := ⟨hteam, fun _ h => by cases h⟩
  refine (paired_ask _ hactive).bind ?_
  rintro _ _ ⟨staying, rfl, rfl, hstaying⟩
  refine (paired_cascade hleaving hstaying batch hps).bind ?_
  rintro _ l rfl
  exact paired_pure ⟨l, rfl, rfl⟩

theorem paired_depart {team : Text} {users : List Text} (hteam : Writable team)
    (husers : ∀ id ∈ users, Writable id) :
    (depart team users : Job KeyedStore _).Paired .outside (depart team users)
      fun p q => p.Paired q fun a b => b = a := by
  have hleaving : ∀ id ∈ users.eraseDups, Writable id := fun id hid =>
    husers id (List.mem_eraseDups.1 hid)
  refine Paired.ite Iff.rfl (fun _ => paired_pure (.inl ⟨_, _, rfl, rfl, rfl⟩)) fun _ => ?_
  refine (paired_ask (.team team) hteam).bind fun _ _ _ => ?_
  refine (paired_ask (.members team) hteam).bind ?_
  rintro _ members ⟨us, rfl, hmembers, -⟩
  obtain rfl : members = .own us := hmembers
  refine paired_ofExcept ?_
  cases users.eraseDups.find? (· ∉ us.map User.id) with
  | some stranger => exact paired_fail rfl
  | none =>
    refine paired_pure (.inr ⟨_, _, rfl, rfl, ?_⟩)
    refine (paired_departNow hteam hleaving).transaction.bind ?_
    rintro _ _ ⟨l, rfl, rfl⟩
    exact paired_ofExcept ((paired_note _ _).bind fun _ _ _ => paired_pure rfl)

theorem paired_departAll {name : Text} (hname : Writable name) :
    (departAll name : Job KeyedStore _).Paired .outside (departAll name)
      fun p q => p.Paired q fun a b => b = a := by
  refine (paired_look "members" (.team name) hname).bind ?_
  rintro _ t ⟨rfl, hmembers⟩
  refine paired_depart hname fun id hid => ?_
  obtain ⟨u, hu, rfl⟩ := List.mem_map.1 hid
  exact (hmembers u (List.mem_filter.1 hu).1).1

end Departure

/-- The texts that are passed on in a request have a written form. -/
def UseCase.Written : UseCase → Prop
  | .found t => Writable t.name ∧ ∀ u ∈ t.members, Writable u.id ∧ Writable u.name
  | .team name => Writable name
  | .depart name users => Writable name ∧ ∀ id ∈ users, Writable id
  | .departAll name => Writable name
  | .switch user _ => Writable user
  | .reviewedBy user => Writable user
  | .countsOf user => Writable user
  | .opening id name author => Writable id ∧ Writable name ∧ Writable author
  | .merge id => Writable id
  | .reassign id old => Writable id ∧ Writable old
  | .totals => True

section UseCases

open Job

/-- A reading that is given as a reply. -/
theorem paired_reading {s : Shape} {x : Job KeyedStore (Given s.Answer)}
    {y : Job RelationalStore (Given s.Answer)} (h : x.Paired .outside y s.Shown) :
    (do return Plan.finished ((← x).reply s.reply) : Job KeyedStore _).Paired .outside
      (do return Plan.finished ((← y).reply s.reply) : Job RelationalStore _)
      fun p q => p.Paired q fun a b => b = a.wallOnly := by
  refine h.bind ?_
  rintro _ _ ⟨a, rfl, rfl, -⟩
  refine paired_pure (.inl ⟨_, _, rfl, rfl, ?_⟩)
  cases s <;> rfl

/-- Who asks for something finds the same on both sides, and what is left to do is the same. -/
theorem paired_plan {u : UseCase} (hu : u.Written) :
    (u.plan : Job KeyedStore _).Paired .outside u.plan
      fun p q => p.Paired q fun a b => b = a.wallOnly := by
  cases u with
  | found t =>
    refine (paired_found hu.1 hu.2).map ?_
    rintro _ t rfl
    rfl
  | team name => exact paired_reading (s := .team) (paired_ask (.team name) hu)
  | depart team users =>
    refine (paired_depart hu.1 hu.2).map ?_
    rintro _ d rfl
    rfl
  | departAll team =>
    refine (paired_departAll hu).map ?_
    rintro _ d rfl
    rfl
  | switch user active =>
    refine (paired_switch hu active).map ?_
    rintro _ _ ⟨v, rfl, rfl, -⟩
    rfl
  | reviewedBy user =>
    exact paired_reading (s := .pullRequests)
      ((paired_ask (.user user) hu).bind fun _ _ _ => paired_ask (.reviewedBy user) hu)
  | countsOf user =>
    exact paired_reading (s := .userCounts)
      ((paired_ask (.user user) hu).bind fun _ _ _ => paired_ask (.userCounts user) hu)
  | opening id name author =>
    refine (paired_opening hu.1 hu.2.1 hu.2.2).map ?_
    rintro p _ rfl
    rfl
  | merge id =>
    refine (paired_merge hu).map ?_
    rintro p _ rfl
    rfl
  | reassign id old =>
    refine (paired_reassign hu.1 hu.2).map ?_
    rintro _ _ ⟨r, successor, rfl, rfl⟩
    rfl
  | totals => exact paired_reading (s := .totals) (paired_ask .totals trivial)

end UseCases

mutual
/-- An outcome with dates as a wall clock shows them. -/
def Outcome.wallOnly : Outcome → Outcome
  | .answered a before => .answered (a.map Reply.wallOnly) (Outcome.wallOnlyAny before)
  | .served r mark before => .served r mark (Outcome.wallOnlyAny before)
  | .scripted a steps => .scripted (a.map Reply.wallOnly) (steps.map fun b => b.map Reply.wallOnly)
  | .shown s => .shown (s.map Snapshot.wallOnly)
/-- The outcomes of what was done in between, if anything was. -/
def Outcome.wallOnlyAny : Option (List Outcome) → Option (List Outcome)
  | none => none
  | some os => some (Outcome.wallOnlyAll os)
/-- Outcomes with dates as a wall clock shows them. -/
def Outcome.wallOnlyAll : List Outcome → List Outcome
  | [] => []
  | o :: os => o.wallOnly :: Outcome.wallOnlyAll os
end

section Errands

variable {w : World KeyedStore} {v : World RelationalStore}

/-- What a request cannot tell apart from twin worlds are twin worlds. -/
theorem World.Twin.like {w' : World KeyedStore} {v' : World RelationalStore}
    (h : w.Twin .outside v) (hw : w'.Like w) (hv : v'.Like v) : w'.Twin .outside v' := by
  have hstore : Mirrors w'.store v'.store := by
    rw [hw.store, hv.store]
    exact h.store
  exact ⟨hstore, hstore, hv.draws.trans (h.draws.trans hw.draws.symm),
    hv.clock.trans (h.clock.trans hw.clock.symm),
    hw.faults.trans h.faults.1, hv.faults.trans h.faults.2⟩

/-- Whatever happens before the transaction of a request, if it comes to the same in twin worlds,
then so does the request. -/
theorem interleaved_agrees {u : UseCase} (hu : u.Written) (h : w.Twin .outside v)
    {f : World KeyedStore → List Outcome × World KeyedStore}
    {g : World RelationalStore → List Outcome × World RelationalStore}
    (hfg : ∀ {w v}, w.Twin .outside v →
      (g v).1 = Outcome.wallOnlyAll (f w).1 ∧ (f w).2.Twin .outside (g v).2) :
    (u.interleaved g v).1.1 = (u.interleaved f w).1.1.map Reply.wallOnly ∧
      (u.interleaved g v).1.2 = Outcome.wallOnlyAny (u.interleaved f w).1.2 ∧
      (u.interleaved f w).2.Twin .outside (u.interleaved g v).2 := by
  unfold UseCase.interleaved
  rcases paired_plan hu w v h with
    ⟨p, q, w₁, v₁, hp, hq, h₁, ⟨a, b, rfl, rfl, rfl⟩ | ⟨x, y, rfl, rfl, hxy⟩⟩ |
      ⟨e, w₁, v₁, hp, hq, h₁, -⟩
  · rw [hp, hq]
    exact ⟨rfl, rfl, h₁⟩
  · rw [hp, hq]
    obtain ⟨hbefore, h₂⟩ := hfg h₁
    have hx := Job.sparing_of_no_faults .silentTransaction x (f w₁).2 h₂.faults.1
    have hy := Job.sparing_of_no_faults .silentTransaction y (g v₁).2 h₂.faults.2
    simp only [hx, hy]
    rcases hxy _ _ h₂ with ⟨a, b, w₃, v₃, hx, hy, h₃, rfl⟩ | ⟨e, w₃, v₃, hx, hy, h₃, -⟩
    · rw [hx, hy]
      exact ⟨rfl, congrArg some hbefore, h₃⟩
    · rw [hx, hy]
      exact ⟨rfl, congrArg some hbefore, h₃⟩
  · rw [hp, hq]
    exact ⟨rfl, rfl, h₁⟩

/-- With nothing in between, a request comes to the same in twin worlds. -/
theorem alone_agrees {u : UseCase} (hu : u.Written) (h : w.Twin .outside v) :
    (u.run v).1 = (u.run w).1.map Reply.wallOnly ∧ (u.run w).2.Twin .outside (u.run v).2 := by
  have hfaults : (u.plan w).2.faults = [] ∧ (u.plan v).2.faults = [] := by
    rcases paired_plan hu w v h with ⟨p, q, w₁, v₁, hp, hq, h₁, -⟩ | ⟨e, w₁, v₁, hp, hq, h₁, -⟩ <;>
      rw [hp, hq] <;> exact h₁.faults
  obtain ⟨hanswer, -, h'⟩ := interleaved_agrees hu h (f := fun w => ([], w)) (g := fun v => ([], v))
    fun h => ⟨rfl, h⟩
  rw [← u.interleaved_nothing ([] : List Outcome) w hfaults.1,
    ← u.interleaved_nothing ([] : List Outcome) v hfaults.2]
  exact ⟨hanswer, h'⟩

/-- A single call comes to the same in twin worlds. -/
theorem call_agrees {s : Shape} {c : Call s} (hc : c.Plain) (h : w.Twin .outside v) :
    (answerCall .outside s c v).1 = (answerCall .outside s c w).1.map Reply.wallOnly ∧
      (answerCall .outside s c w).2.Twin .outside (answerCall .outside s c v).2 := by
  obtain ⟨x, y, hx, hy, hmatch⟩ := RelationalStore.on_matched hc h.store w.clock
  rw [← h.clock] at hy
  rcases hmatch with ⟨a, k, r, rfl, rfl, -, hkr⟩ | ⟨e, k, r, rfl, rfl, -⟩
  · obtain ⟨hanswer, hlike⟩ := answerCall_outside c h.faults.1 hx
    obtain ⟨hanswer', hlike'⟩ := answerCall_outside c h.faults.2 hy
    rw [hanswer, hanswer']
    refine ⟨congrArg Except.ok ?_, World.Twin.like (h.keep hkr) hlike hlike'⟩
    cases s <;> rfl
  · obtain ⟨hanswer, hlike⟩ := answerCall_outside c h.faults.1 hx
    obtain ⟨hanswer', hlike'⟩ := answerCall_outside c h.faults.2 hy
    rw [hanswer, hanswer']
    exact ⟨rfl, h.like hlike hlike'⟩

mutual
/-- An errand comes to the same in twin worlds. -/
theorem Errand.run_agrees (m : Errand AnyCall) (hm : m.All UseCase.Written fun c => c.2.Plain)
    {w : World KeyedStore} {v : World RelationalStore} (h : w.Twin .outside v) :
    (m.op.run v).1 = (m.op.run w).1.wallOnly ∧ (m.op.run w).2.Twin .outside (m.op.run v).2 := by
  match m with
  | .alone u =>
    obtain ⟨hanswer, h'⟩ := alone_agrees hm h
    rw [run_alone, run_alone, hanswer]
    exact ⟨rfl, h'⟩
  | .request u before =>
    obtain ⟨hanswer, hbetween, h'⟩ := interleaved_agrees hm.1 h fun h =>
      Errand.runAll_agrees before hm.2 h
    rw [run_request, run_request]
    refine ⟨?_, h'⟩
    simp only [hanswer, hbetween, Outcome.wallOnly]
  | .deed ⟨s, c⟩ =>
    obtain ⟨hanswer, h'⟩ := call_agrees hm h
    rw [run_call, run_call, hanswer]
    exact ⟨rfl, h'⟩
/-- Errands come to the same in twin worlds. -/
theorem Errand.runAll_agrees (ms : List (Errand AnyCall))
    (hms : Errand.AllOf UseCase.Written (fun c => c.2.Plain) ms)
    {w : World KeyedStore} {v : World RelationalStore} (h : w.Twin .outside v) :
    (Op.runAll (Errand.ops ms) v).1 = Outcome.wallOnlyAll (Op.runAll (Errand.ops ms) w).1 ∧
      (Op.runAll (Errand.ops ms) w).2.Twin .outside (Op.runAll (Errand.ops ms) v).2 := by
  match ms with
  | [] => exact ⟨rfl, h⟩
  | m :: ms =>
    obtain ⟨hfirst, h₁⟩ := Errand.run_agrees m hms.1 h
    obtain ⟨hrest, h₂⟩ := Errand.runAll_agrees ms hms.2 h₁
    rw [runAll_cons, runAll_cons]
    refine ⟨?_, h₂⟩
    simp only [hfirst, hrest, Outcome.wallOnlyAll]
end

theorem twin_initial (draws : Draws) (clock : Clock) (level : Level) :
    (World.initial KeyedStore draws clock level).Twin .outside
      (World.initial RelationalStore draws clock level) :=
  ⟨mirrors_empty, mirrors_empty, rfl, rfl, rfl, rfl⟩

end Errands

/-- Requests, with others just before their transactions, and single calls come to the same on both
stores: the same answers and failures one by one, apart from the offsets of dates, and in the end
the same contents, the same draws and the same clock. -/
theorem stores_agree (draws : Draws) (clock : Clock) (level : Level) {ms : List (Errand AnyCall)}
    (hms : Errand.AllOf UseCase.Written (fun c => c.2.Plain) ms) :
    let x := Op.runAll (Errand.ops ms) (World.initial KeyedStore draws clock level)
    let y := Op.runAll (Errand.ops ms) (World.initial RelationalStore draws clock level)
    y.1 = Outcome.wallOnlyAll x.1 ∧
      Gateway.snapshot y.2.store = (Gateway.snapshot x.2.store).map Snapshot.wallOnly ∧
      y.2.draws = x.2.draws ∧ y.2.clock = x.2.clock := by
  intro x y
  obtain ⟨houtcomes, htwin⟩ := Errand.runAll_agrees ms hms (twin_initial draws clock level)
  exact ⟨houtcomes, htwin.store.snapshot, htwin.draws, htwin.clock⟩

/-- A pull request is merged while somebody else merges it, and then it is read and the team
leaves. -/
theorem stores_agree_on_merge :
    let team : Team := ⟨"T", [⟨"a", "Ann", none, true⟩, ⟨"b", "Bob", none, true⟩]⟩
    let ms : List (Errand AnyCall) :=
      [.request (.found team) [], .request (.opening "p" "Title" "a") [],
        .request (.merge "p") [.request (.merge "p") []], .deed ⟨_, .pullRequest "p"⟩,
        .request (.departAll "T") []]
    Errand.AllOf UseCase.Written (fun c => c.2.Plain) ms ∧
      let x := Op.runAll (Errand.ops ms) (World.initial KeyedStore (.ofList []) ⟨0, 1, 0⟩ .info)
      let y := Op.runAll (Errand.ops ms)
        (World.initial RelationalStore (.ofList []) ⟨0, 1, 0⟩ .info)
      y.1 = Outcome.wallOnlyAll x.1 ∧
        Gateway.snapshot y.2.store = (Gateway.snapshot x.2.store).map Snapshot.wallOnly ∧
        y.2.draws = x.2.draws ∧ y.2.clock = x.2.clock := by
  intro team ms
  have hmembers : ∀ u ∈ team.members, Writable u.id ∧ Writable u.name :=
    List.forall_mem_cons.2 ⟨⟨rfl, rfl⟩, List.forall_mem_cons.2 ⟨⟨rfl, rfl⟩, fun _ h => nomatch h⟩⟩
  have hms : Errand.AllOf UseCase.Written (fun c => c.2.Plain) ms :=
    ⟨⟨⟨rfl, hmembers⟩, trivial⟩, ⟨⟨rfl, rfl, rfl⟩, trivial⟩, ⟨rfl, ⟨rfl, trivial⟩, trivial⟩, rfl,
      ⟨rfl, trivial⟩, trivial⟩
  exact ⟨hms, stores_agree (.ofList []) ⟨0, 1, 0⟩ .info hms⟩

/-- Half of a surrogate pair has no written form. Asked for a team of that name, the keyed store
finds none, and the relational store fails before it looks. -/
theorem stores_disagree_on_half :
    let half : Text := ⟨[.half 0]⟩
    let ms : List (Errand AnyCall) := [.deed ⟨_, .team half⟩]
    let x := Op.runAll (Errand.ops ms) (World.initial KeyedStore (.ofList []) ⟨0, 1, 0⟩ .info)
    let y := Op.runAll (Errand.ops ms) (World.initial RelationalStore (.ofList []) ⟨0, 1, 0⟩ .info)
    x.1 = [.answered (.error (.refuse .teamNotFound)) none] ∧
      y.1 = [.answered (.error (.unwritable ⟨0, 0, 0⟩)) none] ∧
      (Failure.refuse .teamNotFound).code? ≠ (Failure.unwritable ⟨0, 0, 0⟩).code? ∧
      y.1 ≠ Outcome.wallOnlyAll x.1 := by
  intro half ms x y
  have hx : x.1 = [.answered (.error (.refuse .teamNotFound)) none] := rfl
  have hy : y.1 = [.answered (.error (.unwritable ⟨0, 0, 0⟩)) none] := rfl
  refine ⟨hx, hy, by decide, ?_⟩
  rw [hx, hy]
  intro h
  cases h

end ReviewDesk
