import ReviewDesk.Proofs.Refusals
import ReviewDesk.Proofs.Scene
import ReviewDesk.Proofs.Store.Counting

/-!
# Requests that take turns

Where there is nothing but requests, each of them is answered in one of three ways: it fails for one
of its reasons and the store holds what it held, it is answered at once, or its undertaking has had
its effect. `Scene.Turn` is a step of such a scene and `Scene.Regular` what all of them preserve, so
that whatever each answer preserves holds of all that were given.
-/
namespace ReviewDesk
namespace Scene

section Steps

variable {σ : Type} [Gateway σ]

/-- What can happen next where there is nothing but requests. -/
inductive Turn : Scene σ → Scene σ → Prop
  | look (x : Scene σ) (u : UseCase) : Turn x (x.look u)
  | carryOut (w : World σ) (before after : List (UseCase × Job σ Reply)) (u : UseCase)
      (rest : Job σ Reply) (answers : List (UseCase × Answer)) :
      Turn ⟨w, before ++ (u, rest) :: after, answers⟩
        ⟨(rest w).2, before ++ after, answers ++ [(u, (rest w).1)]⟩

/-- Any number of turns. -/
abbrev Turns : Scene σ → Scene σ → Prop := Relation.ReflTransGen Turn

/-- A request is answered in a turn. -/
def Gives (x : Scene σ) (u : UseCase) (a : Answer) (y : Scene σ) : Prop :=
  Turn x y ∧ y.answers = x.answers ++ [(u, a)]

theorem covers_turn : Covers (σ := σ) Turn fun _ _ => False where
  look := .look
  carryOut := .carryOut
  call _ _ _ hc := hc.elim

end Steps

open LawfulStore

variable {σ : Type} [Gateway σ] [LawfulStore σ]

/-- How a request is answered, from contents of the store to others, while the clock stands as it
does: it fails for a reason, it is answered at once, or what it undertook has its effect, and the
answer to a merge shows it. -/
inductive Answered (σ : Type) [Gateway σ] [LawfulStore σ] (k : Clock) (c : Contents) (u : UseCase) :
    Contents → Answer → Prop
  | failed {e : Failure} (he : u.Refuses e ∨ u.Unkept σ e ∨ u.Untimed k e) :
    Answered σ k c u c (.error e)
  | atOnce {r : Reply} (hr : u.AtOnce c r) : Answered σ k c u c (.ok r)
  | carriedOut {t : Undertaking} {now : Timestamp} {c' : Contents} {r : Reply}
    (hu : u.Undertakes t) (he : t.Effect (keep σ) now c c')
    (hshown : ∀ id, t = .merge id → c'.ShowsMerged id r) : Answered σ k c u c' (.ok r)

theorem Answered.of_error {k : Clock} {c c' : Contents} {u : UseCase} {e : Failure}
    (h : Answered σ k c u c' (.error e)) : u.Refuses e ∨ u.Unkept σ e ∨ u.Untimed k e := by
  cases h with
  | failed he => exact he

/-- What holds of a scene at all times where there is nothing but requests. -/
structure Regular (x : Scene σ) : Prop where
  orderly : Orderly x.world
  pending : ∀ p ∈ x.pending, ∃ t : Undertaking, p.2 = t.rest ∧
    t.Advised (contents x.world.store) ∧ p.1.Undertakes t

theorem regular_initial (draws : Draws) (clock : Clock) (level : Level) :
    (initial σ draws clock level).Regular :=
  ⟨orderly_initial draws clock level, by simp [initial]⟩

variable {x y : Scene σ}

/-- A scene is regular in an orderly world where nothing is lost, whatever was answered, if what is
in progress was or is advised. -/
theorem Regular.of_orderly (h : x.Regular) {w : World σ} (hw : Orderly w)
    (hp : (contents x.world.store).Precedes (contents w.store))
    {pending : List (UseCase × Job σ Reply)} {answers : List (UseCase × Answer)}
    (hpending : ∀ p ∈ pending, p ∈ x.pending ∨ ∃ t : Undertaking, p.2 = t.rest ∧
      t.Advised (contents w.store) ∧ p.1.Undertakes t) : Regular ⟨w, pending, answers⟩ where
  orderly := hw
  pending p hmem := by
    rcases hpending p hmem with hold | hnew
    · obtain ⟨t, hrest, ha, hu⟩ := h.pending p hold
      exact ⟨t, hrest, ha.mono hp, hu⟩
    · exact hnew

variable [CountingStore σ]

/-- A request that looks around is answered, or is pending from then on. -/
theorem Regular.look (h : x.Regular) (u : UseCase) : (x.look u).Regular ∧
    (((x.look u).answers = x.answers ∧
        contents (x.look u).world.store = contents x.world.store) ∨
      ∃ a, (x.look u).answers = x.answers ++ [(u, a)] ∧
        Answered σ x.world.clock (contents x.world.store) u
          (contents (x.look u).world.store) a) := by
  have ho := h.orderly
  have hold (p : UseCase × Job σ Reply) (hp : p ∈ x.pending) : p ∈ x.pending ∨
      ∃ t : Undertaking, p.2 = t.rest ∧ t.Advised (contents x.world.store) ∧ p.1.Undertakes t :=
    .inl hp
  have hlater {w : World σ} (hlike : w.Like x.world) {answers : List (UseCase × Answer)} :
      Regular ⟨w, x.pending, answers⟩ :=
    h.of_orderly (ho.like hlike) (hlike.store ▸ .refl _) fun p hp => .inl hp
  rcases Undertaking.plan_cases ho.faults ho.sound u with
    ⟨e, w, hplan, hlike⟩ | ⟨r, w, hplan, hlike, hr⟩ | ⟨t, d, hplan, ha, hu⟩
  · rw [look_of_error hplan]
    refine ⟨hlater hlike, .inr ⟨_, rfl, ?_⟩⟩
    rw [hlike.store]
    refine .failed ?_
    rcases ho.plan_fails u e w hplan with he | he
    · exact .inl he
    · exact .inr (.inl he)
  · rw [look_of_finished hplan]
    refine ⟨hlater hlike, .inr ⟨_, rfl, ?_⟩⟩
    rw [hlike.store]
    exact .atOnce hr
  · rw [look_of_pending hplan]
    refine ⟨h.of_orderly (ho.withDraws d) (.refl _) fun p hp => ?_, .inl ⟨rfl, rfl⟩⟩
    rcases List.mem_append.1 hp with hp | hp
    · exact .inl hp
    · obtain rfl := List.mem_singleton.1 hp
      exact .inr ⟨t, rfl, ha, hu⟩

/-- A turn keeps a scene regular. It gives one answer at most, and changes what the store holds only
with the answer. -/
theorem Regular.turn (h : x.Regular) (hxy : Turn x y) : y.Regular ∧
    ((y.answers = x.answers ∧ contents y.world.store = contents x.world.store) ∨
      ∃ u a, y.answers = x.answers ++ [(u, a)] ∧
        Answered σ x.world.clock (contents x.world.store) u (contents y.world.store) a) := by
  cases hxy with
  | look _ u =>
    obtain ⟨hregular, hnone | hone⟩ := h.look u
    · exact ⟨hregular, .inl hnone⟩
    · exact ⟨hregular, .inr ⟨u, hone⟩⟩
  | carryOut w before after u rest answers =>
    obtain ⟨t, hrest, ha, hu⟩ := h.pending (u, rest) (by simp)
    obtain rfl : rest = t.rest := hrest
    have hothers (p : UseCase × Job σ Reply) (hp : p ∈ before ++ after) :
        p ∈ before ++ (u, t.rest) :: after := by
      rcases List.mem_append.1 hp with hp | hp
      · exact List.mem_append_left _ hp
      · exact List.mem_append_right _ (List.mem_cons_of_mem _ hp)
    obtain ⟨-, -, hcases⟩ := h.orderly.rest_cases ha
    obtain ⟨horderly, hprecedes⟩ := h.orderly.rest ha
    refine ⟨h.of_orderly horderly hprecedes fun p hp => .inl (hothers p hp),
      .inr ⟨u, (t.rest w).1, rfl, ?_⟩⟩
    rcases hcases with ⟨r, hr, he⟩ | ⟨e, he, hstore⟩
    · simp only [hr]
      refine .carriedOut hu he fun id ht => ?_
      subst ht
      exact Undertaking.merge_shows h.orderly.faults h.orderly.sound id hr
    · simp only [he, hstore]
      exact .failed (h.orderly.rest_fails ha hu e (t.rest w).2 (Prod.ext he rfl))

/-- What holds of the answers so far and the contents of the store goes on holding if each answer
preserves it. -/
theorem Regular.turns {P : List (UseCase × Answer) → Contents → Prop} (h : x.Regular)
    (hxy : Turns x y) (hx : P x.answers (contents x.world.store))
    (hstep : ∀ answers k c u c' a, Set.InjOn Item.id c.items → Answered σ k c u c' a →
      P answers c → P (answers ++ [(u, a)]) c') :
    y.Regular ∧ P y.answers (contents y.world.store) := by
  induction hxy with
  | refl => exact ⟨h, hx⟩
  | tail _ hturn ih =>
    obtain ⟨hregular, hp⟩ := ih
    obtain ⟨hregular', ⟨hanswers, hcontents⟩ | ⟨u, a, hanswers, ha⟩⟩ := hregular.turn hturn
    · exact ⟨hregular', by rw [hanswers, hcontents]; exact hp⟩
    · refine ⟨hregular', ?_⟩
      rw [hanswers]
      exact hstep _ _ _ u _ a (injOn_item hregular.orderly.sound) ha hp

/-- Turns keep a scene regular. -/
theorem Regular.of_turns (h : x.Regular) (hxy : Turns x y) : y.Regular :=
  (h.turns (P := fun _ _ => True) hxy trivial fun _ _ _ _ _ _ _ _ _ => trivial).1

/-- A scene that follows on the beginning is regular. -/
theorem regular_of_turns {draws : Draws} {clock : Clock} {level : Level}
    (h : Turns (initial σ draws clock level) x) : x.Regular :=
  (regular_initial draws clock level).of_turns h

/-- The failures that a turn answers with have their reasons, and the clock is at fault only if it
stands off the calendar when the turn begins. -/
theorem Regular.gives (h : x.Regular) {u : UseCase} {e : Failure} (hxy : x.Gives u (.error e) y) :
    u.Refuses e ∨ u.Unkept σ e ∨ u.Untimed x.world.clock e := by
  obtain ⟨hturn, hanswers⟩ := hxy
  obtain ⟨-, ⟨hnone, -⟩ | ⟨v, a, hone, ha⟩⟩ := h.turn hturn
  · rw [hnone] at hanswers
    exact absurd hanswers (by simp)
  · obtain ⟨rfl, rfl⟩ : v = u ∧ a = .error e := by
      simpa [hone] using hanswers
    exact ha.of_error

/-- Whatever was answered was answered in some turn. -/
theorem exists_gives (h : x.Regular) (hxy : Turns x y) {u : UseCase} {a : Answer}
    (ha : (u, a) ∈ y.answers) :
    (u, a) ∈ x.answers ∨ ∃ z z', Turns x z ∧ z.Gives u a z' ∧ Turns z' y := by
  induction hxy with
  | refl => exact .inl ha
  | @tail z z' hxz hturn ih =>
    have hlater (hz : (u, a) ∈ z.answers) :
        (u, a) ∈ x.answers ∨ ∃ v v', Turns x v ∧ v.Gives u a v' ∧ Turns v' z' :=
      (ih hz).imp id fun ⟨v, v', hxv, hv, hv'⟩ => ⟨v, v', hxv, hv, hv'.tail hturn⟩
    obtain ⟨-, ⟨hnone, -⟩ | ⟨v, b, hone, -⟩⟩ := (h.of_turns hxz).turn hturn
    · exact hlater (hnone ▸ ha)
    · rw [hone] at ha
      rcases List.mem_append.1 ha with hold | hnew
      · exact hlater hold
      · cases List.mem_singleton.1 hnew
        exact .inr ⟨z, z', hxz, ⟨hturn, hone⟩, .refl⟩

/-- In the beginning nothing is answered, so that every answer is given in a turn of its own. -/
theorem initial_gives {draws : Draws} {clock : Clock} {level : Level}
    (hx : Turns (initial σ draws clock level) x) (u : UseCase) (a : Answer)
    (ha : (u, a) ∈ x.answers) : ∃ y z, Turns (initial σ draws clock level) y ∧ y.Gives u a z ∧
      Turns z x :=
  (exists_gives (regular_initial draws clock level) hx ha).resolve_left nofun

/-- Requests come and go in any order, from an empty store on. Every answer is given in a turn of
its own. On the keyed store each of them fails for one of its own refusals only, unless the turn is
to date something and begins when the clock stands off the calendar; on the relational store it may
also be handed a text without a written form, and fail over that. -/
theorem turns_refuse (draws : Draws) (clock : Clock) (level : Level) :
    (∀ x, Turns (initial KeyedStore draws clock level) x →
      (∀ u a, (u, a) ∈ x.answers → ∃ y z, Turns (initial KeyedStore draws clock level) y ∧
        y.Gives u a z ∧ Turns z x) ∧
      ∀ u e y, x.Gives u (.error e) y → u.Refuses e ∨ u.Untimed x.world.clock e) ∧
    ∀ x, Turns (initial RelationalStore draws clock level) x →
      (∀ u a, (u, a) ∈ x.answers → ∃ y z, Turns (initial RelationalStore draws clock level) y ∧
        y.Gives u a z ∧ Turns z x) ∧
      ∀ u e y, x.Gives u (.error e) y → u.Refuses e ∨ u.Untimed x.world.clock e ∨
        (∃ t ∈ u.handed, ¬ RelationalStore.Writable t) ∧ ∃ gap, e = .unwritable gap := by
  constructor
  · intro x hx
    refine ⟨initial_gives hx, fun u e y hxy => ?_⟩
    rcases (regular_of_turns hx).gives hxy with hr | ⟨⟨t, -, hn⟩, -⟩ | hr
    · exact .inl hr
    · exact absurd trivial hn
    · exact .inr hr
  · intro x hx
    refine ⟨initial_gives hx, fun u e y hxy => ?_⟩
    rcases (regular_of_turns hx).gives hxy with hr | hr | hr
    · exact .inl hr
    · exact .inr (.inr hr)
    · exact .inr (.inl hr)

/-- A reviewer is relieved while somebody merges the pull request, and two found one team at
once. -/
theorem turns_refuse_at_once :
    let team : Team := ⟨"T", [⟨"a", "Ann", none, true⟩, ⟨"b", "Bob", none, true⟩]⟩
    let small : Team := ⟨"S", []⟩
    let start := initial KeyedStore (.ofList []) ⟨0, 1, 0⟩ .info
    let x := start.moved
      [.request (.found team) [], .request (.opening "p" "Title" "a") [],
        .request (.reassign "p" "b") [.request (.merge "p") []]]
    let start' := initial RelationalStore (.ofList []) ⟨0, 1, 0⟩ .info
    let x' := start'.moved [.request (.found small) [.request (.found small) []]]
    (Turns start x ∧ (.reassign "p" "b", .error (.refuse .alreadyMerged)) ∈ x.answers ∧
      (∀ u a, (u, a) ∈ x.answers → ∃ y z, Turns start y ∧ y.Gives u a z ∧ Turns z x) ∧
      ∀ u e y, x.Gives u (.error e) y → u.Refuses e ∨ u.Untimed x.world.clock e) ∧
    Turns start' x' ∧ (.found small, .error (.refuse .teamExists)) ∈ x'.answers ∧
      (∀ u a, (u, a) ∈ x'.answers → ∃ y z, Turns start' y ∧ y.Gives u a z ∧ Turns z x') ∧
      ∀ u e y, x'.Gives u (.error e) y → u.Refuses e ∨ u.Untimed x'.world.clock e ∨
        (∃ t ∈ u.handed, ¬ RelationalStore.Writable t) ∧ ∃ gap, e = .unwritable gap := by
  intro team small start x start' x'
  have hx : Turns start x :=
    covers_turn.run_ops (fun _ h => (regular_of_turns h).orderly.faults) _
      (by simp [Errand.AllOf, Errand.All])
  have hx' : Turns start' x' :=
    covers_turn.run_ops (fun _ h => (regular_of_turns h).orderly.faults) _
      (by simp [Errand.AllOf, Errand.All])
  have hlast : x.answers[3]? = some (.reassign "p" "b", .error (.refuse .alreadyMerged)) := by
    unfold x start moved
    rw [runAll_cons, run_request, runAll_cons, run_request, runAll_cons, run_request,
      funext (runAll_request _), funext runAll_nil]
    unfold team
    cbv
  have hlast' : x'.answers[1]? = some (.found small, .error (.refuse .teamExists)) := by
    unfold x' start' moved
    rw [runAll_cons, run_request, funext (runAll_request _)]
    unfold small
    cbv
  exact ⟨⟨hx, List.mem_of_getElem? hlast, (turns_refuse (.ofList []) ⟨0, 1, 0⟩ .info).1 x hx⟩,
    hx', List.mem_of_getElem? hlast', (turns_refuse (.ofList []) ⟨0, 1, 0⟩ .info).2 x' hx'⟩

/-- Half of a surrogate pair has no written form, and asking the relational store for a team of that
name fails over it. -/
theorem turns_fail_otherwise :
    let half : Text := ⟨[.half 0]⟩
    let start := initial RelationalStore (.ofList []) ⟨0, 1, 0⟩ .info
    let x := start.look (.team half)
    Turns start x ∧ (.team half, .error (.unwritable ⟨0, 0, 0⟩)) ∈ x.answers ∧
      ¬ (UseCase.team half).Refuses (.unwritable ⟨0, 0, 0⟩) := by
  intro half start x
  have hx : x.answers = [(.team half, .error (.unwritable ⟨0, 0, 0⟩))] := rfl
  refine ⟨.single (.look _ _), hx ▸ List.mem_singleton_self _, ?_⟩
  simp [UseCase.Refuses, Failure.refuse]

end Scene
end ReviewDesk
