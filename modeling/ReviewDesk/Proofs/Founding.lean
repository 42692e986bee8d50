import Mathlib
import ReviewDesk.Proofs.Course
import ReviewDesk.Proofs.Rolls
import ReviewDesk.Proofs.Serial
import ReviewDesk.Proofs.Store.Keyed
import ReviewDesk.Proofs.Store.Relational

/-!
# Teams divide the users

A user belongs to the team that the user's own record names, and no list of members is kept. Every
user belongs to one team, and each team is shown as the roll of those who belong to it. Founding a
team puts its members in at once: whoever is named is a member from then on, as named last, and no
member of any other team. Nothing else about the other teams changes.
-/
namespace ReviewDesk

open Job LawfulStore

/-- The last of users with an id. -/
def lastOf (us : List User) (id : Text) : Option User := us.reverse.find? fun u => u.id = id

section Last

variable {us : List User} {id : Text} {u : User}

theorem lastOf_cons (u : User) (us : List User) (id : Text) :
    lastOf (u :: us) id = (lastOf us id).or (if u.id = id then some u else none) := by
  simp only [lastOf, List.reverse_cons, List.find?_append, List.find?_cons, List.find?_nil]
  by_cases h : u.id = id
  · simp [h]
  · simp [h]

theorem lastOf_eq_none_iff : lastOf us id = none ↔ id ∉ us.map User.id := by
  simp [lastOf]

theorem id_of_lastOf (h : lastOf us id = some u) : u.id = id := by
  simpa using List.find?_some h

theorem mem_of_lastOf (h : lastOf us id = some u) : u ∈ us :=
  List.mem_reverse.1 (List.mem_of_find?_eq_some h)

/-- A change that leaves the ids alone leaves the order of the users alone. -/
theorem lastOf_map {f : User → User} (hf : ∀ u, (f u).id = u.id) (us : List User) (id : Text) :
    lastOf (us.map f) id = (lastOf us id).map f := by
  simp only [lastOf, ← List.map_reverse, List.find?_map, Function.comp_def, hf]

end Last

namespace Contents

variable {c : Contents}

/-- Of users with one id that are put in the last stays, in the place of whoever had the id. -/
theorem mem_putUsers_iff (c : Contents) (us : List User) (u : User) :
    u ∈ (c.putUsers us).users ↔
      lastOf us u.id = some u ∨ lastOf us u.id = none ∧ u ∈ c.users := by
  induction us generalizing c with
  | nil => simp [putUsers, lastOf]
  | cons v us ih =>
    have hput : c.putUsers (v :: us) = (c.putUser v).putUsers us := rfl
    rw [hput, ih, mem_putUser, lastOf_cons]
    cases hlast : lastOf us u.id with
    | some x => simp
    | none =>
      by_cases hid : v.id = u.id
      · simp only [hid, if_true, Option.none_or, Option.some.injEq]
        constructor
        · rintro (h | ⟨-, rfl | ⟨-, hne⟩⟩)
          · cases h
          · exact .inl rfl
          · exact absurd rfl hne
        · rintro (rfl | ⟨h, -⟩)
          · exact .inr ⟨trivial, .inl rfl⟩
          · cases h
      · have hne : u ≠ v := fun h => hid (h ▸ rfl)
        simp [hid, hne, Ne.symm hid]

end Contents

namespace Undertaking

open Contents

variable {c c' : Contents} {t : Team} {keep : Timestamp → Timestamp} {now : Timestamp}
    {name : Text} {u : User} {us : List User}

theorem lastOf_membersOf (t : Team) (id : Text) : lastOf (Roster.membersOf t) id =
    (lastOf t.members id).map fun u => { u with team := some t.name } := by
  have hid : ∀ u : User, ({ u with team := some t.name } : User).id = u.id := fun _ => rfl
  exact lastOf_map hid t.members id

/-- Who is there after a team was founded: those named, as named last, and all others as before. -/
theorem Effect.mem_found (he : (found t).Effect keep now c c') : u ∈ c'.users ↔
    (∃ v, lastOf t.members u.id = some v ∧ u = { v with team := some t.name }) ∨
      u ∈ c.users ∧ u.id ∉ t.members.map User.id := by
  obtain ⟨-, rfl⟩ := he
  rw [mem_putUsers_iff, addTeam_users, lastOf_membersOf, Option.map_eq_some_iff,
    Option.map_eq_none_iff, lastOf_eq_none_iff, And.comm (b := u ∈ c.users)]
  simp only [eq_comm]

variable (hteam : ∀ u ∈ c.users, ∃ x ∈ c.teams, u.team = some x)

include hteam

/-- The members of the team are those named. -/
theorem Effect.mem_member (he : (found t).Effect keep now c c') :
    u ∈ c'.users ∧ u.team = some t.name ↔
      ∃ v, lastOf t.members u.id = some v ∧ u = { v with team := some t.name } := by
  rw [he.mem_found]
  constructor
  · rintro ⟨h | ⟨hu, -⟩, hname⟩
    · exact h
    · obtain ⟨x, hx, hux⟩ := hteam u hu
      rw [hname] at hux
      exact absurd (Option.some.inj hux ▸ hx) he.1
  · rintro ⟨v, hv, hu⟩
    exact ⟨.inl ⟨v, hv, hu⟩, by rw [hu]⟩

theorem Effect.staff_found (he : (found t).Effect keep now c c') :
    c'.staff t.name = (t.members.map User.id).toFinset := by
  ext id
  rw [mem_staff, List.mem_toFinset]
  constructor
  · rintro ⟨u, hu, hname, rfl⟩
    obtain ⟨v, hv, -⟩ := (he.mem_member hteam).1 ⟨hu, hname⟩
    exact id_of_lastOf hv ▸ List.mem_map_of_mem (mem_of_lastOf hv)
  · intro hid
    cases hlast : lastOf t.members id with
    | none => exact absurd hid (lastOf_eq_none_iff.1 hlast)
    | some v =>
      obtain rfl := id_of_lastOf hlast
      obtain ⟨hu, hname⟩ :=
        (he.mem_member hteam (u := { v with team := some t.name })).2 ⟨v, hlast, rfl⟩
      exact ⟨_, hu, hname, rfl⟩

omit hteam

/-- Another team keeps those who were not named. -/
theorem Effect.mem_other (he : (found t).Effect keep now c c') (hname : name ≠ t.name) :
    u ∈ c'.users ∧ u.team = some name ↔
      (u ∈ c.users ∧ u.team = some name) ∧ u.id ∉ t.members.map User.id := by
  rw [he.mem_found]
  constructor
  · rintro ⟨⟨v, -, rfl⟩ | ⟨hu, hid⟩, hother⟩
    · exact absurd (Option.some.inj hother).symm hname
    · exact ⟨⟨hu, hother⟩, hid⟩
  · rintro ⟨⟨hu, hother⟩, hid⟩
    exact ⟨.inr ⟨hu, hid⟩, hother⟩

theorem Effect.roll_other (he : (found t).Effect keep now c c') (hname : name ≠ t.name)
    (hinj : Set.InjOn User.id c.users) (h : c.Roll (c.staff name) us) :
    c'.Roll (c'.staff name) (us.filter fun u => u.id ∉ t.members.map User.id) := by
  constructor
  · have hids : (us.filter fun u => u.id ∉ t.members.map User.id).map User.id =
        (us.map User.id).filter fun id => id ∉ t.members.map User.id := by
      rw [List.filter_map]
      rfl
    rw [hids, h.1, Rows.filter_sort]
    congr 1
    ext id
    simp only [Finset.mem_filter, mem_staff, ← and_assoc, he.mem_other hname]
    constructor
    · rintro ⟨⟨u, hu, rfl⟩, hid⟩
      exact ⟨u, ⟨hu, hid⟩, rfl⟩
    · rintro ⟨u, ⟨hu, hid⟩, rfl⟩
      exact ⟨⟨u, hu, rfl⟩, hid⟩
  · intro u hu
    obtain ⟨hmem, hid⟩ := List.mem_filter.1 hu
    exact ((he.mem_other hname).2
      ⟨(h.mem_staff_iff hinj).1 hmem, of_decide_eq_true hid⟩).1

end Undertaking

section Shown

variable {σ : Type} [Gateway σ] {w w' : World σ} {name : Text} {us : List User} {t : Team}

/-- Where a team is asked for, it is shown with these members. -/
def World.Shows (w : World σ) (name : Text) (us : List User) : Prop :=
  (UseCase.team name).run w = (.ok (.team ⟨name, us⟩), w)

variable [LawfulStore σ]

/-- Asking for a team shows its roll, and leaves all as it is. -/
theorem Orderly.run_team (ho : Orderly w) (name : Text) :
    (UseCase.team name).run.Looks w
      (fun r => name ∈ (contents w.store).teams ∧ ∃ us, r = .team ⟨name, us⟩ ∧
        (contents w.store).Roll ((contents w.store).staff name) us)
      (fun _ => name ∉ (contents w.store).teams) := by
  have hask : (ask .outside (.team name) : Job σ (Given Team)).Looks w
      (fun g => name ∈ (contents w.store).teams ∧ ∃ us, g = .own ⟨name, us⟩ ∧
        (contents w.store).Roll ((contents w.store).staff name) us)
      (fun _ => name ∉ (contents w.store).teams) := by
    refine looks_lookup ho.faults (fun _ => rfl) (team_lookup name ho.sound) ?_ fun hn _ _ => hn
    rintro hp ⟨_, us⟩ ⟨rfl, hroll⟩
    exact ⟨hp, us, rfl, hroll⟩
  rcases hask with ⟨_, hx, hp, us, rfl, hroll⟩ | ⟨e, hx, hn⟩
  · refine .inl ⟨.team ⟨name, us⟩, UseCase.run_of_finished ?_, hp, us, rfl, hroll⟩
    rw [UseCase.plan, Roster.team, bind_apply, hx]
    rfl
  · refine .inr ⟨e, UseCase.run_of_error ?_, hn⟩
    rw [UseCase.plan, Roster.team, bind_apply, hx]

/-- What a team is shown with is its roll. -/
theorem Orderly.shows_iff (ho : Orderly w) : w.Shows name us ↔
    name ∈ (contents w.store).teams ∧
      (contents w.store).Roll ((contents w.store).staff name) us := by
  rcases ho.run_team name with ⟨_, hx, hp, us', rfl, hroll⟩ | ⟨e, hx, hn⟩
  · rw [World.Shows, hx]
    constructor
    · intro h
      cases h
      exact ⟨hp, hroll⟩
    · rintro ⟨-, h⟩
      rw [h.unique (injOn_user ho.sound) hroll]
  · rw [World.Shows, hx]
    exact ⟨fun h => (nomatch h), fun h => absurd h.1 hn⟩

theorem Orderly.exists_shows (ho : Orderly w) (hname : name ∈ (contents w.store).teams) :
    ∃ us, w.Shows name us := by
  rcases ho.run_team name with ⟨_, hx, -, us, rfl, -⟩ | ⟨e, -, hn⟩
  · exact ⟨us, hx⟩
  · exact absurd hname hn

/-- Every user is shown in one team, and each team in the ascending order of ids. -/
structure World.Divided (w : World σ) : Prop where
  shown : ∀ name ∈ (contents w.store).teams, ∃ us, w.Shows name us
  ascending : ∀ {name us}, w.Shows name us → us.Pairwise fun u v => u.id < v.id
  stored : ∀ {name us}, w.Shows name us →
    name ∈ (contents w.store).teams ∧ ∀ u ∈ us, u ∈ (contents w.store).users
  belongs : ∀ u ∈ (contents w.store).users, ∃! name, ∃ us, w.Shows name us ∧ u ∈ us

theorem Orderly.divided (ho : Orderly w) : w.Divided where
  shown _ hname := ho.exists_shows hname
  ascending h := (ho.shows_iff.1 h).2.ascending
  stored h := ⟨(ho.shows_iff.1 h).1, (ho.shows_iff.1 h).2.2⟩
  belongs u hu := by
    have hinj : Set.InjOn User.id (contents w.store).users := injOn_user ho.sound
    obtain ⟨name, hname, hteam⟩ := ho.consistent.team_mem u hu
    obtain ⟨us, hus⟩ := ho.exists_shows hname
    refine ⟨name, ⟨us, hus, ((ho.shows_iff.1 hus).2.mem_staff_iff hinj).2 ⟨hu, hteam⟩⟩, ?_⟩
    rintro other ⟨us', hus', hmem⟩
    obtain ⟨-, hother⟩ := ((ho.shows_iff.1 hus').2.mem_staff_iff hinj).1 hmem
    exact Option.some.inj (hother.symm.trans hteam)

/-- What the founding of a team makes of the teams and of everything else. -/
structure World.Founded (w w' : World σ) (t : Team) (us : List User) : Prop where
  /-- The members are those named, each once. -/
  ids_eq : us.map User.id = (t.members.map User.id).toFinset.sort
  /-- Each is as named last, whatever team that names. -/
  members : ∀ u ∈ us, ∃ v, lastOf t.members u.id = some v ∧ u = { v with team := some t.name }
  shown : w'.Shows t.name us
  /-- Every other team loses those named, and nothing else changes. -/
  others : ∀ {name us'}, w.Shows name us' →
    w'.Shows name (us'.filter fun u => u.id ∉ t.members.map User.id)
  teams : (contents w'.store).teams = insert t.name (contents w.store).teams
  items : (contents w'.store).items = (contents w.store).items
  reviewers : (contents w'.store).reviewers = (contents w.store).reviewers

/-- A team is founded: what is answered is what is shown from then on. -/
theorem Orderly.founded (ho : Orderly w) (ho' : Orderly w') {now : Timestamp}
    (he : (Undertaking.found t).Effect (keep σ) now (contents w.store) (contents w'.store))
    (hroll : (contents w'.store).Roll ((contents w'.store).staff t.name) us) :
    w.Founded w' t us := by
  have hteam := ho.consistent.team_mem
  have hteams : (contents w'.store).teams = insert t.name (contents w.store).teams := by
    rw [he.2, Contents.putUsers_teams]
    rfl
  constructor
  case ids_eq => rw [hroll.1, he.staff_found hteam]
  case members =>
    intro u hu
    exact (he.mem_member hteam).1 ((hroll.mem_staff_iff (injOn_user ho'.sound)).1 hu)
  case shown =>
    refine ho'.shows_iff.2 ⟨?_, hroll⟩
    rw [hteams]
    exact Finset.mem_insert_self _ _
  case others =>
    intro name us' h
    obtain ⟨hname, hroll'⟩ := ho.shows_iff.1 h
    have hne : name ≠ t.name := fun hsame => he.1 (hsame ▸ hname)
    refine ho'.shows_iff.2 ⟨?_, he.roll_other hne (injOn_user ho.sound) hroll'⟩
    rw [hteams]
    exact Finset.mem_insert_of_mem hname
  case teams => exact hteams
  case items => rw [he.2, Contents.putUsers_items, Contents.addTeam_items]
  case reviewers => rw [he.2, Contents.putUsers_reviewers, Contents.addTeam_reviewers]

/-- Nothing keeps a team from being founded whose name is free and whose texts the store can
keep. -/
theorem Orderly.found_run (ho : Orderly w) (hname : t.name.isEmpty = false)
    (hfree : t.name ∉ (contents w.store).teams) (hkept : ¬ t.Unkept σ) :
    ∃ us w', (UseCase.found t).run w = (.ok (.team ⟨t.name, us⟩), w') ∧ w.Founded w' t us := by
  have hplan : (UseCase.found t).plan w = (.ok (.pending (Undertaking.found t).rest), w) := by
    rcases Undertaking.plan_found ho.faults ho.sound t with
      ⟨_, hplan, rfl, -⟩ | ⟨e, -, ⟨hempty, -⟩ | ⟨htaken, -⟩ | ⟨hn, -⟩⟩
    · exact hplan
    · rw [hname] at hempty
      cases hempty
    · exact absurd htaken hfree
    · exact absurd (fun h => hn h.1) hkept
  have ho' := (ho.rest (t := .found t) hname).1
  rcases Undertaking.found_settles_shown ho.faults ho.sound t with
    ⟨_, s, _, _, w', hrest, hlike, ⟨us, rfl, hroll⟩, -, he⟩ | ⟨e, _, _, _, -, -, ⟨htaken, -⟩ | ⟨-, hn, -⟩⟩
  · have hstore : w'.store = s := hlike.store
    rw [hrest] at ho'
    rw [← hstore] at hroll he
    exact ⟨us, w', (UseCase.run_of_pending hplan).trans hrest, ho.founded ho' he hroll⟩
  · exact absurd htaken hfree
  · exact absurd hn hkept

/-- In a reachable world the teams divide the users, and every team that may be founded is founded by
moving the users named to it, whatever teams they belonged to. -/
theorem teams_divide_users (hw : Reachable w) : w.Divided ∧
    ∀ t : Team, t.name.isEmpty = false → t.name ∉ (contents w.store).teams → ¬ t.Unkept σ →
      ∃ us w', (UseCase.found t).run w = (.ok (.team ⟨t.name, us⟩), w') ∧ w.Founded w' t us :=
  ⟨hw.orderly.divided, fun _ => hw.orderly.found_run⟩

/-- A second team is founded with a member of the first, named twice, and a new user. -/
theorem teams_divide_users_of_two :
    let first : Team := ⟨"T", [⟨"a", "Ann", none, true⟩, ⟨"b", "Bob", none, true⟩]⟩
    let second : Team := ⟨"U",
      [⟨"b", "Rob", some "T", true⟩, ⟨"c", "Cat", none, true⟩, ⟨"b", "Bert", some "V", false⟩]⟩
    let w := ((UseCase.found first).run (World.initial KeyedStore (.ofList []) ⟨0, 1, 0⟩ .info)).2
    w.Divided ∧ ∃ us w', (UseCase.found second).run w = (.ok (.team ⟨"U", us⟩), w') ∧
      w.Founded w' second us := by
  intro first second w
  have hw : Reachable w := (reachable_initial _ _ _).run _
  have hteams : w.store.teams = ["T"] := by
    unfold w first
    cbv
  have hfree : second.name ∉ (contents w.store).teams := by
    intro h
    have hmem : second.name ∈ w.store.teams := (KeyedStore.mem_contents_teams _ _).1 h
    rw [hteams] at hmem
    exact absurd (List.mem_singleton.1 hmem) (by decide)
  obtain ⟨hdivided, hfound⟩ := teams_divide_users hw
  exact ⟨hdivided, hfound second rfl hfree fun h => h ⟨trivial, fun _ _ => ⟨trivial, trivial⟩⟩⟩

/-- Half of a surrogate pair has no written form, so that the relational store cannot keep it as the
name of a team, though there is no such team. -/
theorem founding_fails_otherwise :
    let half : Text := ⟨[.half 0]⟩
    let x := World.initial RelationalStore (.ofList []) ⟨0, 1, 0⟩ .info
    Reachable x ∧ half.isEmpty = false ∧ half ∉ (contents x.store).teams ∧
      ((UseCase.found ⟨half, []⟩).run x).1 = .error (.unwritable ⟨0, 0, 0⟩) := by
  intro half x
  have hnone : half ∉ (contents x.store).teams := fun h => nomatch List.mem_toFinset.1 h
  exact ⟨reachable_initial _ _ _, rfl, hnone, rfl⟩

end Shown

end ReviewDesk
