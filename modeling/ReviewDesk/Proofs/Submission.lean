import Mathlib
import ReviewDesk.Proofs.Course
import ReviewDesk.Proofs.Store.Keyed
import ReviewDesk.Proofs.Store.Relational

/-!
# Opening a pull request with nothing in between

Looking around settles whether the author is there and whether the id is free, in this order, and
draws the reviewers. With nothing in between the transaction finds the same, so that nothing but the
name of the pull request and the clock can be in the way.
-/
namespace ReviewDesk

open Job LawfulStore

variable {σ : Type} [Gateway σ] [LawfulStore σ] {w : World σ}

namespace Job

variable {α β : Type} {x : Job σ α} {f : α → Job σ β} {v : World σ}

omit [Gateway σ] [LawfulStore σ] in
theorem bind_of_ok {a : α} (h : x w = (.ok a, v)) : (x >>= f) w = f a v := by
  rw [bind_apply, h]

omit [Gateway σ] [LawfulStore σ] in
theorem bind_of_error {e : Failure} (h : x w = (.error e, v)) : (x >>= f) w = (.error e, v) := by
  rw [bind_apply, h]

end Job

namespace Undertaking

/-- Where the author is there and the id is free, the reviewers are drawn. -/
theorem plan_opening_drawn (hw : w.faults = []) (hs : Sound w.store)
    (hc : (contents w.store).Consistent) {id name : Text} {v : User}
    (hv : v ∈ (contents w.store).users)
    (habsent : (ensureAbsent (ask .outside (.pullRequest id)) .pullRequestNotFound
      .pullRequestExists : Job σ Unit) w = (.ok (), w)) :
    ∃ drawn d, selectUpTo ((contents w.store).teammates v.id).sort 2 w.draws = (drawn, d) ∧
      (UseCase.opening id name v.id).plan w =
        (.ok (.pending (opening id name v.id drawn).rest), { w with draws := d }) := by
  rcases hdrawn : selectUpTo ((contents w.store).teammates v.id).sort 2 w.draws with ⟨drawn, d⟩
  refine ⟨drawn, d, hdrawn, ?_⟩
  have huser : ask .outside (.user v.id) w = (.ok (.own v), w) := by
    rcases looks_user hw hs v.id with ⟨_, huser, u, hu, hid, rfl⟩ | ⟨e, -, hn, -⟩
    · rwa [injOn_user hs hu hv hid] at huser
    · exact absurd (((contents w.store).mem_userIds v.id).2 ⟨v, hv, rfl⟩) hn
  have hwriter : (ofExcept ((Given.own v).part "team_name") : Job σ User) w = (.ok v, w) := rfl
  have hteam : Review.teammates .outside v.team v.id w =
      (.ok ((contents w.store).teammates v.id).sort, w) := by
    rcases looks_teammates hw hs v.team v.id with ⟨_, hteam, rfl⟩ | ⟨e, -, hn⟩
    · rw [hteam, Contents.teammates_eq (injOn_user hs) hv]
    · exact absurd (admits_member hs hc hv) hn
  have hchoose : (choose (selectUpTo ((contents w.store).teammates v.id).sort
      Review.reviewerLimit) : Job σ (List Text)) w = (.ok drawn, { w with draws := d }) := by
    have hlimit : (Review.reviewerLimit : Int) = 2 := rfl
    rw [choose, hlimit, hdrawn]
  have hplan : ((UseCase.opening id name v.id).plan : Job σ (Plan σ Reply)) = (do
      return (← Review.opening id name v.id).map Reply.pullRequest) := rfl
  rw [hplan, bind_apply, Review.opening, bind_of_ok huser, bind_of_ok habsent,
    bind_of_ok hwriter, bind_of_ok hteam, bind_of_ok hchoose]
  rfl

/-- What looking around comes to before a pull request is opened. -/
theorem plan_opening_cases (hw : w.faults = []) (hs : Sound w.store)
    (hc : (contents w.store).Consistent) (id name author : Text) :
    let plan := (UseCase.opening id name author).plan w
    (author ∉ (contents w.store).userIds ∧
        ∃ e, plan = (.error e, w) ∧ Denied (Admits σ author) .userNotFound e) ∨
      author ∈ (contents w.store).userIds ∧
        ((id ∈ (contents w.store).itemIds ∧ plan = (.error (.refuse .pullRequestExists), w)) ∨
          (¬ Admits σ id ∧ ∃ gap, plan = (.error (.unwritable gap), w)) ∨
          id ∉ (contents w.store).itemIds ∧ ∃ drawn d,
            selectUpTo ((contents w.store).teammates author).sort 2 w.draws = (drawn, d) ∧
            plan = (.ok (.pending (opening id name author drawn).rest), { w with draws := d })) := by
  intro plan
  rcases looks_user hw hs author with ⟨_, huser, v, hv, rfl, rfl⟩ | ⟨e, huser, hn, he⟩
  · refine .inr ⟨((contents w.store).mem_userIds v.id).2 ⟨v, hv, rfl⟩, ?_⟩
    rcases looks_absent hw hs id with ⟨_, habsent, hnew⟩ | ⟨e, habsent, hbad⟩
    · exact .inr (.inr ⟨hnew, plan_opening_drawn hw hs hc hv habsent⟩)
    · have hopening : Review.opening id name v.id w = (.error e, w) := by
        rw [Review.opening, bind_of_ok huser, bind_of_error habsent]
      rcases hbad with ⟨hid, rfl⟩ | ⟨hn, gap, rfl⟩
      · exact .inl ⟨hid, bind_of_error hopening⟩
      · exact .inr (.inl ⟨hn, gap, bind_of_error hopening⟩)
  · have hopening : Review.opening id name author w = (.error e, w) := by
      rw [Review.opening, bind_of_error huser]
    exact .inl ⟨hn, e, bind_of_error hopening, he⟩

end Undertaking

/-- What opening a pull request makes of the contents of a store, from the people who were drawn,
and how it is shown afterwards. -/
structure Contents.Submitted (c c' : Contents) (i : Item) (drawn : List Text) (p : PullRequest) :
    Prop where
  new : i.id ∉ c.itemIds
  /-- As many as are wanted, and nobody twice. -/
  nodup : drawn.Nodup
  length_eq : drawn.length = min 2 (c.teammates i.author).card
  /-- They are active, in the team of the author, and somebody else. -/
  teammates : ∀ r ∈ drawn, r ≠ i.author ∧ ∃ u ∈ c.users, u.id = r ∧ u.active = true ∧
    ∃ v ∈ c.users, v.id = i.author ∧ v.team.isSome = true ∧ v.team = u.team
  /-- Nothing else is changed. -/
  contents_eq : c' = (c.addItem i).setReviewers i.id drawn.toFinset
  shown : p = i.withReviewers drawn.toFinset.sort
  ascending : p.reviewers.Pairwise (· < ·)

/-- A pull request that is opened is submitted in this way, by whoever was drawn. -/
theorem Undertaking.Effect.submitted {c c' : Contents} (hc : c.Consistent) {id name author : Text}
    {drawn : List Text} {d d' : ReviewDesk.Draws} {keep : Timestamp → Timestamp} {now : Timestamp}
    (he : (Undertaking.opening id name author drawn).Effect keep now c c')
    (hdrawn : selectUpTo (c.teammates author).sort 2 d = (drawn, d')) {j : Item}
    (hj : j ∈ c'.items) (hid : j.id = id) :
    c.Submitted c' ⟨id, name, author, .opened, keep now, none⟩ drawn (c'.shown j) := by
  obtain ⟨hnew, hc'⟩ := he
  obtain ⟨hnodup, hmem, hlength⟩ := drawn_spec 2 hdrawn
  have hreviewers : c'.reviewers id = drawn.toFinset := by
    rw [hc', Contents.setReviewers_self, hc.reviewers_eq_empty hnew, Finset.empty_union]
  have hsame : j = ⟨id, name, author, .opened, keep now, none⟩ := by
    rw [hc'] at hj
    rcases (Contents.mem_addItem c _ j).1 hj with rfl | hj
    · rfl
    · exact absurd ((c.mem_itemIds id).2 ⟨j, hj, hid⟩) hnew
  have hshown : c'.shown j =
      (⟨id, name, author, .opened, keep now, none⟩ : Item).withReviewers drawn.toFinset.sort := by
    rw [Contents.shown, hid, hreviewers, hsame]
  constructor
  case new => exact hnew
  case nodup => exact hnodup
  case length_eq => exact hlength
  case teammates => exact fun r hr => (c.mem_teammates author r).1 (hmem r hr)
  case contents_eq =>
    rw [hc', hc.reviewers_eq_empty hnew, Finset.empty_union]
  case shown => exact hshown
  case ascending =>
    rw [hshown]
    exact (Finset.sortedLT_sort drawn.toFinset).pairwise

/-- A pull request is opened in a reachable world with any draws and nothing in between. Whoever is
not there cannot open one, and after that an id that is taken cannot be used; both are found out
before anything is drawn or the clock is read. Otherwise the pull request is opened, provided that
the store can keep its id and its name and that the clock shows a time of the calendar. -/
theorem opening_alone {w : World σ} (hw : Reachable w) (id name author : Text) (draws : Draws) :
    (author ∉ (contents w.store).userIds → Admits σ author →
      ∃ w', (UseCase.opening id name author).run { w with draws := draws } =
        (.error (.refuse .userNotFound), w') ∧ w'.Like { w with draws := draws }) ∧
    (author ∈ (contents w.store).userIds → id ∈ (contents w.store).itemIds →
      ∃ w', (UseCase.opening id name author).run { w with draws := draws } =
        (.error (.refuse .pullRequestExists), w') ∧ w'.Like { w with draws := draws }) ∧
    (author ∈ (contents w.store).userIds → id ∉ (contents w.store).itemIds → Admits σ id →
      Admits σ name → w.clock.now.isOnCalendar = true →
      ∃ drawn p w',
        selectUpTo ((contents w.store).teammates author).sort 2 draws = (drawn, w'.draws) ∧
        (UseCase.opening id name author).run { w with draws := draws } =
          (.ok (.pullRequest p), w') ∧
        (contents w.store).Submitted (contents w'.store)
          ⟨id, name, author, .opened, keep σ w.clock.now, none⟩ drawn p ∧
        Gateway.pullRequest id w'.store = .ok p ∧ w'.clock = w.clock.after 1) := by
  have ho := hw.orderly.withDraws draws
  rcases Undertaking.plan_opening_cases ho.faults ho.sound ho.consistent id name author with
    ⟨hn, e, hplan, he⟩ | ⟨hauthor, ⟨hid, hplan⟩ | ⟨hn, gap, hplan⟩ |
      ⟨hnew, drawn, d, hdrawn, hplan⟩⟩
  · refine ⟨fun _ hadmits => ⟨_, ?_, .refl _⟩, fun h => absurd h hn, fun h => absurd h hn⟩
    rw [(he.resolve_right fun h => h.1 hadmits).2] at hplan
    exact bind_of_error hplan
  · exact ⟨fun h => absurd hauthor h, fun _ _ => ⟨_, bind_of_error hplan, .refl _⟩,
      fun _ h => absurd hid h⟩
  · refine ⟨fun h => absurd hauthor h, fun _ hid => ?_, fun _ _ h => absurd h hn⟩
    obtain ⟨i, hi, rfl⟩ := ((contents w.store).mem_itemIds id).1 hid
    exact absurd (admits_item ho.sound i hi).1 hn
  · refine ⟨fun h => absurd hauthor h, fun _ h => absurd h hnew, fun _ _ hadmits hname hclock => ?_⟩
    have ho' : Orderly { w with draws := d } := hw.orderly.withDraws d
    have hthere (r : Text) (hr : r ∈ drawn) : r ∈ (contents w.store).userIds :=
      (contents w.store).teammates_subset_userIds author
        ((Undertaking.drawn_spec 2 hdrawn).2.1 r hr)
    rcases Undertaking.opening_settles_shown ho'.faults ho'.sound id name author drawn with
      ⟨r, s, d', n, w', hrest, hlike, ⟨j, hj, hji, rfl⟩, hs', hd, rfl, he⟩ |
        ⟨e, d', n, w', -, -, ⟨-, hoff⟩ | ⟨hid, -⟩ | ⟨hn, -⟩ | ⟨⟨r, hr, hn⟩, -⟩⟩
    · obtain rfl : w'.store = s := hlike.store
      have hdraws : w'.draws = d := hlike.draws.trans hd
      obtain ⟨p, hp, k, hk, hkj, rfl⟩ := (pullRequest_lookup id hs').eq_ok
        (((contents w'.store).mem_itemIds id).2 ⟨j, hj, hji⟩)
      obtain rfl : k = j := injOn_item hs' hk hj (hkj.trans hji.symm)
      refine ⟨drawn, _, w', ?_, (bind_of_ok hplan).trans hrest,
        he.submitted ho.consistent hdrawn hj hji, hp, hlike.clock⟩
      rw [hdraws]
      exact hdrawn
    · exact absurd hclock (Bool.eq_false_iff.1 hoff)
    · exact absurd hid hnew
    · exact absurd ⟨hadmits, hname, admits_user ho.sound author hauthor⟩ hn
    · exact absurd (hthere r hr) hn

/-- Two of three teammates are drawn to review a first pull request. -/
theorem opening_alone_of_team :
    let team : Team := ⟨"T",
      [⟨"a", "Ann", none, true⟩, ⟨"b", "Bob", none, true⟩, ⟨"c", "Cat", none, true⟩,
        ⟨"d", "Dan", none, true⟩]⟩
    let w := ((UseCase.found team).run (World.initial KeyedStore (.ofList []) ⟨0, 1, 0⟩ .info)).2
    ∃ drawn p w',
      selectUpTo ((contents w.store).teammates "a").sort 2 (.ofList [2, 2]) = (drawn, w'.draws) ∧
      (UseCase.opening "p" "Title" "a").run { w with draws := .ofList [2, 2] } =
        (.ok (.pullRequest p), w') ∧
      (contents w.store).Submitted (contents w'.store)
        ⟨"p", "Title", "a", .opened, keep KeyedStore w.clock.now, none⟩ drawn p ∧
      Gateway.pullRequest "p" w'.store = .ok p ∧ w'.clock = w.clock.after 1 := by
  intro team w
  have hw : Reachable w := (reachable_initial _ _ _).run _
  have hitems : w.store.items = [] := by
    unfold w team
    cbv
  have husers : w.store.users.map User.id = (["a", "b", "c", "d"] : List Text) := by
    unfold w team
    cbv
  have hclock : w.clock.now.isOnCalendar = true := by
    unfold w team
    cbv
  have hauthor : ("a" : Text) ∈ (contents w.store).userIds :=
    (KeyedStore.mem_userIds _ _).2 (husers ▸ List.mem_cons_self)
  have hnew : ("p" : Text) ∉ (contents w.store).itemIds := by
    intro h
    have hmem := (KeyedStore.mem_itemIds _ _).1 h
    rw [hitems] at hmem
    cases hmem
  exact (opening_alone hw "p" "Title" "a" (.ofList [2, 2])).2.2 hauthor hnew trivial trivial hclock

/-- Half of a surrogate pair has no written form, and the relational store fails over an author of
that id, who is not there. -/
theorem opening_alone_fails_otherwise :
    let half : Text := ⟨[.half 0]⟩
    let w := World.initial RelationalStore (.ofList []) ⟨0, 1, 0⟩ .info
    Reachable w ∧ half ∉ (contents w.store).userIds ∧
      ((UseCase.opening "p" "Title" half).run w).1 = .error (.unwritable ⟨0, 0, 0⟩) ∧
      Failure.unwritable ⟨0, 0, 0⟩ ≠ .refuse .userNotFound := by
  intro half w
  have hw : Reachable w := reachable_initial _ _ _
  have hnobody : half ∉ (contents w.store).userIds := by
    intro h
    obtain ⟨u, hu, -⟩ := ((contents w.store).mem_userIds half).1 h
    cases List.mem_toFinset.1 hu
  have hother : Failure.unwritable ⟨0, 0, 0⟩ ≠ .refuse .userNotFound := by
    simp [Failure.refuse]
  exact ⟨hw, hnobody, rfl, hother⟩

end ReviewDesk
