import Mathlib
import ReviewDesk.Proofs.Rolls
import ReviewDesk.Proofs.Store.Calling
import ReviewDesk.Proofs.Store.Chronicle

/-!
# Readings agree

What is read at one go is what is read piece by piece: the reviewers of many pull requests, the pull
requests of a reviewer, a team with its members, those of them who are active, and the open pull
requests that they wrote. This takes no more than a sound store, so it holds wherever calls lead,
although nobody vouches there for the authors, the reviewers or the teams that records name.

Main definition: `ReadsAgree` says what the readings of a store have to do with each other.
-/
namespace ReviewDesk

open LawfulStore

/-- The dates of the pull requests that are wanted. -/
def Contents.dates (c : Contents) (wanted : Item → Prop) : Set Timestamp :=
  {t | ∃ i ∈ c.items, wanted i ∧ i.created = t}

/-- Those of saved pull requests that are wanted, with the latest first. -/
def latestOf (saved : List Item) (wanted : Item → Prop) [DecidablePred wanted] : List Item :=
  Rows.latestFirst (fun i => i.created.instant) (saved.filter fun i => wanted i)

/-- A pull request that is dated no earlier than another one. -/
def PullRequest.NotBefore (p q : PullRequest) : Prop :=
  ∃ t u, p.created = some t ∧ q.created = some u ∧ u.instant ≤ t.instant

/-- What is wanted is listed, each pull request once and the latest first. -/
theorem latestOf_listed {saved : List Item} (hn : (saved.map Item.id).Nodup) (wanted : Item → Prop)
    [DecidablePred wanted] (reviewers : Item → List Text) {ps : List PullRequest}
    (hps : ps = (latestOf saved wanted).map fun i => i.withReviewers (reviewers i)) :
    (ps.map PullRequest.id).Nodup ∧ ps.Pairwise PullRequest.NotBefore ∧
      ∀ p, p ∈ ps ↔ ∃ i ∈ saved, wanted i ∧ p = i.withReviewers (reviewers i) := by
  subst hps
  obtain ⟨hnodup, hmem⟩ := Rows.listed_latestFirst Item.id PullRequest.id
    (fun i => i.withReviewers (reviewers i)) (fun _ => rfl) (fun i => i.created.instant)
    (fun i => wanted i) hn
  refine ⟨hnodup, List.pairwise_map.2 ?_, fun p => (hmem p).trans ?_⟩
  · exact (Rows.pairwise_latestFirst _ _).imp fun h => ⟨_, _, rfl, rfl, h⟩
  · simp only [decide_eq_true_eq]

/-- Pull requests that are those wanted, as they are shown, have the dates of those. -/
theorem Contents.dates_of_shown {c : Contents} {wanted : Item → Prop} {listed : PullRequest → Prop}
    (h : ∀ p, listed p ↔ ∃ i ∈ c.items, wanted i ∧ p = c.shown i) :
    {t | ∃ p, listed p ∧ p.created = some t} = c.dates wanted := by
  ext t
  constructor
  · rintro ⟨p, hp, ht⟩
    obtain ⟨i, hi, hwanted, rfl⟩ := (h p).1 hp
    exact ⟨i, hi, hwanted, Option.some.inj ht⟩
  · rintro ⟨i, hi, hwanted, rfl⟩
    exact ⟨c.shown i, (h _).2 ⟨i, hi, hwanted, rfl⟩, rfl⟩

/-- A lawful store that keeps each pull request once and lists those that are wanted wherever their
dates can be put in order. -/
class ReadingStore (σ : Type) [Gateway σ] [LawfulStore σ] [ChronicleStore σ] where
  /-- Dates that the store can put in order. -/
  Orders : Set Timestamp → Prop
  nodup_saved : ∀ {s : σ}, Sound s → ((ChronicleStore.saved s).map Item.id).Nodup
  reviewedBy_eq : ∀ {s : σ} {r : Text}, Sound s → Admits σ r →
    Orders ((contents s).dates fun i => r ∈ (contents s).reviewers i.id) →
      Gateway.reviewedBy r s = .ok ((latestOf (ChronicleStore.saved s) fun i =>
        r ∈ (contents s).reviewers i.id).map (contents s).shown)
  openPullRequests_eq : ∀ {s : σ} {team : Text}, Sound s → Admits σ team →
    Orders ((contents s).dates fun i => i.status = .opened ∧ i.author ∈ (contents s).active team) →
      Gateway.openPullRequests team s = .ok ((latestOf (ChronicleStore.saved s) fun i =>
        i.status = .opened ∧ i.author ∈ (contents s).active team).map fun i => i.withReviewers [])

namespace KeyedStore

/-- Dates that all have an offset, or of which none has one. -/
def Orders (ts : Set Timestamp) : Prop := (∀ t ∈ ts, t.offset.isSome) ∨ ∀ t ∈ ts, t.offset = none

theorem latestFirst_eq {s : KeyedStore} {wanted : Item → Prop} [DecidablePred wanted]
    (h : Orders (s.contents.dates wanted)) :
    latestFirst (s.items.filter fun i => wanted i) = .ok (latestOf s.items wanted) := by
  have hdate {i : Item} (hi : i ∈ s.items.filter fun i => wanted i) :
      i.created ∈ s.contents.dates wanted := by
    obtain ⟨hmem, hwanted⟩ := List.mem_filter.1 hi
    exact ⟨i, (mem_contents_items s i).2 hmem, of_decide_eq_true hwanted, rfl⟩
  have hcomparable : comparable (s.items.filter fun i => wanted i) = true := by
    simp only [comparable, Bool.or_eq_true, List.all_eq_true, Option.isNone_iff_eq_none]
    exact h.imp (fun h i hi => h _ (hdate hi)) fun h i hi => h _ (hdate hi)
  exact if_pos hcomparable

instance : ReadingStore KeyedStore where
  Orders := Orders
  nodup_saved h := h.items
  reviewedBy_eq {s r} h _ ho := by
    show s.reviewedBy r = _
    have hwanted (i : Item) : decide (r ∈ s.assigned i.id) =
        decide (r ∈ s.contents.reviewers i.id) :=
      decide_eq_decide.2 List.mem_toFinset.symm
    have hlatest : latestFirst (s.items.filter fun i => r ∈ s.contents.reviewers i.id) = .ok _ :=
      latestFirst_eq ho
    rw [reviewedBy, List.filter_congr fun i _ => hwanted i, hlatest]
    exact congrArg Except.ok (List.map_congr_left fun i _ => view_eq h i)
  openPullRequests_eq {s team} h _ ho := by
    show s.openPullRequests team = _
    have hlatest : latestFirst (s.items.filter fun i =>
        i.status = .opened ∧ i.author ∈ s.contents.active team) = .ok _ := latestFirst_eq ho
    rw [openPullRequests, List.filter_congr fun i _ => isOpenIn_eq h team i, hlatest]
    rfl

end KeyedStore

namespace RelationalStore

/-- Sorting rows is sorting what they amount to. -/
theorem latestOf_rows (rows : List PullRequestRow) (wanted : Item → Prop) [DecidablePred wanted] :
    latestOf (rows.map item) wanted =
      (Rows.latestFirst PullRequestRow.created (rows.filter fun r => wanted (item r))).map item := by
  rw [latestOf, List.filter_map]
  exact Rows.latestFirst_map PullRequestRow.created _ item fun r _ => by
    simp [item, Timestamp.instant]

instance : ReadingStore RelationalStore where
  Orders _ := True
  nodup_saved {s} h := by
    cases h with | @intro teams users rows pairs _ hrows =>
    show ((rows.map item).map Item.id).Nodup
    rw [List.map_map]
    exact hrows
  reviewedBy_eq {s r} h ha _ := by
    cases h with | @intro teams users rows pairs _ _ hpairs =>
    have hread : reviewedBy ⟨some teams, some users, some rows, some pairs, .going⟩ r = (do
        hand [r]
        return (Rows.latestFirst PullRequestRow.created (rows.filter fun row =>
          (AssignmentRow.mk row.id r) ∈ pairs)).map fun row =>
            row.withReviewers (reviewersIn pairs row.id)) := rfl
    have hwanted (row : PullRequestRow) : decide ((AssignmentRow.mk row.id r) ∈ pairs) =
        decide (r ∈ (contents ⟨some teams, some users, some rows, some pairs, .going⟩).reviewers
          (item row).id) :=
      decide_eq_decide.2 (mem_contents_reviewers _ _).symm
    have hgiven : hand [r] = .ok () := hand_ok (List.forall_mem_singleton.2 ha)
    show reviewedBy ⟨some teams, some users, some rows, some pairs, .going⟩ r =
      .ok ((latestOf (rows.map item) _).map _)
    rw [hread, hgiven, List.filter_congr fun row _ => hwanted row, latestOf_rows, List.map_map]
    refine congrArg Except.ok (List.map_congr_left fun row _ => ?_)
    exact congrArg (item row).withReviewers (reviewersIn_eq hpairs row.id)
  openPullRequests_eq {s team} h ha _ := by
    obtain ⟨ps, hps, -⟩ := (openPullRequests_listing h team).eq_ok ha
    exact hps.trans (congrArg Except.ok (ChronicleStore.openPullRequests_eq h hps))

end RelationalStore

section Agreement

variable {σ : Type} [Gateway σ]

/-- A pull request as the store shows it. -/
def Stored (s : σ) (p : PullRequest) : Prop := Gateway.pullRequest p.id s = .ok p

/-- Somebody is shown among the reviewers of a pull request. -/
def Reviews (s : σ) (r id : Text) : Prop := ∃ rs, Gateway.reviewers id s = .ok rs ∧ r ∈ rs

/-- The readings of a store agree with each other, as far as they are handed texts that it can keep
and list dates that it can put in order. -/
structure ReadsAgree [LawfulStore σ] [ChronicleStore σ] [ReadingStore σ] (s : σ) : Prop where
  /-- The reviewers of many pull requests are those of each of them, known or not. -/
  batch : ∀ ids, (∀ id ∈ ids, Admits σ id) → ∃ b, Gateway.reviewersOf ids s = .ok b ∧
    b.map Prod.fst = ids.eraseDups ∧ ∀ a ∈ b, Gateway.reviewers a.1 s = .ok a.2
  reviewed : ∀ r, Admits σ r →
    ReadingStore.Orders σ {t | ∃ p, (Stored s p ∧ Reviews s r p.id) ∧ p.created = some t} →
    ∃ ps, Gateway.reviewedBy r s = .ok ps ∧ (ps.map PullRequest.id).Nodup ∧
      ps.Pairwise PullRequest.NotBefore ∧ ∀ p, p ∈ ps ↔ Stored s p ∧ Reviews s r p.id
  team : ∀ name ∈ (contents s).teams, ∃ us, Gateway.team name s = .ok ⟨name, us⟩ ∧
    Gateway.members name s = .ok us
  active : ∀ name except, Admits σ name → (∀ id ∈ except, Admits σ id) →
    ∃ us, Gateway.members name s = .ok us ∧ Gateway.activeMembers name except s =
      .ok (us.filter fun u => u.active && some u.id ≠ except)
  opened : ∀ name, Admits σ name → ∃ us, Gateway.activeMembers name none s = .ok us ∧
    (ReadingStore.Orders σ {t | ∃ p, (Stored s p ∧ p.status = .opened ∧
        p.author ∈ us.map User.id) ∧ p.created = some t} →
      ∃ ps, Gateway.openPullRequests name s = .ok ps ∧ (ps.map PullRequest.id).Nodup ∧
        ps.Pairwise PullRequest.NotBefore ∧ ∀ p, p ∈ ps ↔ ∃ q, (Stored s q ∧
          q.status = .opened ∧ q.author ∈ us.map User.id) ∧ p = { q with reviewers := [] })

variable [LawfulStore σ] {s : σ}

/-- What is shown under the id of a pull request is that pull request. -/
theorem stored_iff (hs : Sound s) {p : PullRequest} :
    Stored s p ↔ ∃ i ∈ (contents s).items, p = (contents s).shown i := by
  constructor
  · intro h
    have hlook := pullRequest_lookup p.id hs
    rw [h] at hlook
    rcases hlook with ⟨-, _, hp, i, hi, -, rfl⟩ | ⟨-, -, hfail⟩ | ⟨-, -, gap, hfail⟩
    · exact ⟨i, hi, Except.ok.inj hp⟩
    · cases hfail
    · cases hfail
  · rintro ⟨i, hi, rfl⟩
    have hid : i.id ∈ (contents s).itemIds := ((contents s).mem_itemIds i.id).2 ⟨i, hi, rfl⟩
    obtain ⟨_, hp, j, hj, hji, rfl⟩ := (pullRequest_lookup i.id hs).eq_ok hid
    obtain rfl : j = i := injOn_item hs hj hi hji
    exact hp

/-- The reviewers that are shown are all there are. -/
theorem reviews_iff (hs : Sound s) {r id : Text} (ha : Admits σ id) :
    Reviews s r id ↔ r ∈ (contents s).reviewers id := by
  obtain ⟨rs, hrs, rfl⟩ := (reviewers_listing id hs).eq_ok ha
  rw [← Finset.mem_sort (· ≤ ·)]
  constructor
  · rintro ⟨rs, hrs', hr⟩
    obtain rfl := Except.ok.inj (hrs'.symm.trans hrs)
    exact hr
  · exact fun hr => ⟨_, hrs, hr⟩

/-- The pull requests that somebody reviews, as they are shown. -/
theorem stored_reviews_iff (hs : Sound s) {r : Text} {p : PullRequest} :
    Stored s p ∧ Reviews s r p.id ↔ ∃ i ∈ (contents s).items,
      r ∈ (contents s).reviewers i.id ∧ p = (contents s).shown i := by
  rw [stored_iff hs]
  constructor
  · rintro ⟨⟨i, hi, rfl⟩, hr⟩
    exact ⟨i, hi, (reviews_iff hs (admits_item hs i hi).1).1 hr, rfl⟩
  · rintro ⟨i, hi, hr, rfl⟩
    exact ⟨⟨i, hi, rfl⟩, (reviews_iff hs (admits_item hs i hi).1).2 hr⟩

/-- The open pull requests of some authors, as they are shown. -/
theorem stored_opened_iff (hs : Sound s) {authors : Finset Text} {us : List User}
    (hus : us.map User.id = authors.sort) {p : PullRequest} :
    Stored s p ∧ p.status = .opened ∧ p.author ∈ us.map User.id ↔ ∃ i ∈ (contents s).items,
      (i.status = .opened ∧ i.author ∈ authors) ∧ p = (contents s).shown i := by
  rw [stored_iff hs, hus, Finset.mem_sort]
  constructor
  · rintro ⟨⟨i, hi, rfl⟩, hwanted⟩
    exact ⟨i, hi, hwanted, rfl⟩
  · rintro ⟨i, hi, hwanted, rfl⟩
    exact ⟨⟨i, hi, rfl⟩, hwanted⟩

theorem roll_members_unique (hs : Sound s) {name : Text} {us : List User}
    (h : (contents s).Roll ((contents s).staff name) us) (ha : Admits σ name) :
    Gateway.members name s = .ok us := by
  obtain ⟨us', hread, hroll⟩ := (members_listing name hs).eq_ok ha
  rw [hread, h.unique (injOn_user hs) hroll]

variable [ChronicleStore σ] [ReadingStore σ]

/-- The pull requests of a reviewer are listed. -/
theorem reviewedBy_listed (hs : Sound s) {r : Text} (ha : Admits σ r)
    (ho : ReadingStore.Orders σ ((contents s).dates fun i => r ∈ (contents s).reviewers i.id)) :
    ∃ ps, Gateway.reviewedBy r s = .ok ps ∧ (ps.map PullRequest.id).Nodup ∧
      ps.Pairwise PullRequest.NotBefore ∧ ∀ p, p ∈ ps ↔ ∃ i ∈ (contents s).items,
        r ∈ (contents s).reviewers i.id ∧ p = (contents s).shown i := by
  obtain ⟨hnodup, hlatest, hmem⟩ := latestOf_listed (ReadingStore.nodup_saved hs)
    (fun i => r ∈ (contents s).reviewers i.id) (fun i => ((contents s).shown i).reviewers) rfl
  refine ⟨_, ReadingStore.reviewedBy_eq hs ha ho, hnodup, hlatest, fun p => (hmem p).trans ?_⟩
  simp only [ChronicleStore.mem_saved]
  rfl

/-- The open pull requests that active members of a team wrote are listed. -/
theorem openPullRequests_listed (hs : Sound s) {team : Text} (ha : Admits σ team)
    (ho : ReadingStore.Orders σ ((contents s).dates fun i =>
      i.status = .opened ∧ i.author ∈ (contents s).active team)) :
    ∃ ps, Gateway.openPullRequests team s = .ok ps ∧ (ps.map PullRequest.id).Nodup ∧
      ps.Pairwise PullRequest.NotBefore ∧ ∀ p, p ∈ ps ↔ ∃ i ∈ (contents s).items,
        (i.status = .opened ∧ i.author ∈ (contents s).active team) ∧ p = i.withReviewers [] := by
  obtain ⟨hnodup, hlatest, hmem⟩ := latestOf_listed (ReadingStore.nodup_saved hs)
    (fun i => i.status = .opened ∧ i.author ∈ (contents s).active team) (fun _ => []) rfl
  refine ⟨_, ReadingStore.openPullRequests_eq hs ha ho, hnodup, hlatest,
    fun p => (hmem p).trans ?_⟩
  simp only [ChronicleStore.mem_saved]

/-- Each reading shows what the contents hold, so that two of them agree. -/
theorem readsAgree_of_sound (hs : Sound s) : ReadsAgree s := by
  constructor
  case batch =>
    intro ids ha
    obtain ⟨b, hb, rfl⟩ := (reviewersOf_listing ids hs).eq_ok ha
    refine ⟨_, hb, ?_, ?_⟩
    · rw [List.map_map]
      exact List.map_id _
    · intro a hmem
      obtain ⟨id, hid, rfl⟩ := List.mem_map.1 hmem
      obtain ⟨rs, hrs, rfl⟩ := (reviewers_listing id hs).eq_ok (ha id (List.mem_eraseDups.1 hid))
      exact hrs
  case reviewed =>
    intro r ha ho
    rw [Contents.dates_of_shown fun p => stored_reviews_iff hs] at ho
    obtain ⟨ps, hread, hnodup, hlatest, hmem⟩ := reviewedBy_listed hs ha ho
    exact ⟨ps, hread, hnodup, hlatest, fun p => (hmem p).trans (stored_reviews_iff hs).symm⟩
  case team =>
    intro name hname
    obtain ⟨⟨_, us⟩, hread, rfl, hroll⟩ := (team_lookup name hs).eq_ok hname
    exact ⟨us, hread, roll_members_unique hs hroll (admits_team hs _ hname)⟩
  case active =>
    intro name except ha hexcept
    obtain ⟨us, hread, hroll⟩ := (members_listing name hs).eq_ok ha
    obtain ⟨active, hactive, hroll'⟩ := (activeMembers_listing name except hs).eq_ok ⟨ha, hexcept⟩
    refine ⟨us, hread, ?_⟩
    rw [hactive, (hroll.filter_active (injOn_user hs) except).unique (injOn_user hs) hroll']
  case opened =>
    intro name ha
    obtain ⟨us, hread, hroll⟩ := (activeMembers_listing name none hs).eq_ok ⟨ha, nofun⟩
    have hids : us.map User.id = ((contents s).active name).sort := by
      rw [hroll.1, Finset.filter_true_of_mem fun _ _ => nofun]
    refine ⟨us, hread, fun ho => ?_⟩
    rw [Contents.dates_of_shown fun p => stored_opened_iff hs hids] at ho
    obtain ⟨ps, hopened, hnodup, hlatest, hmem⟩ := openPullRequests_listed hs ha ho
    refine ⟨ps, hopened, hnodup, hlatest, fun p => (hmem p).trans ?_⟩
    simp only [stored_opened_iff hs hids]
    constructor
    · rintro ⟨i, hi, hwanted, rfl⟩
      exact ⟨_, ⟨i, hi, hwanted, rfl⟩, rfl⟩
    · rintro ⟨_, ⟨i, hi, hwanted, rfl⟩, rfl⟩
      exact ⟨i, hi, hwanted, rfl⟩

variable [ResilientStore σ] [ClosedStore σ] {w : World σ}

/-- Wherever calls lead, the readings of the committed store agree, and those inside a transaction
until it breaks off, which it does not before an insertion has failed in it. -/
theorem readings_agree (hw : w.Called) :
    ReadsAgree w.store ∧ ∀ x, w.work = some x → (BrokenOff x ∨ ReadsAgree x) ∧
      (w.Unbroken → ReadsAgree x) := by
  refine ⟨readsAgree_of_sound hw.intact.committed, fun x hx => ⟨?_, fun hunbroken => ?_⟩⟩
  · rcases hw.intact.working x hx with hs | hb
    · exact .inr (readsAgree_of_sound hs)
    · exact .inl hb
  · exact readsAgree_of_sound (hunbroken.sound x hx)

end Agreement

/-- Users of no team and of one that is not there, a pull request of an author whom nobody knows, and
the reviewers of one that was never saved. -/
theorem readings_agree_of_orphans :
    let ops : List Op := [.call _ (.saveTeam ⟨"T", []⟩),
      .call _ (.putUsers [⟨"a", "Ann", some "T", true⟩, ⟨"b", "Bob", none, true⟩,
        ⟨"c", "Cat", some "U", false⟩]),
      .call _ (.savePullRequest ⟨"p", "Title", "a", .opened, [], some ⟨1, none⟩, none⟩),
      .call _ (.savePullRequest ⟨"q", "Title", "x", .opened, [], some ⟨2, some 3⟩, none⟩),
      .script false .null [.call .inside _ (.assign "p" ["b", "c"]) false,
        .call .inside _ (.assign "o" ["b"]) false]]
    let w := (Op.runAll ops (World.initial RelationalStore (.ofList []) ⟨0, 1, 0⟩ .info)).2
    let v := (answerCall .inside _ (.removeReviewer "p" "c") w.begin).2
    Gateway.reviewersOf ["p", "o", "p"] w.store = .ok [("p", ["b", "c"]), ("o", ["b"])] ∧
      w.Called ∧ ReadsAgree w.store ∧ v.Unbroken ∧ ∃ x, v.work = some x ∧ ReadsAgree x := by
  intro ops w v
  have hops : ∀ op ∈ ops, op.Calls := by
    simp [ops, Op.Calls]
  have hw : w.Called := (World.Called.initial _ _ _).runAll hops
  have hv : v.Unbroken := (World.Unbroken.begin hw).call .inside _ fun _ hinserts => hinserts.elim
  let kept (pairs : List AssignmentRow) : RelationalStore := ⟨some ["T"],
    some [⟨"a", "Ann", some "T", true⟩, ⟨"b", "Bob", none, true⟩, ⟨"c", "Cat", some "U", false⟩],
    some [⟨"p", "Title", "a", .opened, 1, none⟩, ⟨"q", "Title", "x", .opened, 2, none⟩],
    some pairs, .going⟩
  have hstore : w.store = kept [⟨"p", "b"⟩, ⟨"p", "c"⟩, ⟨"o", "b"⟩] := by
    unfold w ops kept
    decide +kernel
  have hwork : v.work = some (kept [⟨"p", "b"⟩, ⟨"o", "b"⟩]) := by
    unfold v w ops kept
    decide +kernel
  have hread : Gateway.reviewersOf ["p", "o", "p"] w.store =
      .ok [("p", ["b", "c"]), ("o", ["b"])] := by
    rw [hstore]
    cbv
  exact ⟨hread, hw, (readings_agree hw).1, hv, _, hwork,
    ((readings_agree hv.called).2 _ hwork).2 hv⟩

/-- Where one date has an offset and another has none, the keyed store cannot list the pull requests
of a reviewer, although it shows each of them and its reviewers. The relational store cannot be asked
for the reviewers of a pull request whose id has no written form, and tells nothing after a transaction
has broken off. -/
theorem readings_fail_otherwise :
    let p : PullRequest := ⟨"p", "Title", "a", .opened, ["b"], some ⟨1, none⟩, none⟩
    let q : PullRequest := ⟨"q", "Title", "a", .opened, ["b"], some ⟨0, some 0⟩, none⟩
    let ops : List Op := [.call _ (.savePullRequest p), .call _ (.assign "p" ["b"]),
      .call _ (.savePullRequest q), .call _ (.assign "q" ["b"])]
    let w := (Op.runAll ops (World.initial KeyedStore (.ofList []) ⟨0, 1, 0⟩ .info)).2
    let x := World.initial RelationalStore (.ofList []) ⟨0, 1, 0⟩ .info
    let v := (answerCall .inside _ (.saveTeam ⟨"T", []⟩)
      (answerCall .inside _ (.saveTeam ⟨"T", []⟩) x.begin).2).2
    (w.Called ∧ Stored w.store p ∧ Reviews w.store "b" "p" ∧ Stored w.store q ∧
      Reviews w.store "b" "q" ∧ Gateway.reviewedBy "b" w.store = .error .incomparable) ∧
    (x.Called ∧ Gateway.reviewersOf [⟨[.half 0]⟩] x.store = .error (.unwritable ⟨0, 0, 0⟩)) ∧
    (v.Called ∧ Gateway.reviewersOf ["p"] (v.seen .inside) =
      .error (.storageBecause "get reviewers batch" (.brokenOff none))) := by
  intro p q ops w x v
  have hops : ∀ op ∈ ops, op.Calls := by
    simp [ops, Op.Calls]
  have hw : w.Called := (World.Called.initial _ _ _).runAll hops
  have hx : x.Called := .initial _ _ _
  have hv : v.Called := (hx.begin.call .inside _).call .inside _
  refine ⟨⟨hw, ?_⟩, ⟨hx, rfl⟩, hv, ?_⟩
  · have hstore : w.store = ⟨[], [], [⟨"p", "Title", "a", .opened, ⟨1, none⟩, none⟩,
        ⟨"q", "Title", "a", .opened, ⟨0, some 0⟩, none⟩], [("p", ["b"]), ("q", ["b"])]⟩ := by
      unfold w ops p q
      decide +kernel
    rw [hstore]
    refine ⟨?_, ⟨["b"], ?_, List.mem_singleton_self _⟩, ?_, ⟨["b"], ?_, List.mem_singleton_self _⟩,
      rfl⟩
    · unfold Stored p
      cbv
    · cbv
    · unfold Stored q
      cbv
    · cbv
  · unfold v x
    cbv

end ReviewDesk
