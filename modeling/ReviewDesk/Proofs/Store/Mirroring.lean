import ReviewDesk.Proofs.Store.Mirror
import ReviewDesk.Proofs.Transaction

/-!
# Calls on a store and on its mirror

A call on records and on the tables that mirror them comes to the same answer, apart from the
offsets of dates, or to the same failure, and after a call that succeeds the tables mirror the
records again. The texts that a call passes on must have a written form, and the dates must be in
universal time.
-/
namespace ReviewDesk

open RelationalStore (Writable)

/-- The texts in a pull request that are handed to statements can be written. -/
def PullRequest.Written (p : PullRequest) : Prop :=
  Writable p.id ∧ Writable p.name ∧ Writable p.author

/-- Tables that mirror records. -/
def Mirrors (k : KeyedStore) (r : RelationalStore) : Prop :=
  ∃ pairs, k.Plain ∧ k.PairedBy pairs ∧ r = k.tables pairs

namespace Shape

/-- An answer with dates as a wall clock shows them. -/
def wallOnly : (s : Shape) → s.Answer → s.Answer
  | .pullRequest, p => p.wallOnly
  | .pullRequests, ps => ps.map PullRequest.wallOnly
  | _, a => a

/-- The texts in an answer that may be handed to statements afterwards can be written. -/
def Written : (s : Shape) → s.Answer → Prop
  | .team, t => ∀ u ∈ t.members, u.Written
  | .user, u => u.Written
  | .users, us => ∀ u ∈ us, u.Written
  | .pullRequest, p => p.Written
  | .pullRequests, ps => ∀ p ∈ ps, p.Written
  | _, _ => True

/-- What an operation comes to on records and on their mirror. -/
def Matched (s : Shape) (x : Except Failure s.Answer × KeyedStore)
    (y : Except Failure s.Answer × RelationalStore) : Prop :=
  (∃ a k r, x = (.ok a, k) ∧ y = (.ok (s.wallOnly a), r) ∧ s.Written a ∧ Mirrors k r) ∨
    ∃ e k r, x = (.error e, k) ∧ y = (.error e, r) ∧ e.Plain

end Shape

/-- What a call passes on can be written, dates are in universal time, and a pull request is saved
with a date. -/
def Call.Plain {s : Shape} : Call s → Prop
  | .team name => Writable name
  | .saveTeam t => Writable t.name
  | .user id => Writable id
  | .members name => Writable name
  | .activeMembers name except => Writable name ∧ ∀ id ∈ except, Writable id
  | .putUsers us => ∀ u ∈ us, u.Written ∧ Writable u.name
  | .setActivity us => ∀ u ∈ us, Writable u.id
  | .deactivate ids => ∀ id ∈ ids, Writable id
  | .userCounts id => Writable id
  | .savePullRequest p => p.Written ∧ ∃ t, p.created = some t ∧ t.offset = some 0
  | .pullRequest id => Writable id
  | .updatePullRequest p => p.Written
  | .reviewedBy id => Writable id
  | .reviewers id => Writable id
  | .assign id ids => Writable id ∧ ∀ r ∈ ids, Writable r
  | .replaceReviewer id old new => Writable id ∧ Writable old ∧ Writable new
  | .removeReviewer id old => Writable id ∧ Writable old
  | .totals => True
  | .openPullRequests name => Writable name
  | .reviewersOf ids => ∀ id ∈ ids, Writable id

section Answers

variable {k : KeyedStore}

theorem written_sortByKey (hk : k.Plain) (p : User → Bool) :
    ∀ u ∈ Rows.sortByKey User.id (k.users.filter p), u.Written := by
  intro u hu
  have hmem : u ∈ k.users := (List.mem_filter.1 ((Rows.mem_sortByKey User.id _ u).1 hu)).1
  exact hk.plain.users u ((k.mem_contents_users u).2 hmem)

theorem written_members (hk : k.Plain) (team : Text) : ∀ u ∈ k.members team, u.Written :=
  written_sortByKey hk _

theorem written_withReviewers (hk : k.Plain) {i : Item} (hi : i ∈ k.items) (rs : List Text) :
    (i.withReviewers rs).Written :=
  hk.plain.items i ((k.mem_contents_items i).2 hi)

/-- Pull requests that are listed stem from records. -/
theorem written_latestFirst (hk : k.Plain) (p : Item → Bool) (rs : Item → List Text) :
    ∀ q ∈ (Rows.latestFirst (fun i => i.created.instant) (k.items.filter p)).map
      (fun i => i.withReviewers (rs i)), q.Written := by
  intro q hq
  obtain ⟨i, hi, rfl⟩ := List.mem_map.1 hq
  exact written_withReviewers hk (List.mem_filter.1 (List.mem_mergeSort.1 hi)).1 (rs i)

end Answers

namespace RelationalStore

open KeyedStore (tables)

variable {k : KeyedStore} {pairs : List AssignmentRow}

section Statements

/-- A statement that is handed texts with a written form changes its table. -/
theorem change_ok {α : Type} {s : RelationalStore} (hs : s.progress = .going) (operation : Text)
    (rows : List α) {texts : List Text} (h : ∀ t ∈ texts, Writable t)
    (f : List α → RelationalStore) : s.change operation (some rows) texts f = (.ok (), f rows) := by
  rcases change_cases hs operation rows texts f with ⟨-, s', hx, rfl⟩ | ⟨hn, -⟩
  · exact hx
  · exact absurd h hn

theorem insertion_ok {α : Type} {s : RelationalStore} (hs : s.progress = .going) (operation : Text)
    (rows : List α) {texts : List Text} (h : ∀ t ∈ texts, Writable t) (taken : List α → Bool)
    (ht : taken rows = false) (refusal : Refusal) (f : List α → RelationalStore) :
    s.insertion operation (some rows) texts taken refusal f = (.ok (), f rows) := by
  rcases insertion_new hs operation rows texts taken ht refusal f with ⟨-, s', hx, rfl⟩ | ⟨hn, -⟩
  · exact hx
  · exact absurd h hn

theorem insertion_refused {α : Type} {s : RelationalStore} (hs : s.progress = .going)
    (operation : Text) (rows : List α) {texts : List Text} (h : ∀ t ∈ texts, Writable t)
    (taken : List α → Bool) (ht : taken rows = true) (refusal : Refusal)
    (f : List α → RelationalStore) :
    ∃ s', s.insertion operation (some rows) texts taken refusal f =
      (.error (.refuse refusal), s') := by
  rcases insertion_taken hs operation rows texts taken ht refusal f with
    ⟨e, s', hx, ⟨-, rfl⟩ | ⟨hn, -⟩⟩
  · exact ⟨s', hx⟩
  · exact absurd h hn

end Statements

section Changes

/-- A change that succeeds on both sides. -/
theorem matched_of_tables {k' : KeyedStore} {pairs' : List AssignmentRow}
    {y : Except Failure Unit × RelationalStore} (hy : y = (.ok (), tables k' pairs'))
    (hplain : k'.Plain) (hp : k'.PairedBy pairs') : Shape.nothing.Matched (.ok (), k') y :=
  .inl ⟨(), k', tables k' pairs', rfl, hy, trivial, pairs', hplain, hp, rfl⟩

theorem saveTeam_matched (hk : k.Plain) (hp : k.PairedBy pairs) {t : Team} (ht : Writable t.name) :
    Shape.nothing.Matched (k.saveTeam t) ((tables k pairs).saveTeam t) := by
  have htexts : ∀ x ∈ [t.name], Writable x := by simpa using ht
  let taken (teams : List Text) : Bool := decide (t.name ∈ teams)
  let saved (teams : List Text) : RelationalStore :=
    { tables k pairs with teams := some (teams ++ [t.name]) }
  by_cases htaken : t.name ∈ k.teams
  · obtain ⟨r, hr⟩ := insertion_refused (s := tables k pairs) rfl "save team" k.teams htexts taken
      (decide_eq_true htaken) .teamExists saved
    exact .inr ⟨.refuse .teamExists, k, r, if_pos htaken, hr, trivial⟩
  · have hr := insertion_ok (s := tables k pairs) rfl "save team" k.teams htexts taken
      (decide_eq_false htaken) .teamExists saved
    have hplain : ({ k with teams := k.teams ++ [t.name] } : KeyedStore).Plain :=
      ⟨⟨hk.sound.users, hk.sound.items, hk.sound.keys, hk.sound.sets⟩,
        ⟨hk.plain.users, hk.plain.items, hk.plain.universal⟩⟩
    exact .inl ⟨(), _, _, if_neg htaken, hr, trivial, pairs, hplain, ⟨hp.nodup, hp.mem_iff⟩, rfl⟩

theorem putUsers_tables {us : List User} (hus : ∀ u ∈ us, u.Written ∧ Writable u.name) :
    (tables k pairs).putUsers us = (.ok (), tables (k.putUsers us) pairs) := by
  have htexts : ∀ t ∈ us.flatMap fun u => u.id :: u.name :: u.team.toList, Writable t := by
    intro t ht
    obtain ⟨u, hu, htu⟩ := List.mem_flatMap.1 ht
    obtain ⟨⟨hid, hteam⟩, hname⟩ := hus u hu
    rcases List.mem_cons.1 htu with rfl | htu
    · exact hid
    · rcases List.mem_cons.1 htu with rfl | htu
      · exact hname
      · exact hteam t (Option.mem_toList.1 htu)
  have hrows : us.foldl (fun rows u => Rows.upsert UserRow.id (.ofUser u) rows)
      (k.users.map UserRow.ofUser) = (k.putUsers us).users.map UserRow.ofUser :=
    List.foldl_hom (List.map UserRow.ofUser) fun rows u =>
      (map_upsert User.id UserRow.id UserRow.ofUser (fun _ => rfl) u rows).symm
  cases us with
  | nil => rfl
  | cons u us =>
    let put (rows : List UserRow) : List UserRow :=
      (u :: us).foldl (fun rows u => Rows.upsert UserRow.id (.ofUser u) rows) rows
    have hchange := change_ok (s := tables k pairs) rfl "bulk save/update users"
      (k.users.map UserRow.ofUser) htexts fun rows =>
        { tables k pairs with users := some (put rows) }
    simp only [put, hrows] at hchange
    exact hchange

theorem putUsers_matched (hk : k.Plain) (hp : k.PairedBy pairs) {us : List User}
    (hus : ∀ u ∈ us, u.Written ∧ Writable u.name) :
    Shape.nothing.Matched (.ok (), k.putUsers us) ((tables k pairs).putUsers us) := by
  obtain ⟨hsound, hcontents⟩ := KeyedStore.putUsers_sound hk.sound us
  have hplain : (k.putUsers us).Plain :=
    ⟨hsound, hcontents ▸ hk.plain.putUsers fun u hu => (hus u hu).1⟩
  exact matched_of_tables (putUsers_tables hus) hplain ⟨hp.nodup, hp.mem_iff⟩

theorem setActivity_tables {us : List User} (hus : ∀ u ∈ us, Writable u.id) :
    (tables k pairs).setActivity us = (.ok (), tables (k.setActivity us) pairs) := by
  induction us generalizing k with
  | nil => rfl
  | cons u us ih =>
    obtain ⟨hid, hrest⟩ := List.forall_mem_cons.1 hus
    let users := Rows.modify User.id u.id (fun v => { v with active := u.active }) k.users
    let changed : KeyedStore := { k with users := users }
    have hrows : Rows.modify UserRow.id u.id (fun r => { r with active := u.active })
        (k.users.map UserRow.ofUser) = users.map UserRow.ofUser :=
      (Rows.map_modify User.id UserRow.id UserRow.ofUser (fun _ => rfl) _ _ (fun _ => rfl) u.id
        k.users).symm
    let switch (rows : List UserRow) : List UserRow :=
      Rows.modify UserRow.id u.id (fun r => { r with active := u.active }) rows
    have hchange : (tables k pairs).change "update many users" (tables k pairs).users [u.id]
        (fun rows => { tables k pairs with users := some (switch rows) }) =
        (.ok (), tables changed pairs) := by
      have hswitched := change_ok (s := tables k pairs) rfl "update many users"
        (k.users.map UserRow.ofUser) (by simpa using hid : ∀ t ∈ [u.id], Writable t)
        fun rows => { tables k pairs with users := some (switch rows) }
      simp only [switch, hrows] at hswitched
      exact hswitched
    rw [RelationalStore.setActivity]
    simp only [switch] at hchange
    simp only [hchange]
    exact ih hrest

theorem setActivity_matched (hk : k.Plain) (hp : k.PairedBy pairs) {us : List User}
    (hus : ∀ u ∈ us, Writable u.id) :
    Shape.nothing.Matched (.ok (), k.setActivity us) ((tables k pairs).setActivity us) := by
  obtain ⟨hsound, hcontents⟩ := KeyedStore.setActivity_sound hk.sound us
  have hplain : (k.setActivity us).Plain := ⟨hsound, hcontents ▸ hk.plain.switches us⟩
  exact matched_of_tables (setActivity_tables hus) hplain ⟨hp.nodup, hp.mem_iff⟩

theorem deactivate_tables {ids : List Text} (hids : ∀ id ∈ ids, Writable id) :
    (tables k pairs).deactivate ids = (.ok (), tables (k.deactivate ids) pairs) := by
  let change (r : UserRow) : UserRow :=
    if r.id ∈ ids ∧ r.active then { r with active := false } else r
  have hrows : (k.users.map UserRow.ofUser).map change =
      (k.deactivate ids).users.map UserRow.ofUser := by
    simp only [KeyedStore.deactivate, List.map_map]
    refine List.map_congr_left fun u _ => ?_
    by_cases hid : u.id ∈ ids <;> cases ha : u.active <;>
      simp [change, UserRow.ofUser, hid, ha]
  unfold deactivate
  split
  · next he =>
    obtain rfl := List.isEmpty_iff.1 he
    simp [KeyedStore.deactivate]
  · have hchange := change_ok (s := tables k pairs) rfl "deactivate many users"
      (k.users.map UserRow.ofUser) hids fun rows =>
        { tables k pairs with users := some (rows.map change) }
    rw [hrows] at hchange
    exact hchange

theorem deactivate_matched (hk : k.Plain) (hp : k.PairedBy pairs) {ids : List Text}
    (hids : ∀ id ∈ ids, Writable id) :
    Shape.nothing.Matched (.ok (), k.deactivate ids) ((tables k pairs).deactivate ids) := by
  obtain ⟨hsound, hcontents⟩ := KeyedStore.deactivate_sound hk.sound ids
  have hplain : (k.deactivate ids).Plain := ⟨hsound, hcontents ▸ hk.plain.switch _ _⟩
  exact matched_of_tables (deactivate_tables hids) hplain ⟨hp.nodup, hp.mem_iff⟩

theorem savePullRequest_matched (hk : k.Plain) (hp : k.PairedBy pairs) {p : PullRequest}
    {t : Timestamp} (hw : p.Written) (ht : p.created = some t) (hoffset : t.offset = some 0)
    (c : Clock) : ∃ x y, k.savePullRequest p c = (x, c) ∧
      (tables k pairs).savePullRequest p c = (y, c) ∧ Shape.nothing.Matched x y := by
  obtain ⟨hid, hname, hauthor⟩ := hw
  have htexts : ∀ x ∈ [p.id, p.name, p.author], Writable x := by
    simpa using ⟨hid, hname, hauthor⟩
  let rows := k.items.map PullRequestRow.ofItem
  let taken (rows : List PullRequestRow) : Bool := (Rows.find? PullRequestRow.id p.id rows).isSome
  let item : Item := ⟨p.id, p.name, p.author, p.status, t, p.merged⟩
  let saved (rows : List PullRequestRow) : RelationalStore :=
    { tables k pairs with pullRequests := some (rows ++ [.ofItem item]) }
  have hunfold : (tables k pairs).savePullRequest p c =
      ((tables k pairs).insertion "save pull request" (some rows) [p.id, p.name, p.author] taken
        .pullRequestExists saved, c) := by
    rw [savePullRequest, ht]
    rfl
  have htaken : taken rows = (k.item? p.id).isSome := by
    simp only [taken, rows, KeyedStore.item?, Option.isSome_map,
      Rows.find?_map Item.id PullRequestRow.id PullRequestRow.ofItem fun _ => rfl]
  by_cases hknown : p.id ∈ k.contents.itemIds
  · have hfound : (k.item? p.id).isSome = true := by
      rw [Option.isSome_iff_ne_none]
      intro hn
      exact (Rows.find?_eq_none_iff Item.id p.id k.items).1 hn ((k.mem_itemIds p.id).1 hknown)
    obtain ⟨r, hr⟩ := insertion_refused (s := tables k pairs) rfl "save pull request" rows htexts
      taken (htaken.trans hfound) .pullRequestExists saved
    exact ⟨_, _, k.savePullRequest_taken p c hknown, hunfold, .inr ⟨_, k, r, rfl, hr, trivial⟩⟩
  · have hnone : k.item? p.id = none :=
      (Rows.find?_eq_none_iff Item.id p.id k.items).2 fun hm => hknown ((k.mem_itemIds p.id).2 hm)
    have hr := insertion_ok (s := tables k pairs) rfl "save pull request" rows htexts taken
      (htaken.trans (by rw [hnone]; rfl)) .pullRequestExists saved
    obtain ⟨k', hsave, rfl, hsound, hcontents⟩ :=
      KeyedStore.savePullRequest_sound hk.sound p t c ht hknown
    have hplain : ({ k with items := k.items ++ [item] } : KeyedStore).Plain :=
      ⟨hsound, hcontents ▸ hk.plain.addItem ⟨hid, hname, hauthor⟩ hoffset⟩
    have htables : saved rows = tables { k with items := k.items ++ [item] } pairs := by
      simp [saved, rows, tables]
    exact ⟨_, _, hsave, hunfold, matched_of_tables (hr.trans (by rw [htables])) hplain
      ⟨hp.nodup, hp.mem_iff⟩⟩

theorem updatePullRequest_tables {p : PullRequest} (hw : p.Written) :
    (tables k pairs).updatePullRequest p = (.ok (), tables (k.updatePullRequest p) pairs) := by
  let change (r : PullRequestRow) : PullRequestRow :=
    if r.id = p.id ∧ r.status = .opened then
      { r with
        name := p.name, author := p.author, status := p.status,
        merged := p.merged.map Timestamp.wall }
    else r
  have htexts : ∀ x ∈ [p.name, p.author, p.id], Writable x := by
    simpa using ⟨hw.2.1, hw.2.2, hw.1⟩
  have hrows : (k.items.map PullRequestRow.ofItem).map change =
      (k.updatePullRequest p).items.map PullRequestRow.ofItem := by
    simp only [KeyedStore.updatePullRequest, Rows.modify, List.map_map]
    refine List.map_congr_left fun i _ => ?_
    by_cases hid : i.id = p.id <;> cases hs : i.status <;>
      simp [change, PullRequestRow.ofItem, hid, hs]
  have hchange := change_ok (s := tables k pairs) rfl "update pull request"
    (k.items.map PullRequestRow.ofItem) htexts fun rows =>
      { tables k pairs with pullRequests := some (rows.map change) }
  rw [hrows] at hchange
  exact hchange

theorem updatePullRequest_matched (hk : k.Plain) (hp : k.PairedBy pairs) {p : PullRequest}
    (hw : p.Written) :
    Shape.nothing.Matched (.ok (), k.updatePullRequest p)
      ((tables k pairs).updatePullRequest p) := by
  obtain ⟨hsound, hcontents⟩ := KeyedStore.updatePullRequest_sound hk.sound p
  have hplain : (k.updatePullRequest p).Plain :=
    ⟨hsound, hcontents ▸ hk.plain.updateItem p.id fun _ => ⟨rfl, hw.2.1, hw.2.2, rfl⟩⟩
  exact matched_of_tables (updatePullRequest_tables hw) hplain ⟨hp.nodup, hp.mem_iff⟩

/-- Other reviewers of one pull request: the tables have other pairs with its id. -/
theorem matched_of_setReviewers (hk : k.Plain) {k' : KeyedStore} {id : Text} {ids : Finset Text}
    (hk' : k'.Sound ∧ k'.contents = k.contents.setReviewers id ids) {pairs' : List AssignmentRow}
    (hn : pairs'.Nodup)
    (hmem : ∀ j r, ⟨j, r⟩ ∈ pairs' ↔ if j = id then r ∈ ids else r ∈ k.assigned j)
    {y : Except Failure Unit × RelationalStore} (hy : y = (.ok (), tables k' pairs')) :
    Shape.nothing.Matched (.ok (), k') y := by
  obtain ⟨hsound, hcontents⟩ := hk'
  refine matched_of_tables hy ⟨hsound, hcontents ▸ hk.plain.setReviewers id ids⟩ ⟨hn, fun j r => ?_⟩
  have hassigned : r ∈ k'.assigned j ↔ r ∈ k'.contents.reviewers j := by simp
  rw [hmem, hassigned, hcontents]
  by_cases hj : j = id
  · subst hj
    rw [if_pos rfl, Contents.setReviewers_self]
  · rw [if_neg hj, Contents.setReviewers_of_ne _ hj]
    simp

theorem assign_matched (hk : k.Plain) (hp : k.PairedBy pairs) {id : Text} {rs : List Text}
    (hid : Writable id) (hrs : ∀ r ∈ rs, Writable r) :
    Shape.nothing.Matched (.ok (), k.assign id rs) ((tables k pairs).assign id rs) := by
  let joined := (rs.map (AssignmentRow.mk id)).foldl insertPair pairs
  obtain ⟨hn, hmem⟩ := foldl_insertPair hp.nodup (rs.map (AssignmentRow.mk id))
  have hy : (tables k pairs).assign id rs = (.ok (), tables (k.assign id rs) joined) := by
    cases rs with
    | nil => rfl
    | cons r rs =>
      exact change_ok (s := tables k pairs) rfl "assign reviewers" pairs
        (List.forall_mem_cons.2 ⟨hid, hrs⟩) fun rows => { tables k pairs with
          assignments := some (((r :: rs).map (AssignmentRow.mk id)).foldl insertPair rows) }
  refine matched_of_setReviewers hk (KeyedStore.assign_sound hk.sound id rs) hn (fun j r => ?_) hy
  rw [hmem, hp.mem_iff]
  by_cases hj : j = id
  · subst hj
    simp [or_comm]
  · simp [hj, Ne.symm hj]

theorem replaceReviewer_matched (hk : k.Plain) (hp : k.PairedBy pairs) {id old new : Text}
    (hid : Writable id) (hold : Writable old) (hnew : Writable new) :
    Shape.nothing.Matched (.ok (), k.replaceReviewer id old new)
      ((tables k pairs).replaceReviewer id old new) := by
  let left := pairs.filter (· ≠ ⟨id, old⟩)
  have hremoved : (tables k pairs).change "replace reviewer" (tables k pairs).assignments [id, old]
      (fun rows => { tables k pairs with assignments := some (rows.filter (· ≠ ⟨id, old⟩)) }) =
      (.ok (), tables k left) :=
    change_ok (s := tables k pairs) rfl "replace reviewer" pairs
      (by simpa using ⟨hid, hold⟩ : ∀ t ∈ [id, old], Writable t) fun rows =>
        { tables k pairs with assignments := some (rows.filter (· ≠ ⟨id, old⟩)) }
  have hadded := change_ok (s := tables k left) rfl "replace reviewer" left
    (by simpa using ⟨hid, hnew⟩ : ∀ t ∈ [id, new], Writable t) fun rows =>
      { tables k left with assignments := some (insertPair rows ⟨id, new⟩) }
  have hy : (tables k pairs).replaceReviewer id old new =
      (.ok (), tables (k.replaceReviewer id old new) (insertPair left ⟨id, new⟩)) := by
    rw [RelationalStore.replaceReviewer]
    simp only [hremoved]
    exact hadded
  refine matched_of_setReviewers hk (KeyedStore.replaceReviewer_sound hk.sound id old new)
    (nodup_insertPair (hp.nodup.filter _) _) (fun j r => ?_) hy
  rw [mem_insertPair, List.mem_filter, hp.mem_iff]
  by_cases hj : j = id
  · subst hj
    simp [and_comm]
  · simp [hj]

theorem removeReviewer_matched (hk : k.Plain) (hp : k.PairedBy pairs) {id old : Text}
    (hid : Writable id) (hold : Writable old) :
    Shape.nothing.Matched (.ok (), k.removeReviewer id old)
      ((tables k pairs).removeReviewer id old) := by
  have hy : (tables k pairs).removeReviewer id old =
      (.ok (), tables (k.removeReviewer id old) (pairs.filter (· ≠ ⟨id, old⟩))) :=
    change_ok (s := tables k pairs) rfl "remove reviewer" pairs
      (by simpa using ⟨hid, hold⟩ : ∀ t ∈ [id, old], Writable t) fun rows =>
        { tables k pairs with assignments := some (rows.filter (· ≠ ⟨id, old⟩)) }
  refine matched_of_setReviewers hk (KeyedStore.removeReviewer_sound hk.sound id old)
    (hp.nodup.filter _) (fun j r => ?_) hy
  rw [List.mem_filter, hp.mem_iff]
  by_cases hj : j = id
  · subst hj
    simp [and_comm]
  · simp [hj]

end Changes

section Readings

/-- A reading that has something to show. -/
theorem matched_of_answer (hk : k.Plain) (hp : k.PairedBy pairs) {s : Shape} {a : s.Answer}
    {y : Except Failure s.Answer} (hy : y = .ok (s.wallOnly a)) (ha : s.Written a) :
    s.Matched (.ok a, k) (y, tables k pairs) :=
  .inl ⟨a, k, tables k pairs, rfl, by rw [hy], ha, pairs, hk, hp, rfl⟩

/-- A reading that may have nothing to show for a reason of its own. -/
theorem matched_of_reading (hk : k.Plain) (hp : k.PairedBy pairs) {s : Shape}
    {x y : Except Failure s.Answer} (hy : y = x.map s.wallOnly)
    (ha : ∀ a, x = .ok a → s.Written a) (he : ∀ e, x = .error e → e.Plain) :
    s.Matched (x, k) (y, tables k pairs) := by
  cases x with
  | ok a => exact matched_of_answer hk hp hy (ha a rfl)
  | error e => exact .inr ⟨e, k, tables k pairs, rfl, by rw [hy]; rfl, he e rfl⟩

theorem team_matched (hk : k.Plain) (hp : k.PairedBy pairs) {name : Text} (hn : Writable name) :
    Shape.team.Matched (k.team name, k) ((tables k pairs).team name, tables k pairs) := by
  rw [team_tables hn, KeyedStore.team]
  split
  · exact matched_of_answer hk hp rfl (written_members hk name)
  · exact matched_of_reading hk hp rfl (fun _ h => by cases h) fun _ h => by cases h; trivial

theorem user_matched (hk : k.Plain) (hp : k.PairedBy pairs) {id : Text} (hid : Writable id) :
    Shape.user.Matched (k.user id, k) ((tables k pairs).user id, tables k pairs) := by
  rw [user_tables hid, KeyedStore.user, KeyedStore.user?]
  cases hf : Rows.find? User.id id k.users with
  | none =>
    exact matched_of_reading hk hp rfl (fun _ h => by cases h) fun _ h => by cases h; trivial
  | some u =>
    have hu := ((Rows.find?_eq_some_iff User.id id hk.sound.users u).1 hf).1
    exact matched_of_answer hk hp rfl (hk.plain.users u ((k.mem_contents_users u).2 hu))

theorem pullRequest_matched (hk : k.Plain) (hp : k.PairedBy pairs) {id : Text}
    (hid : Writable id) :
    Shape.pullRequest.Matched (k.pullRequest id, k)
      ((tables k pairs).pullRequest id, tables k pairs) := by
  refine matched_of_reading hk hp (pullRequest_tables hk hp hid) (fun p hx => ?_) fun e hx => ?_
  · rw [KeyedStore.pullRequest, KeyedStore.item?] at hx
    split at hx
    · next i hf =>
      cases hx
      exact written_withReviewers hk ((Rows.find?_eq_some_iff Item.id id hk.sound.items i).1 hf).1 _
    · cases hx
  · rw [KeyedStore.pullRequest] at hx
    split at hx
    · cases hx
    · cases hx
      trivial

/-- Dates in universal time can be put in order, and so can the pull requests. -/
theorem latestFirst_matched (hk : k.Plain) (hp : k.PairedBy pairs) (p : Item → Bool)
    (rs : Item → List Text) {y : Except Failure (List PullRequest)}
    (hy : y = ((KeyedStore.latestFirst (k.items.filter p)).map fun items =>
      items.map fun i => i.withReviewers (rs i)).map (List.map PullRequest.wallOnly)) :
    Shape.pullRequests.Matched
      ((KeyedStore.latestFirst (k.items.filter p)).map fun items =>
        items.map fun i => i.withReviewers (rs i), k) (y, tables k pairs) := by
  rw [KeyedStore.latestFirst, hk.comparable, if_pos rfl] at hy ⊢
  exact matched_of_answer hk hp hy (written_latestFirst hk p rs)

end Readings

/-- A call comes to the same on a store and on its mirror. -/
theorem on_matched {s : Shape} {c : Call s} (hc : c.Plain) {k : KeyedStore} {r : RelationalStore}
    (h : Mirrors k r) (clock : Clock) :
    ∃ x y, c.on k clock = (x, clock) ∧ c.on r clock = (y, clock) ∧ s.Matched x y := by
  obtain ⟨pairs, hk, hp, rfl⟩ := h
  cases c with
  | savePullRequest p =>
    obtain ⟨hw, t, ht, hoffset⟩ := hc
    exact savePullRequest_matched hk hp hw ht hoffset clock
  | team name => exact ⟨_, _, rfl, rfl, team_matched hk hp hc⟩
  | saveTeam t => exact ⟨_, _, rfl, rfl, saveTeam_matched hk hp hc⟩
  | user id => exact ⟨_, _, rfl, rfl, user_matched hk hp hc⟩
  | members name =>
    exact ⟨_, _, rfl, rfl, matched_of_answer hk hp (members_tables hc) (written_members hk name)⟩
  | activeMembers name except =>
    exact ⟨_, _, rfl, rfl, matched_of_answer hk hp (activeMembers_tables hk hc.1 hc.2) fun u hu =>
      written_members hk name u (List.mem_filter.1 hu).1⟩
  | putUsers us => exact ⟨_, _, rfl, rfl, putUsers_matched hk hp hc⟩
  | setActivity us => exact ⟨_, _, rfl, rfl, setActivity_matched hk hp hc⟩
  | deactivate ids => exact ⟨_, _, rfl, rfl, deactivate_matched hk hp hc⟩
  | userCounts id =>
    exact ⟨_, _, rfl, rfl, matched_of_answer hk hp (userCounts_tables hk hp hc) trivial⟩
  | pullRequest id => exact ⟨_, _, rfl, rfl, pullRequest_matched hk hp hc⟩
  | updatePullRequest p => exact ⟨_, _, rfl, rfl, updatePullRequest_matched hk hp hc⟩
  | reviewedBy id =>
    exact ⟨_, _, rfl, rfl, latestFirst_matched hk hp _ _ (reviewedBy_tables hk hp hc)⟩
  | reviewers id =>
    exact ⟨_, _, rfl, rfl, matched_of_answer hk hp (reviewers_tables hk hp hc) trivial⟩
  | assign id ids => exact ⟨_, _, rfl, rfl, assign_matched hk hp hc.1 hc.2⟩
  | replaceReviewer id old new =>
    exact ⟨_, _, rfl, rfl, replaceReviewer_matched hk hp hc.1 hc.2.1 hc.2.2⟩
  | removeReviewer id old => exact ⟨_, _, rfl, rfl, removeReviewer_matched hk hp hc.1 hc.2⟩
  | totals => exact ⟨_, _, rfl, rfl, matched_of_answer hk hp (totals_tables hk hp) trivial⟩
  | openPullRequests name =>
    exact ⟨_, _, rfl, rfl, latestFirst_matched hk hp _ (fun _ => [])
      (openPullRequests_tables hk hc)⟩
  | reviewersOf ids =>
    exact ⟨_, _, rfl, rfl, matched_of_answer hk hp (reviewersOf_tables hk hp hc) trivial⟩

end RelationalStore

theorem mirrors_empty : Mirrors Gateway.empty Gateway.empty :=
  ⟨[], KeyedStore.plain_empty, KeyedStore.pairedBy_empty, rfl⟩

theorem Mirrors.snapshot {k : KeyedStore} {r : RelationalStore} (h : Mirrors k r) :
    Gateway.snapshot r = (Gateway.snapshot k).map Snapshot.wallOnly := by
  obtain ⟨pairs, hk, hp, rfl⟩ := h
  exact RelationalStore.snapshot_tables hk hp

/-- A mirror goes on, so that a transaction that ends with it commits it. -/
theorem Mirrors.settle {k : KeyedStore} {r : RelationalStore} (h : Mirrors k r)
    (before : RelationalStore) : Gateway.settle before r = r := by
  obtain ⟨pairs, -, -, rfl⟩ := h
  rfl

end ReviewDesk
