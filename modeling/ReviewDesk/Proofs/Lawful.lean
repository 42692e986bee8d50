import Mathlib.Data.Set.Function
import ReviewDesk.Proofs.Contents

/-!
# Lawful stores

A lawful store is told by its contents. In a sound state every reading shows what the contents hold,
and every change leads to a sound state with the contents changed accordingly. A store need not be
able to keep every text; an operation that is handed one that it cannot keep fails, and only then
does it fail for a reason that lies in the store. A store may keep dates in a form of its own, but
an instant that the clock shows is kept.
-/
namespace ReviewDesk

section Outcomes

variable {σ α : Type}

/-- The outcome of looking for a thing that is there or not: the thing, a refusal, or, where a text
is handed over that the store cannot keep, the failure to write it. What is there can be looked
for. -/
def Lookup (present admitted : Prop) (absent : Refusal) (found : α → Prop) (r : Except Failure α) :
    Prop :=
  (present ∧ ∃ a, r = .ok a ∧ found a) ∨ (¬ present ∧ admitted ∧ r = .error (.refuse absent)) ∨
    (¬ present ∧ ¬ admitted ∧ ∃ gap, r = .error (.unwritable gap))

/-- Why something is denied: for a reason of the desk, or, where a text is handed over that the
store cannot keep, for that. -/
def Denied (admitted : Prop) (why : Refusal) (e : Failure) : Prop :=
  (admitted ∧ e = .refuse why) ∨ (¬ admitted ∧ ∃ gap, e = .unwritable gap)

/-- The outcome of a reading that has always something to show. -/
def Listing (admitted : Prop) (found : α → Prop) (r : Except Failure α) : Prop :=
  (admitted ∧ ∃ a, r = .ok a ∧ found a) ∨ (¬ admitted ∧ ∃ gap, r = .error (.unwritable gap))

/-- The outcome of a change that leads to a state as wanted. -/
def Change (admitted : Prop) (wanted : σ → Prop) (r : Except Failure Unit × σ) : Prop :=
  (admitted ∧ ∃ s, r = (.ok (), s) ∧ wanted s) ∨
  (¬ admitted ∧ ∃ gap s, r = (.error (.unwritable gap), s))

theorem Lookup.eq_ok {present admitted : Prop} {absent : Refusal} {found : α → Prop}
    {r : Except Failure α}
    (h : Lookup present admitted absent found r) (hp : present) : ∃ a, r = .ok a ∧ found a := by
  rcases h with ⟨-, h⟩ | ⟨hn, -⟩ | ⟨hn, -⟩
  · exact h
  · exact absurd hp hn
  · exact absurd hp hn

/-- A thing is found, or it is not there and is denied. -/
theorem Lookup.found_or_denied {present admitted : Prop} {absent : Refusal} {found : α → Prop}
    {r : Except Failure α} (h : Lookup present admitted absent found r) :
    (present ∧ ∃ a, r = .ok a ∧ found a) ∨
      (¬ present ∧ ∃ e, r = .error e ∧ Denied admitted absent e) := by
  rcases h with h | ⟨hn, ha, rfl⟩ | ⟨hn, ha, gap, rfl⟩
  · exact .inl h
  · exact .inr ⟨hn, _, rfl, .inl ⟨ha, rfl⟩⟩
  · exact .inr ⟨hn, _, rfl, .inr ⟨ha, gap, rfl⟩⟩

theorem Listing.eq_ok {admitted : Prop} {found : α → Prop} {r : Except Failure α}
    (h : Listing admitted found r) (ha : admitted) : ∃ a, r = .ok a ∧ found a := by
  rcases h with ⟨-, h⟩ | ⟨hn, -⟩
  · exact h
  · exact absurd ha hn

/-- What is listed is what the reading came to. -/
theorem Listing.known {admitted : Prop} {found : α → Prop} {r : Except Failure α}
    (h : Listing admitted found r) : Listing admitted (fun a => r = .ok a ∧ found a) r :=
  h.imp (fun ⟨ha, a, hr, hfound⟩ => ⟨ha, a, hr, hr, hfound⟩) id

/-- The state that a change leads to is what it came to. -/
theorem Change.known {admitted : Prop} {wanted : σ → Prop} {r : Except Failure Unit × σ}
    (h : Change admitted wanted r) : Change admitted (fun s => r = (.ok (), s) ∧ wanted s) r :=
  h.imp (fun ⟨ha, s, hr, hwanted⟩ => ⟨ha, s, hr, hr, hwanted⟩) id

theorem Change.eq_ok {admitted : Prop} {wanted : σ → Prop} {r : Except Failure Unit × σ}
    (h : Change admitted wanted r) (ha : admitted) : ∃ s, r = (.ok (), s) ∧ wanted s := by
  rcases h with ⟨-, h⟩ | ⟨hn, -⟩
  · exact h
  · exact absurd ha hn

/-- What was wanted of a change holds of the state that it led to. -/
theorem Change.of_ok {admitted : Prop} {wanted : σ → Prop} {r : Except Failure Unit × σ} {s : σ}
    (h : Change admitted wanted r) (hr : r = (.ok (), s)) : wanted s := by
  rcases h with ⟨-, s', hs', hwanted⟩ | ⟨-, gap, s', hs'⟩
  · cases hs'.symm.trans hr
    exact hwanted
  · cases hs'.symm.trans hr

end Outcomes

/-- What a store promises. -/
class LawfulStore (σ : Type) [Gateway σ] where
  contents : σ → Contents
  /-- The states that the operations lead to. -/
  Sound : σ → Prop
  /-- The texts that the store can keep. -/
  Admits : Text → Prop
  /-- The form in which the store keeps a date. -/
  keep : Timestamp → Timestamp
  instant_keep : ∀ i, (keep (.ofInstant i)).instant = i
  offset_keep : ∀ i j, (keep (.ofInstant i)).offset = (keep (.ofInstant j)).offset
  sound_empty : Sound Gateway.empty
  contents_empty : contents Gateway.empty = .empty
  injOn_user : ∀ {s}, Sound s → Set.InjOn User.id (contents s).users
  injOn_item : ∀ {s}, Sound s → Set.InjOn Item.id (contents s).items
  admits_team : ∀ {s}, Sound s → ∀ t ∈ (contents s).teams, Admits t
  admits_user : ∀ {s}, Sound s → ∀ id ∈ (contents s).userIds, Admits id
  admits_item : ∀ {s}, Sound s → ∀ i ∈ (contents s).items, Admits i.id ∧ Admits i.name ∧
    Admits i.author
  settle_sound : ∀ s {x}, Sound x → Gateway.settle s x = x
  team_lookup : ∀ {s} name, Sound s → Lookup (name ∈ (contents s).teams) (Admits name) .teamNotFound
    (fun t => t.name = name ∧ (contents s).Roll ((contents s).staff name) t.members)
    (Gateway.team name s)
  user_lookup : ∀ {s} id, Sound s → Lookup (id ∈ (contents s).userIds) (Admits id) .userNotFound
    (fun u => u ∈ (contents s).users ∧ u.id = id) (Gateway.user id s)
  pullRequest_lookup : ∀ {s} id, Sound s →
    Lookup (id ∈ (contents s).itemIds) (Admits id) .pullRequestNotFound
      (fun p => ∃ i ∈ (contents s).items, i.id = id ∧ p = (contents s).shown i)
      (Gateway.pullRequest id s)
  members_listing : ∀ {s} team, Sound s → Listing (Admits team)
    (fun us => (contents s).Roll ((contents s).staff team) us) (Gateway.members team s)
  activeMembers_listing : ∀ {s} team except, Sound s →
    Listing (Admits team ∧ ∀ id ∈ except, Admits id)
      (fun us =>
        (contents s).Roll (((contents s).active team).filter fun id => some id ≠ except) us)
      (Gateway.activeMembers team except s)
  reviewers_listing : ∀ {s} id, Sound s → Listing (Admits id)
    (fun rs => rs = ((contents s).reviewers id).sort) (Gateway.reviewers id s)
  reviewersOf_listing : ∀ {s} ids, Sound s → Listing (∀ id ∈ ids, Admits id)
    (fun batch => batch = ids.eraseDups.map fun id => (id, ((contents s).reviewers id).sort))
    (Gateway.reviewersOf ids s)
  openPullRequests_listing : ∀ {s} team, Sound s → (contents s).Comparable → Listing (Admits team)
    (fun ps => (ps.map PullRequest.id).Nodup ∧ ∀ p, p ∈ ps ↔ ∃ i ∈ (contents s).items,
      i.status = .opened ∧ i.author ∈ (contents s).active team ∧ p = i.withReviewers [])
    (Gateway.openPullRequests team s)
  saveTeam_taken : ∀ {s} t, Sound s → t.name ∈ (contents s).teams →
    ∃ s', Gateway.saveTeam t s = (.error (.refuse .teamExists), s')
  saveTeam_change : ∀ {s} t, Sound s → t.name ∉ (contents s).teams →
    Change (Admits t.name) (fun s' => Sound s' ∧ contents s' = (contents s).addTeam t.name)
      (Gateway.saveTeam t s)
  putUsers_change : ∀ {s} us, Sound s →
    Change (∀ u ∈ us, Admits u.id ∧ Admits u.name ∧ ∀ t ∈ u.team, Admits t)
      (fun s' => Sound s' ∧ contents s' = (contents s).putUsers us) (Gateway.putUsers us s)
  setActivity_change : ∀ {s} us, Sound s → Change (∀ u ∈ us, Admits u.id)
    (fun s' => Sound s' ∧ contents s' = us.foldl (fun c u => c.switch {u.id} u.active) (contents s))
    (Gateway.setActivity us s)
  deactivate_change : ∀ {s} ids, Sound s → Change (∀ id ∈ ids, Admits id)
    (fun s' => Sound s' ∧ contents s' = (contents s).switch ids.toFinset false)
    (Gateway.deactivate ids s)
  savePullRequest_taken : ∀ {s} p k, Sound s → p.created.isSome → p.id ∈ (contents s).itemIds →
    ∃ e s', Gateway.savePullRequest p s k = ((.error e, s'), k) ∧
      (e = .refuse .pullRequestExists ∨ ∃ gap, e = .unwritable gap)
  savePullRequest_change : ∀ {s} (p : PullRequest) t k, Sound s → p.created = some t →
    p.id ∉ (contents s).itemIds → ∃ r, Gateway.savePullRequest p s k = (r, k) ∧
      Change (Admits p.id ∧ Admits p.name ∧ Admits p.author) (fun s' => Sound s' ∧ contents s' =
        (contents s).addItem ⟨p.id, p.name, p.author, p.status, keep t, p.merged.map keep⟩) r
  updatePullRequest_change : ∀ {s} (p : PullRequest), Sound s →
    Change (Admits p.id ∧ Admits p.name ∧ Admits p.author) (fun s' => Sound s' ∧ contents s' =
      (contents s).updateItem p.id fun i =>
        { i with
          name := p.name, author := p.author, status := p.status, merged := p.merged.map keep })
      (Gateway.updatePullRequest p s)
  assign_change : ∀ {s} id rs, Sound s → Change (rs = [] ∨ Admits id ∧ ∀ r ∈ rs, Admits r)
    (fun s' => Sound s' ∧
      contents s' = (contents s).setReviewers id ((contents s).reviewers id ∪ rs.toFinset))
    (Gateway.assign id rs s)
  replaceReviewer_change : ∀ {s} id old new, Sound s → Change (Admits id ∧ Admits old ∧ Admits new)
    (fun s' => Sound s' ∧
      contents s' = (contents s).setReviewers id
        (insert new (((contents s).reviewers id).erase old)))
    (Gateway.replaceReviewer id old new s)
  removeReviewer_change : ∀ {s} id old, Sound s → Change (Admits id ∧ Admits old)
    (fun s' => Sound s' ∧ contents s' = (contents s).setReviewers id
      (((contents s).reviewers id).erase old))
    (Gateway.removeReviewer id old s)
  snapshot_listing : ∀ {s}, Sound s → ∃ shot, Gateway.snapshot s = .ok shot ∧
    (∀ t, t ∈ shot.teams ↔ t ∈ (contents s).teams) ∧
    (∀ u, u ∈ shot.users ↔ u ∈ (contents s).users) ∧
    (∀ p, p ∈ shot.pullRequests ↔ ∃ i ∈ (contents s).items, p = i.withReviewers []) ∧
    ∀ a, a ∈ shot.assignments ↔ ∃ id, ((contents s).reviewers id).Nonempty ∧
      a = (id, ((contents s).reviewers id).sort)

/-- A lawful store that also stands what no request of the desk hands to it. Where the dates cannot
be put in order, listing the open pull requests fails and says so; a pull request without a date is
saved as one with the date that the clock shows, unless saving it fails. -/
class ResilientStore (σ : Type) [Gateway σ] [LawfulStore σ] : Prop where
  openPullRequests_cases : ∀ {s : σ} team, LawfulStore.Sound s →
    (∃ ps, Gateway.openPullRequests team s = .ok ps ∧ (ps.map PullRequest.id).Nodup ∧
      ∀ p, p ∈ ps ↔ ∃ i ∈ (LawfulStore.contents s).items, i.status = .opened ∧
        i.author ∈ (LawfulStore.contents s).active team ∧ p = i.withReviewers []) ∨
    Gateway.openPullRequests team s = .error .incomparable ∨
    ∃ gap, Gateway.openPullRequests team s = .error (.unwritable gap)
  savePullRequest_undated : ∀ (s : σ) (p : PullRequest) k, p.created = none →
    (∃ t k', Gateway.savePullRequest p s k =
      Gateway.savePullRequest { p with created := some t } s k') ∨
    ∃ e s' k', Gateway.savePullRequest p s k = ((.error e, s'), k')

end ReviewDesk
