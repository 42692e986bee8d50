import ReviewDesk.Proofs.Kept
import ReviewDesk.Proofs.Selection
import ReviewDesk.Proofs.Transaction
import ReviewDesk.Proofs.Undertaking

/-!
# Looking around

Before its transaction a request only looks at the committed store, and at most draws. What it comes
to is told by the contents of the store: a failure, an answer, or an undertaking together with what
was found out about it.
-/
namespace ReviewDesk

/-- What a use case can be answered with at once, without a transaction. -/
def UseCase.AtOnce (c : Contents) : UseCase → Reply → Prop
  | .found _, _ | .switch _ _, _ | .opening _ _ _, _ | .reassign _ _, _ => False
  | .merge id, r => c.ShowsMerged id r
  | _, _ => True

namespace Job

variable {σ α β : Type}

/-- What a job comes to that leaves its world as it is. -/
def Looks (x : Job σ α) (w : World σ) (good : α → Prop) (bad : Failure → Prop) : Prop :=
  (∃ a, x w = (.ok a, w) ∧ good a) ∨ ∃ e, x w = (.error e, w) ∧ bad e

/-- What a job comes to that leaves its world as it is and draws at the end. -/
def Draws (x : Job σ α) (w : World σ) (good : α → ReviewDesk.Draws → Prop) : Prop :=
  (∃ a d, x w = (.ok a, { w with draws := d }) ∧ good a d) ∨ ∃ e, x w = (.error e, w)

section Rules

variable {w : World σ} {good : α → Prop} {bad : Failure → Prop}

theorem Looks.mono {x : Job σ α} {good' : α → Prop} {bad' : Failure → Prop} (h : x.Looks w good bad)
    (hg : ∀ a, good a → good' a) (hb : ∀ e, bad e → bad' e) : x.Looks w good' bad' := by
  rcases h with ⟨a, hx, ha⟩ | ⟨e, hx, he⟩
  · exact .inl ⟨a, hx, hg a ha⟩
  · exact .inr ⟨e, hx, hb e he⟩

theorem looks_pure {a : α} (h : good a) : (pure a : Job σ α).Looks w good bad := .inl ⟨a, rfl, h⟩

theorem looks_fail {e : Failure} (h : bad e) : (fail e : Job σ α).Looks w good bad :=
    .inr ⟨e, rfl, h⟩

theorem Looks.bind {x : Job σ β} {f : β → Job σ α} {mid : β → Prop} (h : x.Looks w mid bad)
    (hf : ∀ b, mid b → (f b).Looks w good bad) : (x >>= f).Looks w good bad := by
  rcases h with ⟨b, hx, hb⟩ | ⟨e, hx, he⟩
  · rw [Looks, bind_apply, hx]
    exact hf b hb
  · refine .inr ⟨e, ?_, he⟩
    rw [bind_apply, hx]

/-- What is at hand is used at once. -/
theorem looks_ofExcept {b : β} {f : β → Job σ α} (h : (f b).Looks w good bad) :
    (ofExcept (.ok b) >>= f).Looks w good bad := h

theorem Looks.draws {x : Job σ α} (h : x.Looks w good bad) :
    x.Draws w fun a d => d = w.draws ∧ good a := by
  rcases h with ⟨a, hx, ha⟩ | ⟨e, hx, -⟩
  · exact .inl ⟨a, w.draws, hx, rfl, ha⟩
  · exact .inr ⟨e, hx⟩

theorem draws_choose {f : ReviewDesk.Draws → β × ReviewDesk.Draws} {g : β → α}
    {good : α → ReviewDesk.Draws → Prop}
    (h : good (g (f w.draws).1) (f w.draws).2) :
    (do return g (← choose f) : Job σ α).Draws w good :=
  .inl ⟨g (f w.draws).1, (f w.draws).2, rfl, h⟩

theorem Looks.bind_draws {x : Job σ β} {f : β → Job σ α} {mid : β → Prop}
    {good : α → ReviewDesk.Draws → Prop}
    (h : x.Looks w mid bad) (hf : ∀ b, mid b → (f b).Draws w good) : (x >>= f).Draws w good := by
  rcases h with ⟨b, hx, hb⟩ | ⟨e, hx, -⟩
  · rw [Draws, bind_apply, hx]
    exact hf b hb
  · refine .inr ⟨e, ?_⟩
    rw [bind_apply, hx]

theorem Looks.fails {x : Job σ α} (h : x.Looks w good bad) : x.Fails w bad := by
  intro e w' hx
  rcases h with ⟨a, hx', -⟩ | ⟨e', hx', he⟩
  · rw [hx'] at hx
    cases hx
  · rw [hx'] at hx
    cases hx
    exact he

theorem Looks.bind_fails {x : Job σ β} {f : β → Job σ α} {mid : β → Prop} (h : x.Looks w mid bad)
    (hf : ∀ b, mid b → (f b).Fails w bad) : (x >>= f).Fails w bad := by
  intro e w' hx
  rw [bind_apply] at hx
  rcases h with ⟨b, hx', hb⟩ | ⟨e', hx', he⟩
  · rw [hx'] at hx
    exact hf b hb e w' hx
  · rw [hx'] at hx
    cases hx
    exact he

theorem Draws.map {x : Job σ β} {good : β → ReviewDesk.Draws → Prop} (h : x.Draws w good)
    (f : β → α) :
    (do return f (← x)).Draws w fun a d => ∃ b, a = f b ∧ good b d := by
  rcases h with ⟨b, d, hx, hb⟩ | ⟨e, hx⟩
  · refine .inl ⟨f b, d, ?_, b, rfl, hb⟩
    rw [bind_apply, hx]
    rfl
  · refine .inr ⟨e, ?_⟩
    rw [bind_apply, hx]

end Rules

theorem like_bind {w : World σ} {x : Job σ α} {f : α → Job σ β} (hx : (x w).2.Like w)
    (hf : ∀ a w', w'.Like w → (f a w').2.Like w') : ((x >>= f) w).2.Like w := by
  rw [bind_apply]
  rcases hxw : x w with ⟨_ | a, w'⟩
  · rwa [hxw] at hx
  · rw [hxw] at hx
    exact (hf a w' hx).trans hx

section Answers

variable [Gateway σ] {sh : Shape} {c : Call sh} {w : World σ}
variable {present admitted : Prop} {absent : Refusal} {found : sh.Answer → Prop}
    {r : Except Failure sh.Answer}

/-- Something is looked for. -/
theorem looks_lookup {good : Given sh.Answer → Prop} {bad : Failure → Prop} (hw : w.faults = [])
    (hc : ∀ k, c.on w.store k = ((r, w.store), k)) (h : Lookup present admitted absent found r)
    (hgood : present → ∀ a, found a → good (.own a))
    (hbad : ¬ present → ∀ e, Denied admitted absent e → bad e) :
    (ask .outside c).Looks w good bad := by
  have hx := ask_outside c hw (hc _) (Lookup.plain h)
  rcases h.found_or_denied with ⟨hp, a, rfl, ha⟩ | ⟨hp, e, rfl, he⟩
  · exact .inl ⟨.own a, hx, hgood hp a ha⟩
  · exact .inr ⟨e, hx, hbad hp e he⟩

/-- Something is listed. -/
theorem looks_listing {good : Given sh.Answer → Prop} {bad : Failure → Prop} (hw : w.faults = [])
    (hc : ∀ k, c.on w.store k = ((r, w.store), k)) (h : Listing admitted found r)
    (hgood : ∀ a, found a → good (.own a)) (hgap : ¬ admitted → ∀ gap, bad (.unwritable gap)) :
    (ask .outside c).Looks w good bad := by
  have hx := ask_outside c hw (hc _) (Listing.plain h)
  rcases h with ⟨-, a, rfl, ha⟩ | ⟨hn, gap, rfl⟩
  · exact .inl ⟨.own a, hx, hgood a ha⟩
  · exact .inr ⟨_, hx, hgap hn gap⟩

/-- Something must not be there. -/
theorem looks_ensureAbsent {good : Unit → Prop} {bad : Failure → Prop} (hw : w.faults = [])
    (hc : ∀ k, c.on w.store k = ((r, w.store), k)) (h : Lookup present admitted absent found r)
    (taken : Refusal)
    (hgood : ¬ present → admitted → good ()) (htaken : present → bad (.refuse taken))
    (hgap : ¬ admitted → ∀ gap, bad (.unwritable gap)) :
    (ensureAbsent (ask .outside c) absent taken).Looks w good bad := by
  have hx := ask_outside c hw (hc _) (Lookup.plain h)
  rcases h with ⟨hp, a, rfl, -⟩ | ⟨hp, ha, rfl⟩ | ⟨-, hn, gap, rfl⟩
  · refine .inr ⟨.refuse taken, ?_, htaken hp⟩
    rw [ensureAbsent, hx]
    rfl
  · refine .inl ⟨(), ?_, hgood hp ha⟩
    rw [ensureAbsent, hx]
    exact congrArg (·, w) (if_pos rfl)
  · refine .inr ⟨.unwritable gap, ?_, hgap hn gap⟩
    rw [ensureAbsent, hx]
    rfl

/-- Something is looked for and used at once. -/
theorem looks_look {good : sh.Answer → Prop} {bad : Failure → Prop} (part : String)
    (hw : w.faults = [])
    (hc : ∀ k, c.on w.store k = ((r, w.store), k)) (h : Lookup present admitted absent found r)
    (hgood : present → ∀ a, found a → good a)
    (hbad : ¬ present → ∀ e, Denied admitted absent e → bad e) :
    (look part .outside c).Looks w good bad := by
  have hask : (ask .outside c).Looks w (fun g => ∃ a, g = .own a ∧ good a) bad :=
    looks_lookup hw hc h (fun hp a ha => ⟨a, rfl, hgood hp a ha⟩) hbad
  apply hask.bind
  rintro _ ⟨a, rfl, ha⟩
  exact looks_pure ha

/-- Whatever a reading shows, it leaves a world that a request cannot tell from the one before. -/
theorem like_ask (c : Call sh) (hw : w.faults = [])
    (hc : c.on w.store w.clock = ((r, w.store), w.clock)) :
    (ask .outside c w).2.Like w := by
  have hseen : w.seen .outside = w.store := rfl
  rw [ask, guarded_of_no_faults _ _ _ w hw, bind_apply, reach_of_no_faults .outside c hw,
    perform, hseen, hc]
  cases r with
  | ok a => exact .refl w
  | error e => cases e <;> exact ⟨rfl, rfl, rfl, rfl⟩

end Answers
end Job

namespace Undertaking

open Job LawfulStore

variable {σ : Type} [Gateway σ] [LawfulStore σ] {w : World σ}

/-- A team can be founded under a name that is not empty and not taken. -/
theorem plan_found (hw : w.faults = []) (hs : Sound w.store) (t : Team) :
    (UseCase.found t).plan.Looks w
      (fun p => p = .pending (found t).rest ∧ t.name.isEmpty = false ∧ Admits σ t.name)
      (fun e => (t.name.isEmpty = true ∧ e = .refuse .emptyName) ∨
        (t.name ∈ (contents w.store).teams ∧ e = .refuse .teamExists) ∨
          (¬ Admits σ t.name ∧ ∃ gap, e = .unwritable gap)) := by
  have hfound : (Roster.found t).Looks w
      (fun p => p.map Reply.team = .pending (found t).rest ∧ t.name.isEmpty = false ∧
        Admits σ t.name)
      (fun e => (t.name.isEmpty = true ∧ e = .refuse .emptyName) ∨
        (t.name ∈ (contents w.store).teams ∧ e = .refuse .teamExists) ∨
          (¬ Admits σ t.name ∧ ∃ gap, e = .unwritable gap)) := by
    unfold Roster.found
    by_cases ht : t.name.isEmpty = true
    · rw [if_pos ht]
      exact looks_fail (.inl ⟨ht, rfl⟩)
    · have hlook : (ensureAbsent (ask .outside (.team t.name)) .teamNotFound .teamExists :
        Job σ Unit).Looks w
          (fun _ => Admits σ t.name)
          (fun e => (t.name.isEmpty = true ∧ e = .refuse .emptyName) ∨
            (t.name ∈ (contents w.store).teams ∧ e = .refuse .teamExists) ∨
              (¬ Admits σ t.name ∧ ∃ gap, e = .unwritable gap)) :=
        looks_ensureAbsent hw (fun _ => rfl) (team_lookup t.name hs) .teamExists (fun _ ha => ha)
          (fun hp => .inr (.inl ⟨hp, rfl⟩)) (fun hn gap => .inr (.inr ⟨hn, gap, rfl⟩))
      have hname : t.name.isEmpty = false := by simpa using ht
      rw [if_neg ht]
      exact hlook.bind fun _ ha => looks_pure ⟨rfl, hname, ha⟩
  exact hfound.bind fun p hp => looks_pure hp

/-- A user who is there is found. -/
theorem looks_user (hw : w.faults = []) (hs : Sound w.store) (id : Text) :
    (ask .outside (.user id) : Job σ (Given User)).Looks w
      (fun g => ∃ v ∈ (contents w.store).users, v.id = id ∧ g = .own v)
      (fun e => id ∉ (contents w.store).userIds ∧ Denied (Admits σ id) .userNotFound e) :=
  looks_lookup hw (fun _ => rfl) (user_lookup id hs) (fun _ v hv => ⟨v, hv.1, hv.2, rfl⟩)
    (fun hn _ he => ⟨hn, he⟩)

/-- A user can be switched who is there. -/
theorem plan_switch (hw : w.faults = []) (hs : Sound w.store) (id : Text) (active : Bool) :
    (UseCase.switch id active).plan.Looks w
      (fun p => p = .pending (switch id active).rest ∧ id ∈ (contents w.store).userIds)
      (fun e => id ∉ (contents w.store).userIds ∧ Denied (Admits σ id) .userNotFound e) := by
  have hlook := looks_user hw hs id
  have hswitch : (Roster.switch id active).Looks w
      (fun p => p.map (fun u => u.reply .user) = .pending (switch id active).rest ∧
        id ∈ (contents w.store).userIds)
      (fun e => id ∉ (contents w.store).userIds ∧ Denied (Admits σ id) .userNotFound e) := by
    refine hlook.bind fun _ ⟨v, hv, hid, _⟩ => looks_pure ⟨rfl, ?_⟩
    exact ((contents w.store).mem_userIds id).2 ⟨v, hv, hid⟩
  exact hswitch.bind fun p hp => looks_pure hp

/-- A pull request that is there is found. -/
theorem looks_pullRequest (hw : w.faults = []) (hs : Sound w.store) (id : Text) :
    (look "status" .outside (.pullRequest id) : Job σ PullRequest).Looks w
      (fun p => ∃ i ∈ (contents w.store).items, i.id = id ∧ p = (contents w.store).shown i)
      (fun e => id ∉ (contents w.store).itemIds ∧
        Denied (Admits σ id) .pullRequestNotFound e) :=
  looks_look "status" hw (fun _ => rfl) (pullRequest_lookup id hs) (fun _ _ hp => hp)
    (fun hn _ he => ⟨hn, he⟩)

/-- A pull request can be merged that is there, and one that is merged is left alone. -/
theorem plan_merge (hw : w.faults = []) (hs : Sound w.store) (id : Text) :
    (UseCase.merge id).plan.Looks w
      (fun p => ∃ i ∈ (contents w.store).items, i.id = id ∧
        (i.status = .merged ∧ p = .finished (.pullRequest ((contents w.store).shown i)) ∨
          i.status ≠ .merged ∧ p = .pending (merge id).rest))
      (fun e => id ∉ (contents w.store).itemIds ∧
        Denied (Admits σ id) .pullRequestNotFound e) := by
  have hmerge : (Review.merge id).Looks w
      (fun p => ∃ i ∈ (contents w.store).items, i.id = id ∧
        (i.status = .merged ∧ p.map Reply.pullRequest = .finished
          (.pullRequest ((contents w.store).shown i)) ∨
          i.status ≠ .merged ∧ p.map Reply.pullRequest = .pending (merge id).rest))
      (fun e => id ∉ (contents w.store).itemIds ∧
        Denied (Admits σ id) .pullRequestNotFound e) := by
    unfold Review.merge
    apply (looks_pullRequest hw hs id).bind
    rintro _ ⟨i, hi, hid, rfl⟩
    have hstatus : ((contents w.store).shown i).status = i.status := rfl
    rw [hstatus]
    split
    · next hm => exact looks_pure ⟨i, hi, hid, .inl ⟨hm, rfl⟩⟩
    · next hm => exact looks_pure ⟨i, hi, hid, .inr ⟨hm, rfl⟩⟩
  exact hmerge.bind fun p hp => looks_pure hp

/-- A reviewer can be relieved on a pull request that is there and not merged. -/
theorem plan_reassign (hw : w.faults = []) (hs : Sound w.store) (id old : Text) :
    (UseCase.reassign id old).plan.Looks w
      (fun p => p = .pending (reassign id old).rest ∧ id ∈ (contents w.store).itemIds)
      (fun e => (id ∉ (contents w.store).itemIds ∧
          Denied (Admits σ id) .pullRequestNotFound e) ∨
        ∃ i ∈ (contents w.store).items, i.id = id ∧ i.status = .merged ∧
          e = .refuse .alreadyMerged) := by
  have hreassign : (Review.reassign id old).Looks w
      (fun p => (p.map fun q => Reply.reassigned q.1 q.2) = .pending (reassign id old).rest ∧
        id ∈ (contents w.store).itemIds)
      (fun e => (id ∉ (contents w.store).itemIds ∧
          Denied (Admits σ id) .pullRequestNotFound e) ∨
        ∃ i ∈ (contents w.store).items, i.id = id ∧ i.status = .merged ∧
            e = .refuse .alreadyMerged) := by
    unfold Review.reassign
    refine ((looks_pullRequest hw hs id).mono (fun _ hp => hp) (fun _ he => .inl he)).bind ?_
    rintro _ ⟨i, hi, hid, rfl⟩
    have hmem : id ∈ (contents w.store).itemIds :=
      ((contents w.store).mem_itemIds id).2 ⟨i, hi, hid⟩
    by_cases hm : i.status = .merged
    · have hstatus : ((contents w.store).shown i).status = .merged := hm
      simp only [hstatus, if_true]
      exact looks_fail (.inr ⟨i, hi, hid, hm, rfl⟩)
    · have hstatus : ¬ ((contents w.store).shown i).status = .merged := hm
      simp only [if_neg hstatus]
      exact looks_pure ⟨rfl, hmem⟩
  exact hreassign.bind fun p hp => looks_pure hp

/-- The members of a team whom a request draws from are those of the store. -/
theorem looks_teammates (hw : w.faults = []) (hs : Sound w.store) (team : Option Text)
    (except : Text) :
    (Review.teammates .outside team except).Looks w
      (fun ids => ids = ((contents w.store).others team except).sort)
      (fun _ => ¬ (Admits σ except ∧ ∀ name ∈ team, Admits σ name)) := by
  cases team with
  | none => exact looks_pure (by simp [Contents.others])
  | some name =>
    have hask :
        (ask .outside (.activeMembers name (some except)) : Job σ (Given (List User))).Looks w
          (fun us => us.ids = .ok ((contents w.store).others (some name) except).sort)
          (fun _ => ¬ (Admits σ except ∧ ∀ x ∈ some name, Admits σ x)) := by
      refine looks_listing hw (fun _ => rfl) (activeMembers_listing name (some except) hs)
        (fun us hus => ?_)
        (fun hn _ h => hn ⟨h.2 name rfl, by simpa using h.1⟩)
      rw [Given.ids_own, hus.1]
      rfl
    refine hask.bind fun us hus => ?_
    rw [hus]
    exact looks_pure rfl

/-- There must not be a pull request under an id that is to be taken. -/
theorem looks_absent (hw : w.faults = []) (hs : Sound w.store) (id : Text) :
    (ensureAbsent (ask .outside (.pullRequest id)) .pullRequestNotFound .pullRequestExists :
      Job σ Unit).Looks w (fun _ => id ∉ (contents w.store).itemIds)
      (fun e => (id ∈ (contents w.store).itemIds ∧ e = .refuse .pullRequestExists) ∨
        ¬ Admits σ id ∧ ∃ gap, e = .unwritable gap) :=
  looks_ensureAbsent hw (fun _ => rfl) (pullRequest_lookup id hs) .pullRequestExists
    (fun hn _ => hn) (fun hp => .inl ⟨hp, rfl⟩) fun hn gap => .inr ⟨hn, gap, rfl⟩

/-- A pull request can be opened under a new id by somebody who is there, and its reviewers are
drawn by then. -/
theorem plan_opening (hw : w.faults = []) (hs : Sound w.store) (id name author : Text) :
    (UseCase.opening id name author).plan.Draws w fun p d =>
      ∃ drawn, selectUpTo ((contents w.store).teammates author).sort 2 w.draws = (drawn, d) ∧
        p = .pending (opening id name author drawn).rest ∧ author ∈ (contents w.store).userIds := by
  have huser := looks_user hw hs author
  have habsent := looks_absent hw hs id
  have hopening : (Review.opening id name author).Draws w fun p d =>
      ∃ drawn, selectUpTo ((contents w.store).teammates author).sort 2 w.draws = (drawn, d) ∧
        p.map Reply.pullRequest = .pending (opening id name author drawn).rest ∧
          author ∈ (contents w.store).userIds := by
    refine huser.bind_draws ?_
    rintro _ ⟨v, hv, rfl, rfl⟩
    refine habsent.bind_draws fun _ _ => (looks_teammates hw hs v.team v.id).bind_draws ?_
    rintro _ rfl
    rw [← Contents.teammates_eq (injOn_user hs) hv]
    exact draws_choose ⟨_, rfl, rfl, ((contents w.store).mem_userIds v.id).2 ⟨v, hv, rfl⟩⟩
  rcases hopening.map (Plan.map Reply.pullRequest) with
    ⟨_, d, hx, p, rfl, drawn, hdrawn, hp, hauthor⟩ | ⟨e, hx⟩
  · exact .inl ⟨_, d, hx, drawn, hdrawn, hp, hauthor⟩
  · exact .inr ⟨e, hx⟩

/-- The store of consistent contents can keep the name of a team that there is. -/
theorem admits_member (hs : Sound w.store) (hc : (contents w.store).Consistent) {v : User}
    (hv : v ∈ (contents w.store).users) : Admits σ v.id ∧ ∀ name ∈ v.team, Admits σ name := by
  obtain ⟨t, ht, hteam⟩ := hc.team_mem v hv
  refine ⟨admits_user hs v.id (((contents w.store).mem_userIds v.id).2 ⟨v, hv, rfl⟩), ?_⟩
  simpa [hteam] using admits_team hs t ht

/-- Nothing keeps a pull request from being opened but what is found out of its author and its
id. -/
theorem plan_opening_fails (hw : w.faults = []) (hs : Sound w.store)
    (hc : (contents w.store).Consistent) (id name author : Text) :
    (UseCase.opening id name author).plan.Fails w fun e => Denied (Admits σ author) .userNotFound e ∨
      e = .refuse .pullRequestExists ∨ ¬ Admits σ id ∧ ∃ gap, e = .unwritable gap := by
  refine Fails.map (((looks_user hw hs author).mono (fun _ h => h) fun _ he =>
    .inl he.2).bind_fails ?_) (Plan.map Reply.pullRequest)
  rintro _ ⟨v, hv, rfl, rfl⟩
  refine ((looks_absent hw hs id).mono (fun _ h => h) fun _ he =>
    .inr (he.imp_left And.right)).bind_fails fun _ _ => ?_
  refine ((looks_teammates hw hs v.team v.id).mono (fun _ h => h) fun _ hn =>
    absurd (admits_member hs hc hv) hn).bind_fails fun ids _ => ?_
  intro e w' hx
  cases hx

/-- Who is to leave belongs to the team. Where there is such a team, nothing but a stranger is in
the way. -/
theorem looks_depart (hw : w.faults = []) (hs : Sound w.store) (team : Text) (users : List Text) :
    (Departure.depart team users).Looks w
      (fun p => (users = [] ∧ ∃ a, p = .finished a) ∨
        p.map Reply.deactivation = .pending (depart team users.eraseDups).rest ∧
          team ∈ (contents w.store).teams ∧ ∀ id ∈ users, id ∈ (contents w.store).staff team)
      (fun e => (team ∉ (contents w.store).teams ∧ Denied (Admits σ team) .teamNotFound e) ∨
        ∃ stranger ∈ users, stranger ∉ (contents w.store).staff team ∧
          e = Departure.strangerNote stranger team) := by
  unfold Departure.depart
  by_cases hnobody : users.eraseDups.isEmpty = true
  · simp only [hnobody, if_true]
    have hnil : users = [] := List.eq_nil_iff_forall_not_mem.2 fun id hid => by
      have hmem := List.mem_eraseDups.2 hid
      rw [List.isEmpty_iff.1 hnobody] at hmem
      exact List.not_mem_nil hmem
    exact looks_pure (.inl ⟨hnil, _, rfl⟩)
  · simp only [if_neg hnobody]
    have hteam : (ask .outside (.team team) : Job σ (Given Team)).Looks w
        (fun _ => team ∈ (contents w.store).teams)
        (fun e => (team ∉ (contents w.store).teams ∧ Denied (Admits σ team) .teamNotFound e) ∨
          ∃ stranger ∈ users, stranger ∉ (contents w.store).staff team ∧
            e = Departure.strangerNote stranger team) :=
      looks_lookup hw (fun _ => rfl) (team_lookup team hs) (fun hp _ _ => hp)
        fun hn _ he => .inl ⟨hn, he⟩
    refine hteam.bind fun _ ht => ?_
    have hmembers : (ask .outside (.members team) : Job σ (Given (List User))).Looks w
        (fun us => us.ids = .ok ((contents w.store).staff team).sort)
        (fun e => (team ∉ (contents w.store).teams ∧ Denied (Admits σ team) .teamNotFound e) ∨
          ∃ stranger ∈ users, stranger ∉ (contents w.store).staff team ∧
            e = Departure.strangerNote stranger team) := by
      refine looks_listing hw (fun _ => rfl) (members_listing team hs) (fun us hus => ?_)
        (fun hn _ => absurd (admits_team hs team ht) hn)
      rw [Given.ids_own, hus.1]
    refine hmembers.bind fun us hus => ?_
    rw [hus]
    refine looks_ofExcept ?_
    split
    · next stranger hfound =>
      refine looks_fail (.inr ⟨stranger, ?_, ?_, rfl⟩)
      · exact List.mem_eraseDups.1 (List.mem_of_find?_eq_some hfound)
      · simpa using List.find?_some hfound
    · next hnone =>
      refine looks_pure (.inr ⟨rfl, ht, fun id hid => ?_⟩)
      have hmember := List.find?_eq_none.1 hnone id (List.mem_eraseDups.2 hid)
      simpa using hmember

/-- Who is let go one by one belongs to the team, which is there. -/
theorem plan_depart_refused (hw : w.faults = []) (hs : Sound w.store) (team : Text)
    (users : List Text) :
    (UseCase.depart team users).plan.Looks w
      (fun p => (users = [] ∧ ∃ a, p = .finished a) ∨
        p = .pending (depart team users.eraseDups).rest ∧
          team ∈ (contents w.store).teams ∧ ∀ id ∈ users, id ∈ (contents w.store).staff team)
      (fun e => (team ∉ (contents w.store).teams ∧ Denied (Admits σ team) .teamNotFound e) ∨
        ∃ stranger ∈ users, stranger ∉ (contents w.store).staff team ∧
          e = Departure.strangerNote stranger team) := by
  refine (looks_depart hw hs team users).bind fun p hp => looks_pure ?_
  rcases hp with ⟨hnil, a, rfl⟩ | hp
  · exact .inl ⟨hnil, _, rfl⟩
  · exact .inr hp

/-- Nothing but a stranger keeps members of a team that is there from being let go. -/
theorem plan_depart_members (hw : w.faults = []) (hs : Sound w.store) (team : Text)
    (users : List Text) :
    (UseCase.depart team users).plan.Looks w
      (fun p => (users = [] ∧ ∃ a, p = .finished a) ∨
        p = .pending (depart team users.eraseDups).rest ∧
          team ∈ (contents w.store).teams ∧ ∀ id ∈ users, id ∈ (contents w.store).staff team)
      (fun e => team ∈ (contents w.store).teams →
        ∃ stranger ∈ users, stranger ∉ (contents w.store).staff team ∧
          e = Departure.strangerNote stranger team) :=
  (plan_depart_refused hw hs team users).mono (fun _ hp => hp)
    fun _ he ht => he.resolve_left fun hn => hn.1 ht

/-- Who is let go one by one belongs to the team. -/
theorem plan_depart (hw : w.faults = []) (hs : Sound w.store) (team : Text) (users : List Text) :
    (UseCase.depart team users).plan.Looks w
      (fun p => (∃ a, p = .finished a) ∨ p = .pending (depart team users.eraseDups).rest ∧
        team ∈ (contents w.store).teams ∧ ∀ id ∈ users, id ∈ (contents w.store).staff team)
      (fun _ => True) :=
  (plan_depart_members hw hs team users).mono (fun _ hp => hp.imp_left And.right)
    fun _ _ => trivial

/-- Whoever is let go with the whole team belongs to it, so that nobody is a stranger. -/
theorem plan_departAll (hw : w.faults = []) (hs : Sound w.store) (team : Text) :
    (UseCase.departAll team).plan.Looks w
      (fun p => (∃ a, p = .finished a) ∨ ∃ leaving, p = .pending (depart team leaving).rest ∧
        team ∈ (contents w.store).teams ∧ ∀ id ∈ leaving, id ∈ (contents w.store).staff team)
      (fun e => team ∉ (contents w.store).teams ∧ Denied (Admits σ team) .teamNotFound e) := by
  have hteam : (look "members" .outside (.team team) : Job σ Team).Looks w
      (fun t => t.members.map User.id = ((contents w.store).staff team).sort)
      (fun e => team ∉ (contents w.store).teams ∧ Denied (Admits σ team) .teamNotFound e) :=
    looks_look "members" hw (fun _ => rfl) (team_lookup team hs) (fun _ _ ht => ht.2.1)
      (fun hn _ he => ⟨hn, he⟩)
  have hall : (Departure.departAll team).Looks w
      (fun p => (∃ a, p = .finished a) ∨ ∃ leaving,
        p.map Reply.deactivation = .pending (depart team leaving).rest ∧
        team ∈ (contents w.store).teams ∧ ∀ id ∈ leaving, id ∈ (contents w.store).staff team)
      (fun e => team ∉ (contents w.store).teams ∧ Denied (Admits σ team) .teamNotFound e) := by
    refine hteam.bind fun t ht =>
      (looks_depart hw hs team _).mono (fun p hp => ?_) fun e he => ?_
    · rcases hp with ⟨-, hp⟩ | ⟨hp, ht, hids⟩
      · exact .inl hp
      · exact .inr ⟨_, hp, ht, fun id hid => hids id (List.mem_eraseDups.1 hid)⟩
    · refine he.resolve_right ?_
      rintro ⟨stranger, hmem, hstranger, -⟩
      obtain ⟨u, hu, rfl⟩ := List.mem_map.1 hmem
      have hstaff : u.id ∈ ((contents w.store).staff team).sort :=
        ht ▸ List.mem_map_of_mem (List.mem_of_mem_filter hu)
      exact hstranger ((Finset.mem_sort _).1 hstaff)
  refine hall.bind fun p hp => looks_pure ?_
  rcases hp with ⟨a, rfl⟩ | hp
  · exact .inl ⟨_, rfl⟩
  · exact .inr hp

/-- Who is drawn from a set of ids: as many as are wanted and there, and nobody twice. -/
theorem drawn_spec (limit : Nat) {ids : Finset Text} {d d' : Draws} {drawn : List Text}
    (h : selectUpTo ids.sort limit d = (drawn, d')) :
    drawn.Nodup ∧ (∀ r ∈ drawn, r ∈ ids) ∧ drawn.length = min limit ids.card := by
  obtain ⟨hn, hl⟩ := selectUpTo_nodup (ids.sort_nodup (· ≤ ·)) limit d
  have hm : ∀ r ∈ (selectUpTo ids.sort limit d).1, r ∈ ids.sort := fun _ => mem_of_mem_selectUpTo
  rw [h] at hn hm hl
  exact ⟨hn, fun r hr => (Finset.mem_sort _).1 (hm r hr), hl.trans (by rw [Finset.length_sort])⟩

/-- What looking around comes to: a failure or an answer, and nothing has changed, or an undertaking
of the use case is pending that was advised, and nothing but the draws has changed. -/
def Planned (u : UseCase) (w : World σ) (r : Except Failure (Plan σ Reply) × World σ) : Prop :=
  (∃ e w', r = (.error e, w') ∧ w'.Like w) ∨
    (∃ a w', r = (.ok (.finished a), w') ∧ w'.Like w ∧ u.AtOnce (contents w.store) a) ∨
    ∃ (t : Undertaking) (d : Draws), r = (.ok (.pending t.rest), { w with draws := d }) ∧
      t.Advised (contents w.store) ∧ u.Undertakes t

theorem planned_of_looks {u : UseCase} {x : Job σ (Plan σ Reply)} {good : Plan σ Reply → Prop}
    {bad : Failure → Prop} (h : x.Looks w good bad)
    (hgood : ∀ p, good p → (∃ a, p = .finished a ∧ u.AtOnce (contents w.store) a) ∨
      ∃ t : Undertaking, p = .pending t.rest ∧ t.Advised (contents w.store) ∧ u.Undertakes t) :
    Planned u w (x w) := by
  rcases h with ⟨p, hx, hp⟩ | ⟨e, hx, -⟩
  · rw [hx]
    rcases hgood p hp with ⟨a, rfl, ha⟩ | ⟨t, rfl, ha⟩
    · exact .inr (.inl ⟨a, w, rfl, .refl w, ha⟩)
    · exact .inr (.inr ⟨t, w.draws, rfl, ha⟩)
  · rw [hx]
    exact .inl ⟨e, w, rfl, .refl w⟩

/-- A reading request is answered at once. -/
theorem planned_of_like {α : Type} {u : UseCase} {x : Job σ α} (f : α → Reply)
    (hx : (x w).2.Like w) (hf : ∀ a, u.AtOnce (contents w.store) (f a)) :
    Planned u w ((do return .finished (f (← x)) : Job σ (Plan σ Reply)) w) := by
  rw [bind_apply]
  rcases hxw : x w with ⟨e | a, w'⟩
  · rw [hxw] at hx
    exact .inl ⟨e, w', rfl, hx⟩
  · rw [hxw] at hx
    exact .inr (.inl ⟨f a, w', rfl, hx, hf a⟩)

theorem planned_opening (hw : w.faults = []) (hs : Sound w.store) (id name author : Text) :
    Planned (.opening id name author) w ((UseCase.opening id name author).plan w) := by
  rcases plan_opening hw hs id name author with ⟨_, d, hx, drawn, hdrawn, rfl, hauthor⟩ | ⟨e, hx⟩
  · obtain ⟨-, hsub, hlength⟩ := drawn_spec 2 hdrawn
    have hnumber : drawn.length ≤ 2 := by omega
    refine .inr (.inr ⟨opening id name author drawn, d, hx, ⟨hauthor, hnumber, fun r hr => ⟨?_, ?_⟩⟩,
      drawn, rfl⟩)
    · exact (((contents w.store).mem_teammates author r).1 (hsub r hr)).1
    · exact (contents w.store).teammates_subset_userIds author (hsub r hr)
  · exact .inl ⟨e, w, hx, .refl w⟩

/-- Whatever is asked for, looking around comes to that. -/
theorem plan_cases (hw : w.faults = []) (hs : Sound w.store) (u : UseCase) :
    Planned u w (u.plan w) := by
  cases u with
  | found t =>
    refine planned_of_looks (plan_found hw hs t) ?_
    rintro p ⟨rfl, hname, -⟩
    exact .inr ⟨found t, rfl, hname, rfl⟩
  | team name =>
    exact planned_of_like (Given.reply .team) (like_ask (.team name) hw rfl) fun _ => trivial
  | depart team users =>
    refine planned_of_looks (plan_depart hw hs team users) ?_
    rintro p (⟨a, rfl⟩ | ⟨rfl, ht, hids⟩)
    · exact .inl ⟨a, rfl, trivial⟩
    · exact .inr ⟨depart team users.eraseDups, rfl, advised_depart ht hids, rfl⟩
  | departAll team =>
    refine planned_of_looks (plan_departAll hw hs team) ?_
    rintro p (⟨a, rfl⟩ | ⟨leaving, rfl, ht, hids⟩)
    · exact .inl ⟨a, rfl, trivial⟩
    · exact .inr ⟨depart team leaving, rfl, ⟨ht, fun id hid =>
        (contents w.store).staff_subset_userIds team (hids id hid)⟩, leaving, rfl⟩
  | switch id active =>
    refine planned_of_looks (plan_switch hw hs id active) ?_
    rintro p ⟨rfl, hid⟩
    exact .inr ⟨switch id active, rfl, hid, rfl⟩
  | reviewedBy user =>
    refine planned_of_like (Given.reply .pullRequests)
      (like_bind (like_ask (.user user) hw rfl) fun _ w' hw' => ?_) fun _ => trivial
    exact like_ask (.reviewedBy user) (hw'.faults.trans hw) rfl
  | countsOf user =>
    refine planned_of_like (Given.reply .userCounts)
      (like_bind (like_ask (.user user) hw rfl) fun _ w' hw' => ?_) fun _ => trivial
    exact like_ask (.userCounts user) (hw'.faults.trans hw) rfl
  | opening id name author => exact planned_opening hw hs id name author
  | merge id =>
    refine planned_of_looks (plan_merge hw hs id) ?_
    rintro p ⟨i, hi, hid, ⟨hm, rfl⟩ | ⟨-, rfl⟩⟩
    · exact .inl ⟨_, rfl, i, hi, hid, hm, rfl⟩
    · exact .inr ⟨merge id, rfl, ((contents w.store).mem_itemIds id).2 ⟨i, hi, hid⟩, rfl⟩
  | reassign id old =>
    refine planned_of_looks (plan_reassign hw hs id old) ?_
    rintro p ⟨rfl, hid⟩
    exact .inr ⟨reassign id old, rfl, hid, rfl⟩
  | totals => exact planned_of_like (Given.reply .totals) (like_ask .totals hw rfl) fun _ => trivial

end Undertaking
end ReviewDesk
