import ReviewDesk.Proofs.Rollback

/-!
# What comes after a commit

Once a transaction is committed, nothing that is left to do fails by itself: the answer of the
transaction is the store's own, what was merged has a date, and a user who was switched is still
there to be read back. So a request that fails where no fault lies in wait has changed nothing,
even if some of the tables of the store are lost.

Main definition: `EnduringStore` says what this takes of a store.
-/
namespace ReviewDesk

/-- A store that stands by what it shows: what was written can be read back, and what it shows after
a loss is what it showed before. -/
class EnduringStore (σ : Type) [Gateway σ] : Prop where
  pullRequest_lose : ∀ {s : σ} {kind : Kind} {id : Text} {p : PullRequest},
    Gateway.pullRequest id (Gateway.lose kind s).2 = .ok p → Gateway.pullRequest id s = .ok p
  pullRequest_merged : ∀ {s s' : σ} {id : Text} {p q : PullRequest} {t : Timestamp},
    Gateway.pullRequest id s = .ok p → p.status ≠ .merged →
    Gateway.updatePullRequest { p with status := .merged, merged := some t } s = (.ok (), s') →
    Gateway.pullRequest id s' = .ok q → q.merged.isSome = true
  user_switched : ∀ {s s' : σ} {id : Text} {u : User} {active : Bool},
    Gateway.user id s = .ok u → Gateway.setActivity [{ u with active := active }] s = (.ok (), s') →
    Gateway.user id (Gateway.settle s s') = .ok { u with active := active }

/-- Every pull request that a store shows as merged has a date. -/
def ShowsDates {σ : Type} [Gateway σ] (s : σ) : Prop :=
  ∀ id p, Gateway.pullRequest id s = .ok p → p.status = .merged → p.merged.isSome = true

namespace Job

variable {σ α β : Type}

/-- A predicate that all answers of a job satisfy where nothing lies in wait. -/
def Yields (x : Job σ α) (P : α → Prop) : Prop :=
  ∀ w a w', x w = (.ok a, w') → w.faults = [] → P a

/-- Where nothing lies in wait, an answer is the store's own. -/
def Owns (x : Job σ (Given α)) : Prop := x.Yields fun g => ∃ a, g = .own a

/-- A job that changes nothing where it fails and nothing lies in wait. -/
def Safe (x : Job σ α) (w : World σ) : Prop :=
  ∀ e w', x w = (.error e, w') → w'.store = w.store

/-- A predicate that all answers of a job satisfy. -/
def Returns (x : Job σ α) (P : α → Prop) : Prop := ∀ w a w', x w = (.ok a, w') → P a

section Rules

theorem bind_ok {x : Job σ α} {f : α → Job σ β} {w w' : World σ} {b : β}
    (h : (x >>= f) w = (.ok b, w')) : ∃ a w₁, x w = (.ok a, w₁) ∧ f a w₁ = (.ok b, w') := by
  rw [bind_apply] at h
  rcases hx : x w with ⟨e | a, w₁⟩
  · rw [hx] at h
    cases h
  · rw [hx] at h
    exact ⟨a, w₁, rfl, h⟩

theorem bind_error {x : Job σ α} {f : α → Job σ β} {w w' : World σ} {e : Failure}
    (h : (x >>= f) w = (.error e, w')) :
    x w = (.error e, w') ∨ ∃ a w₁, x w = (.ok a, w₁) ∧ f a w₁ = (.error e, w') := by
  rw [bind_apply] at h
  rcases hx : x w with ⟨e' | a, w₁⟩
  · rw [hx] at h
    cases h
    exact .inl rfl
  · rw [hx] at h
    exact .inr ⟨a, w₁, rfl, h⟩

theorem returns_pure {P : α → Prop} {a : α} (h : P a) : (pure a : Job σ α).Returns P := by
  intro w b w' hb
  cases hb
  exact h

theorem returns_fail {P : α → Prop} (e : Failure) : (fail e : Job σ α).Returns P := by
  intro w b w' hb
  cases hb

theorem Returns.bind {x : Job σ α} {f : α → Job σ β} {P : α → Prop} {Q : β → Prop}
    (hx : x.Returns P) (hf : ∀ a, P a → (f a).Returns Q) : (x >>= f).Returns Q := by
  intro w b w' h
  obtain ⟨a, w₁, ha, hb⟩ := bind_ok h
  exact hf a (hx w a w₁ ha) w₁ b w' hb

theorem returns_after {x : Job σ α} {f : α → Job σ β} {Q : β → Prop}
    (hf : ∀ a, (f a).Returns Q) : (x >>= f).Returns Q :=
  Returns.bind (P := fun _ => True) (fun _ _ _ _ => trivial) fun a _ => hf a

theorem Returns.ite {c : Prop} [Decidable c] {x y : Job σ α} {P : α → Prop} (hx : x.Returns P)
    (hy : y.Returns P) : (if c then x else y).Returns P := by
  split
  · exact hx
  · exact hy

theorem Returns.yields {x : Job σ α} {P : α → Prop} (h : x.Returns P) : x.Yields P :=
  fun w a w' ha _ => h w a w' ha

theorem Yields.ite {c : Prop} [Decidable c] {x y : Job σ α} {P : α → Prop} (hx : x.Yields P)
    (hy : y.Yields P) : (if c then x else y).Yields P := by
  split
  · exact hx
  · exact hy

theorem owns_own (a : α) : (pure (.own a) : Job σ (Given α)).Owns :=
  (returns_pure ⟨a, rfl⟩).yields

theorem now_ok {w w' : World σ} {t : Timestamp} (h : now w = (.ok t, w')) :
    ∃ k, w' = { w with clock := k } := by
  rw [now] at h
  split at h
  · cases h
    exact ⟨_, rfl⟩
  · cases h

/-- A job after which nothing lies in wait either. -/
theorem yields_after {x : Job σ β} {f : β → Job σ α} {P : α → Prop}
    (hclean : ∀ w, w.faults = [] → (x w).2.faults = []) (hf : ∀ b, (f b).Yields P) :
    (x >>= f).Yields P := by
  intro w a w' h hw
  obtain ⟨b, w₁, hb, ha⟩ := bind_ok h
  have hw₁ := hclean w hw
  rw [hb] at hw₁
  exact hf b w₁ a w' ha hw₁

theorem Propagates.yields {x : Job σ β} {f : β → Job σ α} {P : α → Prop}
    (hx : x.Propagates fun _ _ => False) (hf : ∀ b, (f b).Yields P) : (x >>= f).Yields P :=
  yields_after hx.clean hf

/-- A job whose answer is used in another one. -/
theorem Yields.bind {x : Job σ α} {f : α → Job σ β} {P : α → Prop} {Q : β → Prop}
    (hx : x.Yields P) (hf : ∀ a, P a → (f a).Returns Q) : (x >>= f).Yields Q := by
  intro w b w' h hw
  obtain ⟨a, w₁, ha, hb⟩ := bind_ok h
  exact hf a (hx w a w₁ ha hw) w₁ b w' hb

variable [Gateway σ]

theorem owns_ask {sh : Shape} (scope : Scope) (c : Call sh) :
    (ask scope c : Job σ (Given sh.Answer)).Owns := by
  intro w g w' h hw
  obtain ⟨a, -, -, hg, -⟩ := ask_own h hw
  exact ⟨a, hg⟩

/-- What is looked at inside a transaction is what the working copy shows. -/
theorem look_own {sh : Shape} {part : String} {scope : Scope} {c : Call sh} {w w' : World σ}
    {a : sh.Answer} (h : look part scope c w = (.ok a, w')) (hw : w.faults = []) :
    ∃ after k, c.on (w.seen scope) w.clock = ((.ok a, after), k) ∧
      w' = ({ w with clock := k } : World σ).keep scope true after := by
  obtain ⟨g, w₁, hg, ha⟩ := bind_ok h
  obtain ⟨b, after, k, rfl, hon, rfl⟩ := ask_own hg hw
  cases ha
  exact ⟨after, k, hon, rfl⟩

/-- What is changed inside a transaction is in the working copy. -/
theorem tell_own {scope : Scope} {c : Call .nothing} {w w' : World σ}
    (h : tell scope c w = (.ok (), w')) (hw : w.faults = []) :
    ∃ after k, c.on (w.seen scope) w.clock = ((.ok (), after), k) ∧
      w' = ({ w with clock := k } : World σ).keep scope true after := by
  obtain ⟨g, w₁, hg, ha⟩ := bind_ok h
  obtain ⟨_, after, k, rfl, hon, rfl⟩ := ask_own hg hw
  cases ha
  exact ⟨after, k, hon, rfl⟩

end Rules

section Transactions

variable [Gateway σ]

/-- A transaction that is committed has answered from within. -/
theorem transaction_ok {body : Job σ (Given α)} {w w' : World σ} {g : Given α}
    (hw : w.faults = []) (h : transaction body w = (.ok g, w')) :
    ∃ w₁, body w.begin = (.ok g, w₁) ∧ w' = w₁.commit := by
  rw [transaction, guarded_of_no_faults _ _ _ w hw, transact] at h
  rcases hb : body w.begin with ⟨e | a, w₁⟩
  · rw [hb] at h
    cases congrArg Prod.fst h
  · rw [hb] at h
    cases h
    exact ⟨w₁, rfl, rfl⟩

theorem Yields.transaction {body : Job σ (Given α)} {P : Given α → Prop} (h : body.Yields P) :
    (transaction body).Yields P := by
  intro w g w' hg hw
  obtain ⟨w₁, hbody, -⟩ := transaction_ok hw hg
  exact h w.begin g w₁ hbody hw

theorem transaction_error {body : Job σ (Given α)} (hbody : body.Propagates fun _ _ => False)
    {w w' : World σ} {e : Failure} (hw : w.faults = [])
    (h : transaction body w = (.error e, w')) : w'.store = w.store := by
  rw [transaction, guarded_of_no_faults _ _ _ w hw] at h
  exact transact_error hbody h

theorem silently_error {body : Job σ Unit} (hbody : body.Propagates fun _ _ => False)
    {w w' : World σ} {e : Failure} (hw : w.faults = [])
    (h : silently body w = (.error e, w')) : w'.store = w.store := by
  rw [silently, guarded_of_no_faults _ _ _ w hw] at h
  rcases bind_error h with h | ⟨_, w₁, _, h⟩
  · exact transaction_error (hbody.bind fun _ => propagates_pure _) hw h
  · cases h

/-- A transaction with a tail that does not fail. -/
theorem safe_transaction {body : Job σ (Given α)} (hbody : body.Propagates fun _ _ => False)
    {f : Given α → Job σ β} {w : World σ} (hw : w.faults = [])
    (hf : ∀ g w₁ w₂ e w', body w.begin = (.ok g, w₁) → f g w₂ ≠ (.error e, w')) :
    (transaction body >>= f).Safe w := by
  intro e w' h
  rcases bind_error h with h | ⟨g, w₂, hg, h⟩
  · exact transaction_error hbody hw h
  · obtain ⟨w₁, hw₁, -⟩ := transaction_ok hw hg
    exact absurd h (hf g w₁ w₂ e w' hw₁)

end Transactions

/-- Getting past what lies in wait makes no difference. -/
theorem Safe.of_same {x : Job σ α} {w : World σ} {fs gs : List Fault} (h : x.Safe (w.facing []))
    (hsame : x (w.facing fs) = ((x (w.facing [])).1, (x (w.facing [])).2.facing gs)) :
    x.Safe (w.facing fs) := by
  intro e w' hx
  rw [hsame] at hx
  have herror : (x (w.facing [])).1 = .error e := congrArg Prod.fst hx
  have halone : x (w.facing []) = (.error e, (x (w.facing [])).2) := Prod.ext herror rfl
  have hstore : (x (w.facing [])).2.store = w'.store := congrArg (fun r => r.2.store) hx
  exact hstore ▸ h e _ halone

/-- Another form of the answer changes nothing. -/
theorem Safe.replying {x : Job σ α} {w : World σ} (h : x.Safe w) (f : α → Reply) :
    (Undertaking.replying f x).Safe w := by
  intro e w' hx
  rcases bind_error hx with hx | ⟨a, w₁, -, ha⟩
  · exact h e w' hx
  · cases ha

end Job

open Job

variable {σ : Type} [Gateway σ]

section Bodies

open Roster Review Departure

theorem owns_foundNow (t : Team) : (foundNow t : Job σ (Given Team)).Owns :=
  (propagates_tell _).yields fun _ => (propagates_tell _).yields fun _ => owns_ask _ _

theorem owns_openNow (id name author : Text) (reviewers : List Text) :
    (openNow id name author reviewers : Job σ (Given PullRequest)).Owns :=
  propagates_now.yields fun _ => (propagates_tell _).yields fun _ =>
    (propagates_tell _).yields fun _ =>
    owns_ask _ _

/-- Not only is the answer the store's own, but so is the pull request in it. -/
theorem yields_reassignNow (id old : Text) :
    (reassignNow id old : Job σ (Given (Given PullRequest × Option Text))).Yields fun g =>
      ∃ p successor, g = .own (.own p, successor) := by
  refine (propagates_look _ (.inl rfl)).yields fun current => .ite (returns_fail _).yields ?_
  refine (propagates_inside _).yields fun reviewers =>
    (propagates_ofExcept _).yields fun assigned => .ite (returns_fail _).yields ?_
  refine (propagates_look _ (.inl rfl)).yields fun reviewer =>
    (propagates_teammates _ _ _).yields fun candidates =>
      (propagates_choose _).yields fun taken => ?_
  refine (propagates_hand _ _ _).yields fun _ => (owns_ask _ _).bind ?_
  rintro _ ⟨p, rfl⟩
  exact returns_pure ⟨p, _, rfl⟩

theorem owns_departNow (team : Text) (leaving : List Text) :
    (departNow team leaving : Job σ (Given (List Reassignment))).Owns := by
  refine (propagates_inside _).yields fun given => (propagates_tell _).yields fun _ =>
    (propagates_ofExcept _).yields fun opened => .ite (owns_own _) ?_
  exact (propagates_inside _).yields fun batch => (propagates_inside _).yields fun staying =>
    (propagates_cascade _ _ _ _).yields fun _ => owns_own _

/-- What is merged within a transaction has a date, if what was merged before has one. -/
theorem mergeNow_dated [EnduringStore σ] {w w' : World σ} {id : Text} {g : Given PullRequest}
    (h : mergeNow id w = (.ok g, w')) (hw : w.faults = [])
    (hdates : ShowsDates (w.seen .inside)) : ∃ p, g = .own p ∧ p.merged.isSome = true := by
  obtain ⟨current, w₁, hlook, h⟩ := bind_ok h
  obtain ⟨after, k, hon, rfl⟩ := look_own hlook hw
  have hread : Gateway.pullRequest id (w.seen .inside) = .ok current :=
    congrArg (fun r => r.1.1) hon
  obtain rfl : w.seen .inside = after := congrArg (fun r => r.1.2) hon
  split at h
  case isTrue hmerged =>
    cases h
    exact ⟨current, rfl, hdates id current hread hmerged⟩
  case isFalse hopened =>
    obtain ⟨t, w₂, hnow, h⟩ := bind_ok h
    obtain ⟨k₂, rfl⟩ := now_ok hnow
    obtain ⟨_, w₃, htell, h⟩ := bind_ok h
    obtain ⟨s', k₃, hupdate, rfl⟩ := tell_own htell hw
    obtain ⟨q, after, k₄, rfl, hon, -⟩ := ask_own h hw
    have hback : Gateway.pullRequest id s' = .ok q := congrArg (fun r => r.1.1) hon
    have hwritten : Gateway.updatePullRequest
        { current with status := .merged, merged := some t } (w.seen .inside) = (.ok (), s') :=
      congrArg Prod.fst hupdate
    exact ⟨q, rfl, EnduringStore.pullRequest_merged hread hopened hwritten hback⟩

/-- A user who was switched is there to be read back. -/
theorem switchNow_read [EnduringStore σ] {w w' : World σ} {id : Text} {active : Bool}
    (hw : w.faults = []) (h : silently (switchNow id active) w = (.ok (), w')) :
    w'.faults = [] ∧ ∃ u, Gateway.user id w'.store = .ok u := by
  rw [silently, guarded_of_no_faults _ _ _ w hw] at h
  obtain ⟨g, w₁, htransaction, h⟩ := bind_ok h
  cases h
  obtain ⟨w₂, hbody, rfl⟩ := transaction_ok hw htransaction
  have hbegin : w.begin.faults = [] := hw
  obtain ⟨_, w₃, hswitch, h⟩ := bind_ok hbody
  cases h
  obtain ⟨u, w₄, hlook, htell⟩ := bind_ok hswitch
  obtain ⟨after, k, hon, rfl⟩ := look_own hlook hbegin
  have hread : Gateway.user id w.store = .ok u := congrArg (fun r => r.1.1) hon
  obtain rfl : w.store = after := congrArg (fun r => r.1.2) hon
  obtain ⟨s', k', hwrite, rfl⟩ := tell_own htell hbegin
  exact ⟨hw, _, EnduringStore.user_switched hread (congrArg Prod.fst hwrite)⟩

end Bodies

namespace Undertaking

/-- What is left to do changes nothing where it fails and nothing lies in wait. -/
theorem rest_safe [EnduringStore σ] {w : World σ} (hw : w.faults = []) (hdates : ShowsDates w.store)
    (t : Undertaking) : t.rest.Safe w := by
  cases t with
  | found t =>
    refine Safe.replying (safe_transaction (propagates_foundNow t) hw ?_) _
    intro g w₁ w₂ e w' hbody h
    obtain ⟨founded, rfl⟩ := owns_foundNow t _ g w₁ hbody hw
    cases h
  | switch id active =>
    refine Safe.replying ?_ _
    intro e w' h
    rcases bind_error h with h | ⟨_, w₁, hswitch, h⟩
    · exact silently_error (propagates_switchNow id active) hw h
    · obtain ⟨hw₁, u, hread⟩ := switchNow_read hw hswitch
      have hon : (Call.user id).on w₁.store w₁.clock = ((.ok u, w₁.store), w₁.clock) :=
        congrArg (fun r => ((r, w₁.store), w₁.clock)) hread
      have hback : ask .outside (.user id) (w₁.note (.activityChanged id active)) =
          (.ok (.own u), w₁.note (.activityChanged id active)) :=
        ask_outside (.user id) (w := w₁.note _) hw₁ hon nofun
      rcases bind_error h with h | ⟨_, w₂, hnote, h⟩
      · cases h
      · cases hnote
        rw [hback] at h
        cases h
  | depart team leaving =>
    refine Safe.replying (safe_transaction (propagates_departNow team leaving) hw ?_) _
    intro g w₁ w₂ e w' hbody h
    obtain ⟨reassignments, rfl⟩ := owns_departNow team leaving _ g w₁ hbody hw
    cases h
  | opening id name author reviewers =>
    refine Safe.replying (safe_transaction (propagates_openNow id name author reviewers) hw ?_) _
    intro g w₁ w₂ e w' hbody h
    obtain ⟨opened, rfl⟩ := owns_openNow id name author reviewers _ g w₁ hbody hw
    cases h
  | merge id =>
    refine Safe.replying (safe_transaction (propagates_mergeNow id) hw ?_) _
    intro g w₁ w₂ e w' hbody h
    obtain ⟨p, rfl, hdated⟩ := mergeNow_dated hbody hw hdates
    obtain ⟨t, ht⟩ := Option.isSome_iff_exists.1 hdated
    have hannounced : Review.announceMerge id p w₂ = (.error e, w') := h
    rw [Review.announceMerge, ht] at hannounced
    cases hannounced
  | reassign id old =>
    refine Safe.replying (safe_transaction (propagates_reassignNow id old) hw ?_) _
    intro g w₁ w₂ e w' hbody h
    obtain ⟨p, successor, rfl⟩ := yields_reassignNow id old _ g w₁ hbody hw
    cases h

end Undertaking
end ReviewDesk
