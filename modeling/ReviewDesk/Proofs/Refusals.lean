import ReviewDesk.Proofs.Counting
import ReviewDesk.Proofs.Course

/-!
# What requests are refused for

Each use case has refusals of its own. In an orderly world it fails for nothing else, unless it is
handed a text that the store cannot keep or reads a clock that is off the calendar. What was found
out by looking around makes the rest of the difference: who was there then is there when the
transaction begins.
-/
namespace ReviewDesk

open Job LawfulStore

namespace UseCase

/-- The refusals that a use case can be answered with. -/
def Refuses : UseCase → Failure → Prop
  | .found _, e => e = .refuse .emptyName ∨ e = .refuse .teamExists
  | .team _, e | .departAll _, e => e = .refuse .teamNotFound
  | .depart name users, e =>
    e = .refuse .teamNotFound ∨ ∃ user ∈ users, e = Departure.strangerNote user name
  | .switch _ _, e | .reviewedBy _, e | .countsOf _, e => e = .refuse .userNotFound
  | .opening _ _ _, e => e = .refuse .userNotFound ∨ e = .refuse .pullRequestExists
  | .merge _, e => e = .refuse .pullRequestNotFound
  | .reassign _ _, e =>
    e = .refuse .pullRequestNotFound ∨ e = .refuse .alreadyMerged ∨ e = .refuse .notReviewer
  | .totals, _ => False

/-- The texts that a use case hands to the store before it knows them to be there. -/
def handed : UseCase → List Text
  | .found t => t.name :: t.members.flatMap fun u => [u.id, u.name]
  | .team name | .depart name _ | .departAll name => [name]
  | .switch user _ | .reviewedBy user | .countsOf user => [user]
  | .opening id name author => [id, name, author]
  | .merge id | .reassign id _ => [id]
  | .totals => []

/-- A failure over a text that the store cannot keep. -/
def Unkept (σ : Type) [Gateway σ] [LawfulStore σ] (u : UseCase) (e : Failure) : Prop :=
  (∃ t ∈ u.handed, ¬ Admits σ t) ∧ ∃ gap, e = .unwritable gap

/-- Whether a use case dates something. -/
def Dates : UseCase → Prop
  | .opening _ _ _ | .merge _ => True
  | _ => False

/-- A failure over a clock whose next reading, by which something is to be dated, is no time of the
calendar. -/
def Untimed (k : Clock) (u : UseCase) (e : Failure) : Prop :=
  u.Dates ∧ e = .offCalendar ∧ k.now.isOnCalendar = false

variable {σ : Type} [Gateway σ] [LawfulStore σ] {u : UseCase} {e : Failure}

/-- What is denied is refused, or is a text that the store cannot keep. -/
theorem of_denied {t : Text} {why : Refusal} (h : Denied (Admits σ t) why e) (ht : t ∈ u.handed)
    (hwhy : u.Refuses (.refuse why)) : u.Refuses e ∨ u.Unkept σ e := by
  rcases h with ⟨-, rfl⟩ | ⟨hn, hgap⟩
  · exact .inl hwhy
  · exact .inr ⟨⟨t, ht, hn⟩, hgap⟩

theorem unkept_of_team {t : Team} (h : t.Unkept σ) (he : ∃ gap, e = .unwritable gap) :
    (found t).Unkept σ e := by
  refine ⟨?_, he⟩
  by_contra hall
  refine h ⟨?_, fun v hv => ⟨?_, ?_⟩⟩ <;> by_contra hn
  · exact hall ⟨t.name, by simp [handed], hn⟩
  · exact hall ⟨v.id, by simpa [handed] using .inr ⟨v, hv, .inl rfl⟩, hn⟩
  · exact hall ⟨v.name, by simpa [handed] using .inr ⟨v, hv, .inr rfl⟩, hn⟩

theorem unkept_of_opening {id name author : Text}
    (h : ¬ (Admits σ id ∧ Admits σ name ∧ Admits σ author)) (he : ∃ gap, e = .unwritable gap) :
    (opening id name author).Unkept σ e := by
  refine ⟨?_, he⟩
  by_contra hall
  refine h ⟨?_, ?_, ?_⟩ <;> by_contra hn
  · exact hall ⟨id, by simp [handed], hn⟩
  · exact hall ⟨name, by simp [handed], hn⟩
  · exact hall ⟨author, by simp [handed], hn⟩

end UseCase

section Requests

variable {σ : Type} [Gateway σ] [LawfulStore σ] [CountingStore σ] {w : World σ}

/-- Looking around fails for a refusal of the use case, or over a text that the store cannot
keep. -/
theorem Orderly.plan_fails (h : Orderly w) (u : UseCase) :
    u.plan.Fails w fun e => u.Refuses e ∨ u.Unkept σ e := by
  have hw := h.faults
  have hs := h.sound
  have hc := h.consistent
  cases u with
  | found t =>
    refine (Undertaking.plan_found hw hs t).fails.mono ?_
    rintro e (⟨-, rfl⟩ | ⟨-, rfl⟩ | ⟨hn, hgap⟩)
    · exact .inl (.inl rfl)
    · exact .inl (.inr rfl)
    · exact .inr (UseCase.unkept_of_team (fun h => hn h.1) hgap)
  | team name =>
    have hlook : (ask .outside (.team name) : Job σ (Given Team)).Looks w (fun _ => True)
        (fun e => Denied (Admits σ name) .teamNotFound e) :=
      looks_lookup hw (fun _ => rfl) (team_lookup name hs) (fun _ _ _ => trivial) fun _ _ he => he
    refine (hlook.fails.map _).mono fun e he => ?_
    exact UseCase.of_denied he (by simp [UseCase.handed]) rfl
  | depart name users =>
    refine (Undertaking.plan_depart_refused hw hs name users).fails.mono ?_
    rintro e (⟨-, he⟩ | ⟨stranger, hmem, -, rfl⟩)
    · exact UseCase.of_denied he (by simp [UseCase.handed]) (.inl rfl)
    · exact .inl (.inr ⟨stranger, hmem, rfl⟩)
  | departAll name =>
    refine (Undertaking.plan_departAll hw hs name).fails.mono ?_
    rintro e ⟨-, he⟩
    exact UseCase.of_denied he (by simp [UseCase.handed]) rfl
  | switch user active =>
    refine (Undertaking.plan_switch hw hs user active).fails.mono ?_
    rintro e ⟨-, he⟩
    exact UseCase.of_denied he (by simp [UseCase.handed]) rfl
  | reviewedBy user =>
    refine ((looks_reviewedBy hw hs h.comparable user).fails.map _).mono ?_
    rintro e ⟨-, he⟩
    exact UseCase.of_denied he (by simp [UseCase.handed]) rfl
  | countsOf user =>
    refine ((looks_countsOf hw hs hc user).fails.map _).mono ?_
    rintro e ⟨-, he⟩
    exact UseCase.of_denied he (by simp [UseCase.handed]) rfl
  | opening id name author =>
    refine (Undertaking.plan_opening_fails hw hs hc id name author).mono ?_
    rintro e (he | rfl | ⟨hn, hgap⟩)
    · exact UseCase.of_denied he (by simp [UseCase.handed]) (.inl rfl)
    · exact .inl (.inr rfl)
    · exact .inr (UseCase.unkept_of_opening (fun h => hn h.1) hgap)
  | merge id =>
    refine (Undertaking.plan_merge hw hs id).fails.mono ?_
    rintro e ⟨-, he⟩
    exact UseCase.of_denied he (by simp [UseCase.handed]) rfl
  | reassign id old =>
    refine (Undertaking.plan_reassign hw hs id old).fails.mono ?_
    rintro e (⟨-, he⟩ | ⟨i, -, -, -, rfl⟩)
    · exact UseCase.of_denied he (by simp [UseCase.handed]) (.inl rfl)
    · exact .inl (.inr (.inl rfl))
  | totals => exact ((looks_totals hw hs).fails.map _).mono fun _ => False.elim

/-- The rest of a request fails for a refusal of the use case, over a text that the store cannot
keep, or over the clock. -/
theorem Orderly.rest_fails (h : Orderly w) {u : UseCase} {t : Undertaking}
    (ha : t.Advised (contents w.store)) (hu : u.Undertakes t) :
    t.rest.Fails w fun e => u.Refuses e ∨ u.Unkept σ e ∨ u.Untimed w.clock e := by
  have hw := h.faults
  have hs := h.sound
  have hc := h.consistent
  cases u with
  | found team =>
    obtain rfl := hu
    refine (Undertaking.found_settles hw hs team).fails ?_
    rintro e d n (⟨-, rfl, -⟩ | ⟨-, hn, hgap⟩)
    · exact .inl (.inr rfl)
    · exact .inr (.inl (UseCase.unkept_of_team hn hgap))
  | depart name users =>
    obtain rfl := hu
    exact (Undertaking.depart_settles hw hs h.comparable ha).fails fun _ _ _ => False.elim
  | departAll name =>
    obtain ⟨leaving, rfl⟩ := hu
    exact (Undertaking.depart_settles hw hs h.comparable ha).fails fun _ _ _ => False.elim
  | switch user active =>
    obtain rfl := hu
    exact (Undertaking.switch_settles hw hs user active ha).fails fun _ _ _ => False.elim
  | opening id name author =>
    obtain ⟨reviewers, rfl⟩ := hu
    refine (Undertaking.opening_settles hw hs id name author reviewers).fails ?_
    rintro e d n (⟨rfl, hoff⟩ | ⟨hid, -, s', hs'⟩ | ⟨hn, hgap⟩ | ⟨⟨r, hr, hn⟩, -⟩)
    · exact .inr (.inr ⟨trivial, rfl, hoff⟩)
    · obtain ⟨e', s'', hdenied⟩ := CountingStore.savePullRequest_denied
        ⟨id, name, author, .opened, [], some w.clock.now, none⟩ (w.clock.after 1) hs rfl hid
      rw [hs'] at hdenied
      obtain ⟨heq, ⟨-, rfl⟩ | ⟨hn, hgap⟩⟩ := hdenied
      · cases heq
        exact .inl (.inr rfl)
      · cases heq
        exact .inr (.inl (UseCase.unkept_of_opening hn hgap))
    · exact .inr (.inl (UseCase.unkept_of_opening hn hgap))
    · exact absurd (ha.2.2 r hr).2 hn
  | merge id =>
    obtain rfl := hu
    refine (Undertaking.merge_settles hw hs hc id).fails ?_
    rintro e d n ⟨-, ⟨hn, -⟩ | ⟨rfl, hoff⟩⟩
    · exact absurd ha hn
    · exact .inr (.inr ⟨trivial, rfl, hoff⟩)
  | reassign id old =>
    obtain rfl := hu
    refine (Undertaking.reassign_settles hw hs id old).fails ?_
    rintro e d n ⟨-, -, he⟩
    exact .inl (.inr (he hc ha))
  | _ => exact hu.elim

/-- A use case with nothing in between fails for nothing else either. -/
theorem Orderly.run_fails (h : Orderly w) (u : UseCase) :
    u.run.Fails w fun e => u.Refuses e ∨ u.Unkept σ e ∨ u.Untimed w.clock e := by
  intro e w' hrun
  rw [UseCase.run, bind_apply] at hrun
  rcases Undertaking.plan_cases h.faults h.sound u with
    ⟨e', w₁, hplan, -⟩ | ⟨a, w₁, hplan, -⟩ | ⟨t, d, hplan, ha, hu⟩
  · rw [hplan] at hrun
    cases hrun
    rcases h.plan_fails u e w' hplan with he | he
    · exact .inl he
    · exact .inr (.inl he)
  · rw [hplan] at hrun
    cases hrun
  · rw [hplan] at hrun
    exact (h.withDraws d).rest_fails ha hu e w' hrun

end Requests
end ReviewDesk
