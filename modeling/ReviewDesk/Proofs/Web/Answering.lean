import ReviewDesk.Proofs.Closing
import ReviewDesk.Proofs.Web.Asking

/-!
# What requests are answered with

Where nothing lies in wait, a use case that succeeds replies with a value of its own kind. `Answers`
says with which status and with which document such a reply is answered, and what stands in the
document: every part of the reply, under a name of its own.
-/
namespace ReviewDesk

open Job

namespace Web

section Documents

/-- The fields that show a member of a team. -/
structure ShowsMember (fields : List (Text × Json)) (u : User) : Prop where
  id : Json.lookup "user_id" fields = some (.text u.id)
  name : Json.lookup "username" fields = some (.text u.name)
  active : Json.lookup "is_active" fields = some (.bool u.active)

/-- The fields that show a team with its members. -/
structure ShowsTeam (fields : List (Text × Json)) (t : Team) : Prop where
  name : Json.lookup "team_name" fields = some (.text t.name)
  members : ∃ j, Json.lookup "members" fields = some j ∧ j.Lists ShowsMember t.members

/-- The fields that show a user by itself. -/
structure ShowsUser (fields : List (Text × Json)) (u : User) : Prop extends
    ShowsMember fields u where
  team : Json.lookup "team_name" fields = some (.ofText? u.team)

/-- The fields that show a pull request in a list. -/
structure ShowsBrief (fields : List (Text × Json)) (p : PullRequest) : Prop where
  id : Json.lookup "pull_request_id" fields = some (.text p.id)
  name : Json.lookup "pull_request_name" fields = some (.text p.name)
  author : Json.lookup "author_id" fields = some (.text p.author)
  status : Json.lookup "status" fields = some (.text p.status.label)

/-- The fields that show a pull request by itself. -/
structure ShowsPullRequest (fields : List (Text × Json)) (p : PullRequest) : Prop extends
    ShowsBrief fields p where
  reviewers : Json.lookup "assigned_reviewers" fields = some (.ofTexts p.reviewers)
  created : Json.lookup "createdAt" fields = some (dateJson p.created)
  merged : Json.lookup "mergedAt" fields = some (dateJson p.merged)

/-- The fields that show who takes over from whom. -/
structure ShowsReassignment (fields : List (Text × Json)) (r : Reassignment) : Prop where
  pullRequest : Json.lookup "pr_id" fields = some (.text r.pullRequest)
  old : Json.lookup "old_reviewer_id" fields = some (.text r.old)
  new : Json.lookup "new_reviewer_id" fields = some (.ofText? r.new)

/-- The fields that show what came of people leaving a team. -/
structure ShowsDeactivation (fields : List (Text × Json)) (team : Text) (users : List Text)
    (reassignments : List Reassignment) : Prop where
  team : Json.lookup "team_name" fields = some (.text team)
  users : Json.lookup "deactivated_users" fields = some (.ofTexts users)
  reassignments : ∃ j, Json.lookup "reassignments" fields = some j ∧
    j.Lists ShowsReassignment reassignments

/-- The fields that show the counts of a user. -/
structure ShowsCounts (fields : List (Text × Json)) (c : UserCounts) : Prop where
  user : Json.lookup "user_id" fields = some (.text c.user)
  created : Json.lookup "created_pr_count" fields = some (.ofNat c.created)
  reviewed : Json.lookup "reviewed_pr_count" fields = some (.ofNat c.reviewed)
  merged : Json.lookup "merged_pr_count" fields = some (.ofNat c.merged)

/-- The fields that show the counts over all pull requests. -/
structure ShowsTotals (fields : List (Text × Json)) (t : Totals) : Prop where
  total : Json.lookup "total" fields = some (.ofNat t.total)
  opened : Json.lookup "open" fields = some (.ofNat t.opened)
  merged : Json.lookup "merged" fields = some (.ofNat t.merged)
  average : Json.lookup "avg_reviewers" fields = some (.float t.average)

/-- The status and the document with which the reply of a use case is answered. -/
inductive Answers : UseCase → Reply → Nat → Json → Prop
  | found {t founded : Team} {fields : List (Text × Json)} (h : ShowsTeam fields founded) :
    Answers (.found t) (.team founded) 201 (.object [("team", .object fields)])
  | team {name : Text} {t : Team} {fields : List (Text × Json)} (h : ShowsTeam fields t) :
    Answers (.team name) (.team t) 200 (.object fields)
  | depart {team : Text} {users : List Text} {d : Deactivation} {fields : List (Text × Json)}
    {reassignments : List Reassignment} (hown : d.reassignments = .own reassignments)
    (h : ShowsDeactivation fields d.team d.users reassignments) :
    Answers (.depart team users) (.deactivation d) 200 (.object fields)
  | departAll {team : Text} {d : Deactivation} {fields : List (Text × Json)}
    {reassignments : List Reassignment} (hown : d.reassignments = .own reassignments)
    (h : ShowsDeactivation fields d.team d.users reassignments) :
    Answers (.departAll team) (.deactivation d) 200 (.object fields)
  | switch {user : Text} {active : Bool} {u : User} {fields : List (Text × Json)}
    (h : ShowsUser fields u) :
    Answers (.switch user active) (.user u) 200 (.object [("user", .object fields)])
  | reviewedBy {user : Text} {ps : List PullRequest} {fields : List (Text × Json)} {j : Json}
    (huser : Json.lookup "user_id" fields = some (.text user))
    (hps : Json.lookup "pull_requests" fields = some j) (h : j.Lists ShowsBrief ps) :
    Answers (.reviewedBy user) (.pullRequests ps) 200 (.object fields)
  | countsOf {user : Text} {c : UserCounts} {fields : List (Text × Json)}
    (h : ShowsCounts fields c) : Answers (.countsOf user) (.userCounts c) 200 (.object fields)
  | opening {id name author : Text} {p : PullRequest} {fields : List (Text × Json)}
    (h : ShowsPullRequest fields p) :
    Answers (.opening id name author) (.pullRequest p) 201 (.object [("pr", .object fields)])
  | merge {id : Text} {p : PullRequest} {fields : List (Text × Json)}
    (h : ShowsPullRequest fields p) :
    Answers (.merge id) (.pullRequest p) 200 (.object [("pr", .object fields)])
  | reassign {id old : Text} {p : PullRequest} {successor : Option Text}
    {fields : List (Text × Json)} (h : ShowsPullRequest fields p) :
    Answers (.reassign id old) (.reassigned (.own p) (.ofText? successor)) 200
      (.object [("pr", .object fields), ("replaced_by", .ofText? successor)])
  | totals {t : Totals} {fields : List (Text × Json)} (h : ShowsTotals fields t) :
    Answers .totals (.totals t) 200 (.object fields)

theorem Answers.status_successful {u : UseCase} {reply : Reply} {status : Nat} {body : Json}
    (h : Answers u reply status body) : 200 ≤ status ∧ status < 300 := by
  cases h <;> exact ⟨by decide, by decide⟩

theorem lists_map {α : Type} {P : List (Text × Json) → α → Prop} {f : α → Json}
    (h : ∀ a, ∃ fields, f a = .object fields ∧ P fields a) (as : List α) :
    (Json.list (as.map f)).Lists P as :=
  ⟨_, rfl, List.forall₂_map_left_iff.2 (List.forall₂_same.2 fun a _ => h a)⟩

theorem exists_showsTeam (t : Team) : ∃ fields, teamJson t = .object fields ∧ ShowsTeam fields t :=
  ⟨_, rfl, rfl, _, rfl, lists_map (fun _ => ⟨_, rfl, rfl, rfl, rfl⟩) _⟩

theorem exists_showsPullRequest (p : PullRequest) :
    ∃ fields, pullRequestJson p = .object fields ∧ ShowsPullRequest fields p :=
  ⟨_, rfl, ⟨rfl, rfl, rfl, rfl⟩, rfl, rfl, rfl⟩

theorem exists_showsDeactivation (team : Text) (users : List Text)
    (reassignments : List Reassignment) :
    ∃ fields, deactivationJson team users reassignments = .object fields ∧
      ShowsDeactivation fields team users reassignments :=
  ⟨_, rfl, rfl, rfl, _, rfl, lists_map (fun _ => ⟨_, rfl, rfl, rfl, rfl⟩) _⟩

end Documents

section Replies

/-- A reply of the kind that a use case is answered with. -/
def Answerable (u : UseCase) (reply : Reply) : Prop :=
  ∃ body, answerBody u reply = .ok body ∧ Answers u reply (successStatus u) body

variable {u : UseCase}

theorem answerable_found (t founded : Team) : Answerable (.found t) (.team founded) := by
  obtain ⟨fields, hjson, h⟩ := exists_showsTeam founded
  exact ⟨_, rfl, hjson ▸ .found h⟩

theorem answerable_depart (team : Text) (users : List Text) {d : Deactivation}
    (h : ∃ reassignments, d.reassignments = .own reassignments) :
    Answerable (.depart team users) (.deactivation d) ∧
      Answerable (.departAll team) (.deactivation d) := by
  obtain ⟨reassignments, hown⟩ := h
  obtain ⟨fields, hjson, hshows⟩ := exists_showsDeactivation d.team d.users reassignments
  refine ⟨⟨.object fields, ?_, .depart hown hshows⟩, ⟨.object fields, ?_, .departAll hown hshows⟩⟩
  all_goals
    rw [← hjson, answerBody, hown]
    rfl

theorem answerable_opening (id name author : Text) (p : PullRequest) :
    Answerable (.opening id name author) (.pullRequest p) := by
  obtain ⟨fields, hjson, h⟩ := exists_showsPullRequest p
  exact ⟨_, rfl, hjson ▸ .opening h⟩

theorem answerable_merge (id : Text) (p : PullRequest) :
    Answerable (.merge id) (.pullRequest p) := by
  obtain ⟨fields, hjson, h⟩ := exists_showsPullRequest p
  exact ⟨_, rfl, hjson ▸ .merge h⟩

theorem answerable_reassign (id old : Text) (p : PullRequest) (successor : Option Text) :
    Answerable (.reassign id old) (.reassigned (.own p) (.ofText? successor)) := by
  obtain ⟨fields, hjson, h⟩ := exists_showsPullRequest p
  refine ⟨.object [("pr", .object fields), ("replaced_by", .ofText? successor)], ?_, .reassign h⟩
  rw [← hjson, answerBody, Piece.textOrNull_ofText?]
  rfl

variable {σ : Type} [Gateway σ]

/-- What is settled by looking around is of the right kind. -/
def Finishes (u : UseCase) (plan : Plan σ Reply) : Prop :=
  ∀ reply, plan = .finished reply → Answerable u reply

omit [Gateway σ] in
theorem finishes_pending {rest : Job σ Reply} : Finishes u (.pending rest) := by
  rintro _ ⟨⟩

omit [Gateway σ] in
theorem finishes_finished {reply : Reply} (h : Answerable u reply) :
    Finishes (σ := σ) u (.finished reply) := by
  rintro _ ⟨⟩
  exact h

theorem returns_depart_finishes (team : Text) (users : List Text)
    (h : ∀ team : Text, Answerable u (.deactivation ⟨team, [], .own []⟩)) :
    (Departure.depart team users : Job σ (Plan σ Deactivation)).Returns fun plan =>
      Finishes u (plan.map .deactivation) := by
  refine .ite (returns_pure (finishes_finished (h team))) ?_
  refine returns_after fun _ => returns_after fun _ => returns_after fun _ => ?_
  split
  · exact returns_fail _
  · exact returns_pure finishes_pending

/-- Looking around settles nothing but replies of the right kind. -/
theorem plan_finishes (u : UseCase) : (u.plan : Job σ (Plan σ Reply)).Yields (Finishes u) := by
  have hread {sh : Shape} {x : Job σ (Given sh.Answer)} {f : sh.Answer → Reply} (hx : x.Owns)
      (hf : ∀ a, Answerable u (f a)) :
      (do return .finished ((← x).reply f) : Job σ (Plan σ Reply)).Yields (Finishes u) := by
    refine Yields.bind hx ?_
    rintro _ ⟨a, rfl⟩
    exact returns_pure (finishes_finished (hf a))
  cases u with
  | found t =>
    exact (returns_map (.ite (returns_fail _)
      (returns_after fun _ => returns_pure finishes_pending))).yields
  | team name =>
    refine hread (owns_ask .outside (.team name)) fun t => ?_
    obtain ⟨fields, hjson, h⟩ := exists_showsTeam t
    exact ⟨_, rfl, hjson ▸ .team h⟩
  | depart team users =>
    exact (returns_map (returns_depart_finishes team users fun name =>
      (answerable_depart team users ⟨_, rfl⟩).1)).yields
  | departAll team =>
    exact (returns_map (returns_after fun _ => returns_depart_finishes _ _ fun name =>
      (answerable_depart team [] ⟨_, rfl⟩).2)).yields
  | switch user active =>
    exact (returns_map (returns_after fun _ => returns_pure finishes_pending)).yields
  | reviewedBy user =>
    refine hread ((propagates_ask (.inr fun _ _ => rfl)).yields fun _ => owns_ask _ _) fun ps => ?_
    exact ⟨_, rfl, .reviewedBy rfl rfl (lists_map (fun _ => ⟨_, rfl, rfl, rfl, rfl, rfl⟩) ps)⟩
  | countsOf user =>
    refine hread ((propagates_ask (.inr fun _ _ => rfl)).yields fun _ => owns_ask _ _) fun c => ?_
    exact ⟨_, rfl, .countsOf ⟨rfl, rfl, rfl, rfl⟩⟩
  | opening id name author =>
    refine (returns_map ?_).yields
    exact returns_after fun _ => returns_after fun _ => returns_after fun _ =>
      returns_after fun _ => returns_after fun _ => returns_pure finishes_pending
  | merge id =>
    exact (returns_map (returns_after fun p => .ite
      (returns_pure (finishes_finished (answerable_merge id p)))
      (returns_pure finishes_pending))).yields
  | reassign id old =>
    exact (returns_map (returns_after fun _ => .ite (returns_fail _)
      (returns_pure finishes_pending))).yields
  | totals =>
    exact hread (owns_ask .outside .totals) fun t => ⟨_, rfl, .totals ⟨rfl, rfl, rfl, rfl⟩⟩

/-- What is left to do after looking around ends with a reply of the right kind. -/
theorem rest_answerable {t : Undertaking} (h : u.Undertakes t) :
    (t.rest : Job σ Reply).Yields (Answerable u) := by
  have hreply {α : Type} {x : Job σ α} {f : α → Reply} (hf : ∀ a, Answerable u (f a)) :
      (Undertaking.replying f x).Yields (Answerable u) :=
    (returns_after fun a => returns_pure (hf a)).yields
  have hdepart (team : Text) (leaving : List Text)
      (hd : ∀ d : Deactivation, (∃ reassignments, d.reassignments = .own reassignments) →
        Answerable u (.deactivation d)) :
      ((Undertaking.depart team leaving).rest : Job σ Reply).Yields (Answerable u) := by
    refine Yields.bind (Yields.bind (owns_departNow team leaving).transaction ?_) fun d hown =>
      returns_pure (hd d hown)
    rintro _ ⟨reassignments, rfl⟩
    exact returns_after fun _ => returns_after fun _ => returns_pure ⟨reassignments, rfl⟩
  cases u with
  | found team =>
    obtain rfl := h
    exact hreply (answerable_found team)
  | depart team users =>
    obtain rfl := h
    exact hdepart team _ fun d hown => (answerable_depart team users hown).1
  | departAll team =>
    obtain ⟨leaving, rfl⟩ := h
    exact hdepart team leaving fun d hown => (answerable_depart team [] hown).2
  | switch user active =>
    obtain rfl := h
    refine Yields.bind (yields_after (closing_switch user active).clean fun _ =>
      (quiet_note (by rintro _ _ ⟨⟩)).propagates.yields fun _ => owns_ask .outside (.user user)) ?_
    rintro _ ⟨u, rfl⟩
    exact returns_pure ⟨_, rfl, .switch ⟨⟨rfl, rfl, rfl⟩, rfl⟩⟩
  | opening id name author =>
    obtain ⟨reviewers, rfl⟩ := h
    exact hreply (answerable_opening id name author)
  | merge id =>
    obtain rfl := h
    exact hreply (answerable_merge id)
  | reassign id old =>
    obtain rfl := h
    refine Yields.bind (P := fun r => ∃ p successor, r = (.own p, .ofText? successor))
      (Yields.bind (yields_reassignNow id old).transaction ?_) ?_
    · rintro _ ⟨p, successor, rfl⟩
      refine Returns.bind (P := fun r => r = (.own p, .ofText? successor)) ?_ ?_
      · intro w r w' hr
        cases hr
        rfl
      · rintro _ rfl
        exact returns_after fun _ => returns_pure ⟨p, successor, rfl⟩
    · rintro _ ⟨p, successor, rfl⟩
      exact returns_pure (answerable_reassign id old p successor)
  | _ => exact h.elim

/-- A use case that succeeds where nothing lies in wait has a reply of the right kind. -/
theorem run_answerable (u : UseCase) : (u.run : Job σ Reply).Yields (Answerable u) := by
  intro w reply w' h hw
  obtain ⟨plan, w₁, hplan, hfinish⟩ := bind_ok h
  cases plan with
  | finished a =>
    cases hfinish
    exact plan_finishes u w _ w' hplan hw reply rfl
  | pending rest =>
    obtain ⟨t, hu, rfl⟩ := plan_returns u _ _ _ hplan rest rfl
    have hw₁ := (propagates_plan u).clean w hw
    rw [hplan] at hw₁
    exact rest_answerable hu w₁ reply w' hfinish hw₁

end Replies

end Web
end ReviewDesk
