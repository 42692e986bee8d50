import ReviewDesk.Proofs.Atomicity
import ReviewDesk.Proofs.Refusals
import ReviewDesk.Proofs.Store.Counting
import ReviewDesk.Proofs.Web.Answering
import ReviewDesk.Proofs.Web.Sending
import ReviewDesk.Web.Service

/-!
# Requests over HTTP

A request that asks for a use case has the effect of the use case, and is answered with what comes
of it. A request that asks for none has no effect. All this is so whatever has been written into the
journal, and what requests over HTTP lead to is what use cases lead to, apart from the journal.
-/
namespace ReviewDesk

open Job

namespace Web

section Reports

/-- The status, the code and the message with which a failure is answered. -/
inductive Reports : Failure → Nat → String → Text → Prop
  | missing {why : Refusal} {note : Option Text} (h : why.isA .notFound = true) :
    Reports (.refused why note) 404 why.code (note.getD why.message)
  | teamExists {note : Option Text} :
    Reports (.refused .teamExists note) 400 "TEAM_EXISTS" (note.getD "team_name already exists")
  | invalid {why : Refusal} {note : Option Text} (h : why.isA .invalidInput = true) :
    Reports (.refused why note) 400 why.code (note.getD why.message)
  | present {why : Refusal} {note : Option Text} (h : why.isA .alreadyExists = true)
    (hne : why ≠ .teamExists) : Reports (.refused why note) 409 why.code (note.getD why.message)
  | conflict {why : Refusal} {note : Option Text} (h : why.isA .conflict = true) :
    Reports (.refused why note) 409 why.code (note.getD why.message)
  | unwritable {gap : Text.Gap} : Reports (.unwritable gap) 500 "UNKNOWN" gap.message
  | offCalendar : Reports .offCalendar 500 "UNKNOWN" "date value out of range"

/-- The document that tells of a failure. -/
def reportJson (code : String) (message : Text) : Json :=
  .object [("detail", .object [("error", .object [("code", .text code),
    ("message", .text message)])])]

variable {e : Failure} {status : Nat} {code : String} {message : Text}

theorem Reports.explain_eq (h : Reports e status code message) :
    explain e = ⟨status, .explanation (reportJson code message)⟩ := by
  have hrefused {why : Refusal} {note : Option Text} (hstatus : why.status = status) :
      explain (.refused why note) =
        ⟨status, .explanation (reportJson why.code (note.getD why.message))⟩ := by
    subst hstatus
    rfl
  cases h with
  | @missing why _ hin =>
    refine hrefused ?_
    cases why <;> first | rfl | cases hin
  | teamExists => exact hrefused rfl
  | @invalid why _ hin =>
    refine hrefused ?_
    cases why <;> first | rfl | cases hin
  | @present why _ hin hne =>
    refine hrefused ?_
    cases why <;> first | rfl | exact absurd rfl hne | cases hin
  | @conflict why _ hin =>
    refine hrefused ?_
    cases why <;> first | rfl | cases hin
  | unwritable => rfl
  | offCalendar => rfl

/-- Every refusal but the root of the hierarchy is in a group with a status of its own. -/
theorem reports_refused {why : Refusal} (h : why ≠ .internal) (note : Option Text) :
    ∃ status, Reports (.refused why note) status why.code (note.getD why.message) := by
  cases why with
  | internal => exact absurd rfl h
  | notFound | teamNotFound | userNotFound | pullRequestNotFound => exact ⟨_, .missing rfl⟩
  | teamExists => exact ⟨_, .teamExists⟩
  | alreadyExists | pullRequestExists => exact ⟨_, .present rfl (by rintro ⟨⟩)⟩
  | conflict | alreadyMerged | notReviewer | userNotInTeam => exact ⟨_, .conflict rfl⟩
  | invalidInput | emptyName => exact ⟨_, .invalid rfl⟩

/-- What a use case is refused for can be reported. -/
theorem reports_of_refuses {u : UseCase} (h : u.Refuses e) :
    ∃ status code message, Reports e status code message := by
  have hrefused {why : Refusal} {note : Option Text} (hwhy : why ≠ .internal) :
      ∃ status code message, Reports (.refused why note) status code message := by
    obtain ⟨status, hreports⟩ := reports_refused hwhy note
    exact ⟨status, _, _, hreports⟩
  cases u with
  | found t => rcases h with rfl | rfl <;> exact hrefused (by rintro ⟨⟩)
  | depart name users => rcases h with rfl | ⟨user, -, rfl⟩ <;> exact hrefused (by rintro ⟨⟩)
  | opening id name author => rcases h with rfl | rfl <;> exact hrefused (by rintro ⟨⟩)
  | reassign id old => rcases h with rfl | rfl | rfl <;> exact hrefused (by rintro ⟨⟩)
  | totals => exact h.elim
  | _ =>
    obtain rfl := h
    exact hrefused (by rintro ⟨⟩)

theorem reportJson_writable_iff (code : String) (message : Text) :
    (reportJson code message).Writable ↔ message.gap? = none := by
  have hname (s : String) : (Text.ofString s).gap? = none :=
    Text.gap?_eq_none_iff.2 (whole_map_char _)
  simp [Json.Writable, reportJson, Json.texts, Json.fieldTexts, hname]

end Reports

/-- The response to what comes of a use case. The reply is answered and the failure reported, unless
a text without a written form stands in the way. -/
inductive Conveys (u : UseCase) : Except Failure Reply → Response → Prop
  | reply {reply : Reply} {status : Nat} {body : Json} (h : Answers u reply status body)
    (hbody : answerBody u reply = .ok body) (hw : body.Writable) :
    Conveys u (.ok reply) ⟨status, .answer body⟩
  | failure {e : Failure} {status : Nat} {code : String} {message : Text}
    (h : Reports e status code message) (hw : message.gap? = none) :
    Conveys u (.error e) ⟨status, .explanation (reportJson code message)⟩
  | unsentReply {reply : Reply} {status : Nat} {body : Json} (h : Answers u reply status body)
    (hbody : answerBody u reply = .ok body) (hw : ¬ body.Writable) :
    Conveys u (.ok reply) .broken
  | unsentFailure {e : Failure} {status : Nat} {code : String} {message : Text}
    (h : Reports e status code message) (hw : message.gap? ≠ none) : Conveys u (.error e) .broken

/-- What the sender of a request gets. -/
def received : Except String Response → Response
  | .ok response => response
  | .error _ => .broken

theorem received_send (r : Response) :
    received (send r) = if r.obstacle? = none then r else .broken := by
  unfold send
  cases hr : r.obstacle? <;> rfl

theorem conveys_reply {u : UseCase} {reply : Reply} (h : Answerable u reply) :
    Conveys u (.ok reply) (received ((conclude u (.ok reply)).bind send)) := by
  obtain ⟨body, hbody, hanswers⟩ := h
  have hconclude : conclude u (.ok reply) = .ok ⟨successStatus u, .answer body⟩ := by
    simp only [conclude, hbody]
  rw [hconclude]
  show Conveys u _ (received (send _))
  rw [received_send]
  split
  case isTrue hsent => exact .reply hanswers hbody (obstacle?_answer_iff.1 hsent)
  case isFalse hunsent => exact .unsentReply hanswers hbody (obstacle?_answer_iff.not.1 hunsent)

theorem conveys_failure {u : UseCase} {e : Failure} {status : Nat} {code : String} {message : Text}
    (h : Reports e status code message) :
    Conveys u (.error e) (received ((conclude u (.error e)).bind send)) := by
  have hconclude : conclude u (.error e) = .ok (explain e) := by cases h <;> rfl
  have hsent : (explain e).obstacle? = none ↔ message.gap? = none := by
    rw [obstacle?_explain_iff, ← reportJson_writable_iff code, h.explain_eq]
    rfl
  rw [hconclude]
  show Conveys u _ (received (send _))
  rw [received_send, if_congr hsent h.explain_eq rfl]
  split
  case isTrue hw => exact .failure h hw
  case isFalse hw => exact .unsentFailure h hw

section Serving

variable {σ β : Type} [Gateway σ]

omit [Gateway σ] in
/-- The end of a request writes into the journal only. -/
theorem close_eq (r : Request) (outcome : Except String Response) (w : World σ) :
    (close r outcome w).1.1 = received outcome ∧ ∃ j, (close r outcome w).2 = w.writing j := by
  cases outcome with
  | ok response => exact ⟨rfl, _, rfl⟩
  | error cause => exact ⟨rfl, _, rfl⟩

/-- A request for a use case has its effect. -/
theorem serve_of_perform {r : Request} {u : UseCase} (h : verdict r = .perform u) (w : World σ) :
    (serve r (none : Option (World σ → β × World σ)) w).1.1.1 =
        received ((conclude u (u.run w).1).bind send) ∧
      ∃ j, (serve r (none : Option (World σ → β × World σ)) w).2 = (u.run w).2.writing j := by
  obtain ⟨j, hj⟩ := (faithful_run u).ignoresJournal w (w.journal.under r.mark)
  have hunder : under r w = w.writing (w.journal.under r.mark) := rfl
  have hclose := close_eq r ((conclude u (u.run w).1).bind send) ((u.run w).2.writing j)
  rw [serve, h, carryOut, perform, hunder, hj]
  exact hclose

/-- A request for no use case has no effect. -/
theorem serve_of_ne_perform {r : Request} (h : ∀ u, verdict r ≠ .perform u) (w : World σ) :
    ∃ j, (serve r (none : Option (World σ → β × World σ)) w).2 = w.writing j := by
  rw [serve]
  cases hv : verdict r with
  | respond response => exact (close_eq r (send response) (under r w)).2
  | breakDown cause => exact (close_eq r (.error cause) (under r w)).2
  | perform u => exact absurd hv (h u)

/-- A world that use cases lead to, whatever has been written down by then. -/
def Attainable (w : World σ) : Prop := ∃ j, Reachable (w.writing j)

theorem attainable_of_reachable {w : World σ} (h : Reachable w) : Attainable w := ⟨w.journal, h⟩

section Attainable

variable [LawfulStore σ] {w : World σ}

theorem Attainable.orderly (h : Attainable w) : Orderly w := by
  obtain ⟨j, hj⟩ := h
  have ho := hj.orderly
  exact ⟨ho.faults, ho.sound, ho.consistent, ho.dated⟩

/-- Serving a request leads where use cases lead. -/
theorem Attainable.serve (h : Attainable w) (r : Request) :
    Attainable (serve r (none : Option (World σ → β × World σ)) w).2 := by
  obtain ⟨j, hj⟩ := h
  by_cases hr : ∃ u, verdict r = .perform u
  · obtain ⟨u, hu⟩ := hr
    obtain ⟨-, j', hworld⟩ := serve_of_perform (β := β) hu w
    obtain ⟨j'', hrun⟩ := (faithful_run u).ignoresJournal w j
    refine ⟨j'', ?_⟩
    have hreached := hj.run u
    rw [hrun] at hreached
    rw [hworld]
    exact hreached
  · obtain ⟨j', hworld⟩ := serve_of_ne_perform (β := β) (fun u hu => hr ⟨u, hu⟩) w
    rw [hworld]
    exact ⟨j, hj⟩

/-- Requests over HTTP, one after the other, lead where use cases lead. -/
theorem Attainable.serveAll (h : Attainable w) (rs : List Request) :
    Attainable (Op.runAll (rs.map fun r => .serve r none) w).2 := by
  induction rs generalizing w with
  | nil => exact h
  | cons r rs ih => exact ih (h.serve r)

end Attainable

/-- A response with a status of success. -/
def Response.Successful (r : Response) : Prop := 200 ≤ r.status ∧ r.status < 300

/-- How a request is served, going by the use case that it asks for. -/
structure Refines (r : Request) (w : World σ) (response : Response) (w' : World σ) : Prop where
  /-- The use case has its effect on all but the journal, and the response conveys what comes of
  it. -/
  accepted : ∀ u, Asks r u → Conveys u (u.run w).1 response ∧ ∃ j, w' = (u.run w).2.writing j
  /-- Where no use case is asked for, there is no effect on anything but the journal. -/
  rejected : (∀ u, ¬ Asks r u) → ∃ j, w' = w.writing j
  /-- Only a success whose answer cannot be sent has an effect on the store without being
  answered as one. -/
  unsuccessful : ¬ response.Successful → w'.store = w.store ∨
    ∃ u reply body, Asks r u ∧ (u.run w).1 = .ok reply ∧ answerBody u reply = .ok body ∧
      ¬ body.Writable

variable [LawfulStore σ] [CountingStore σ] {w : World σ}

/-- A response conveys what comes of a use case in an orderly world. -/
theorem run_conveys (h : Orderly w) (u : UseCase) :
    Conveys u (u.run w).1 (received ((conclude u (u.run w).1).bind send)) := by
  rcases hrun : u.run w with ⟨e | reply, w'⟩
  · have hreports : ∃ status code message, Reports e status code message := by
      rcases h.run_fails u e w' hrun with he | ⟨-, gap, rfl⟩ | ⟨-, rfl, -⟩
      · exact reports_of_refuses he
      · exact ⟨_, _, _, .unwritable⟩
      · exact ⟨_, _, _, .offCalendar⟩
    obtain ⟨status, code, message, hreports⟩ := hreports
    exact conveys_failure hreports
  · exact conveys_reply (run_answerable u w reply w' hrun h.faults)

theorem refines_of_orderly [EnduringStore σ] (h : Orderly w) (r : Request) :
    let x := serve r (none : Option (World σ → β × World σ)) w
    Refines r w x.1.1.1 x.2 := by
  intro x
  have hserved {u : UseCase} (hu : Asks r u) :
      Conveys u (u.run w).1 x.1.1.1 ∧ ∃ j, x.2 = (u.run w).2.writing j := by
    obtain ⟨hresponse, hworld⟩ := serve_of_perform (β := β) hu.verdict w
    exact ⟨hresponse ▸ run_conveys h u, hworld⟩
  have hleft (hr : ∀ u, ¬ Asks r u) : ∃ j, x.2 = w.writing j :=
    serve_of_ne_perform (fun u hu => hr u (asks_of_verdict hu)) w
  refine ⟨fun u hu => hserved hu, hleft, fun hstatus => ?_⟩
  by_cases hr : ∃ u, Asks r u
  · obtain ⟨u, hu⟩ := hr
    obtain ⟨hconveys, j, hworld⟩ := hserved hu
    have hsafe := run_safe u h.faults h.showsDates
    rcases hrun : u.run w with ⟨e | reply, w'⟩ <;> rw [hrun] at hconveys hworld
    · refine .inl ?_
      rw [hworld]
      exact hsafe e w' hrun
    · generalize x.1.1.1 = response at hconveys hstatus
      cases hconveys with
      | reply hanswers => exact absurd hanswers.status_successful hstatus
      | unsentReply hanswers hbody hw =>
        exact .inr ⟨u, reply, _, hu, congrArg Prod.fst hrun, hbody, hw⟩
  · obtain ⟨j, hworld⟩ := hleft fun u hu => hr ⟨u, hu⟩
    exact .inl (hworld ▸ rfl)

/-- In every world that use cases lead to, and after any requests over HTTP, every request over HTTP
is served by the use case that it asks for, and by nothing if it asks for none. -/
theorem serve_refines [EnduringStore σ] (hw : Attainable w) (rs : List Request) (r : Request) :
    let v := (Op.runAll (rs.map fun r => .serve r none) w).2
    let x := serve r (none : Option (World σ → β × World σ)) v
    Refines r v x.1.1.1 x.2 := refines_of_orderly (hw.serveAll rs).orderly r

end Serving

/-- A request that posts an object. -/
def posting (path : String) (fields : List (Text × Json)) : Request :=
  ⟨"POST", path, [], .document (.object fields), some "application/json", none⟩

/-- A team is founded with one member, whose activity is given as a number, and cannot be founded
again. -/
theorem serve_refines_founding :
    let w := World.initial RelationalStore (.ofList []) ⟨0, 1, 0⟩ .info
    let member : Json := .object [("user_id", .text "a"), ("username", .text "Ann"),
      ("is_active", .int 1)]
    let r := posting "/team/add" [("team_name", .text "T"), ("members", .list [member])]
    let v := (Op.runAll [.serve r none] w).2
    let x := serve r (none : Option (World RelationalStore → Unit × World RelationalStore)) w
    let y := serve r (none : Option (World RelationalStore → Unit × World RelationalStore)) v
    Attainable w ∧ Asks r (.found ⟨"T", [⟨"a", "Ann", some "T", true⟩]⟩) ∧
      Refines r w x.1.1.1 x.2 ∧ x.1.1.1.status = 201 ∧
      Refines r v y.1.1.1 y.2 ∧ y.1.1.1.status = 400 := by
  intro w member r v x y
  have hw : Attainable w := attainable_of_reachable (reachable_initial _ _ _)
  have hpath : Route.withoutFeed "/team/add".toList = "/team/add".toList := rfl
  have hasks : Asks r (.found ⟨"T", [⟨"a", "Ann", some "T", true⟩]⟩) :=
    .found ⟨rfl, hpath⟩ rfl rfl rfl ⟨_, rfl, .cons ⟨_, rfl, rfl, rfl, ⟨_, rfl, rfl⟩, rfl⟩ .nil⟩
  have hrun : ((UseCase.found ⟨"T", [⟨"a", "Ann", some "T", true⟩]⟩).run w).1 =
      .ok (.team ⟨"T", [⟨"a", "Ann", some "T", true⟩]⟩) := by decide +kernel
  have hrun' : ((UseCase.found ⟨"T", [⟨"a", "Ann", some "T", true⟩]⟩).run v).1 =
      .error (.refuse .teamExists) := by decide +kernel
  refine ⟨hw, hasks, serve_refines hw [] r, ?_, serve_refines hw [r] r, ?_⟩
  · rw [(serve_of_perform hasks.verdict w).1, hrun]
    rfl
  · rw [(serve_of_perform hasks.verdict v).1, hrun']
    rfl

/-- Half of a surrogate pair has no written form: a team of that name is founded, but cannot be told
of, and asking the relational store for a pull request of that name fails over it. -/
theorem serve_breaks_down :
    let half : Text := ⟨[.half 0]⟩
    let w := World.initial KeyedStore (.ofList []) ⟨0, 1, 0⟩ .info
    let r := posting "/team/add" [("team_name", .text half), ("members", .list [])]
    let x := serve r (none : Option (World KeyedStore → Unit × World KeyedStore)) w
    let v := World.initial RelationalStore (.ofList []) ⟨0, 1, 0⟩ .info
    let s := posting "/pullRequest/merge" [("pull_request_id", .text half)]
    let z := serve s (none : Option (World RelationalStore → Unit × World RelationalStore)) v
    (Reachable w ∧ Asks r (.found ⟨half, []⟩) ∧
      ((UseCase.found ⟨half, []⟩).run w).1 = .ok (.team ⟨half, []⟩) ∧
      x.1.1.1.status = 500 ∧ x.2.store ≠ w.store) ∧
    Reachable v ∧ Asks s (.merge half) ∧
      ((UseCase.merge half).run v).1 = .error (.unwritable ⟨0, 0, 0⟩) ∧ z.1.1.1.status = 500 := by
  intro half w r x v s z
  refine ⟨?_, ?_⟩
  · have hpath : Route.withoutFeed "/team/add".toList = "/team/add".toList := rfl
    have hasks : Asks r (.found ⟨half, []⟩) := .found ⟨rfl, hpath⟩ rfl rfl rfl ⟨_, rfl, .nil⟩
    have hrun : ((UseCase.found ⟨half, []⟩).run w).1 = .ok (.team ⟨half, []⟩) := by decide +kernel
    have hteam : Gateway.team half ((UseCase.found ⟨half, []⟩).run w).2.store =
        .ok ⟨half, []⟩ := by decide +kernel
    obtain ⟨hresponse, j, hworld⟩ := serve_of_perform (β := Unit) hasks.verdict w
    refine ⟨reachable_initial _ _ _, hasks, hrun, ?_, fun h => ?_⟩
    · show (serve r none w).1.1.1.status = 500
      rw [hresponse, hrun]
      rfl
    · have hstore : x.2.store = ((UseCase.found ⟨half, []⟩).run w).2.store := by
        show (serve r none w).2.store = _
        rw [hworld]
        rfl
      rw [← hstore, h] at hteam
      cases hteam
  · have hpath : Route.withoutFeed "/pullRequest/merge".toList =
        "/pullRequest/merge".toList := rfl
    have hasks : Asks s (.merge half) := .merge ⟨rfl, hpath⟩ rfl rfl
    have hrun : ((UseCase.merge half).run v).1 = .error (.unwritable ⟨0, 0, 0⟩) := by
      decide +kernel
    refine ⟨reachable_initial _ _ _, hasks, hrun, ?_⟩
    show (serve s none v).1.1.1.status = 500
    rw [(serve_of_perform (β := Unit) hasks.verdict v).1, hrun]
    rfl

end Web
end ReviewDesk
