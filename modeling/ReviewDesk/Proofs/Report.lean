import Mathlib.Algebra.BigOperators.Group.Finset.Basic
import ReviewDesk.Proofs.Selection
import ReviewDesk.Proofs.Undertaking

/-!
# Reports of departures

A departure reports who was taken off which pull request and who took over. Carried out entry by
entry, `Contents.replay`, a report makes of the reviewers what the departure made of them. Nobody
who takes over reviewed the pull request before, so that it does not matter in which order the
entries are carried out.

Main definition: `Contents.Reported` says what a report tells of pull requests on which people are
relieved.
-/
namespace ReviewDesk
namespace Reassignment

/-- The assignment that a reassignment ends. -/
def ended (r : Reassignment) : Text × Text := (r.pullRequest, r.old)

/-- Those who take over in a report. -/
def joining (rs : List Reassignment) : List Text := rs.filterMap Reassignment.new

/-- The entries of a report on one pull request. -/
def on (rs : List Reassignment) (id : Text) : List Reassignment :=
  rs.filter fun r => r.pullRequest = id

/-- Nobody takes over on a pull request who is taken off it in the same report. -/
def Apart (rs : List Reassignment) : Prop :=
  ∀ a ∈ rs, ∀ b ∈ rs, a.pullRequest = b.pullRequest → a.old ∉ b.new

@[simp] theorem joining_nil : joining [] = [] := rfl

@[simp] theorem joining_cons (r : Reassignment) (rs : List Reassignment) :
    joining (r :: rs) = r.new.toList ++ joining rs := by
  cases hnew : r.new <;> simp [joining, hnew]

@[simp] theorem joining_append (rs rs' : List Reassignment) :
    joining (rs ++ rs') = joining rs ++ joining rs' := List.filterMap_append

theorem mem_joining {rs : List Reassignment} {x : Text} :
    x ∈ joining rs ↔ ∃ r ∈ rs, x ∈ r.new := List.mem_filterMap

theorem mem_on {rs : List Reassignment} {id : Text} {r : Reassignment} :
    r ∈ on rs id ↔ r ∈ rs ∧ r.pullRequest = id := by
  simp [on]

theorem on_append (rs rs' : List Reassignment) (id : Text) :
    on (rs ++ rs') id = on rs id ++ on rs' id := List.filter_append ..

theorem on_cons (r : Reassignment) (rs : List Reassignment) (id : Text) :
    on (r :: rs) id = if r.pullRequest = id then r :: on rs id else on rs id := by
  simp [on, List.filter_cons]

theorem on_eq_self {rs : List Reassignment} {id : Text} (h : ∀ r ∈ rs, r.pullRequest = id) :
    on rs id = rs := List.filter_eq_self.2 fun r hr => by simpa using h r hr

theorem on_eq_nil {rs : List Reassignment} {id : Text} (h : ∀ r ∈ rs, r.pullRequest ≠ id) :
    on rs id = [] := List.filter_eq_nil_iff.2 fun r hr => by simpa using h r hr

theorem Apart.perm {rs rs' : List Reassignment} (h : Apart rs) (hp : rs'.Perm rs) : Apart rs' :=
  fun a ha b hb => h a (hp.mem_iff.1 ha) b (hp.mem_iff.1 hb)

/-- What a report tells of one pull request from which people are taken off in this order, while
others take over from a pool: as many as are taken off, as long as the pool lasts. -/
structure Handed (id : Text) (leaving pool : List Text) (rs : List Reassignment) : Prop where
  on_id : ∀ r ∈ rs, r.pullRequest = id
  olds : rs.map Reassignment.old = leaving
  nodup : (joining rs).Nodup
  subset : joining rs ⊆ pool
  length : (joining rs).length = min leaving.length pool.length

theorem handed_nil (id : Text) (pool : List Text) : Handed id [] pool [] :=
  ⟨nofun, rfl, List.nodup_nil, nofun, (Nat.zero_min _).symm⟩

/-- One step: the first who leaves is taken off, and somebody from the pool takes over. -/
theorem Handed.cons {id old : Text} {leaving pool rest : List Text} {next : Option Text}
    {rs : List Reassignment} (h : Handed id leaving rest rs) (ht : Taken pool next rest) :
    Handed id (old :: leaving) pool (⟨id, old, next⟩ :: rs) := by
  have hone : next.toList.length = min 1 pool.length := by
    rw [← ht.card]
    cases next <;> simp
  constructor
  case on_id =>
    intro r hr
    rcases List.mem_cons.1 hr with rfl | hr
    · rfl
    · exact h.on_id r hr
  case olds => rw [List.map_cons, h.olds]
  case nodup =>
    rw [joining_cons]
    refine List.nodup_append.2 ⟨by cases next <;> simp, h.nodup, ?_⟩
    rintro x hx _ hy rfl
    have hrest : x ∈ rest.toFinset := List.mem_toFinset.2 (h.subset hy)
    exact Finset.disjoint_left.1 ht.disjoint (by simpa using hx) hrest
  case subset =>
    rw [joining_cons]
    refine List.append_subset.2 ⟨fun x hx => ht.next_mem (by simpa using hx), ?_⟩
    exact fun x hx => ht.rest_subset (h.subset hx)
  case length =>
    have hlength := ht.length
    rw [joining_cons, List.length_append, hone, h.length, List.length_cons]
    omega

end Reassignment

namespace Contents

open Reassignment

/-- One entry of a report, carried out. -/
def replay (c : Contents) (r : Reassignment) : Contents :=
  c.setReviewers r.pullRequest ((c.reviewers r.pullRequest).erase r.old ∪ r.new.toFinset)

/-- What a report tells of pull requests on which people who leave a team are relieved, one after
the other, and on each of them in the ascending order of their ids. -/
inductive Reported (c : Contents) (team : Text) (leaving : Finset Text) :
    List Item → List Reassignment → Prop
  | nil : Reported c team leaving [] []
  | cons {i : Item} {is : List Item} {first rest : List Reassignment}
    (head : Handed i.id (c.reviewers i.id ∩ leaving).sort (c.stayers team leaving i).sort first)
    (tail : Reported c team leaving is rest) : Reported c team leaving (i :: is) (first ++ rest)

section Replay

variable (c : Contents)

@[simp] theorem foldl_replay_teams (rs : List Reassignment) :
    (rs.foldl replay c).teams = c.teams := by
  induction rs generalizing c with
  | nil => rfl
  | cons r rs ih => exact ih (c.replay r)

@[simp] theorem foldl_replay_users (rs : List Reassignment) :
    (rs.foldl replay c).users = c.users := by
  induction rs generalizing c with
  | nil => rfl
  | cons r rs ih => exact ih (c.replay r)

@[simp] theorem foldl_replay_items (rs : List Reassignment) :
    (rs.foldl replay c).items = c.items := by
  induction rs generalizing c with
  | nil => rfl
  | cons r rs ih => exact ih (c.replay r)

/-- A report carried out takes off all who are taken off in it, and puts in all who take over. -/
theorem foldl_replay_reviewers {rs : List Reassignment} (h : Apart rs) (id : Text) :
    (rs.foldl replay c).reviewers id =
      (c.reviewers id \ ((on rs id).map Reassignment.old).toFinset) ∪
        (joining (on rs id)).toFinset := by
  induction rs generalizing c with
  | nil => simp [on]
  | cons r rs ih =>
    have htail : Apart rs := fun a ha b hb =>
      h a (List.mem_cons_of_mem r ha) b (List.mem_cons_of_mem r hb)
    rw [List.foldl_cons, ih _ htail, on_cons]
    by_cases hid : r.pullRequest = id
    · subst hid
      have hnew : ∀ x ∈ r.new, x ∉ (on rs r.pullRequest).map Reassignment.old := by
        intro x hx hmem
        obtain ⟨a, ha, rfl⟩ := List.mem_map.1 hmem
        obtain ⟨ha, hsame⟩ := mem_on.1 ha
        exact h a (List.mem_cons_of_mem r ha) r List.mem_cons_self hsame hx
      rw [if_pos rfl, replay, setReviewers_self]
      ext x
      have hx := hnew x
      simp only [List.map_cons, List.toFinset_cons, joining_cons, List.toFinset_append,
        Finset.mem_union, Finset.mem_sdiff, Finset.mem_erase, Finset.mem_insert,
        Option.mem_toFinset, List.mem_toFinset, Option.mem_toList] at hx ⊢
      tauto
    · rw [if_neg hid, replay, setReviewers_of_ne _ (Ne.symm hid)]

/-- Who is active does not matter where a report is carried out. -/
theorem foldl_replay_switch (rs : List Reassignment) (ids : Finset Text) (active : Bool) :
    rs.foldl replay (c.switch ids active) = (rs.foldl replay c).switch ids active := by
  induction rs generalizing c with
  | nil => rfl
  | cons r rs ih => exact ih (c.replay r)

/-- It does not matter in which order the entries of a report are carried out. -/
theorem foldl_replay_perm {rs rs' : List Reassignment} (h : Apart rs) (hp : rs'.Perm rs) :
    rs'.foldl replay c = rs.foldl replay c := by
  refine Contents.ext (by simp) (by simp) (by simp) (funext fun id => ?_)
  have hon : (on rs' id).Perm (on rs id) := hp.filter _
  have hjoining : (joining (on rs' id)).Perm (joining (on rs id)) := hon.filterMap _
  rw [foldl_replay_reviewers c h, foldl_replay_reviewers c (h.perm hp),
    List.toFinset_eq_of_perm _ _ (hon.map Reassignment.old),
    List.toFinset_eq_of_perm _ _ hjoining]

end Replay

/-- The assignments that are there and not there any more later. -/
def lapsed (c c' : Contents) : Finset (Text × Text) :=
  c.itemIds.biUnion fun id => (c.reviewers id \ c'.reviewers id).image (Prod.mk id)

theorem mem_lapsed {c c' : Contents} {id r : Text} :
    (id, r) ∈ c.lapsed c' ↔ id ∈ c.itemIds ∧ r ∈ c.reviewers id ∧ r ∉ c'.reviewers id := by
  simp only [lapsed, Finset.mem_biUnion, Finset.mem_image, Finset.mem_sdiff, Prod.mk.injEq]
  constructor
  · rintro ⟨_, hid, _, hr, rfl, rfl⟩
    exact ⟨hid, hr⟩
  · rintro ⟨hid, hr⟩
    exact ⟨id, hid, r, hr, rfl, rfl⟩

section Reports

variable {c : Contents} {team : Text} {leaving : Finset Text} {is : List Item}
    {rs : List Reassignment}

/-- The assignments that a report ends are those of the people who leave, in this order. -/
theorem Reported.ended_eq (h : c.Reported team leaving is rs) :
    rs.map Reassignment.ended =
      is.flatMap fun i => ((c.reviewers i.id ∩ leaving).sort).map (Prod.mk i.id) := by
  induction h with
  | nil => rfl
  | @cons i is first rest head tail ih =>
    have hfirst : first.map Reassignment.ended =
        (first.map Reassignment.old).map (Prod.mk i.id) := by
      rw [List.map_map]
      refine List.map_congr_left fun r hr => ?_
      rw [ended, head.on_id r hr]
      rfl
    rw [List.map_append, List.flatMap_cons, ih, hfirst, head.olds]

/-- Each entry takes somebody who leaves off a pull request, and whoever takes over stays. -/
theorem Reported.mem (h : c.Reported team leaving is rs) {r : Reassignment} (hr : r ∈ rs) :
    ∃ i ∈ is, r.pullRequest = i.id ∧ r.old ∈ c.reviewers i.id ∩ leaving ∧
      ∀ x ∈ r.new, x ∈ c.stayers team leaving i := by
  induction h with
  | nil => cases hr
  | @cons i is first rest head tail ih =>
    rcases List.mem_append.1 hr with hr | hr
    · refine ⟨i, List.mem_cons_self, head.on_id r hr, ?_, fun x hx => ?_⟩
      · have hold : r.old ∈ first.map Reassignment.old := List.mem_map_of_mem hr
        rw [head.olds] at hold
        exact (Finset.mem_sort _).1 hold
      · exact (Finset.mem_sort _).1 (head.subset (mem_joining.2 ⟨r, hr, hx⟩))
    · obtain ⟨j, hj, hrest⟩ := ih hr
      exact ⟨j, List.mem_cons_of_mem i hj, hrest⟩

/-- Whoever takes over on a pull request did not review it before. -/
theorem Reported.fresh (h : c.Reported team leaving is rs) {r : Reassignment} (hr : r ∈ rs)
    {x : Text} (hx : x ∈ r.new) : x ∉ c.reviewers r.pullRequest := by
  obtain ⟨i, -, hid, -, hnew⟩ := h.mem hr
  rw [hid]
  exact (Finset.mem_sdiff.1 (hnew x hx)).2

theorem Reported.apart (h : c.Reported team leaving is rs) : Apart rs := by
  intro a ha b hb hsame hnew
  obtain ⟨i, -, hid, hold, -⟩ := h.mem ha
  refine h.fresh hb hnew ?_
  rw [← hsame, hid]
  exact Finset.mem_of_mem_inter_left hold

/-- A report tells of each pull request by itself. -/
theorem Reported.handed (h : c.Reported team leaving is rs) (hn : (is.map Item.id).Nodup)
    {i : Item} (hi : i ∈ is) :
    Handed i.id (c.reviewers i.id ∩ leaving).sort (c.stayers team leaving i).sort
      (on rs i.id) := by
  induction h with
  | nil => cases hi
  | @cons j is first rest head tail ih =>
    obtain ⟨hj, hn⟩ := List.nodup_cons.1 hn
    rw [on_append]
    rcases List.mem_cons.1 hi with rfl | hi
    · have hrest : on rest i.id = [] := on_eq_nil fun r hr hid => by
        obtain ⟨k, hk, hrk, -⟩ := tail.mem hr
        exact hj (List.mem_map.2 ⟨k, hk, hrk.symm.trans hid⟩)
      rw [on_eq_self head.on_id, hrest, List.append_nil]
      exact head
    · have hne : j.id ≠ i.id := fun e => hj (e ▸ List.mem_map_of_mem hi)
      have hfirst : on first i.id = [] := on_eq_nil fun r hr hid =>
        hne ((head.on_id r hr).symm.trans hid)
      rw [hfirst, List.nil_append]
      exact ih hn hi

/-- On a pull request of the report those who stay go on, and as many take over as are relieved, as
long as there are any. -/
theorem Reported.relieved (h : c.Reported team leaving is rs) (hn : (is.map Item.id).Nodup)
    {i : Item} (hi : i ∈ is) :
    c.Relieved team leaving i ((rs.foldl replay c).reviewers i.id) := by
  have hhanded := h.handed hn hi
  have hsort {s : Finset Text} : s.sort.toFinset = s := Finset.sort_toFinset s (· ≤ ·)
  refine ⟨(joining (on rs i.id)).toFinset, fun x hx => ?_, ?_, ?_⟩
  · exact (Finset.mem_sort _).1 (hhanded.subset (List.mem_toFinset.1 hx))
  · rw [List.toFinset_card_of_nodup hhanded.nodup, hhanded.length, Finset.length_sort,
      Finset.length_sort]
  · rw [foldl_replay_reviewers c h.apart, hhanded.olds, hsort, Finset.sdiff_inter_self_left]

/-- A pull request that is not in the report keeps its reviewers. -/
theorem Reported.unconcerned (h : c.Reported team leaving is rs) {id : Text}
    (hid : ∀ i ∈ is, i.id ≠ id) : (rs.foldl replay c).reviewers id = c.reviewers id := by
  have hnone : on rs id = [] := on_eq_nil fun r hr hr' => by
    obtain ⟨i, hi, hri, -⟩ := h.mem hr
    exact hid i hi (hri.symm.trans hr')
  rw [foldl_replay_reviewers c h.apart, hnone]
  simp

/-- A departure accounted for: the pull requests concerned, each once, what is reported of them, and
the contents after it. -/
structure Account (c : Contents) (team : Text) (leaving : Finset Text) (is : List Item)
    (rs : List Reassignment) (c' : Contents) : Prop where
  nodup : (is.map Item.id).Nodup
  mem_iff : ∀ i, i ∈ is ↔ c.Concerned team i
  reported : c.Reported team leaving is rs
  contents_eq : c' = rs.foldl replay (c.switch leaving false)

theorem Account.reviewers {c' : Contents} (h : c.Account team leaving is rs c') :
    c'.reviewers = (rs.foldl replay c).reviewers := by
  rw [h.contents_eq, foldl_replay_switch, switch_reviewers]

/-- Different pull requests end different reviews. -/
theorem Account.nodup_ended {c' : Contents} (h : c.Account team leaving is rs c') : (rs.map ended).Nodup := by
  rw [h.reported.ended_eq, List.nodup_flatMap]
  constructor
  · intro i _
    exact (Finset.sort_nodup _ _).map (Prod.mk_right_injective i.id)
  · refine (List.pairwise_map.1 h.nodup).imp fun {i j} hij => ?_
    rintro ⟨id, r⟩ hi hj
    obtain ⟨_, -, hid⟩ := List.mem_map.1 hi
    obtain ⟨_, -, hjd⟩ := List.mem_map.1 hj
    exact hij ((Prod.ext_iff.1 hid).1.trans (Prod.ext_iff.1 hjd).1.symm)

theorem Account.mem_ended_iff {c' : Contents} (h : c.Account team leaving is rs c') (id r : Text) :
    (id, r) ∈ rs.map ended ↔
      (∃ i, c.Concerned team i ∧ i.id = id) ∧ r ∈ c.reviewers id ∧ r ∈ leaving := by
  rw [h.reported.ended_eq, List.mem_flatMap]
  constructor
  · rintro ⟨i, hi, hmem⟩
    obtain ⟨x, hx, hid⟩ := List.mem_map.1 hmem
    cases hid
    rw [Finset.mem_sort, Finset.mem_inter] at hx
    exact ⟨⟨i, (h.mem_iff i).1 hi, rfl⟩, hx⟩
  · rintro ⟨⟨i, hi, rfl⟩, hr⟩
    refine ⟨i, (h.mem_iff i).2 hi, List.mem_map.2 ⟨r, ?_, rfl⟩⟩
    rw [Finset.mem_sort, Finset.mem_inter]
    exact hr

/-- A departure that is accounted for is carried out. -/
theorem Account.effect {c' : Contents} {team : Text} {leaving : List Text} {is : List Item}
    {keep : Timestamp → Timestamp} {now : Timestamp}
    (h : c.Account team leaving.toFinset is rs c') :
    (Undertaking.depart team leaving).Effect keep now c c' := by
  refine ⟨?_, ?_, ?_, fun i hi => ?_, fun id hid => ?_⟩
  · rw [h.contents_eq, foldl_replay_teams, switch_teams]
  · rw [h.contents_eq, foldl_replay_users]
  · rw [h.contents_eq, foldl_replay_items, switch_items]
  · rw [h.reviewers]
    exact h.reported.relieved h.nodup ((h.mem_iff i).2 hi)
  · rw [h.reviewers]
    exact h.reported.unconcerned fun i hi => hid i ((h.mem_iff i).1 hi)

/-- A report has one entry for each assignment that the departure has ended. -/
theorem Account.card_lapsed {c' : Contents} {leaving : List Text}
    (h : c.Account team leaving.toFinset is rs c') : (c.lapsed c').card = rs.length := by
  have heffect : (Undertaking.depart team leaving).Effect id (.ofInstant 0) c c' := h.effect
  obtain ⟨-, -, -, hrelieved, hothers⟩ := heffect
  have hlapsed : c.lapsed c' = (rs.map ended).toFinset := by
    ext ⟨id, r⟩
    rw [mem_lapsed, List.mem_toFinset, h.mem_ended_iff]
    constructor
    · rintro ⟨-, hr, hnot⟩
      by_cases hid : ∃ i, c.Concerned team i ∧ i.id = id
      · obtain ⟨i, hi, rfl⟩ := hid
        obtain ⟨joining, -, -, hafter⟩ := hrelieved i hi
        refine ⟨⟨i, hi, rfl⟩, hr, ?_⟩
        by_contra hstays
        rw [hafter] at hnot
        exact hnot (Finset.mem_union_left _ (Finset.mem_sdiff.2 ⟨hr, hstays⟩))
      · rw [hothers id fun i hi hid' => hid ⟨i, hi, hid'⟩] at hnot
        exact absurd hr hnot
    · rintro ⟨⟨i, hi, rfl⟩, hr, hleaves⟩
      refine ⟨(c.mem_itemIds i.id).2 ⟨i, hi.1, rfl⟩, hr, ?_⟩
      obtain ⟨joining, hjoining, -, hafter⟩ := hrelieved i hi
      rw [hafter, Finset.mem_union, Finset.mem_sdiff]
      rintro (⟨-, hstays⟩ | hjoins)
      · exact hstays hleaves
      · exact (Finset.mem_sdiff.1 (hjoining hjoins)).2 hr
  rw [hlapsed, List.toFinset_card_of_nodup h.nodup_ended, List.length_map]

end Reports

end Contents
end ReviewDesk
