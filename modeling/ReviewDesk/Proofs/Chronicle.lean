import ReviewDesk.Desk.Call
import ReviewDesk.Proofs.Lawful

/-!
# The order in which pull requests were saved

A store keeps its pull requests in the order in which they were saved. Where it lists them with the
latest first, those of one date stay in that order.
-/
namespace ReviewDesk

/-- The ids under which a call adds pull requests, if it succeeds. -/
def Call.adds {s : Shape} : Call s → List Text
  | .savePullRequest p => [p.id]
  | _ => []

/-- A lawful store with the order in which its pull requests were saved. Each successful call adds at
the end what it adds at all. -/
class ChronicleStore (σ : Type) [Gateway σ] [LawfulStore σ] where
  saved : σ → List Item
  saved_empty : saved Gateway.empty = []
  saved_on : ∀ {sh : Shape} {c : Call sh} {s s' : σ} {k k' : Clock} {a : sh.Answer},
    c.on s k = ((.ok a, s'), k') →
      (saved s').map Item.id = (saved s).map Item.id ++ c.adds
  mem_saved : ∀ {s : σ} {i : Item}, i ∈ saved s ↔ i ∈ (LawfulStore.contents s).items
  openPullRequests_eq : ∀ {s : σ} {team : Text} {ps : List PullRequest}, LawfulStore.Sound s →
    Gateway.openPullRequests team s = .ok ps →
      ps = (Rows.latestFirst (fun i => i.created.instant) ((saved s).filter fun i =>
        i.status = .opened ∧ i.author ∈ (LawfulStore.contents s).active team)).map
          fun i => i.withReviewers []

/-- Pull requests with the latest first, and those of one date in the order of others among which
they are. -/
structure LatestFirst (saved is : List Item) : Prop where
  pairwise : is.Pairwise fun i j => j.created.instant ≤ i.created.instant
  sublist : ∀ t, (is.filter fun i => i.created.instant = t).Sublist saved

theorem latestFirst_filter (saved : List Item) (p : Item → Bool) :
    LatestFirst saved (Rows.latestFirst (fun i => i.created.instant) (saved.filter p)) := by
  refine ⟨Rows.pairwise_latestFirst _ _, fun t => ?_⟩
  rw [Rows.filter_latestFirst]
  exact List.filter_sublist.trans List.filter_sublist

end ReviewDesk
