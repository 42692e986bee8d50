import ReviewDesk.Log
import ReviewDesk.Scenario
import ReviewDesk.Settings
import ReviewDesk.Store.Keyed
import ReviewDesk.Store.Relational
import ReviewDesk.Time.Iso
import ReviewDesk.Proofs.Contents
import ReviewDesk.Proofs.Lawful
import ReviewDesk.Proofs.Store.Keyed
import ReviewDesk.Proofs.Store.Relational
import ReviewDesk.Proofs.Consistent
import ReviewDesk.Proofs.Selection
import ReviewDesk.Proofs.Transaction
import ReviewDesk.Proofs.Looking
import ReviewDesk.Proofs.Settling
import ReviewDesk.Proofs.Report
import ReviewDesk.Proofs.Cascade
import ReviewDesk.Proofs.Course
import ReviewDesk.Proofs.Committed
import ReviewDesk.Proofs.Departing
import ReviewDesk.Proofs.Opening
import ReviewDesk.Proofs.Submission
import ReviewDesk.Proofs.Relieving
import ReviewDesk.Proofs.Chronicle
import ReviewDesk.Proofs.Store.Chronicle
import ReviewDesk.Proofs.Replaying
import ReviewDesk.Proofs.Serial
import ReviewDesk.Proofs.Membership
import ReviewDesk.Proofs.Refusals
import ReviewDesk.Proofs.Retained
import ReviewDesk.Proofs.Errand
import ReviewDesk.Proofs.Kept
import ReviewDesk.Proofs.Scene
import ReviewDesk.Proofs.Store.Mirror
import ReviewDesk.Proofs.Store.Mirroring
import ReviewDesk.Proofs.Paired
import ReviewDesk.Proofs.Agreement
import ReviewDesk.Proofs.Counting
import ReviewDesk.Proofs.Store.Counting
import ReviewDesk.Proofs.Turns
import ReviewDesk.Proofs.Balance
import ReviewDesk.Proofs.Faults
import ReviewDesk.Proofs.Propagating
import ReviewDesk.Proofs.Rollback
import ReviewDesk.Proofs.Enduring
import ReviewDesk.Proofs.Atomicity
import ReviewDesk.Proofs.Steady
import ReviewDesk.Proofs.Commits
import ReviewDesk.Proofs.Audit
import ReviewDesk.Proofs.Web.Asking
import ReviewDesk.Proofs.Web.Sending
import ReviewDesk.Proofs.Web.Answering
import ReviewDesk.Proofs.Web.Serving
import ReviewDesk.Proofs.Sampling
import ReviewDesk.Proofs.Draining
import ReviewDesk.Proofs.Unbiased
import ReviewDesk.Proofs.Rolls
import ReviewDesk.Proofs.Repeating
import ReviewDesk.Proofs.Founding
import ReviewDesk.Proofs.Calling
import ReviewDesk.Proofs.Store.Calling
import ReviewDesk.Proofs.Reading
