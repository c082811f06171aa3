import PerfReview.Main
import PerfReview.Proofs.Adapter.Delivery
import PerfReview.Proofs.Adapter.Settlement
import PerfReview.Proofs.Audit
import PerfReview.Proofs.Citation.Resolution
import PerfReview.Proofs.Client.Precedence
import PerfReview.Proofs.Client.Reply
import PerfReview.Proofs.Limits.Revisions
import PerfReview.Proofs.Plan.Divisions
import PerfReview.Proofs.Prompt.Listings
import PerfReview.Proofs.Report.Document
import PerfReview.Proofs.Report.Shape
import PerfReview.Proofs.Response.Prose
import PerfReview.Proofs.Response.RoundTrip
import PerfReview.Proofs.Run.Completion
import PerfReview.Proofs.Run.Isolation
import PerfReview.Proofs.Run.Partition
import PerfReview.Proofs.Run.Secrecy
import PerfReview.Proofs.Service.Agreement
import PerfReview.Proofs.Session.Scan
import PerfReview.Proofs.Settings.Loading
import PerfReview.Service
import PerfReview.Proofs.Plan.Distributions
import PerfReview.Proofs.Plan.Cap
import PerfReview.Proofs.Pattern
import PerfReview.Proofs.Scan.Pruning
import PerfReview.Proofs.Plan.Tapering
import PerfReview.Proofs.Credentials.History
