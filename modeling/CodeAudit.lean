import CodeAudit.Main
import CodeAudit.Proofs.BusinessFlow.Composition
import CodeAudit.Proofs.BusinessFlow.Contents
import CodeAudit.Proofs.BusinessFlow.Distance
import CodeAudit.Proofs.BusinessFlow.Horizon
import CodeAudit.Proofs.CallGraph.Additions
import CodeAudit.Proofs.CallGraph.Mentions
import CodeAudit.Proofs.CallGraph.Words
import CodeAudit.Proofs.CallTree.DepthCounts
import CodeAudit.Proofs.CallTree.Duality
import CodeAudit.Proofs.CallTree.Excerpts
import CodeAudit.Proofs.CallTree.Outlines
import CodeAudit.Proofs.CallTree.Rounds
import CodeAudit.Proofs.CallTree.Shapes
import CodeAudit.Proofs.CallTree.Truncation
import CodeAudit.Proofs.CallTree.Walks
import CodeAudit.Proofs.Database.Files
import CodeAudit.Proofs.GroupSummary.BlankSiblings
import CodeAudit.Proofs.GroupSummary.Validity
import CodeAudit.Proofs.Manifest.Format
import CodeAudit.Proofs.Scheduler.Abandonment
import CodeAudit.Proofs.Scheduler.Confluence
import CodeAudit.Proofs.Scheduler.GroupOrder
import CodeAudit.Proofs.Scheduler.Listings
import CodeAudit.Proofs.Scheduler.Merging
import CodeAudit.Proofs.Scheduler.Series
import CodeAudit.Proofs.Scheduler.Workshop
import CodeAudit.Proofs.Session.Coherence
import CodeAudit.Proofs.Session.Deadlines
import CodeAudit.Proofs.Settings.RoundTrip
import CodeAudit.Proofs.Store.Finished
import CodeAudit.Proofs.Store.Numbering
import CodeAudit.Proofs.Store.Refusal
import CodeAudit.Proofs.Store.Uuids
import CodeAudit.Uuid
