import MeshPipeline.AgentLoop.Accounting
import MeshPipeline.AgentLoop.OneAccount
import MeshPipeline.AgentLoop.Runner
import MeshPipeline.Application.ArtifactUploader
import MeshPipeline.Application.Cleanup
import MeshPipeline.Application.DeliveredWhole
import MeshPipeline.Application.Metering
import MeshPipeline.Application.Reconcile
import MeshPipeline.Application.SpendGate
import MeshPipeline.Application.TerminalFinalize
import MeshPipeline.Approval.OneRun
import MeshPipeline.Artifact.CompareAndSet
import MeshPipeline.Artifact.RowAndObject
import MeshPipeline.Boundary.Declaration
import MeshPipeline.Boundary.NamedAgain
import MeshPipeline.Boundary.PatchNames
import MeshPipeline.Boundary.SettledDeclaration
import MeshPipeline.Boundary.SettledNames
import MeshPipeline.Boundary.SettledRoles
import MeshPipeline.BucketFiles.Bundle
import MeshPipeline.CadRepair.AllOrNothing
import MeshPipeline.CadRepair.Defects
import MeshPipeline.CadRepair.DirectedEnding
import MeshPipeline.CadRepair.Driver
import MeshPipeline.CadRepair.HonestEnding
import MeshPipeline.CadRepair.Loop
import MeshPipeline.CadRepair.Plan
import MeshPipeline.CadRepair.RepairSession
import MeshPipeline.CadRepair.Session
import MeshPipeline.CadRepair.ThroughHole
import MeshPipeline.Checkpoint.Superseded
import MeshPipeline.Collada.NoDoctype
import MeshPipeline.DirectUpload.AdoptedOnce
import MeshPipeline.DirectUpload.Intact
import MeshPipeline.DomainExtent.Gate
import MeshPipeline.DomainExtent.Margins
import MeshPipeline.DomainExtent.Mirror
import MeshPipeline.DomainExtent.SeesGeometry
import MeshPipeline.Ecxml.PaintOrder
import MeshPipeline.Ecxml.ThicknessKept
import MeshPipeline.Ending.FinalResult
import MeshPipeline.Ending.RecordedEnding
import MeshPipeline.Ending.RunOutcome
import MeshPipeline.Ending.TerminalAssembly
import MeshPipeline.EventStream.EventLog
import MeshPipeline.EventStream.Fence
import MeshPipeline.EventStream.FencedPublishing
import MeshPipeline.EventStream.FencingWorld
import MeshPipeline.EventStream.LiveStream
import MeshPipeline.EventStream.MirrorDisplacement
import MeshPipeline.EventStream.MirrorLease
import MeshPipeline.EventStream.Resuming
import MeshPipeline.Fea.AliasNames
import MeshPipeline.Fea.DeckLabel
import MeshPipeline.Fea.ElementCount
import MeshPipeline.Fea.Ladder
import MeshPipeline.Fea.NamesSound
import MeshPipeline.Fea.NoIdenticalRetry
import MeshPipeline.Fea.PlanScaling
import MeshPipeline.Fea.ScalingKeeps
import MeshPipeline.Fea.SizeField
import MeshPipeline.Fea.SizeFieldExact
import MeshPipeline.GapSizing.GapPlan
import MeshPipeline.GapSizing.PlanSound
import MeshPipeline.IdleRetire.LeavesSafely
import MeshPipeline.IdleRetire.Retirer
import MeshPipeline.Intent.Admission
import MeshPipeline.Intent.AdmissionToken
import MeshPipeline.Intent.Contracts
import MeshPipeline.Intent.GatesAgree
import MeshPipeline.Intent.JobRequest
import MeshPipeline.Intent.OneFingerprint
import MeshPipeline.Intent.WhatRuns
import MeshPipeline.Job.BilledSpan
import MeshPipeline.Job.Endings
import MeshPipeline.Job.Exclusivity
import MeshPipeline.Job.HeldJob
import MeshPipeline.Job.Reaper
import MeshPipeline.Job.RowStep
import MeshPipeline.Job.World
import MeshPipeline.Library.Assoc
import MeshPipeline.Library.Bisect
import MeshPipeline.Library.Buckets
import MeshPipeline.Library.CaseFold
import MeshPipeline.Library.Clusters
import MeshPipeline.Library.CompactList
import MeshPipeline.Library.ConnectedParts
import MeshPipeline.Library.Counted
import MeshPipeline.Library.Coverage
import MeshPipeline.Library.Crc
import MeshPipeline.Library.Cursor
import MeshPipeline.Library.DecimalRound
import MeshPipeline.Library.Dict
import MeshPipeline.Library.FileTree
import MeshPipeline.Library.Inbox
import MeshPipeline.Library.JsonText
import MeshPipeline.Library.Kahn
import MeshPipeline.Library.Machine
import MeshPipeline.Library.Numbering
import MeshPipeline.Library.Outcome
import MeshPipeline.Library.ParityTree
import MeshPipeline.Library.PrunedInf
import MeshPipeline.Library.Ranking
import MeshPipeline.Library.Regex
import MeshPipeline.Library.Register
import MeshPipeline.Library.Reserve
import MeshPipeline.Library.Sha256
import MeshPipeline.Library.Tally
import MeshPipeline.Library.Tenure
import MeshPipeline.Library.Text
import MeshPipeline.Library.XmlProlog
import MeshPipeline.MeshMachine.SweepSafe
import MeshPipeline.MeshMachine.VmSweep
import MeshPipeline.ModelCapacity.CapacityKept
import MeshPipeline.ModelCapacity.Redis
import MeshPipeline.NativeSubmission.AtMostOnce
import MeshPipeline.NativeSubmission.Change
import MeshPipeline.NativeSubmission.Replay
import MeshPipeline.Passage.FlowEvidence
import MeshPipeline.Passage.FluidCopy
import MeshPipeline.Passage.MustUse
import MeshPipeline.Persistence.ArtifactRepository
import MeshPipeline.Persistence.JobRepository
import MeshPipeline.Persistence.JobStore
import MeshPipeline.Persistence.Lease
import MeshPipeline.Persistence.Models
import MeshPipeline.Pipeline.AttemptsMade
import MeshPipeline.Pipeline.BrokenMesh
import MeshPipeline.Pipeline.EngineFallback
import MeshPipeline.Pipeline.EngineLadder
import MeshPipeline.Pipeline.Graph
import MeshPipeline.Pipeline.NoopTurns
import MeshPipeline.Pipeline.ResolutionLadder
import MeshPipeline.Pipeline.ReviewedMesh
import MeshPipeline.Pipeline.Termination
import MeshPipeline.Ports.BindPorts
import MeshPipeline.Ports.BoundSoundly
import MeshPipeline.Ports.Openings
import MeshPipeline.Ports.PortsBound
import MeshPipeline.Ports.Reordered
import MeshPipeline.RepairQueue.Audit
import MeshPipeline.RepairQueue.Desk
import MeshPipeline.RepairQueue.Jobs
import MeshPipeline.RepairQueue.Paging
import MeshPipeline.RepairReview.Answering
import MeshPipeline.RepairReview.Answers
import MeshPipeline.RepairReview.AnswersKept
import MeshPipeline.RepairReview.AnswersMeant
import MeshPipeline.RepairReview.Decide
import MeshPipeline.RepairReview.Dispatched
import MeshPipeline.RepairReview.Repository
import MeshPipeline.Resilience.NeverWedges
import MeshPipeline.Review.Eligibility
import MeshPipeline.Review.EvidenceLedger
import MeshPipeline.Review.SoundEligibility
import MeshPipeline.Sandbox.Extracted
import MeshPipeline.Sandbox.FoamCaseGuard
import MeshPipeline.Sandbox.SafeExtract
import MeshPipeline.SnapGrid.BudgetKept
import MeshPipeline.SnapGrid.CellBudget
import MeshPipeline.SnapGrid.GridPlan
import MeshPipeline.SnapGrid.Layout
import MeshPipeline.SnapGrid.RegionRestriction
import MeshPipeline.SnapGrid.WriteRegions
import MeshPipeline.StepUnits.Declared
import MeshPipeline.StepUnits.Reader
import MeshPipeline.StepUnits.ReadsAsDeclared
import MeshPipeline.Surface.Facing
import MeshPipeline.Surface.Kept
import MeshPipeline.Surface.Oriented
import MeshPipeline.Surface.Tidy
import MeshPipeline.Surface.TidyKeeps
import MeshPipeline.Tenant.BillingEvents
import MeshPipeline.Tenant.CreditReservation
import MeshPipeline.Tenant.Overage
import MeshPipeline.WhyRecord.Build
import MeshPipeline.WhyRecord.Replays
