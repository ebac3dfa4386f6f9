import PostJen.Foundations.Procedure
import PostJen.Foundations.Interference
import PostJen.Foundations.Runs
import PostJen.Foundations.Table
import PostJen.Foundations.Precedence
import PostJen.Foundations.Paths
import PostJen.Foundations.Lockstep
import PostJen.Foundations.Timetable
import PostJen.Core.Types
import PostJen.Core.Definition
import PostJen.Core.TopologicalOrder
import PostJen.Core.Acyclicity
import PostJen.Core.Acceptance
import PostJen.Core.Executor
import PostJen.Core.Process
import PostJen.Server.Schema
import PostJen.Server.Statements
import PostJen.Server.Operations
import PostJen.Server.Effects
import PostJen.Server.Procedures
import PostJen.Server.Runner
import PostJen.Server.Http
import PostJen.Server.Scheduler
import PostJen.Server.System
import PostJen.Server.Sample
import PostJen.Server.Outline
import PostJen.Server.Execution
import PostJen.Server.Placement
import PostJen.Server.Steps
import PostJen.Server.Rules
import PostJen.Server.Targets
import PostJen.Server.Lifecycle
import PostJen.Server.Rows
import PostJen.Server.Completeness
import PostJen.Server.DependencySafety
import PostJen.Server.FailStop
import PostJen.Server.Driving
import PostJen.Server.RunLife
import PostJen.Server.NodeLife
import PostJen.Server.Dispatch
import PostJen.Server.Tokens
import PostJen.Server.Alone
import PostJen.Server.Stranding
import PostJen.Server.Containment
import PostJen.Server.Ownership
import PostJen.Server.Failure
import PostJen.Server.Logs
import PostJen.Server.Recording
import PostJen.Server.Turns
import PostJen.Server.Replay
import PostJen.Server.Agent
import PostJen.Server.Agreement
import PostJen.Server.Snapshot
import PostJen.Server.Preparation
import PostJen.Server.Assignment
import PostJen.Server.Matching
import PostJen.Server.Origins
import PostJen.Server.Closing
import PostJen.Server.Traceability
import PostJen.Server.Admission
import PostJen.Server.Recall
import PostJen.Server.Journal
import PostJen.Server.Verdict
import PostJen.Server.Iterations
import PostJen.Server.Disabled
import PostJen.Server.Creations
import PostJen.Server.Parameters
import PostJen.Server.Provision
import PostJen.Server.Secrets
import PostJen.Server.Reruns
import PostJen.Server.Masking
import PostJen.Server.Twins
import PostJen.Server.AtRest
import PostJen.Server.Cron
import PostJen.Server.Coverage
import PostJen.Server.Parity
import PostJen.Server.Batches
import PostJen.Server.Settling
import PostJen.Server.Heartbeats
import PostJen.Server.Fidelity
import PostJen.Server.Enforcement
import PostJen.Server.Sweeping
import PostJen.Server.Reporting
import PostJen.Server.Taking
import PostJen.Server.Exchange
import PostJen.Server.Carriers
import PostJen.Server.Delivery
import PostJen.Foundations.Growth
import PostJen.Foundations.Offset
import PostJen.Server.Views
import PostJen.Server.History
import PostJen.Server.Timeline
import PostJen.Server.Queueing
import PostJen.Server.Observation
import PostJen.Server.Listing
import PostJen.Foundations.Stages
import PostJen.Core.Stages
import PostJen.Foundations.Knowledge
import PostJen.Server.Facts
import PostJen.Server.Integrity
import PostJen.Server.Acknowledgement
import PostJen.Foundations.Edits
import PostJen.Server.Vault
import PostJen.Server.Injections
import PostJen.Server.Sealing
import PostJen.Foundations.Liveness
import PostJen.Server.Attendance
import PostJen.Server.Liveness
