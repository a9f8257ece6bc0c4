import NeuroLab.Common.Table
import NeuroLab.Common.Transition
import NeuroLab.Common.Upsert
import NeuroLab.Common.Lease
import NeuroLab.Common.Ratchet
import NeuroLab.Common.Program
import NeuroLab.Common.Coupling
import NeuroLab.Common.Shell
import NeuroLab.Common.Champions
import NeuroLab.Common.Floor
import NeuroLab.Common.Loop
import NeuroLab.Common.Journal
import NeuroLab.Common.Schedule
import NeuroLab.Common.Interleaving
import NeuroLab.Common.Triple
import NeuroLab.Python.Json
import NeuroLab.Python.JsonRoundTrip
import NeuroLab.Python.Reordered
import NeuroLab.Python.Uuid
import NeuroLab.Python.Interpreter
import NeuroLab.Python.Text
import NeuroLab.Python.Sha256
import NeuroLab.Python.Url
import NeuroLab.Python.CompactJson
import NeuroLab.Python.LetterCase
import NeuroLab.Python.Wire
import NeuroLab.Python.Dates
import NeuroLab.Python.Floats
import NeuroLab.Python.Digests
import NeuroLab.Python.Conversions
import NeuroLab.Python.Rounding
import NeuroLab.Python.FlatJson
import NeuroLab.Python.Escapes
import NeuroLab.Python.AsciiJson
import NeuroLab.Python.Paths
import NeuroLab.Python.Passages
import NeuroLab.Python.Words
import NeuroLab.Python.JsonTexts
import NeuroLab.Python.JsonOctets
import NeuroLab.Postgres.Columns
import NeuroLab.Postgres.Transaction
import NeuroLab.Postgres.Jsonb
import NeuroLab.Postgres.Migrations
import NeuroLab.Postgres.MigrationOrder
import NeuroLab.ControlPlane.Payload
import NeuroLab.ControlPlane.Schema
import NeuroLab.ControlPlane.Transactions
import NeuroLab.ControlPlane.GigaChat
import NeuroLab.ControlPlane.System
import NeuroLab.ControlPlane.Effects
import NeuroLab.ControlPlane.Steps
import NeuroLab.ControlPlane.TaskLifecycle
import NeuroLab.ControlPlane.Sample
import NeuroLab.ControlPlane.Execution
import NeuroLab.ControlPlane.ProviderGate
import NeuroLab.ControlPlane.Receipts
import NeuroLab.ControlPlane.Ledger
import NeuroLab.ControlPlane.Deliveries
import NeuroLab.ControlPlane.Duplicates
import NeuroLab.ControlPlane.Reaper
import NeuroLab.ControlPlane.Outbox
import NeuroLab.ControlPlane.Dispatch
import NeuroLab.ControlPlane.Admission
import NeuroLab.ControlPlane.Copies
import NeuroLab.ControlPlane.Recovery
import NeuroLab.ControlPlane.Poison
import NeuroLab.ControlPlane.Client
import NeuroLab.ControlPlane.Retries
import NeuroLab.ControlPlane.Tokens
import NeuroLab.ControlPlane.ErrorTexts
import NeuroLab.Research.Items
import NeuroLab.Research.Corpus
import NeuroLab.Research.Coverage
import NeuroLab.Research.Records
import NeuroLab.Research.Schema
import NeuroLab.Research.Storage
import NeuroLab.Research.Calls
import NeuroLab.Research.Sample
import NeuroLab.Research.Licences
import NeuroLab.Research.Cards
import NeuroLab.Research.Claims
import NeuroLab.Research.Overwrites
import NeuroLab.Research.Backing
import NeuroLab.Research.Synthesis
import NeuroLab.Research.Deduplication
import NeuroLab.Research.Verification
import NeuroLab.Research.CardParsing
import NeuroLab.Research.Provenance
import NeuroLab.Research.Approval
import NeuroLab.Research.Evidence
import NeuroLab.Research.Discovery
import NeuroLab.Research.Metadata
import NeuroLab.Research.Persistable
import NeuroLab.Research.Isolation
import NeuroLab.Research.Preflight
import NeuroLab.Research.Failover
import NeuroLab.Research.RangedDownload
import NeuroLab.Research.Windows
import NeuroLab.Research.ModelOutput
import NeuroLab.Research.Cleaning
import NeuroLab.Research.Brief
import NeuroLab.Research.VisibleText
import NeuroLab.Research.Prompts
import NeuroLab.Research.DocumentUrls
import NeuroLab.Research.FullText
import NeuroLab.Research.SchemaFit
import NeuroLab.Research.DiagramPages
import NeuroLab.Research.DiagramCycle
import NeuroLab.Research.LicencePages
import NeuroLab.Research.FullTextCycle
import NeuroLab.Research.Repositories
import NeuroLab.Research.RepositoryScripts
import NeuroLab.Evaluation.Records
import NeuroLab.Evaluation.Storage
import NeuroLab.Evaluation.Evolution
import NeuroLab.Evaluation.Registration
import NeuroLab.Evaluation.Sessions
import NeuroLab.Evaluation.AssetStates
import NeuroLab.Evaluation.AssetLaws
import NeuroLab.Evaluation.Decisions
import NeuroLab.Evaluation.DecisionRuns
import NeuroLab.Evaluation.SemanticHoldout
import NeuroLab.Evaluation.ResponseReplay
import NeuroLab.Evaluation.Fingerprint
import NeuroLab.Evaluation.ReplayCycle
import NeuroLab.Agents.Receipts
import NeuroLab.Agents.ToolPolicy
import NeuroLab.Agents.Trace
import NeuroLab.Agents.Noninterference
import NeuroLab.Agents.Architecture
