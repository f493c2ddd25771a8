import TraceDebugger.Json.Printer
import TraceDebugger.Program.Synthesis
import TraceDebugger.CommandLine
import TraceDebugger.Main
import TraceDebugger.Proofs.Integrity
import TraceDebugger.Proofs.PartialWrites
import TraceDebugger.Proofs.Replies
import TraceDebugger.Proofs.Directives
import TraceDebugger.Proofs.Conversations
import TraceDebugger.Proofs.CommandEffects
import TraceDebugger.Proofs.Exchanges
import TraceDebugger.Proofs.Stops
import TraceDebugger.Proofs.InputLines
import TraceDebugger.Proofs.ReplayRuns
import TraceDebugger.Proofs.OutputGrowth
import TraceDebugger.Proofs.OutputLimits
import TraceDebugger.Proofs.ScopeTree
import TraceDebugger.Proofs.Numbering
import TraceDebugger.Proofs.Slots
import TraceDebugger.Proofs.Membership
import TraceDebugger.Proofs.Growth
import TraceDebugger.Proofs.WellScoped
import TraceDebugger.Proofs.LexicalLookup
import TraceDebugger.Proofs.Preorder
import TraceDebugger.Proofs.LocalVariables
import TraceDebugger.Proofs.DeclaredMembers
import TraceDebugger.Proofs.BreakNames
import TraceDebugger.Proofs.PackageSteps
import TraceDebugger.Proofs.Coherence
import TraceDebugger.Proofs.Wrappers
import TraceDebugger.Proofs.Consistency
import TraceDebugger.Proofs.Finishing
import TraceDebugger.Proofs.EndlessScopes
import TraceDebugger.Proofs.CreationWays
import TraceDebugger.Proofs.Acceptance
import TraceDebugger.Proofs.CheckedCreation
import TraceDebugger.Proofs.Batches
import TraceDebugger.Proofs.Permanence
import TraceDebugger.Proofs.QualifiedNames
import TraceDebugger.Proofs.Closures
import TraceDebugger.Proofs.TraceNames
import TraceDebugger.Proofs.DottedNames
import TraceDebugger.Proofs.HitCounts
import TraceDebugger.Proofs.ScopeMembers
import TraceDebugger.Proofs.Documents
import TraceDebugger.Proofs.FrameMoves
import TraceDebugger.Proofs.Listings
import TraceDebugger.Proofs.Initializers
import TraceDebugger.Proofs.SlotCheck
import TraceDebugger.Proofs.GlobalNames
import TraceDebugger.Proofs.BreakpointHistory
import TraceDebugger.Proofs.FunctionForest
import TraceDebugger.Proofs.QuotedWords
import TraceDebugger.Proofs.ColumnLayout
import TraceDebugger.Proofs.Dispatch
import TraceDebugger.Proofs.Transcripts
import TraceDebugger.Proofs.InstructionTracing
import TraceDebugger.Proofs.UntracedRuns
