import CacheHierarchy.Text.Layout
import CacheHierarchy.Text.Blank
import CacheHierarchy.Text.Printable
import CacheHierarchy.Text.GraphemeExtend
import CacheHierarchy.Text.Quoted
import CacheHierarchy.Operation
import CacheHierarchy.Packet
import CacheHierarchy.Policy
import CacheHierarchy.Error
import CacheHierarchy.Durations
import CacheHierarchy.Trace.Grammar
import CacheHierarchy.Trace.Core
import CacheHierarchy.Decimal.Binary64
import CacheHierarchy.Decimal.Fixed
import CacheHierarchy.Decimal.Shortest
import CacheHierarchy.Decimal.ShortForm
import CacheHierarchy.Json.Basic
import CacheHierarchy.Json.Reader
import CacheHierarchy.Json.Decode
import CacheHierarchy.Json.Stream
import CacheHierarchy.Json.Schema
import CacheHierarchy.Config.Basic
import CacheHierarchy.Config.Decode
import CacheHierarchy.Status
import CacheHierarchy.Random.ChaCha
import CacheHierarchy.Random.Stream
import CacheHierarchy.Cache.Address
import CacheHierarchy.Cache.Line
import CacheHierarchy.Prefetch.Basic
import CacheHierarchy.Prefetch.Stride
import CacheHierarchy.Prefetch.Buffer
import CacheHierarchy.Cache.Mshr
import CacheHierarchy.Cache.Stat
import CacheHierarchy.Cache.Basic
import CacheHierarchy.Cache.Victim
import CacheHierarchy.Cache.Admit
import CacheHierarchy.Cache.View
import CacheHierarchy.Directory.Entry
import CacheHierarchy.Directory.Basic
import CacheHierarchy.Hierarchy
import CacheHierarchy.Directory.Coherence
import CacheHierarchy.Directory.Request
import CacheHierarchy.Directory.Answer
import CacheHierarchy.Cache.Cycle
import CacheHierarchy.Directory.Drain
import CacheHierarchy.Memory
import CacheHierarchy.Machine.Basic
import CacheHierarchy.Machine.Cycle
import CacheHierarchy.Machine.Run
import CacheHierarchy.Report
import CacheHierarchy.Shell.Command
import CacheHierarchy.Shell.Session
import CacheHierarchy.Cli.Args
import CacheHierarchy.Cli.Program
import CacheHierarchy.Main
import CacheHierarchy.Directory.Call
import CacheHierarchy.Proofs.Frame
import CacheHierarchy.Proofs.Locks
import CacheHierarchy.Proofs.InclusiveEviction
import CacheHierarchy.Proofs.LockInvariant
import CacheHierarchy.Proofs.Setup
import CacheHierarchy.Proofs.LockExclusivity
import CacheHierarchy.Proofs.FindLine
import CacheHierarchy.Proofs.LineAlignment
import CacheHierarchy.Proofs.MachineRuns
import CacheHierarchy.Proofs.PinnedLines
import CacheHierarchy.Proofs.PinnedRuns
import CacheHierarchy.Proofs.ServedFromAbove
import CacheHierarchy.Proofs.Workloads
import CacheHierarchy.Proofs.TraceAcceptance
import CacheHierarchy.Proofs.AnswerChain
import CacheHierarchy.Proofs.NextLineOverflow
import CacheHierarchy.Proofs.SetupChecks
import CacheHierarchy.Proofs.FreshTags
import CacheHierarchy.Proofs.DrainedLines
import CacheHierarchy.Proofs.ResumableDrain
import CacheHierarchy.Proofs.AddressFields
import CacheHierarchy.Proofs.VictimChoice
import CacheHierarchy.Proofs.WalkTermination
import CacheHierarchy.Proofs.BornOrder
import CacheHierarchy.Proofs.MissCounting
import CacheHierarchy.Proofs.MshrCalls
import CacheHierarchy.Proofs.MshrRuns
import CacheHierarchy.Proofs.BackInvalidation
