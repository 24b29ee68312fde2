import LiveComponent.Remote
import LiveComponent.Session
import LiveComponent.Traffic
import LiveComponent.Proofs.CacheChange
import LiveComponent.Proofs.CacheOpening
import LiveComponent.Proofs.Execution
import LiveComponent.Proofs.HandleAccounting
import LiveComponent.Proofs.HandleTraffic
import LiveComponent.Proofs.Uninterrupted
import LiveComponent.Proofs.TaskTraffic
import LiveComponent.Proofs.Verdict
import LiveComponent.Proofs.FreshSession
import LiveComponent.Proofs.Knowledge
import LiveComponent.Proofs.Transparency
import LiveComponent.Proofs.Repetition
import LiveComponent.Proofs.FormatDependence
import LiveComponent.Proofs.CompiledCode
import LiveComponent.Proofs.MarkupLowering
import LiveComponent.Proofs.MarkupSurvival
import LiveComponent.Proofs.Validation
import LiveComponent.Proofs.SingleFlight
import LiveComponent.Proofs.WriteThrough
import LiveComponent.Proofs.Eviction
import LiveComponent.Proofs.GuardedStatements
import LiveComponent.Proofs.ImportPlaces
import LiveComponent.Proofs.GuardReading
import LiveComponent.Proofs.FileNames
import LiveComponent.Proofs.LingeringLoads
import LiveComponent.Proofs.LoneCalls
import LiveComponent.Proofs.LoneRequests
import LiveComponent.Proofs.FailureTraces
import LiveComponent.Proofs.ArgumentReading
import LiveComponent.Proofs.CallPrinting
import LiveComponent.Proofs.DisjointEdits
import LiveComponent.Proofs.GuardedTwice
import LiveComponent.Proofs.GuardedModules
import LiveComponent.Proofs.MarkupModules
import LiveComponent.Proofs.LoweringReference
import LiveComponent.Proofs.MarkupSplicing
import LiveComponent.Proofs.LoadReuse
import LiveComponent.Proofs.RepeatedResolution
import LiveComponent.Proofs.OriginMetadata
import LiveComponent.Proofs.OutputLookup
import LiveComponent.Proofs.ImportPatching
import LiveComponent.Proofs.ComponentExport
import LiveComponent.Proofs.Clearing
import LiveComponent.Proofs.ExportedValues
import LiveComponent.Proofs.ChildWhitespace
import LiveComponent.Proofs.EntityDecoding
import LiveComponent.Proofs.MirrorAddresses
import LiveComponent.Proofs.HitCounts
