import MiddlewareStack.Aggregate.Run
import MiddlewareStack.Executor
import MiddlewareStack.Main
import MiddlewareStack.Outcome.DebugText
import MiddlewareStack.Proofs.BalancedGuard
import MiddlewareStack.Proofs.Bounds
import MiddlewareStack.Proofs.BuiltGraph
import MiddlewareStack.Proofs.BundleMethods
import MiddlewareStack.Proofs.ChildModules
import MiddlewareStack.Proofs.CollectedMethods
import MiddlewareStack.Proofs.CompileSuccess
import MiddlewareStack.Proofs.ComponentKeys
import MiddlewareStack.Proofs.ConfiguredPaths
import MiddlewareStack.Proofs.ContractImpls
import MiddlewareStack.Proofs.CycleReport
import MiddlewareStack.Proofs.DanglingEmbeds
import MiddlewareStack.Proofs.Dependency
import MiddlewareStack.Proofs.Descent
import MiddlewareStack.Proofs.DiscoveryOrder
import MiddlewareStack.Proofs.EmbeddedContracts
import MiddlewareStack.Proofs.EmittedPaths
import MiddlewareStack.Proofs.EmittedTypes
import MiddlewareStack.Proofs.ExecutionSafety
import MiddlewareStack.Proofs.ExtendedTables
import MiddlewareStack.Proofs.FieldNames
import MiddlewareStack.Proofs.ForwardedCalls
import MiddlewareStack.Proofs.GeneratedRun
import MiddlewareStack.Proofs.GraphChanges
import MiddlewareStack.Proofs.GraphStore
import MiddlewareStack.Proofs.ImplementationOrder
import MiddlewareStack.Proofs.ImplementedContracts
import MiddlewareStack.Proofs.ImportAliases
import MiddlewareStack.Proofs.ItemClasses
import MiddlewareStack.Proofs.LayeredConfig
import MiddlewareStack.Proofs.LeastOrder
import MiddlewareStack.Proofs.ManifestRoundTrip
import MiddlewareStack.Proofs.MethodPreorder
import MiddlewareStack.Proofs.ModuleNames
import MiddlewareStack.Proofs.NamedItems
import MiddlewareStack.Proofs.Names
import MiddlewareStack.Proofs.ParameterNames
import MiddlewareStack.Proofs.PathGrammar
import MiddlewareStack.Proofs.PathPrefixes
import MiddlewareStack.Proofs.PlacedTypes
import MiddlewareStack.Proofs.Placement
import MiddlewareStack.Proofs.QualifiedNames
import MiddlewareStack.Proofs.ReadSignatures
import MiddlewareStack.Proofs.ReadTokens
import MiddlewareStack.Proofs.ReadTypes
import MiddlewareStack.Proofs.RecordedRun
import MiddlewareStack.Proofs.RecordedText
import MiddlewareStack.Proofs.Renderable
import MiddlewareStack.Proofs.RequestMatching
import MiddlewareStack.Proofs.RequestTypes
import MiddlewareStack.Proofs.Rescan
import MiddlewareStack.Proofs.Satisfaction
import MiddlewareStack.Proofs.SettledGraph
import MiddlewareStack.Proofs.ShortCircuits
import MiddlewareStack.Proofs.SiblingPaths
import MiddlewareStack.Proofs.SignatureLifetimes
import MiddlewareStack.Proofs.SnakeWords
import MiddlewareStack.Proofs.SourceTable
import MiddlewareStack.Proofs.StackEmbeds
import MiddlewareStack.Proofs.SymbolNames
import MiddlewareStack.Proofs.TokenSpacing
import MiddlewareStack.Proofs.UngroupedImports
import MiddlewareStack.Proofs.Wiring
import MiddlewareStack.Proofs.WiringFaults
import MiddlewareStack.Proofs.WrittenFiles
