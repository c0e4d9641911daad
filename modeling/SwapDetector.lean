import SwapDetector.Base.OrderedSet
import SwapDetector.Base.ExactFloat
import SwapDetector.Base.Exec
import SwapDetector.Base.Permutations
import SwapDetector.Base.PreparedStatement
import SwapDetector.Model.IdentifierSplitting
import SwapDetector.Model.StatsDatabase
import SwapDetector.Model.SwappedArgChecker
import SwapDetector.Proofs.PairEnumeration
import SwapDetector.Proofs.Lookups
import SwapDetector.Proofs.Refinement
import SwapDetector.Proofs.FailingSteps
import SwapDetector.Proofs.Assertions
import SwapDetector.Proofs.Locality
import SwapDetector.Proofs.ParameterIndependence
import SwapDetector.Proofs.MatchValues
import SwapDetector.Proofs.NormalisedTables
import SwapDetector.Proofs.FixedCalls
import SwapDetector.Proofs.MirroredCalls
import SwapDetector.Proofs.LetterCase
import SwapDetector.Proofs.Thresholds
import SwapDetector.Proofs.PermutedCalls
import SwapDetector.Base.Segments
import SwapDetector.Proofs.Splitting
import SwapDetector.Proofs.StatsVetting
import SwapDetector.Proofs.CoverBased
import SwapDetector.Proofs.StatsMeaning
import SwapDetector.Proofs.ConfidenceRange
import SwapDetector.Proofs.FailedReports
import SwapDetector.Base.Decisions
import SwapDetector.Proofs.FailedVetting
import SwapDetector.Base.Traces
import SwapDetector.Proofs.Sessions
import SwapDetector.Proofs.JoinedNames
import SwapDetector.Base.Logging
import SwapDetector.Model.CharacterCalls
import SwapDetector.Proofs.CharacterDomain
import SwapDetector.Base.Utf8
import SwapDetector.Spec.Text
import SwapDetector.Proofs.TextSplitting
import SwapDetector.Base.Postconditions
import SwapDetector.Base.ReferenceCounts
import SwapDetector.Model.PythonObjects
import SwapDetector.Model.PythonExtension
import SwapDetector.Spec.PythonCalls
import SwapDetector.Proofs.PythonApi
import SwapDetector.Proofs.PythonNames
import SwapDetector.Proofs.PythonResults
import SwapDetector.Proofs.FailingResults
import SwapDetector.Proofs.PythonCalls
import SwapDetector.Proofs.PythonWrappers
import SwapDetector.Base.Decimal
import SwapDetector.Model.ExprNames
import SwapDetector.Model.SwappedArgCheckerPlugin
import SwapDetector.Proofs.ExpressionNames
import SwapDetector.Proofs.AnalyzerCalls
import SwapDetector.Base.Delimiters
import SwapDetector.Proofs.DiagnosticMessages
import SwapDetector.Base.DatabaseHandles
import SwapDetector.Model.StatisticsHandles
import SwapDetector.Proofs.HandleLifecycle
import SwapDetector.Model.IntegrationDriver
import SwapDetector.Model.IntegrationRunner
import SwapDetector.Proofs.CommandLines
import SwapDetector.Proofs.IntegrationRuns
import SwapDetector.Base.QuotedText
import SwapDetector.Model.CreateStatsDB
import SwapDetector.Proofs.CreatedDatabases
import SwapDetector.Model.ExprNamesInspectionChecker
import SwapDetector.Proofs.NameInspections
import SwapDetector.Proofs.RowOrder
