import QueryTree.Diagnostics
import QueryTree.Expr.Chain
import QueryTree.Include.Fixup
import QueryTree.Model.Text
import QueryTree.Model.Validation
import QueryTree.Workspace
import QueryTree.Proofs.PassReference
import QueryTree.Proofs.ArenaScope
import QueryTree.Proofs.Construction
import QueryTree.Proofs.ConstructionRun
import QueryTree.Proofs.Rendering
import QueryTree.Proofs.Validation
import QueryTree.Proofs.WellFormed
import QueryTree.Proofs.Names
import QueryTree.Proofs.Simulation
import QueryTree.Proofs.Substitution
import QueryTree.Proofs.Normalization
import QueryTree.Proofs.Extraction
import QueryTree.Proofs.ExtractionSites
import QueryTree.Proofs.ParameterRun
import QueryTree.Proofs.MaximalExtraction
import QueryTree.Proofs.ContextAccess
import QueryTree.Proofs.Compilation
import QueryTree.Proofs.PassEquations
import QueryTree.Proofs.PassNodes
import QueryTree.Proofs.RecordMap
import QueryTree.Proofs.ShapeSharing
import QueryTree.Proofs.ConstructionRule
import QueryTree.Proofs.ConstructionSteps
import QueryTree.Proofs.CompileHistory
import QueryTree.Proofs.ConstructionResult
import QueryTree.Proofs.ParameterBinding
import QueryTree.Proofs.FreeVariables
import QueryTree.Proofs.Confinement
import QueryTree.Proofs.ClosedConstruction
import QueryTree.Proofs.ClosedCompilation
import QueryTree.Proofs.DirectiveExtraction
import QueryTree.Proofs.Spine
import QueryTree.Proofs.SideBySide
import QueryTree.Proofs.SideBySideRun
import QueryTree.Proofs.Annotation
import QueryTree.Proofs.RegistryHistory
import QueryTree.Proofs.Exclusion
import QueryTree.Proofs.RegistryOrder
import QueryTree.Proofs.CacheHistory
import QueryTree.Proofs.SourceWalks
import QueryTree.Proofs.IncludeBinding
import QueryTree.Proofs.IncludePlans
import QueryTree.Proofs.IncludeCoverage
import QueryTree.Proofs.Agreement
import QueryTree.Proofs.SubstitutionLaws
import QueryTree.Proofs.Unfolding
import QueryTree.Proofs.NegationForm
import QueryTree.Proofs.NegatedOrder
import QueryTree.Proofs.GuardedTests
import QueryTree.Proofs.DoubleNegation
import QueryTree.Proofs.ExactFolding
import QueryTree.Proofs.CompleteFolding
import QueryTree.Proofs.OperatorFree
import QueryTree.Proofs.OperatorSteps
import QueryTree.Proofs.OperatorRecords
import QueryTree.Proofs.Linearization
import QueryTree.Proofs.UnrecognizedCalls
import QueryTree.Proofs.SourceNames
import QueryTree.Proofs.IncludeNotations
import QueryTree.Proofs.SelectManyForms
import QueryTree.Proofs.OperatorInvariants
import QueryTree.Proofs.GroupingOrder
import QueryTree.Proofs.GroupedResults
import QueryTree.Proofs.FilterKeys
import QueryTree.Proofs.Fixups
import QueryTree.Proofs.EnvironmentReads
import QueryTree.Proofs.ExactArithmetic
import QueryTree.Proofs.FailedExtraction
