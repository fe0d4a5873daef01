import RuleForest.Agreement
import RuleForest.Binary64
import RuleForest.Category
import RuleForest.Enclosure
import RuleForest.Escape
import RuleForest.Fault
import RuleForest.FloatNumeral
import RuleForest.FloatText
import RuleForest.Folding
import RuleForest.IntegerNumeral
import RuleForest.Kind
import RuleForest.Literal
import RuleForest.Node
import RuleForest.Outline
import RuleForest.Printable
import RuleForest.Reading
import RuleForest.Scope
import RuleForest.Session
import RuleForest.Setting
import RuleForest.Shape
import RuleForest.ShortestDecimal
import RuleForest.Stream
import RuleForest.StringLiteral
import RuleForest.Traced
import RuleForest.Value
import RuleForest.ValueText
import RuleForest.Proofs.BracketCount
import RuleForest.Proofs.LocatedExtent
import RuleForest.Proofs.ReadingSteps
import RuleForest.Proofs.Derivation
import RuleForest.Proofs.DerivedReading
import RuleForest.Proofs.BracketedReading
import RuleForest.Proofs.ReadingFaults
import RuleForest.Proofs.CursorScan
import RuleForest.Proofs.CursorAfterReading
import RuleForest.Proofs.NodeLeaves
import RuleForest.Proofs.TraversalPartition
import RuleForest.Proofs.FirstWrongToken
import RuleForest.Proofs.BlamedPrefix
import RuleForest.Proofs.MaterializedNode
import RuleForest.Proofs.FoldingFaults
import RuleForest.Proofs.DepthLimit
import RuleForest.Proofs.PaddedReading
import RuleForest.Proofs.StructureLevels
import RuleForest.Proofs.FirstTooDeep
import RuleForest.Proofs.IntegerSpelling
import RuleForest.Proofs.DecimalText
import RuleForest.Proofs.LiteralBody
import RuleForest.Proofs.ReadingCalls
import RuleForest.Proofs.SpelledValues
import RuleForest.Proofs.PaddedValues
import RuleForest.Proofs.SessionHistory
import RuleForest.Proofs.SlicedReading
import RuleForest.Proofs.TokenPayload
import RuleForest.Proofs.FoldingSteps
import RuleForest.Proofs.TwoPhases
import RuleForest.Proofs.ValuePositions
import RuleForest.Proofs.FoldingEnds
import RuleForest.Proofs.ReplacedValue
import RuleForest.Proofs.UsedNames
import RuleForest.Proofs.FoldingOrder
import RuleForest.Proofs.EscapePieces
import RuleForest.Proofs.LiteralUnits
import RuleForest.Proofs.WrittenText
import RuleForest.Proofs.OutlineRows
import RuleForest.Proofs.FaithfulOutline
import RuleForest.Proofs.VisitedStructures
import RuleForest.Proofs.FinishedStructures
import RuleForest.Proofs.RefusedToken
import RuleForest.Proofs.RecordOrder
import RuleForest.Proofs.NumberTexts
import RuleForest.Proofs.StreamHistory
import RuleForest.Proofs.ReaderEquations
import RuleForest.Proofs.ReadingRecursion
