import DartUnion.Command.Footprint
import DartUnion.Command.Invocation
import DartUnion.Command.Outcome
import DartUnion.Command.Reading
import DartUnion.Command.Run
import DartUnion.Command.Setting
import DartUnion.Command.Shown
import DartUnion.Dart.Literal
import DartUnion.Dart.Name
import DartUnion.Decimal.Shortest
import DartUnion.Declaration.Basic
import DartUnion.Declaration.Unique
import DartUnion.Failure
import DartUnion.Files.Access
import DartUnion.Files.Glob
import DartUnion.Files.Path
import DartUnion.Files.Pattern
import DartUnion.Files.Tree
import DartUnion.Json.Load
import DartUnion.Json.Number
import DartUnion.Json.Print
import DartUnion.Json.Reader
import DartUnion.Json.Record
import DartUnion.Json.Skip
import DartUnion.Json.Text
import DartUnion.Main
import DartUnion.Output.Basic
import DartUnion.Output.Case
import DartUnion.Output.Code
import DartUnion.Output.Helper
import DartUnion.Proofs.Annotations
import DartUnion.Proofs.ArmReading
import DartUnion.Proofs.Attribution
import DartUnion.Proofs.BlockBody
import DartUnion.Proofs.BoundName
import DartUnion.Proofs.Brackets
import DartUnion.Proofs.ByteSlices
import DartUnion.Proofs.CleanText
import DartUnion.Proofs.ClosingBracket
import DartUnion.Proofs.CodeBrackets
import DartUnion.Proofs.CodeLines
import DartUnion.Proofs.CodeTexts
import DartUnion.Proofs.CommandWords
import DartUnion.Proofs.CoveredCases
import DartUnion.Proofs.DeclaredNames
import DartUnion.Proofs.DistinctNames
import DartUnion.Proofs.Emission
import DartUnion.Proofs.EscapedText
import DartUnion.Proofs.FactoryReading
import DartUnion.Proofs.FactorySearch
import DartUnion.Proofs.FailedInput
import DartUnion.Proofs.FaultPaths
import DartUnion.Proofs.FirstOffence
import DartUnion.Proofs.Following
import DartUnion.Proofs.Gaps
import DartUnion.Proofs.GeneratedText
import DartUnion.Proofs.Grammar
import DartUnion.Proofs.HelperReading
import DartUnion.Proofs.InPlace
import DartUnion.Proofs.JoinedPieces
import DartUnion.Proofs.JsonFaults
import DartUnion.Proofs.JsonModel
import DartUnion.Proofs.JsonValues
import DartUnion.Proofs.KeptText
import DartUnion.Proofs.LiteralDefault
import DartUnion.Proofs.LookUp
import DartUnion.Proofs.OperatorDefaults
import DartUnion.Proofs.OptionEffects
import DartUnion.Proofs.OutputFile
import DartUnion.Proofs.ParameterLists
import DartUnion.Proofs.ParameterReading
import DartUnion.Proofs.PieceSlices
import DartUnion.Proofs.Pieces
import DartUnion.Proofs.PrintedOutput
import DartUnion.Proofs.ReadDeclaration
import DartUnion.Proofs.Recovery
import DartUnion.Proofs.Regeneration
import DartUnion.Proofs.Regrouping
import DartUnion.Proofs.Statements
import DartUnion.Proofs.TextForm
import DartUnion.Proofs.ThroughModel
import DartUnion.Source.Comment
import DartUnion.Source.Factory
import DartUnion.Source.Parameter
import DartUnion.Source.Piece
import DartUnion.Source.Union
import DartUnion.Text.Basic
import DartUnion.Text.Quoted
import DartUnion.Text.Word
