import TensorLang.Text.Ink
import TensorLang.Text.Blank
import TensorLang.Text.Quoted
import TensorLang.Decimal.Positional
import TensorLang.Source
import TensorLang.Error
import TensorLang.Arena
import TensorLang.SymbolTable
import TensorLang.Tensor.Type
import TensorLang.Tensor.Literal
import TensorLang.Token.Lexer
import TensorLang.Program.Parser
import TensorLang.Program.Outline
import TensorLang.Dataflow.Editing
import TensorLang.Dataflow.Verification
import TensorLang.Dataflow.Listing
import TensorLang.Dataflow.OfProgram
import TensorLang.Dataflow.Inlining
import TensorLang.Dataflow.Inference
import TensorLang.Dataflow.Simplification
import TensorLang.Dataflow.Sharing
import TensorLang.Loop.Listing
import TensorLang.Loop.OfDataflow
import TensorLang.Loop.Execution
import TensorLang.CommandLine
import TensorLang.Main
import TensorLang.Proofs.PlainOutput
import TensorLang.Proofs.Normalization
import TensorLang.Proofs.Program.Completeness
import TensorLang.Proofs.Totality
import TensorLang.Proofs.Program.Lexing
import TensorLang.Proofs.Dataflow.EditHistories
import TensorLang.Proofs.Dataflow.BuiltFunctions
import TensorLang.Proofs.Dataflow.Worklists
import TensorLang.Proofs.Dataflow.CorrectPrograms
import TensorLang.Proofs.Loop.SquareProducts
import TensorLang.Proofs.Layout
import TensorLang.Proofs.Reordering
import TensorLang.Proofs.StableTypes
import TensorLang.Proofs.Tensor.RowMajor
import TensorLang.Proofs.Dataflow.CountedShapes
import TensorLang.Proofs.Program.LiteralTexts
import TensorLang.Proofs.SizesInWords
import TensorLang.Proofs.Program.ViablePrefixes
import TensorLang.Proofs.Program.NestedSpans
import TensorLang.Proofs.Dataflow.InferenceRuns
import TensorLang.Proofs.CompiledLocations
import TensorLang.Proofs.Excerpts
import TensorLang.Proofs.Loop.LegibleListings
import TensorLang.Proofs.Dataflow.EqualUpToHandles
import TensorLang.Proofs.NumberedNames
import TensorLang.Proofs.StoredEntries
import TensorLang.Proofs.Loop.LastValues
import TensorLang.Proofs.Loop.Sweeps
