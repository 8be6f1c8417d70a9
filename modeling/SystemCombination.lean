import SystemCombination.Text.Blank
import SystemCombination.Text.Count
import SystemCombination.Text.Lines
import SystemCombination.Text.Utf8
import SystemCombination.IoError
import SystemCombination.Text.Input
import SystemCombination.Rounding
import SystemCombination.Binary64.Basic
import SystemCombination.Binary64.Arithmetic
import SystemCombination.Binary64.Lemmas
import SystemCombination.Decimal.Fixed
import SystemCombination.Decimal.Numeral
import SystemCombination.Vocabulary
import SystemCombination.Model.Fault
import SystemCombination.Model.Corpus
import SystemCombination.Model.NgramTable
import SystemCombination.Model.Basic
import SystemCombination.Request.Key
import SystemCombination.Request.Error
import SystemCombination.Request.Assignment
import SystemCombination.Request.Confidences
import SystemCombination.Request.Basic
import SystemCombination.Segment.Basic
import SystemCombination.Distinct
import SystemCombination.Segment.Alignment
import SystemCombination.Segment.Failure
import SystemCombination.Segment.Reader
import SystemCombination.Numbering
import SystemCombination.Decoder.Runs
import SystemCombination.Decoder.SharedRuns
import SystemCombination.Decoder.Features
import SystemCombination.Decoder.Basic
import SystemCombination.Output.Stream
import SystemCombination.Output.Memory
import SystemCombination.Output.Sink
import SystemCombination.Output.Partners
import SystemCombination.Pipeline
import SystemCombination.Files.Basic
import SystemCombination.Files.Writer
import SystemCombination.Engine
import SystemCombination.Connection
import SystemCombination.CommandLine.Flag
import SystemCombination.CommandLine.Config
import SystemCombination.Service.LogFilter
import SystemCombination.Service.Action
import SystemCombination.Service.Preparation
import SystemCombination.Service.Life
import SystemCombination.Service.Turns
import SystemCombination.Service.Network
import SystemCombination.Host.Files
import SystemCombination.Host.Socket
import SystemCombination.Main
import SystemCombination.Proofs.Text.Blank
import SystemCombination.Proofs.Text.Words
import SystemCombination.Proofs.Text.Lines
import SystemCombination.Proofs.Text.Runs
import SystemCombination.Proofs.Decimal.Numeral
import SystemCombination.Proofs.Request.Statement
import SystemCombination.Proofs.Request.Block
import SystemCombination.Proofs.Request.Stages
import SystemCombination.Proofs.Request.Verdict
import SystemCombination.Proofs.Request.Message
import SystemCombination.Proofs.Request.Layout
import SystemCombination.Proofs.Segment.Cut
import SystemCombination.Proofs.Segment.Calls
import SystemCombination.Proofs.Decoder.Best
import SystemCombination.Proofs.Output.Memory
import SystemCombination.Proofs.Output.Calls
import SystemCombination.Proofs.Output.Records
import SystemCombination.Proofs.Output.Faithful
import SystemCombination.Proofs.Pipeline.OneBest
import SystemCombination.Proofs.Connection.Course
import SystemCombination.Proofs.Pipeline.Oracle
import SystemCombination.Proofs.Files.Tree
import SystemCombination.Proofs.Files.Writer
import SystemCombination.Proofs.Connection.Done
import SystemCombination.Proofs.Segment.AllMatches
import SystemCombination.Proofs.Segment.NearestMatches
import SystemCombination.Proofs.Segment.Widening
import SystemCombination.Proofs.Decoder.Alike
import SystemCombination.Proofs.Engine.Agreement
import SystemCombination.Proofs.Engine.PickBest
import SystemCombination.Proofs.Engine.Words
import SystemCombination.Proofs.Binary64.Exact
import SystemCombination.Proofs.Binary64.Zero
import SystemCombination.Proofs.Decoder.Support
import SystemCombination.Proofs.Decoder.NgramMatch
import SystemCombination.Proofs.Segment.Reordering
import SystemCombination.Proofs.Decoder.Reordering
import SystemCombination.Proofs.Decoder.Topmost
import SystemCombination.Proofs.Model.NgramLine
import SystemCombination.Proofs.Model.NgramText
import SystemCombination.Proofs.Model.NgramEnd
import SystemCombination.Proofs.Model.NgramCounts
import SystemCombination.Proofs.Model.CorpusText
import SystemCombination.Proofs.Vocabulary.Insertions
import SystemCombination.Proofs.Request.Supplied
import SystemCombination.Proofs.Request.Defaults
import SystemCombination.Proofs.Request.Confidences
import SystemCombination.Proofs.Output.InStep
import SystemCombination.Proofs.Files.InStep
import SystemCombination.Proofs.Engine.Frame
import SystemCombination.Proofs.Engine.Oracle
import SystemCombination.Proofs.Engine.BadPath
import SystemCombination.Proofs.Segment.WellFormed
import SystemCombination.Proofs.Service.Turns
import SystemCombination.Proofs.Service.Life
import SystemCombination.Proofs.Service.FailFast
import SystemCombination.Proofs.CommandLine.Occurrences
import SystemCombination.Proofs.CommandLine.Checks
import SystemCombination.Proofs.CommandLine.Outcome
