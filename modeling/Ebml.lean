import Ebml.Schema
import Ebml.Error
import Ebml.Source
import Ebml.Vint
import Ebml.Tag
import Ebml.Lacing
import Ebml.Block
import Ebml.Float
import Ebml.Value
import Ebml.Payload
import Ebml.Marshal
import Ebml.Utf8
import Ebml.Slot
import Ebml.Header
import Ebml.Decoder
import Ebml.Trie
import Ebml.Matroska.Document
import Ebml.Matroska.Sorter
import Ebml.Matroska.Reader
import Ebml.Matroska.ClusterWriter
import Ebml.Matroska.Threads
import Ebml.Matroska.Writer
import Ebml.Tokens.Unicode
import Ebml.Tokens.Tree
import Ebml.Tokens.Lexer
import Ebml.Tokens.Parse
import Ebml.Syntax.Reader
import Ebml.Syntax.Grammar
import Ebml.Syntax.Attrs
import Ebml.Syntax.Types
import Ebml.Syntax.Patterns
import Ebml.Syntax.Exprs
import Ebml.Codegen.Item
import Ebml.Codegen.Derive
import Ebml.Codegen.Table
import Ebml.Proofs.Reading
import Ebml.Proofs.Vint
import Ebml.Proofs.Text
import Ebml.Proofs.Float
import Ebml.Proofs.Lacing
import Ebml.Proofs.ElementMap
import Ebml.Proofs.Payload
import Ebml.Proofs.Encoding
import Ebml.Proofs.Decoding
import Ebml.Proofs.RoundTrip
import Ebml.Proofs.Shifting
import Ebml.Proofs.Flushing
import Ebml.Proofs.Sorting
import Ebml.Proofs.Modes
import Ebml.Proofs.Layout
import Ebml.Proofs.Appending
import Ebml.Proofs.SeekIndex
import Ebml.Proofs.RecordReading
import Ebml.Proofs.DocumentReading
import Ebml.Proofs.SizeCodec
import Ebml.Proofs.LaceCodec
import Ebml.Proofs.BlockCodec
import Ebml.Proofs.Stopping
import Ebml.Proofs.ThreadSteps
import Ebml.Proofs.SingleCaller
import Ebml.Proofs.SignedCodec
import Ebml.Proofs.Records
import Ebml.Proofs.HookRecords
import Ebml.Proofs.Clusters
import Ebml.Proofs.IdCodec
import Ebml.Proofs.Unlacing
import Ebml.Proofs.TrieLookup
import Ebml.Proofs.ElementTable
import Ebml.Proofs.Advancing
import Ebml.Proofs.Termination
import Ebml.Proofs.WriterFailures
import Ebml.Proofs.ThreadRuns
import Ebml.Proofs.ThreadRest
import Ebml.Proofs.TagText
import Ebml.Proofs.DerivedTags
import Ebml.Proofs.RefusedFields
import Ebml.Proofs.ClusterStreams
import Ebml.Proofs.BlockDelivery
import Ebml.Proofs.IntegerCodec
import Ebml.Proofs.DerivedFields
import Ebml.Proofs.DerivedImpls
import Ebml.Proofs.HeaderReading
