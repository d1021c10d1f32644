import PaimonFtindex.Lib.Sweep
import PaimonFtindex.Model.Storage
import PaimonFtindex.Proofs.OptionOrder
import PaimonFtindex.Model.Schema
import PaimonFtindex.Model.Analyzer
import PaimonFtindex.Model.Writer
import PaimonFtindex.Lib.Outcome
import PaimonFtindex.Proofs.Layout
import PaimonFtindex.Proofs.Envelope
import PaimonFtindex.Proofs.WriterLifeCycle
import PaimonFtindex.Lib.Interleave
import PaimonFtindex.Model.ArchiveDirectory
import PaimonFtindex.Proofs.ArchiveRead
import PaimonFtindex.Lib.Record
import PaimonFtindex.Model.Query
import PaimonFtindex.Proofs.QueryJson
import PaimonFtindex.Lib.Automaton
import PaimonFtindex.Model.Fuzzy
import PaimonFtindex.Model.BuildQuery
import PaimonFtindex.Model.Weight
import PaimonFtindex.Proofs.Columns
import PaimonFtindex.Proofs.QueryMeaning
import PaimonFtindex.Proofs.FuzzyAutomaton
import PaimonFtindex.Lib.TopK
import PaimonFtindex.Model.Search
import PaimonFtindex.Proofs.Expansion
import PaimonFtindex.Proofs.FilteredSearch
import PaimonFtindex.Proofs.Division
import PaimonFtindex.Lib.InsertAll
import PaimonFtindex.Proofs.DirectoryMap
import PaimonFtindex.Proofs.FieldResolution
import PaimonFtindex.Lib.Runs
import PaimonFtindex.Model.IcuTokenizer
import PaimonFtindex.Proofs.IcuTokens
import PaimonFtindex.Lib.Cursor
import PaimonFtindex.Model.Scorer
import PaimonFtindex.Proofs.Demotion
import PaimonFtindex.Proofs.PhraseText
import PaimonFtindex.Proofs.StopWords
import PaimonFtindex.Proofs.ReadPanics
import PaimonFtindex.Proofs.QueryValidation
import PaimonFtindex.Model.ArchiveFiles
import PaimonFtindex.Proofs.BatchedReading
import PaimonFtindex.Lib.Fifo
import PaimonFtindex.Proofs.CacheBookkeeping
import PaimonFtindex.Proofs.LayoutOrder
import PaimonFtindex.Proofs.StreamingWriter
import PaimonFtindex.Model.Ffi
import PaimonFtindex.Proofs.CStrings
import PaimonFtindex.Lib.ListCursor
import PaimonFtindex.Lib.PartitionPoint
import PaimonFtindex.Model.DocSetCalls
import PaimonFtindex.Proofs.DocSetCalls
import PaimonFtindex.Model.Directory
import PaimonFtindex.Model.Reader
import PaimonFtindex.Proofs.CollectFiles
import PaimonFtindex.Proofs.FrozenDirectory
import PaimonFtindex.Proofs.HeaderRead
import PaimonFtindex.Proofs.Reopen
import PaimonFtindex.Lib.Views
import PaimonFtindex.Model.Handles
import PaimonFtindex.Proofs.HandleSafety
import PaimonFtindex.Proofs.ReadMetrics
import PaimonFtindex.Model.HeaderJson
import PaimonFtindex.Model.SearchCalls
import PaimonFtindex.Proofs.HeaderJson
import PaimonFtindex.Proofs.Paging
import PaimonFtindex.Proofs.SearchCalls
import PaimonFtindex.Model.LastError
import PaimonFtindex.Proofs.LastError
import PaimonFtindex.Model.Transports
import PaimonFtindex.Proofs.SearchRows
import PaimonFtindex.Proofs.Transports
import PaimonFtindex.Lib.Delegation
import PaimonFtindex.Model.WriterCalls
import PaimonFtindex.Proofs.JavaWriterCalls
import PaimonFtindex.Proofs.QueryReading
