import MiniDbms.Buffer.BufferPool
import MiniDbms.Buffer.CleanPools
import MiniDbms.Buffer.ClientRuns
import MiniDbms.Buffer.ClockReplacer
import MiniDbms.Buffer.ClockRuns
import MiniDbms.Buffer.DiskShape
import MiniDbms.Buffer.FailedRequests
import MiniDbms.Buffer.FaultlessRuns
import MiniDbms.Buffer.FileBounds
import MiniDbms.Buffer.FlushFailures
import MiniDbms.Buffer.FreePages
import MiniDbms.Buffer.Lockstep
import MiniDbms.Buffer.PinDiscipline
import MiniDbms.Buffer.PoolImages
import MiniDbms.Buffer.PoolInvariant
import MiniDbms.Buffer.PoolSteps
import MiniDbms.Buffer.Programs
import MiniDbms.Buffer.Transparency
import MiniDbms.Catalog.CatalogChanges
import MiniDbms.Catalog.CatalogDecoding
import MiniDbms.Catalog.CatalogFailures
import MiniDbms.Catalog.CatalogManager
import MiniDbms.Catalog.CatalogNormal
import MiniDbms.Catalog.CatalogPage
import MiniDbms.Catalog.CatalogPins
import MiniDbms.Catalog.CatalogRuns
import MiniDbms.Catalog.CatalogSafety
import MiniDbms.Catalog.CatalogState
import MiniDbms.Catalog.IndexLookups
import MiniDbms.Catalog.Schema
import MiniDbms.Common.Numerals
import MiniDbms.Common.Text
import MiniDbms.Common.Types
import MiniDbms.Database.Consistency
import MiniDbms.Database.Contents
import MiniDbms.Database.LinkWalks
import MiniDbms.Database.Publication
import MiniDbms.Database.Reopening
import MiniDbms.Database.RowCalls
import MiniDbms.Database.RowKeys
import MiniDbms.Database.TableRuns
import MiniDbms.Index.BucketChains
import MiniDbms.Index.BucketPage
import MiniDbms.Index.BucketPageContents
import MiniDbms.Index.BucketRemoval
import MiniDbms.Index.HashIndex
import MiniDbms.Index.HashIndexChanges
import MiniDbms.Index.HashIndexContents
import MiniDbms.Index.HashIndexErrors
import MiniDbms.Index.HashIndexPins
import MiniDbms.Index.HashIndexRuns
import MiniDbms.Index.HashIndexWalks
import MiniDbms.Index.HeaderPage
import MiniDbms.Index.IndexKey
import MiniDbms.Index.IndexPages
import MiniDbms.Index.KeyLengths
import MiniDbms.Lib.CheckedMemory
import MiniDbms.Lib.Clock
import MiniDbms.Lib.Enumeration
import MiniDbms.Lib.FailedCalls
import MiniDbms.Lib.Footprint
import MiniDbms.Lib.Framing
import MiniDbms.Lib.Image
import MiniDbms.Lib.LinkWalk
import MiniDbms.Lib.Listing
import MiniDbms.Lib.Ownership
import MiniDbms.Lib.PageChain
import MiniDbms.Lib.PagedProgram
import MiniDbms.Lib.Parsing
import MiniDbms.Lib.PinDiscipline
import MiniDbms.Lib.ReadOnly
import MiniDbms.Lib.Simulation
import MiniDbms.Query.ColumnLengths
import MiniDbms.Query.Comparisons
import MiniDbms.Query.Databases
import MiniDbms.Query.DdlOrder
import MiniDbms.Query.DdlRuns
import MiniDbms.Query.Executor
import MiniDbms.Query.FaultyReads
import MiniDbms.Query.Grammar
import MiniDbms.Query.IndexTransparency
import MiniDbms.Query.InsertText
import MiniDbms.Query.Literal
import MiniDbms.Query.Mutations
import MiniDbms.Query.Names
import MiniDbms.Query.Operators
import MiniDbms.Query.Parser
import MiniDbms.Query.ParserPhrases
import MiniDbms.Query.Plans
import MiniDbms.Query.PoolSizes
import MiniDbms.Query.Printer
import MiniDbms.Query.PublicOperations
import MiniDbms.Query.ReachedStates
import MiniDbms.Query.ReadOnlySessions
import MiniDbms.Query.Refinement
import MiniDbms.Query.Relational
import MiniDbms.Query.Restarts
import MiniDbms.Query.Scans
import MiniDbms.Query.SelectAnswers
import MiniDbms.Query.SelectRuns
import MiniDbms.Query.Semantics
import MiniDbms.Query.Session
import MiniDbms.Query.StatementAnswers
import MiniDbms.Query.StatementErrors
import MiniDbms.Query.StatementPins
import MiniDbms.Query.StatementRuns
import MiniDbms.Query.TokenText
import MiniDbms.Query.Tokenizer
import MiniDbms.Storage.DiskManager
import MiniDbms.Storage.ForeignPages
import MiniDbms.Storage.HeapFile
import MiniDbms.Storage.HeapFileChanges
import MiniDbms.Storage.HeapFileContents
import MiniDbms.Storage.HeapFileErrors
import MiniDbms.Storage.HeapFilePins
import MiniDbms.Storage.HeapFileRuns
import MiniDbms.Storage.HeapFileWalks
import MiniDbms.Storage.PageAllocator
import MiniDbms.Storage.RecordCodec
import MiniDbms.Storage.RecordRoundTrip
import MiniDbms.Storage.RecordSafety
import MiniDbms.Storage.SlottedPage
import MiniDbms.Storage.SlottedPageContents
import MiniDbms.Storage.SlottedPageRuns
import MiniDbms.Storage.SlottedPageSafety
import MiniDbms.Storage.TableStorage
import MiniDbms.Storage.TableStorageErrors
import MiniDbms.Storage.TableStoragePins
