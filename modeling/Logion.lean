import Logion.Lib.Fallible
import Logion.Lib.Keyed
import Logion.Lib.BlockMode
import Logion.Lib.Effect
import Logion.Lib.Indices
import Logion.Model.Lifecycle
import Logion.Model.LocItems
import Logion.Model.LocRequest
import Logion.Model.LocStep
import Logion.Model.Factory
import Logion.Loc.Effects
import Logion.Loc.Projection
import Logion.Loc.Status
import Logion.Crypto.EncryptedFile
import Logion.Chain.Extrinsic
import Logion.Chain.ExtrinsicsBuilder
import Logion.Model.Transaction
import Logion.Chain.TransactionExtractor
import Logion.Sync.BlockConsumer
import Logion.Sync.Batches
import Logion.Sync.ExactlyOnce
import Logion.Sync.Scheduler
import Logion.Sync.ScheduledRuns
import Logion.Sync.RecordedBlocks
import Logion.Sync.InTurn
import Logion.Sync.Uninterrupted
import Logion.Sync.Database
import Logion.Sync.Synchronizers
import Logion.Sync.NeverStuck
import Logion.Sync.ProcessBlock
import Logion.Sync.AccountHistory
import Logion.Sync.FailedExtrinsics
import Logion.Sync.Frames
import Logion.Sync.BatchEquivalence
import Logion.Sync.Replay
import Logion.Loc.OnChainDates
import Logion.Loc.Race
import Logion.Loc.InPlace
import Logion.Loc.Collections
import Logion.Loc.Reachable
import Logion.Loc.Closing
import Logion.Loc.Opening
import Logion.Loc.PublishedItems
import Logion.Loc.Void
import Logion.Loc.Markers
import Logion.Loc.Consent
import Logion.Lib.Table
import Logion.Store.Children
import Logion.Store.ChildTables
import Logion.Store.SavedChildren
import Logion.Lib.ReadCommitted
import Logion.Lib.Transactions
import Logion.Store.LocTables
import Logion.Store.Updates
import Logion.Store.SerialUpdates
import Logion.Crypto.ConcurrentExport
import Logion.Crypto.ConcurrentImport
import Logion.Crypto.Isolation
import Logion.Store.StoredFiles
import Logion.Lib.Compaction
import Logion.Chain.ExtrinsicIndices
import Logion.Chain.FeeConservation
import Logion.Chain.StoredTransactions
import Logion.Lib.Joining
import Logion.Model.Seal
import Logion.Loc.Idenfy
import Logion.Store.SecretRecovery
import Logion.Store.CollectionLimit
import Logion.Lib.LastWrite
import Logion.Sync.IssuerSelection
import Logion.Lib.Custody
import Logion.Store.FilePins
import Logion.Lib.WrittenRows
import Logion.Store.FileContents
import Logion.Loc.Cancellations
import Logion.Chain.ReservedBalances
import Logion.Crypto.IpfsDownload
import Logion.Loc.Secrets
import Logion.Lib.Sorting
import Logion.Loc.Visibility
import Logion.Lib.Memo
import Logion.Store.VaultTransfers
import Logion.Lib.Occurrences
import Logion.Delivery.Metadata
import Logion.Delivery.Downloads
import Logion.Lib.RowUpdates
import Logion.Store.AccountRecoveries
import Logion.Lib.Unwinding
import Logion.Loc.Contents
import Logion.Api.LocApi
import Logion.Api.LocRegistry
import Logion.Api.Identities
import Logion.Api.Reviews
import Logion.Api.Outsiders
import Logion.Api.TokenOwnership
import Logion.Api.Deliveries
import Logion.Api.Vaults
import Logion.Api.VaultAccess
