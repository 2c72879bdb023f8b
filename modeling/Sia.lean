import Sia.Lib.Finmap
import Sia.Lib.Forwarding
import Sia.Lib.Bytes
import Sia.Lib.Journal
import Sia.Lib.Except
import Sia.Types.Transaction
import Sia.Types.FileContracts
import Sia.Types.Currency
import Sia.Types.Encoding
import Sia.Types.EncodedSize
import Sia.Consensus.Store
import Sia.Consensus.Diffs
import Sia.Consensus.Env
import Sia.Consensus.ApplyTransaction
import Sia.Consensus.Maintenance
import Sia.Consensus.ValidTransaction
import Sia.Consensus.Supply
import Sia.Consensus.DiffSet
import Sia.Consensus.ConsensusSet
import Sia.Lib.Slice
import Sia.Lib.ByteFile
import Sia.Lib.Extent
import Sia.Lib.Bits
import Sia.Lib.Radix
import Sia.Host.MDM.ProgramData
import Sia.Host.MDM.Program
import Sia.Host.MDM.Instructions
import Sia.Host.MDM.Sectors
import Sia.Lib.OptionLoop
import Sia.Consensus.View
import Sia.Consensus.Commit
import Sia.Consensus.Record
import Sia.Consensus.Generate
import Sia.Consensus.Replay
import Sia.Consensus.Windows
import Sia.Consensus.Chain
import Sia.Host.Revision
import Sia.Host.LoopRPC
import Sia.Host.AccountManager
import Sia.Host.AccountIndex
import Sia.Host.SectorLocations
import Sia.Host.FinancialMetrics
import Sia.Skynet.BaseSector
import Sia.Renter.SiaFile
import Sia.Renter.SiaFileChunk
import Sia.Renter.AddPiece
import Sia.Renter.Proto.WriteProof
import Sia.Wallet.TransactionBuilder
import Sia.TransactionPool.FindSets
import Sia.Host.Registry
import Sia.Host.RegistryStore
import Sia.Renter.HostDB.Node
import Sia.Renter.HostDB.HostTree
import Sia.Consensus.Fork
import Sia.Lib.Decoder
import Sia.Types.Decoding
import Sia.Consensus.SiafundPool
import Sia.Types.Signatures
import Sia.Consensus.Subscribe
import Sia.Host.Renew
import Sia.Renter.Repair
import Sia.Renter.Proto.Contract
import Sia.Renter.Proto.RefCounter
import Sia.FeeManager.Entries
import Sia.FeeManager.State
import Sia.FeeManager.Replay
import Sia.FeeManager.Simulation
import Sia.Modules.Packing
import Sia.Modules.Skylink
import Sia.Sync.ThreadGroup
import Sia.Consensus.BlockRules
import Sia.Renter.WorkerAccount
import Sia.Persist.AppendOnly
import Sia.Persist.JSON
import Sia.Host.MDM.ReadOffset
import Sia.Wallet.History
import Sia.Wallet.Update
import Sia.Consensus.Accept
import Sia.Consensus.Difficulty
import Sia.Types.Target
import Sia.Lib.Fold
import Sia.Renter.DirMetadata
import Sia.Lib.ThreadSum
import Sia.Sync.TryRWMutex
import Sia.Lib.Stripes
import Sia.Modules.Erasure
import Sia.Types.CurrencyText
import Sia.Renter.HostDB.AddressFilter
import Sia.Lib.NetUrl
import Sia.Skykey
import Sia.Miner.SplitSetHeap
import Sia.Miner.Update
import Sia.Renter.MemoryManager
import Sia.Renter.FileSystem
import Sia.Renter.UploadChunk
import Sia.Lib.Chunks
import Sia.Renter.Proto.MerkleRoots
import Sia.Lib.GoMap
import Sia.TransactionPool.Standard
import Sia.TransactionPool.Accept
import Sia.TransactionPool.Update
import Sia.Lib.Replica
import Sia.TransactionPool.Subscribe
