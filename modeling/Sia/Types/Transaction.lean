import Mathlib.Data.Vector.Basic
import Mathlib.Algebra.GroupWithZero.Nat

/-! The wire types of `types/`: outputs, contracts, revisions, proofs, signatures, transactions
and blocks. Every `crypto.Hash`-typed field (IDs, unlock hashes, Merkle roots) has the type
parameter `H`; `uint64` fields and `BlockHeight`/`Timestamp` fields keep the Go width, and
`Currency` (a non-negative `big.Int`) is a natural number. -/
namespace Sia

/-- `types.Currency`: a non-negative arbitrary-precision integer. -/
abbrev Currency := ℕ

/-- `types.Specifier`: sixteen bytes naming an algorithm or a record kind. -/
abbrev Specifier := Vector UInt8 16

structure SiacoinOutput (H : Type) where
  value : Currency
  unlockHash : H
  deriving DecidableEq, Repr

structure SiafundOutput (H : Type) where
  value : Currency
  unlockHash : H
  claimStart : Currency
  deriving DecidableEq, Repr

structure SiaPublicKey where
  algorithm : Specifier
  key : List UInt8
  deriving DecidableEq, Repr

structure UnlockConditions where
  timelock : UInt64
  publicKeys : List SiaPublicKey
  signaturesRequired : UInt64
  deriving DecidableEq, Repr

structure SiacoinInput (H : Type) where
  parentID : H
  unlockConditions : UnlockConditions
  deriving DecidableEq, Repr

structure SiafundInput (H : Type) where
  parentID : H
  unlockConditions : UnlockConditions
  claimUnlockHash : H
  deriving DecidableEq, Repr

structure FileContract (H : Type) where
  fileSize : UInt64
  fileMerkleRoot : H
  windowStart : UInt64
  windowEnd : UInt64
  payout : Currency
  validProofOutputs : List (SiacoinOutput H)
  missedProofOutputs : List (SiacoinOutput H)
  unlockHash : H
  revisionNumber : UInt64
  deriving DecidableEq, Repr

structure FileContractRevision (H : Type) where
  parentID : H
  unlockConditions : UnlockConditions
  newRevisionNumber : UInt64
  newFileSize : UInt64
  newFileMerkleRoot : H
  newWindowStart : UInt64
  newWindowEnd : UInt64
  newValidProofOutputs : List (SiacoinOutput H)
  newMissedProofOutputs : List (SiacoinOutput H)
  newUnlockHash : H
  deriving DecidableEq, Repr

structure StorageProof (H : Type) where
  parentID : H
  segment : Vector UInt8 64
  hashSet : List H
  deriving DecidableEq, Repr

structure CoveredFields where
  wholeTransaction : Bool
  siacoinInputs : List UInt64
  siacoinOutputs : List UInt64
  fileContracts : List UInt64
  fileContractRevisions : List UInt64
  storageProofs : List UInt64
  siafundInputs : List UInt64
  siafundOutputs : List UInt64
  minerFees : List UInt64
  arbitraryData : List UInt64
  transactionSignatures : List UInt64
  deriving DecidableEq, Repr

structure TransactionSignature (H : Type) where
  parentID : H
  publicKeyIndex : UInt64
  timelock : UInt64
  coveredFields : CoveredFields
  signature : List UInt8
  deriving DecidableEq, Repr

structure Transaction (H : Type) where
  siacoinInputs : List (SiacoinInput H)
  siacoinOutputs : List (SiacoinOutput H)
  fileContracts : List (FileContract H)
  fileContractRevisions : List (FileContractRevision H)
  storageProofs : List (StorageProof H)
  siafundInputs : List (SiafundInput H)
  siafundOutputs : List (SiafundOutput H)
  minerFees : List Currency
  arbitraryData : List (List UInt8)
  transactionSignatures : List (TransactionSignature H)
  deriving DecidableEq, Repr

structure Block (H : Type) where
  parentID : H
  nonce : Vector UInt8 8
  timestamp : UInt64
  minerPayouts : List (SiacoinOutput H)
  transactions : List (Transaction H)
  deriving DecidableEq, Repr

/-- `types.FoundationUnlockHashUpdate`, carried in a transaction's arbitrary data. -/
structure FoundationUnlockHashUpdate (H : Type) where
  newPrimary : H
  newFailsafe : H
  deriving DecidableEq, Repr

/-- `types.ProofStatus`: whether a storage proof was submitted (`ProofValid`) or missed. -/
abbrev ProofStatus := Bool

/-- `Transaction.SiacoinOutputSum`: the outputs, contract payouts and miner fees that the
siacoin inputs must cover. -/
def Transaction.siacoinOutputSum {H : Type} (t : Transaction H) : Currency :=
  (t.siacoinOutputs.map (·.value)).sum + (t.fileContracts.map (·.payout)).sum + t.minerFees.sum

end Sia
