import Sia.Lib.Bytes
import Sia.Types.Transaction

/-! The Sia binary encoders of `types/encoding.go`. The `encoding` package primitives they call
write an integer as eight little-endian bytes (`WriteUint64`, `WriteInt`), a byte slice with
such a length prefix (`WritePrefixedBytes`) and a boolean as one byte. A `crypto.Hash` is written
as its 32 raw bytes, supplied by `HashBytes`. -/
namespace Sia

open Bytes

/-- The 32 raw bytes of a hash-typed value, as `e.Write(h[:])` writes them. -/
class HashBytes (H : Type) where
  bytes : H → List UInt8
  length_bytes : ∀ h, (bytes h).length = 32

namespace Encoding

def writeUint64 (x : UInt64) : List UInt8 := leBytes 8 x.toNat

def writeInt (n : ℕ) : List UInt8 := leBytes 8 n

def writeBool (b : Bool) : List UInt8 := [if b then 1 else 0]

def writePrefixedBytes (b : List UInt8) : List UInt8 := writeInt b.length ++ b

/-- `WriteInt(len(xs))` followed by every element's encoding. -/
def writeList {α : Type} (write : α → List UInt8) (xs : List α) : List UInt8 :=
  writeInt xs.length ++ xs.flatMap write

@[simp] theorem length_writeUint64 (x : UInt64) : (writeUint64 x).length = 8 :=
  length_leBytes 8 _

@[simp] theorem length_writeInt (n : ℕ) : (writeInt n).length = 8 := length_leBytes 8 _

end Encoding

open Encoding

variable {H : Type} [HashBytes H]

/-- `Currency.MarshalSia`: the minimal big-endian bytes of the value, length-prefixed. -/
def currencyMarshalSia (c : Currency) : List UInt8 := writePrefixedBytes (beMinimal c)

def SiacoinOutput.marshalSia (sco : SiacoinOutput H) : List UInt8 :=
  currencyMarshalSia sco.value ++ HashBytes.bytes sco.unlockHash

def SiafundOutput.marshalSia (sfo : SiafundOutput H) : List UInt8 :=
  currencyMarshalSia sfo.value ++ HashBytes.bytes sfo.unlockHash ++
    currencyMarshalSia sfo.claimStart

def SiaPublicKey.marshalSia (spk : SiaPublicKey) : List UInt8 :=
  spk.algorithm.toList ++ writePrefixedBytes spk.key

def UnlockConditions.marshalSia (uc : UnlockConditions) : List UInt8 :=
  writeUint64 uc.timelock ++ writeList SiaPublicKey.marshalSia uc.publicKeys ++
    writeUint64 uc.signaturesRequired

def SiacoinInput.marshalSia (sci : SiacoinInput H) : List UInt8 :=
  HashBytes.bytes sci.parentID ++ sci.unlockConditions.marshalSia

def SiafundInput.marshalSia (sfi : SiafundInput H) : List UInt8 :=
  HashBytes.bytes sfi.parentID ++ sfi.unlockConditions.marshalSia ++
    HashBytes.bytes sfi.claimUnlockHash

def FileContract.marshalSia (fc : FileContract H) : List UInt8 :=
  writeUint64 fc.fileSize ++ HashBytes.bytes fc.fileMerkleRoot ++ writeUint64 fc.windowStart ++
    writeUint64 fc.windowEnd ++ currencyMarshalSia fc.payout ++
    writeList SiacoinOutput.marshalSia fc.validProofOutputs ++
    writeList SiacoinOutput.marshalSia fc.missedProofOutputs ++
    HashBytes.bytes fc.unlockHash ++ writeUint64 fc.revisionNumber

def FileContractRevision.marshalSia (fcr : FileContractRevision H) : List UInt8 :=
  HashBytes.bytes fcr.parentID ++ fcr.unlockConditions.marshalSia ++
    writeUint64 fcr.newRevisionNumber ++ writeUint64 fcr.newFileSize ++
    HashBytes.bytes fcr.newFileMerkleRoot ++ writeUint64 fcr.newWindowStart ++
    writeUint64 fcr.newWindowEnd ++ writeList SiacoinOutput.marshalSia fcr.newValidProofOutputs ++
    writeList SiacoinOutput.marshalSia fcr.newMissedProofOutputs ++
    HashBytes.bytes fcr.newUnlockHash

def StorageProof.marshalSia (sp : StorageProof H) : List UInt8 :=
  HashBytes.bytes sp.parentID ++ sp.segment.toList ++ writeList HashBytes.bytes sp.hashSet

def CoveredFields.marshalSia (cf : CoveredFields) : List UInt8 :=
  writeBool cf.wholeTransaction ++
    ([cf.siacoinInputs, cf.siacoinOutputs, cf.fileContracts, cf.fileContractRevisions,
      cf.storageProofs, cf.siafundInputs, cf.siafundOutputs, cf.minerFees, cf.arbitraryData,
      cf.transactionSignatures].flatMap (writeList writeUint64))

def TransactionSignature.marshalSia (ts : TransactionSignature H) : List UInt8 :=
  HashBytes.bytes ts.parentID ++ writeUint64 ts.publicKeyIndex ++ writeUint64 ts.timelock ++
    ts.coveredFields.marshalSia ++ writePrefixedBytes ts.signature

/-- `Transaction.marshalSiaNoSignatures`: every field but the signatures, the preimage of the
transaction's IDs. -/
def Transaction.marshalSiaNoSignatures (t : Transaction H) : List UInt8 :=
  writeList SiacoinInput.marshalSia t.siacoinInputs ++
    writeList SiacoinOutput.marshalSia t.siacoinOutputs ++
    writeList FileContract.marshalSia t.fileContracts ++
    writeList FileContractRevision.marshalSia t.fileContractRevisions ++
    writeList StorageProof.marshalSia t.storageProofs ++
    writeList SiafundInput.marshalSia t.siafundInputs ++
    writeList SiafundOutput.marshalSia t.siafundOutputs ++
    writeList currencyMarshalSia t.minerFees ++
    writeList writePrefixedBytes t.arbitraryData

def Transaction.marshalSia (t : Transaction H) : List UInt8 :=
  t.marshalSiaNoSignatures ++ writeList TransactionSignature.marshalSia t.transactionSignatures

def Block.marshalSia (b : Block H) : List UInt8 :=
  HashBytes.bytes b.parentID ++ b.nonce.toList ++ writeUint64 b.timestamp ++
    writeList SiacoinOutput.marshalSia b.minerPayouts ++
    writeList Transaction.marshalSia b.transactions

/-- Every encoded transaction holds at least its nine length prefixes. -/
theorem length_marshalSia_pos (txn : Transaction H) : 0 < txn.marshalSia.length := by
  simp only [Transaction.marshalSia, Transaction.marshalSiaNoSignatures, writeList,
    List.length_append, length_writeInt]
  omega

/-- `removeFileContract` names the expiration bucket by bytes 48 to 56 of the stored contract:
eight bytes of file size and 32 of Merkle root and eight of window start come first. -/
theorem fileContract_windowEnd_bytes (fc : FileContract H) :
    (fc.marshalSia.drop 48).take 8 = writeUint64 fc.windowEnd := by
  have root := HashBytes.length_bytes fc.fileMerkleRoot
  have prefixLength : (writeUint64 fc.fileSize ++ HashBytes.bytes fc.fileMerkleRoot ++
      writeUint64 fc.windowStart).length = 48 := by
    simp only [List.length_append, length_writeUint64, root]
  simp only [FileContract.marshalSia, List.append_assoc] at prefixLength ⊢
  rw [← List.append_assoc (writeUint64 fc.fileSize), ← List.append_assoc,
    List.drop_left' (by simpa only [List.append_assoc] using prefixLength)]
  exact List.take_left' (length_writeUint64 _)

end Sia
