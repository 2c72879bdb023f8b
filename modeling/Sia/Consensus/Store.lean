import Sia.Lib.Finmap
import Sia.Types.Currency
import Sia.Types.Encoding

/-! The consensus buckets of the bolt database and the primitive operations of
`modules/consensus/consensusdb.go`. A bucket is a finite map. The delayed-output buckets `dsco_h`
are separate buckets whose existence matters: they are the set of heights that have one, and one
map from (height, output) pairs to outputs. The expiration buckets `fcex_h` are only ever probed
for keys, so they form one set of (height, contract) pairs. Each sanity check that panics in the
DEBUG build makes an operation return `none`. -/
namespace Sia.Consensus

abbrev Bucket (K V : Type) := Finmap (fun _ : K => V)

/-- The buckets the consensus set reads and writes while applying and reverting blocks. The
height `BlockHeight` holds is a natural number: no chain reaches `2^64` blocks. -/
structure ConsensusDB (H : Type) where
  blockHeight : ℕ
  blockPath : Bucket ℕ H
  siacoinOutputs : Bucket H (SiacoinOutput H)
  fileContracts : Bucket H (FileContract H)
  siafundOutputs : Bucket H (SiafundOutput H)
  siafundPool : Currency
  foundationUnlockHashes : H × H
  priorFoundationUnlockHashes : Bucket ℕ (H × H)
  dscoBuckets : Finset ℕ
  dsco : Bucket (ℕ × H) (SiacoinOutput H)
  fcex : Finset (UInt64 × H)

/-- `modules.DiffDirection`. -/
inductive DiffDirection where
  | apply
  | revert
  deriving DecidableEq, Repr

variable {H : Type} [DecidableEq H]

section Operations

variable (db : ConsensusDB H)

def getSiacoinOutput (id : H) : Option (SiacoinOutput H) := db.siacoinOutputs.lookup id

def addSiacoinOutput (id : H) (sco : SiacoinOutput H) : Option (ConsensusDB H) :=
  if id ∈ db.siacoinOutputs then none
  else some { db with siacoinOutputs := db.siacoinOutputs.insert id sco }

def removeSiacoinOutput (id : H) : Option (ConsensusDB H) :=
  if id ∈ db.siacoinOutputs then some { db with siacoinOutputs := db.siacoinOutputs.erase id }
  else none

def getFileContract (id : H) : Option (FileContract H) := db.fileContracts.lookup id

/-- Stores the contract and files its ID under the expiration bucket of its window end. -/
def addFileContract (id : H) (fc : FileContract H) : Option (ConsensusDB H) :=
  if fc.payout = 0 then none
  else if id ∈ db.fileContracts then none
  else some { db with fileContracts := db.fileContracts.insert id fc,
                      fcex := insert (fc.windowEnd, id) db.fcex }

/-- The expiration key is read back from bytes 48 to 56 of the stored encoding, not decoded. A
missing expiration entry panics in every build. -/
def removeFileContract [HashBytes H] (id : H) : Option (ConsensusDB H) :=
  match db.fileContracts.lookup id with
  | none => none
  | some fc =>
    let expiration := UInt64.ofNat (Bytes.leValue ((fc.marshalSia.drop 48).take 8))
    if (expiration, id) ∈ db.fcex then
      some { db with fileContracts := db.fileContracts.erase id,
                     fcex := db.fcex.erase (expiration, id) }
    else none

/-- `getSiafundOutput` hands the last genesis allocation's output to `devAddr` after height
10,000, so callers see (and diffs record) the rewritten unlock hash. -/
def getSiafundOutput (lastGenesisUnlockHash devAddr : H) (id : H) : Option (SiafundOutput H) :=
  (db.siafundOutputs.lookup id).map fun sfo =>
    if sfo.unlockHash = lastGenesisUnlockHash ∧ db.blockHeight > 10000 then
      { sfo with unlockHash := devAddr }
    else sfo

def addSiafundOutput (id : H) (sfo : SiafundOutput H) : Option (ConsensusDB H) :=
  if sfo.value = 0 then none
  else if id ∈ db.siafundOutputs then none
  else some { db with siafundOutputs := db.siafundOutputs.insert id sfo }

def removeSiafundOutput (id : H) : Option (ConsensusDB H) :=
  if id ∈ db.siafundOutputs then some { db with siafundOutputs := db.siafundOutputs.erase id }
  else none

def setSiafundPool (c : Currency) : ConsensusDB H := { db with siafundPool := c }

def setFoundationUnlockHashes (primary failsafe : H) : ConsensusDB H :=
  { db with foundationUnlockHashes := (primary, failsafe) }

def getPriorFoundationUnlockHashes (height : ℕ) : Option (H × H) :=
  db.priorFoundationUnlockHashes.lookup height

def setPriorFoundationUnlockHashes (height : ℕ) : ConsensusDB H :=
  { db with priorFoundationUnlockHashes :=
      db.priorFoundationUnlockHashes.insert height db.foundationUnlockHashes }

def deletePriorFoundationUnlockHashes (height : ℕ) : ConsensusDB H :=
  { db with priorFoundationUnlockHashes := db.priorFoundationUnlockHashes.erase height }

/-- A delayed output may neither be spendable already nor sit in its bucket; writing into a
bucket that does not exist dereferences nil. -/
def addDSCO (bh : ℕ) (id : H) (sco : SiacoinOutput H) : Option (ConsensusDB H) :=
  if id ∈ db.siacoinOutputs then none
  else if bh ∉ db.dscoBuckets then none
  else if (bh, id) ∈ db.dsco then none
  else some { db with dsco := db.dsco.insert (bh, id) sco }

def removeDSCO (bh : ℕ) (id : H) : Option (ConsensusDB H) :=
  if bh ∈ db.dscoBuckets ∧ (bh, id) ∈ db.dsco then some { db with dsco := db.dsco.erase (bh, id) }
  else none

def createDSCOBucket (bh : ℕ) : Option (ConsensusDB H) :=
  if bh ∈ db.dscoBuckets then none else some { db with dscoBuckets := insert bh db.dscoBuckets }

/-- Deleting a bucket drops whatever it still holds. -/
def deleteDSCOBucket (bh : ℕ) : Option (ConsensusDB H) :=
  if bh ∈ db.dscoBuckets then
    some { db with dscoBuckets := db.dscoBuckets.erase bh,
                   dsco := db.dsco.filterKeys (·.1 ≠ bh) }
  else none

def getPath (height : ℕ) : Option H := db.blockPath.lookup height

def currentBlockID : Option H := getPath db db.blockHeight

def pushPath (bid : H) : ConsensusDB H :=
  { db with blockHeight := db.blockHeight + 1, blockPath := db.blockPath.insert (db.blockHeight + 1) bid }

def popPath : ConsensusDB H :=
  { db with blockHeight := db.blockHeight - 1, blockPath := db.blockPath.erase db.blockHeight }

end Operations

/-! ### What each operation does when it does not panic -/

section Specs

variable {db db' : ConsensusDB H}

theorem addSiacoinOutput_eq_some {id : H} {sco : SiacoinOutput H} :
    addSiacoinOutput db id sco = some db' ↔
      id ∉ db.siacoinOutputs ∧ db' = { db with siacoinOutputs := db.siacoinOutputs.insert id sco } := by
  unfold addSiacoinOutput
  split <;> simp_all [eq_comm]

theorem removeSiacoinOutput_eq_some {id : H} :
    removeSiacoinOutput db id = some db' ↔
      id ∈ db.siacoinOutputs ∧ db' = { db with siacoinOutputs := db.siacoinOutputs.erase id } := by
  unfold removeSiacoinOutput
  split <;> simp_all [eq_comm]

theorem addFileContract_eq_some {id : H} {fc : FileContract H} :
    addFileContract db id fc = some db' ↔
      fc.payout ≠ 0 ∧ id ∉ db.fileContracts ∧
        db' = { db with fileContracts := db.fileContracts.insert id fc,
                        fcex := insert (fc.windowEnd, id) db.fcex } := by
  unfold addFileContract
  split_ifs <;> simp_all [eq_comm]

omit [DecidableEq H] in
/-- The expiration key `removeFileContract` reads from the stored encoding is the window end. -/
theorem storedExpiration_eq [HashBytes H] (fc : FileContract H) :
    UInt64.ofNat (Bytes.leValue ((fc.marshalSia.drop 48).take 8)) = fc.windowEnd := by
  rw [fileContract_windowEnd_bytes, Encoding.writeUint64, Bytes.leValue_leBytes,
    Nat.mod_eq_of_lt (lt_of_lt_of_eq fc.windowEnd.toNat_lt (by norm_num)), UInt64.ofNat_toNat]

theorem removeFileContract_eq_some [HashBytes H] {id : H} :
    removeFileContract db id = some db' ↔
      ∃ fc, db.fileContracts.lookup id = some fc ∧ (fc.windowEnd, id) ∈ db.fcex ∧
        db' = { db with fileContracts := db.fileContracts.erase id,
                        fcex := db.fcex.erase (fc.windowEnd, id) } := by
  cases found : db.fileContracts.lookup id with
  | none => simp [removeFileContract, found]
  | some fc =>
    by_cases indexed : (fc.windowEnd, id) ∈ db.fcex
    · simp [removeFileContract, found, storedExpiration_eq, indexed, eq_comm]
    · simp [removeFileContract, found, storedExpiration_eq, indexed]

theorem addSiafundOutput_eq_some {id : H} {sfo : SiafundOutput H} :
    addSiafundOutput db id sfo = some db' ↔
      sfo.value ≠ 0 ∧ id ∉ db.siafundOutputs ∧
        db' = { db with siafundOutputs := db.siafundOutputs.insert id sfo } := by
  unfold addSiafundOutput
  split_ifs <;> simp_all [eq_comm]

theorem removeSiafundOutput_eq_some {id : H} :
    removeSiafundOutput db id = some db' ↔
      id ∈ db.siafundOutputs ∧ db' = { db with siafundOutputs := db.siafundOutputs.erase id } := by
  unfold removeSiafundOutput
  split <;> simp_all [eq_comm]

theorem addDSCO_eq_some {bh : ℕ} {id : H} {sco : SiacoinOutput H} :
    addDSCO db bh id sco = some db' ↔
      id ∉ db.siacoinOutputs ∧ bh ∈ db.dscoBuckets ∧ (bh, id) ∉ db.dsco ∧
        db' = { db with dsco := db.dsco.insert (bh, id) sco } := by
  unfold addDSCO
  split_ifs <;> simp_all [eq_comm]

theorem removeDSCO_eq_some {bh : ℕ} {id : H} :
    removeDSCO db bh id = some db' ↔
      bh ∈ db.dscoBuckets ∧ (bh, id) ∈ db.dsco ∧ db' = { db with dsco := db.dsco.erase (bh, id) } := by
  unfold removeDSCO
  split <;> simp_all [eq_comm]

omit [DecidableEq H] in
theorem createDSCOBucket_eq_some {bh : ℕ} :
    createDSCOBucket db bh = some db' ↔
      bh ∉ db.dscoBuckets ∧ db' = { db with dscoBuckets := insert bh db.dscoBuckets } := by
  unfold createDSCOBucket
  split <;> simp_all [eq_comm]

omit [DecidableEq H] in
theorem deleteDSCOBucket_eq_some {bh : ℕ} :
    deleteDSCOBucket db bh = some db' ↔
      bh ∈ db.dscoBuckets ∧
        db' = { db with dscoBuckets := db.dscoBuckets.erase bh,
                        dsco := db.dsco.filterKeys (·.1 ≠ bh) } := by
  unfold deleteDSCOBucket
  split <;> simp_all [eq_comm]

end Specs

end Sia.Consensus
