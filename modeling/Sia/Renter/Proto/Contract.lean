import Sia.Host.Revision

/-! The renter's copy of a contract (`modules/renter/proto/contract.go`). A `SafeContract` keeps
its header in memory and in a header file, its sector roots in a roots file, and the
write-ahead log transactions it has not applied yet. An intent to revise logs a transaction
with the new, unsigned header (and, for an append, the new root). Its commit writes a header
built from the host-signed transaction straight to the header file and applies only the logged
roots. `managedSyncRevision` reconciles the header with the revision the host reports, and after
a crash `loadSafeContract` rebuilds the contract from the files and the log.

The model is of the release build: there is no reference counter, and `applySetHeader` makes no
debug check. Writes to the files and the log succeed. A crash happens between calls; `torn` says
that it cut a root write short, so that the roots file ends in a partial root. -/
namespace Sia.Renter.Proto

open Except (failIf)

variable {H : Type}

/-- The flags of `modules.ContractUtility` that clearing a contract sets. -/
structure ContractUtility where
  goodForUpload : Bool
  goodForRenew : Bool
  locked : Bool
  deriving DecidableEq, Repr

/-- `contractHeader`, with the fields the contract's calls change. -/
structure ContractHeader (H : Type) where
  transaction : Transaction H
  downloadSpending : Currency
  storageSpending : Currency
  uploadSpending : Currency
  utility : ContractUtility
  deriving DecidableEq, Repr

namespace ContractHeader

/-- `LastRevision`; none where Go's index into an empty slice panics. -/
def lastRevision (h : ContractHeader H) : Option (FileContractRevision H) :=
  h.transaction.fileContractRevisions.head?

def validate (h : ContractHeader H) : Except String Unit :=
  match h.transaction.fileContractRevisions with
  | [] => .error "no file contract revisions"
  | rev :: _ => do
    failIf (rev.newValidProofOutputs.length = 0) "not enough valid proof outputs"
    failIf (rev.unlockConditions.publicKeys.length ≠ 2) "wrong number of pubkeys"

/-- The header with its transaction's revisions and signatures replaced. -/
def withRevisions (h : ContractHeader H) (revisions : List (FileContractRevision H))
    (sigs : List (TransactionSignature H)) : ContractHeader H :=
  { h with transaction := { h.transaction with
      fileContractRevisions := revisions, transactionSignatures := sigs } }

@[simp] theorem lastRevision_withRevisions (h : ContractHeader H) (rev : FileContractRevision H)
    (revisions : List (FileContractRevision H)) (sigs : List (TransactionSignature H)) :
    (h.withRevisions (rev :: revisions) sigs).lastRevision = some rev := rfl

@[simp] theorem lastRevision_withRevisions_self (h : ContractHeader H)
    (sigs : List (TransactionSignature H)) :
    (h.withRevisions h.transaction.fileContractRevisions sigs).lastRevision = h.lastRevision := rfl

theorem lastRevision_withRevisions_set {h : ContractHeader H} {r : FileContractRevision H}
    (last : h.lastRevision = some r) (rev : FileContractRevision H)
    (sigs : List (TransactionSignature H)) :
    (h.withRevisions (h.transaction.fileContractRevisions.set 0 rev) sigs).lastRevision =
      some rev := by
  obtain ⟨rest, revisions⟩ := List.head?_eq_some_iff.mp last
  simp [withRevisions, lastRevision, revisions]

end ContractHeader

/-- `ID`: the `ParentID` of the last revision. -/
def ContractHeader.id (h : ContractHeader H) : Option H :=
  h.lastRevision.map FileContractRevision.parentID

/-- The updates of the contract's log transactions, `updateSetHeader` and `updateSetRoot`, each
tagged with the contract's ID. -/
inductive Update (H : Type) where
  | setHeader (id : H) (header : ContractHeader H)
  | setRoot (id : H) (root : H) (index : ℕ)
  deriving DecidableEq, Repr

def Update.id : Update H → H
  | .setHeader id _ => id
  | .setRoot id _ _ => id

/-- `merkleRoots.insert`: an index past the end is reached by pushing empty roots, the end gets a
push, and an index inside has its root replaced. -/
def MerkleRoots.insert (emptyRoot : H) (roots : List H) (index : ℕ) (root : H) : List H :=
  if index < roots.length then roots.set index root
  else roots ++ List.replicate (index - roots.length) emptyRoot ++ [root]

/-- A root inserted at the end is pushed. -/
@[simp] theorem MerkleRoots.insert_length (emptyRoot : H) (roots : List H) (root : H) :
    MerkleRoots.insert emptyRoot roots roots.length root = roots ++ [root] := by
  simp [MerkleRoots.insert]

/-- No insertion loses a root. -/
theorem MerkleRoots.length_le_insert (emptyRoot : H) (roots : List H) (index : ℕ) (root : H) :
    roots.length ≤ (MerkleRoots.insert emptyRoot roots index root).length := by
  unfold MerkleRoots.insert
  split
  · simp
  · simp only [List.length_append, List.length_replicate, List.length_singleton]
    omega

/-- `SafeContract`: the header in memory, what the header file holds, the sector roots (the roots
file, which the cache in memory mirrors) and the log transactions not applied yet. These are
the log's transactions for the contract: each is set up when an intent records it, and it is
signalled applied when it leaves the list. -/
structure SafeContract (H : Type) where
  header : ContractHeader H
  headerFile : ContractHeader H
  merkleRoots : List H
  unappliedTxns : List (List (Update H))
  deriving DecidableEq, Repr

/-- `revisionNumberMismatchError`: the host reported a revision older than ours. -/
structure RevisionNumberMismatch where
  ours : UInt64
  theirs : UInt64
  deriving DecidableEq, Repr

/-- Why `loadSafeContract` refuses a contract: the header in the header file fails `validate`.
The file holds the header as written, so decoding it does not fail. -/
inductive LoadError where
  | invalidHeader (reason : String)
  deriving DecidableEq, Repr

/-- The first header among the updates whose last revision has the number and Merkle root of
`rev`, in the order the loops of `managedSyncRevision` visit them; the outer none is the panic of
reading the last revision of a header that has none. -/
def matchingHeader [DecidableEq H] (rev : FileContractRevision H) :
    List (Update H) → Option (Option (ContractHeader H))
  | [] => some none
  | .setRoot .. :: rest => matchingHeader rev rest
  | .setHeader _ h :: rest => h.lastRevision.bind fun unappliedRev =>
    if unappliedRev.newRevisionNumber ≠ rev.newRevisionNumber ∨
        unappliedRev.newFileMerkleRoot ≠ rev.newFileMerkleRoot then
      matchingHeader rev rest
    else some (some h)

namespace SafeContract

variable (emptyRoot : H)

def applySetHeader (c : SafeContract H) (h : ContractHeader H) : SafeContract H :=
  { c with header := h, headerFile := h }

def applySetRoot (c : SafeContract H) (root : H) (index : ℕ) : SafeContract H :=
  { c with merkleRoots := MerkleRoots.insert emptyRoot c.merkleRoots index root }

def clearUnappliedTxns (c : SafeContract H) : SafeContract H :=
  { c with unappliedTxns := [] }

/-! ### Intents and commits -/

/-- The header an intent logs: `rev` as the only revision, no signatures (the host's come with
the commit), and the spending `spend` adds. -/
def intentHeader (c : SafeContract H) (rev : FileContractRevision H)
    (spend : ContractHeader H → ContractHeader H) : ContractHeader H :=
  spend (c.header.withRevisions [rev] [])

/-- An intent logs a transaction that sets the header to `intentHeader`, followed by the updates
`more` makes from the contract's ID, and keeps it as unapplied. `makeUpdateSetHeader` reads the
ID from the header's last revision, so a header without one panics. -/
def recordIntent (c : SafeContract H) (rev : FileContractRevision H)
    (spend : ContractHeader H → ContractHeader H) (more : H → List (Update H)) :
    Option (SafeContract H × List (Update H)) :=
  c.header.id.map fun id =>
    let t := .setHeader id (c.intentHeader rev spend) :: more id
    ({ c with unappliedTxns := c.unappliedTxns ++ [t] }, t)

def managedRecordAppendIntent (c : SafeContract H) (rev : FileContractRevision H) (root : H)
    (storageCost bandwidthCost : Currency) : Option (SafeContract H × List (Update H)) :=
  c.recordIntent rev
    (fun h => { h with storageSpending := h.storageSpending + storageCost,
                       uploadSpending := h.uploadSpending + bandwidthCost })
    fun id => [.setRoot id root c.merkleRoots.length]

def managedRecordDownloadIntent (c : SafeContract H) (rev : FileContractRevision H)
    (bandwidthCost : Currency) : Option (SafeContract H × List (Update H)) :=
  c.recordIntent rev (fun h => { h with downloadSpending := h.downloadSpending + bandwidthCost })
    fun _ => []

def managedRecordClearContractIntent (c : SafeContract H) (rev : FileContractRevision H)
    (bandwidthCost : Currency) : Option (SafeContract H × List (Update H)) :=
  c.recordIntent rev (fun h => { h with uploadSpending := h.uploadSpending + bandwidthCost })
    fun _ => []

/-- `RecordPaymentIntent`; the amount and the RPC it is given are not recorded. -/
def recordPaymentIntent (c : SafeContract H) (rev : FileContractRevision H) :
    Option (SafeContract H × List (Update H)) :=
  c.recordIntent rev (fun h => h) fun _ => []

/-- A commit's header: the host-signed transaction and the spending `spend` adds, written straight
to the header file. The header the intent logged is not used. -/
def commitHeader (c : SafeContract H) (signedTxn : Transaction H)
    (spend : ContractHeader H → ContractHeader H) : SafeContract H :=
  c.applySetHeader (spend { c.header with transaction := signedTxn })

/-- One update of a transaction whose header update is replaced by the commit's. -/
def applyRoot (c : SafeContract H) : Update H → SafeContract H
  | .setHeader .. => c
  | .setRoot _ root index => c.applySetRoot emptyRoot root index

/-- `managedCommitAppend`: the commit's header, then the roots plucked from the intent's
transaction `t`. Marking `t` applied and clearing the unapplied transactions leave none. -/
def managedCommitAppend (c : SafeContract H) (t : List (Update H)) (signedTxn : Transaction H)
    (storageCost bandwidthCost : Currency) : SafeContract H :=
  (t.foldl (applyRoot emptyRoot)
    (c.commitHeader signedTxn fun h => { h with storageSpending := h.storageSpending + storageCost,
                                                uploadSpending := h.uploadSpending + bandwidthCost })
    ).clearUnappliedTxns

/-- `managedCommitDownload` ignores every update of the intent's transaction. -/
def managedCommitDownload (c : SafeContract H) (signedTxn : Transaction H)
    (bandwidthCost : Currency) : SafeContract H :=
  (c.commitHeader signedTxn fun h =>
    { h with downloadSpending := h.downloadSpending + bandwidthCost }).clearUnappliedTxns

def managedCommitClearContract (c : SafeContract H) (signedTxn : Transaction H)
    (bandwidthCost : Currency) : SafeContract H :=
  (c.commitHeader signedTxn fun h =>
    { h with uploadSpending := h.uploadSpending + bandwidthCost,
             utility := { h.utility with goodForRenew := false, goodForUpload := false,
                                         locked := true } }).clearUnappliedTxns

def commitPaymentIntent (c : SafeContract H) (signedTxn : Transaction H) : SafeContract H :=
  (c.commitHeader signedTxn fun h => h).clearUnappliedTxns

/-- One update of a transaction applied as logged. -/
def applyUpdate (c : SafeContract H) : Update H → SafeContract H
  | .setHeader _ h => c.applySetHeader h
  | .setRoot _ root index => c.applySetRoot emptyRoot root index

/-- `managedCommitTxns`: every update of every unapplied transaction, in order, the logged
unsigned headers included. -/
def managedCommitTxns (c : SafeContract H) : SafeContract H :=
  { c.unappliedTxns.foldl (fun c t => t.foldl (applyUpdate emptyRoot) c) c with
    unappliedTxns := [] }

/-! ### Resynchronising with the host -/

variable [DecidableEq H]

/-- `managedSyncRevision` with the host's revision `rev` and signatures `sigs`. An unsigned header
takes the host's revision; a matching revision is overwritten by the host's; an older one is an
error; otherwise the first unapplied header with the host's revision is signed and written to
the header file, or failing one the host's revision is taken. Only the third branch writes the
header file, and every branch after the error drops the unapplied transactions. -/
def managedSyncRevision (c : SafeContract H) (rev : FileContractRevision H)
    (sigs : List (TransactionSignature H)) :
    Option (SafeContract H × Except RevisionNumberMismatch Unit) :=
  if c.header.transaction.transactionSignatures.length = 0 then
    some ({ c with header := c.header.withRevisions [rev] sigs }, .ok ())
  else c.header.lastRevision.bind fun ourRev =>
    -- `FileContractRevisions[0] = rev` keeps any revisions after the first
    let hostHeader := c.header.withRevisions (c.header.transaction.fileContractRevisions.set 0 rev)
      sigs
    if rev.newRevisionNumber = ourRev.newRevisionNumber ∧
        rev.newFileMerkleRoot = ourRev.newFileMerkleRoot then
      some ({ c with header := hostHeader }, .ok ())
    else if rev.newRevisionNumber < ourRev.newRevisionNumber then
      some (c, .error ⟨ourRev.newRevisionNumber, rev.newRevisionNumber⟩)
    else (matchingHeader rev c.unappliedTxns.flatten).map fun
      | some h =>
        ((c.applySetHeader (h.withRevisions h.transaction.fileContractRevisions sigs)
          ).clearUnappliedTxns, .ok ())
      | none => ({ c with header := hostHeader }.clearUnappliedTxns, .ok ())

/-! ### Loading after a crash -/

/-- `loadSafeContract` after a crash: the header from the header file, which must validate, the
roots from the roots file, and the log's transactions whose first update names the contract as
unapplied. `torn` is `loadExistingMerkleRoots`'s answer that the roots file ended in a partial
root, which it cuts off: the last write was incomplete, and the unapplied transactions are
committed. -/
def loadSafeContract (c : SafeContract H) (torn : Bool) : Except LoadError (SafeContract H) :=
  match c.headerFile.validate with
  | .error reason => .error (.invalidHeader reason)
  | .ok () =>
    -- an empty transaction has no first update and is skipped
    let loaded : SafeContract H := { c with
      header := c.headerFile,
      unappliedTxns := c.unappliedTxns.filter fun t => t.head?.map Update.id = c.headerFile.id }
    .ok (if torn then loaded.managedCommitTxns emptyRoot else loaded)

end SafeContract

/-! ### Runs -/

/-- The calls on a contract. A commit is given the transaction its intent logged only where it
reads it. -/
inductive Event (H : Type) where
  | recordAppendIntent (rev : FileContractRevision H) (root : H)
      (storageCost bandwidthCost : Currency)
  | commitAppend (t : List (Update H)) (signedTxn : Transaction H)
      (storageCost bandwidthCost : Currency)
  | recordDownloadIntent (rev : FileContractRevision H) (bandwidthCost : Currency)
  | commitDownload (signedTxn : Transaction H) (bandwidthCost : Currency)
  | recordClearContractIntent (rev : FileContractRevision H) (bandwidthCost : Currency)
  | commitClearContract (signedTxn : Transaction H) (bandwidthCost : Currency)
  | recordPaymentIntent (rev : FileContractRevision H)
  | commitPaymentIntent (signedTxn : Transaction H)
  | commitTxns
  | syncRevision (rev : FileContractRevision H) (sigs : List (TransactionSignature H))
  | crash (torn : Bool)

namespace SafeContract

variable (emptyRoot : H) [DecidableEq H]

/-- One call; none when it panics, or when the contract does not load after a crash. -/
def step (c : SafeContract H) : Event H → Option (SafeContract H)
  | .recordAppendIntent rev root storageCost bandwidthCost =>
    (c.managedRecordAppendIntent rev root storageCost bandwidthCost).map Prod.fst
  | .commitAppend t signedTxn storageCost bandwidthCost =>
    some (c.managedCommitAppend emptyRoot t signedTxn storageCost bandwidthCost)
  | .recordDownloadIntent rev bandwidthCost =>
    (c.managedRecordDownloadIntent rev bandwidthCost).map Prod.fst
  | .commitDownload signedTxn bandwidthCost => some (c.managedCommitDownload signedTxn bandwidthCost)
  | .recordClearContractIntent rev bandwidthCost =>
    (c.managedRecordClearContractIntent rev bandwidthCost).map Prod.fst
  | .commitClearContract signedTxn bandwidthCost =>
    some (c.managedCommitClearContract signedTxn bandwidthCost)
  | .recordPaymentIntent rev => (c.recordPaymentIntent rev).map Prod.fst
  | .commitPaymentIntent signedTxn => some (c.commitPaymentIntent signedTxn)
  | .commitTxns => some (c.managedCommitTxns emptyRoot)
  | .syncRevision rev sigs => (c.managedSyncRevision rev sigs).map Prod.fst
  | .crash torn => (c.loadSafeContract emptyRoot torn).toOption

def run (c : SafeContract H) (events : List (Event H)) : Option (SafeContract H) :=
  events.foldlM (step emptyRoot) c

end SafeContract

/-! ### What the calls do -/

namespace SafeContract

variable (emptyRoot : H)

theorem recordIntent_of_id {c : SafeContract H} {id : H} (named : c.header.id = some id)
    (rev : FileContractRevision H) (spend : ContractHeader H → ContractHeader H)
    (more : H → List (Update H)) :
    c.recordIntent rev spend more =
      some ({ c with unappliedTxns :=
          c.unappliedTxns ++ [.setHeader id (c.intentHeader rev spend) :: more id] },
        .setHeader id (c.intentHeader rev spend) :: more id) := by
  simp [recordIntent, named]

/-! ### The commit path -/

/-- What the claim asks of a contract at every step: the header file holds the header in memory,
and there is one root for each sector of the last revision's file size. -/
structure Consistent (c : SafeContract H) : Prop where
  saved : c.headerFile = c.header
  rootsMatch : ∀ rev, c.header.lastRevision = some rev →
    c.merkleRoots.length = rev.newFileSize.toNat / Host.sectorSize.toNat

/-- An append intent committed with the host-signed transaction of a revision one sector larger
keeps the contract consistent: the signed header goes to the header file and the logged root is
pushed. -/
theorem managedCommitAppend_consistent {c c' : SafeContract H} {t : List (Update H)}
    {ours rev : FileContractRevision H} {root : H} {storageCost bandwidthCost : Currency}
    {signedTxn : Transaction H} (consistent : c.Consistent)
    (last : c.header.lastRevision = some ours)
    (intent : c.managedRecordAppendIntent rev root storageCost bandwidthCost = some (c', t))
    (signedRev : signedTxn.fileContractRevisions.head? = some rev)
    (grows : rev.newFileSize.toNat = ours.newFileSize.toNat + Host.sectorSize.toNat) :
    (c'.managedCommitAppend emptyRoot t signedTxn storageCost bandwidthCost).Consistent := by
  have named : c.header.id = some ours.parentID := by simp [ContractHeader.id, last]
  rw [managedRecordAppendIntent, recordIntent_of_id named] at intent
  cases intent
  constructor
  · rfl
  · intro r signedLast
    have adopted : r = rev := Option.some.inj (signedLast.symm.trans signedRev)
    subst adopted
    -- the header update is skipped and the root is logged at the end of the roots
    simp only [managedCommitAppend, List.foldl_cons, List.foldl_nil, applyRoot, applySetRoot,
      commitHeader, applySetHeader, clearUnappliedTxns, MerkleRoots.insert_length]
    calc (c.merkleRoots ++ [root]).length
        = ours.newFileSize.toNat / Host.sectorSize.toNat + 1 := by
          simp [consistent.rootsMatch ours last]
      _ = r.newFileSize.toNat / Host.sectorSize.toNat := by
          rw [grows, Nat.add_div_right _ (by decide)]

variable [DecidableEq H]

/-- A crash that leaves the roots file whole reloads the header from the header file and keeps
the unapplied transactions of the contract. -/
theorem loadSafeContract_intact {c : SafeContract H} (valid : c.headerFile.validate = .ok ()) :
    c.loadSafeContract emptyRoot false = .ok { c with
      header := c.headerFile,
      unappliedTxns := c.unappliedTxns.filter fun t => t.head?.map Update.id = c.headerFile.id } := by
  simp [loadSafeContract, valid]

theorem matchingHeader_setHeader {rev r : FileContractRevision H} {h : ContractHeader H} (id : H)
    (rest : List (Update H)) (last : h.lastRevision = some r)
    (number : r.newRevisionNumber = rev.newRevisionNumber)
    (root : r.newFileMerkleRoot = rev.newFileMerkleRoot) :
    matchingHeader rev (.setHeader id h :: rest) = some (some h) := by
  simp [matchingHeader, last, number, root]

/-- A header `matchingHeader` finds carries the host's revision number and Merkle root. -/
theorem matchingHeader_spec {rev : FileContractRevision H} {h : ContractHeader H}
    {updates : List (Update H)} (found : matchingHeader rev updates = some (some h)) :
    ∃ r, h.lastRevision = some r ∧ r.newRevisionNumber = rev.newRevisionNumber ∧
      r.newFileMerkleRoot = rev.newFileMerkleRoot := by
  induction updates with
  | nil => cases found
  | cons u rest ih =>
    cases u with
    | setRoot => exact ih found
    | setHeader _ h' =>
      simp only [matchingHeader, Option.bind_eq_some_iff] at found
      obtain ⟨r, last, chosen⟩ := found
      split at chosen
      · exact ih chosen
      · cases chosen
        exact ⟨r, last, by grind⟩

/-- The host's revision is newer than our signed one and an unapplied header carries it: that
header, with the host's signatures, is written to the header file, and every unapplied
transaction is dropped with its root updates. -/
theorem managedSyncRevision_of_matchingHeader {c : SafeContract H}
    {ourRev rev : FileContractRevision H} {h : ContractHeader H}
    (sigs : List (TransactionSignature H))
    (signed : c.header.transaction.transactionSignatures ≠ [])
    (last : c.header.lastRevision = some ourRev)
    (ahead : ourRev.newRevisionNumber < rev.newRevisionNumber)
    (found : matchingHeader rev c.unappliedTxns.flatten = some (some h)) :
    c.managedSyncRevision rev sigs =
      some ((c.applySetHeader (h.withRevisions h.transaction.fileContractRevisions sigs)
        ).clearUnappliedTxns, .ok ()) := by
  have differs : ¬ (rev.newRevisionNumber = ourRev.newRevisionNumber ∧
      rev.newFileMerkleRoot = ourRev.newFileMerkleRoot) := fun ⟨same, _⟩ =>
    UInt64.ne_of_lt ahead same.symm
  have notOlder : ¬ rev.newRevisionNumber < ourRev.newRevisionNumber :=
    UInt64.not_lt.mpr (UInt64.le_of_lt ahead)
  simp [managedSyncRevision, signed, last, differs, notOlder, found]

/-- Resynchronising a signed contract never lowers its revision number: an older revision of the
host's is refused, and a revision taken from the host or from an unapplied header has at least
our number. -/
theorem managedSyncRevision_revisionNumber {c c' : SafeContract H}
    {ourRev rev : FileContractRevision H} {sigs : List (TransactionSignature H)}
    {result : Except RevisionNumberMismatch Unit}
    (signed : c.header.transaction.transactionSignatures ≠ [])
    (last : c.header.lastRevision = some ourRev)
    (synced : c.managedSyncRevision rev sigs = some (c', result)) :
    ∃ r, c'.header.lastRevision = some r ∧ ourRev.newRevisionNumber ≤ r.newRevisionNumber := by
  have hostTaken := ContractHeader.lastRevision_withRevisions_set last rev sigs
  simp only [managedSyncRevision, List.length_eq_zero_iff, signed, ↓reduceIte, last,
    Option.bind_some] at synced
  split at synced
  case isTrue same =>
    cases synced
    exact ⟨rev, hostTaken, UInt64.le_of_eq same.1.symm⟩
  case isFalse differs =>
    split at synced
    case isTrue older =>
      cases synced
      exact ⟨ourRev, last, UInt64.le_refl _⟩
    case isFalse notOlder =>
      -- the host's revision has at least our number; so has a header carrying it
      have atLeast := UInt64.not_lt.mp notOlder
      obtain ⟨found, searched, adopted⟩ := Option.map_eq_some_iff.mp synced
      cases found with
      | some h =>
        cases adopted
        obtain ⟨r, carried, number, -⟩ := matchingHeader_spec searched
        exact ⟨r, by simpa [applySetHeader, clearUnappliedTxns] using carried, number ▸ atLeast⟩
      | none =>
        cases adopted
        exact ⟨rev, hostTaken, atLeast⟩

end SafeContract

/-! ### Adopting an intent's header after a crash -/

namespace SafeContract

variable (emptyRoot : H) [DecidableEq H]

theorem syncRevision_drops_intent_root (c : SafeContract H) (ours rev : FileContractRevision H)
    (root : H) (storageCost bandwidthCost : Currency) (sigs : List (TransactionSignature H))
    (last : c.header.lastRevision = some ours)
    (signed : c.header.transaction.transactionSignatures ≠ [])
    (saved : c.headerFile = c.header) (valid : c.header.validate = .ok ())
    (applied : c.unappliedTxns = [])
    (roots : c.merkleRoots.length = ours.newFileSize.toNat / Host.sectorSize.toNat)
    (ahead : ours.newRevisionNumber < rev.newRevisionNumber)
    (grows : rev.newFileSize.toNat = ours.newFileSize.toNat + Host.sectorSize.toNat) :
    ∃ c', c.run emptyRoot [.recordAppendIntent rev root storageCost bandwidthCost, .crash false,
        .syncRevision rev sigs] = some c' ∧
      c'.headerFile = c'.header ∧ c'.header.lastRevision = some rev ∧
      c'.merkleRoots.length + 1 = rev.newFileSize.toNat / Host.sectorSize.toNat := by
  have named : c.header.id = some ours.parentID := by simp [ContractHeader.id, last]
  -- the intent logs the unsigned header of `rev` and the root at the end of the roots
  obtain ⟨ih, intent, intentLast⟩ : ∃ ih : ContractHeader H,
      c.managedRecordAppendIntent rev root storageCost bandwidthCost =
        some ({ c with unappliedTxns := [[.setHeader ours.parentID ih,
            .setRoot ours.parentID root c.merkleRoots.length]] },
          [.setHeader ours.parentID ih, .setRoot ours.parentID root c.merkleRoots.length]) ∧
        ih.lastRevision = some rev :=
    ⟨_, by rw [managedRecordAppendIntent, recordIntent_of_id named, applied]; rfl, rfl⟩
  set logged : SafeContract H := { c with unappliedTxns := [[.setHeader ours.parentID ih,
    .setRoot ours.parentID root c.merkleRoots.length]] } with logged_eq
  -- the crash leaves the roots file whole; the header file is the header, so the intent stays
  have loaded : logged.loadSafeContract emptyRoot false = .ok logged := by
    rw [loadSafeContract_intact emptyRoot (by rw [logged_eq, saved]; exact valid)]
    simp [logged_eq, saved, named, Update.id]
  -- the sync finds the intent's header and adopts it, without its root
  have synced := managedSyncRevision_of_matchingHeader (c := logged) sigs signed last ahead
    (matchingHeader_setHeader ours.parentID _ intentLast rfl rfl)
  refine ⟨(logged.applySetHeader (ih.withRevisions ih.transaction.fileContractRevisions sigs)
    ).clearUnappliedTxns, ?_, rfl, by simpa [applySetHeader, clearUnappliedTxns] using intentLast, ?_⟩
  · simp [run, step, intent, loaded, synced, Except.toOption]
  · calc (logged.applySetHeader _).clearUnappliedTxns.merkleRoots.length + 1
        = ours.newFileSize.toNat / Host.sectorSize.toNat + 1 := by
          simp [applySetHeader, clearUnappliedTxns, logged_eq, roots]
      _ = rev.newFileSize.toNat / Host.sectorSize.toNat := by
          rw [grows, Nat.add_div_right _ (by decide)]

/-- A renter's contract revision with both parties' keys, 100 for the renter and 50 for the host,
with number `number`, file size `fileSize` and Merkle root `root`. -/
def sampleRevision (number fileSize : UInt64) (root : ℕ) : FileContractRevision ℕ where
  parentID := 1
  unlockConditions := ⟨0, [⟨Vector.replicate 16 0, [1]⟩, ⟨Vector.replicate 16 0, [2]⟩], 2⟩
  newRevisionNumber := number
  newFileSize := fileSize
  newFileMerkleRoot := root
  newWindowStart := 1000
  newWindowEnd := 1144
  newValidProofOutputs := [⟨100, 10⟩, ⟨50, 20⟩]
  newMissedProofOutputs := [⟨100, 10⟩, ⟨50, 20⟩, ⟨0, 30⟩]
  newUnlockHash := 5

/-- The header of a contract at its first revision, holding no data, with the host's signature. -/
def sampleHeader : ContractHeader ℕ where
  transaction := { Host.sampleRevisionTransaction with
    fileContractRevisions := [sampleRevision 1 0 0]
    transactionSignatures := [⟨1, 0, 0, ⟨false, [], [], [], [0], [], [], [], [], [], []⟩, [7]⟩] }
  downloadSpending := 0
  storageSpending := 0
  uploadSpending := 0
  utility := ⟨true, true, false⟩

def sampleContract : SafeContract ℕ := ⟨sampleHeader, sampleHeader, [], []⟩

theorem sampleContract_drops_root :
    ∃ c', sampleContract.run 0 [.recordAppendIntent (sampleRevision 2 4194304 9) 9 40 10,
        .crash false, .syncRevision (sampleRevision 2 4194304 9) []] = some c' ∧
      c'.headerFile = c'.header ∧ c'.header.lastRevision = some (sampleRevision 2 4194304 9) ∧
      c'.merkleRoots.length + 1 =
        (sampleRevision 2 4194304 9).newFileSize.toNat / Host.sectorSize.toNat :=
  syncRevision_drops_intent_root 0 sampleContract (sampleRevision 1 0 0)
    (sampleRevision 2 4194304 9) 9 40 10 [] rfl (by decide) rfl rfl rfl (by decide) (by decide)
    (by decide)

end SafeContract

end Sia.Renter.Proto
