import Sia.Host.Revision
import Mathlib.Data.List.Dedup
import Sia.Lib.OptionLoop

/-! The renter-host loop RPCs that revise a locked contract (`managedRPCLoopWrite` and
`managedRPCLoopRead` of `modules/host/newrpc.go`), from the decoded request on. The host reads
sectors, hashes and signs through `HostIO`; the session's reads and writes are the request and
the renter's signature, already received. A handler's result is `none` where the Go code panics
(an index or slice out of range); otherwise it is the session's obligation afterwards with the
error the handler returns, if any. -/
namespace Sia.Host

open Except (failIf)

variable {H : Type}

/-- `crypto.SegmentSize`. -/
def segmentSize : UInt64 := 64

/-- `modules.RPCMinLen`: the least number of bytes the host charges bandwidth for. -/
def rpcMinLen : ℕ := 4096

/-- `crypto.HashSize`. -/
def hashSize : ℕ := 32

/-- The host's side of the session: hashing, sector storage, signing and the obligation store. -/
structure HostIO (H : Type) extends Hashing H where
  /-- `crypto.MerkleRoot` of a sector. -/
  merkleRoot : List UInt8 → H
  /-- `ReadSector`; `none` is a failed read. -/
  readSector : H → Option (List UInt8)
  /-- `crypto.MerkleDiffProof` over the old sector roots. -/
  merkleDiffProof : List (UInt64 × UInt64) → UInt64 → List H → List H
  /-- The signatures `createRevisionSignature` puts on the revision; `none` is a failure. -/
  sign : FileContractRevision H → Option (List (TransactionSignature H))
  /-- Whether `managedModifyStorageObligation` succeeds with the removed and gained sectors. -/
  modify : StorageObligation H → List H → List (H × List UInt8) → Bool

/-- The prices of `externalSettings` the loop RPCs charge. -/
structure HostPrices where
  baseRPCPrice : Currency
  uploadBandwidthPrice : Currency
  downloadBandwidthPrice : Currency
  storagePrice : Currency
  collateral : Currency
  sectorAccessPrice : Currency

inductive LoopError where
  | noContractLocked
  | badSectorSize
  | trimTooLarge
  | illegalSectorIndex
  | illegalOffsetAndLength
  | readSectorFailed
  | unknownAction
  | requestOutOfBounds
  | zeroLength
  | unalignedSection
  | wrongValidValueCount
  | wrongMissedValueCount
  | revisionRejected (e : HostError)
  | signingFailed
  | modifyFailed
  deriving DecidableEq, Repr

/-- The revised outputs of both loop RPCs: one per output of the current revision, with the
renter's value at the same position and the current output's address. A value list shorter than
the outputs is indexed past its end: `none`. -/
def revisedOutputs (values : List Currency) (outputs : List (SiacoinOutput H)) :
    Option (List (SiacoinOutput H)) :=
  outputs.zipIdx.mapM fun (o, i) => values[i]?.map fun value => ⟨value, o.unlockHash⟩

theorem revisedOutputs_eq_none_iff {values : List Currency} {outputs : List (SiacoinOutput H)} :
    revisedOutputs values outputs = none ↔ values.length < outputs.length := by
  rw [revisedOutputs, OptionLoop.mapM_eq_none_iff]
  constructor
  · rintro ⟨⟨o, i⟩, mem, short⟩
    obtain ⟨i_lt, -⟩ := List.getElem?_eq_some_iff.mp (List.mem_zipIdx_iff_getElem?.mp mem)
    simp only [Option.map_eq_none_iff, List.getElem?_eq_none_iff] at short
    omega
  · intro short
    have at_i : outputs[values.length]? = some outputs[values.length] :=
      List.getElem?_eq_getElem short
    refine ⟨(outputs[values.length], values.length), List.mem_zipIdx_iff_getElem?.mpr at_i, ?_⟩
    simp

/-- The revision the host signs into a one-transaction revision set. -/
def revisionTransaction (revision : FileContractRevision H)
    (signatures : List (TransactionSignature H)) : Transaction H where
  siacoinInputs := []
  siacoinOutputs := []
  fileContracts := []
  fileContractRevisions := [revision]
  storageProofs := []
  siafundInputs := []
  siafundOutputs := []
  minerFees := []
  arbitraryData := []
  transactionSignatures := signatures

/-- The obligation with a newly signed revision as its current one. -/
def StorageObligation.resign (so : StorageObligation H) (r : ContractRevision H)
    (signatures : List (TransactionSignature H)) : StorageObligation H :=
  { so with
    revisionTransactionSet := [revisionTransaction r.revision signatures]
    current := r
    signed := rfl }

/-! ### `managedRPCLoopWrite` -/

inductive WriteActionType where
  | append
  | trim
  | swap
  | update
  | other
  deriving DecidableEq, Repr

structure WriteAction where
  type : WriteActionType
  a : UInt64
  b : UInt64
  data : List UInt8
  deriving DecidableEq, Repr

structure LoopWriteRequest where
  actions : List WriteAction
  merkleProof : Bool
  newRevisionNumber : UInt64
  newValidProofValues : List Currency
  newMissedProofValues : List Currency
  deriving DecidableEq, Repr

/-- What the action loop accumulates. -/
structure WriteState (H : Type) where
  newRoots : List H
  sectorsChanged : List UInt64
  bandwidthRevenue : Currency
  sectorsRemoved : List H
  sectorsGained : List (H × List UInt8)

/-- `xs[i], xs[j] = xs[j], xs[i]` on indices in range. -/
def swapAt {α : Type} (xs : List α) (i j : ℕ) : List α :=
  match xs[i]?, xs[j]? with
  | some x, some y => (xs.set i y).set j x
  | _, _ => xs

/-- `copy(sector[offset:], data)`: slicing past the end of the sector panics; otherwise as much
of the data as fits is written over the sector from the offset. -/
def copyAt (sector : List UInt8) (offset : ℕ) (data : List UInt8) : Option (List UInt8) :=
  if sector.length < offset then none
  else
    let written := data.take (sector.length - offset)
    some (sector.take offset ++ written ++ sector.drop (offset + written.length))

variable [DecidableEq H] (io : HostIO H) (prices : HostPrices)

/-- One action of the request. An update checks `offset + len(data)` in `uint64`, which wraps. -/
def applyWriteAction (st : WriteState H) (action : WriteAction) :
    Option (Except LoopError (WriteState H)) :=
  match action.type with
  | .append =>
    if UInt64.ofNat action.data.length ≠ sectorSize then some (.error .badSectorSize)
    else
      let newRoot := io.merkleRoot action.data
      let newRoots := st.newRoots ++ [newRoot]
      some (.ok { st with
        newRoots := newRoots
        sectorsGained := (newRoot, action.data) :: st.sectorsGained
        sectorsChanged := UInt64.ofNat (newRoots.length - 1) :: st.sectorsChanged
        bandwidthRevenue := st.bandwidthRevenue + prices.uploadBandwidthPrice * sectorSize.toNat })
  | .trim =>
    let numSectors := action.a
    if UInt64.ofNat st.newRoots.length < numSectors then some (.error .trimTooLarge)
    else
      let kept := st.newRoots.length - numSectors.toNat
      some (.ok { st with
        sectorsRemoved := st.sectorsRemoved ++ st.newRoots.drop kept
        newRoots := st.newRoots.take kept
        sectorsChanged := UInt64.ofNat kept :: st.sectorsChanged })
  | .swap =>
    let i := action.a
    let j := action.b
    if i ≥ UInt64.ofNat st.newRoots.length ∨ j ≥ UInt64.ofNat st.newRoots.length then
      some (.error .illegalSectorIndex)
    else
      some (.ok { st with
        newRoots := swapAt st.newRoots i.toNat j.toNat
        sectorsChanged := j :: i :: st.sectorsChanged })
  | .update =>
    let sectorIndex := action.a
    let offset := action.b
    if sectorIndex ≥ UInt64.ofNat st.newRoots.length then some (.error .illegalSectorIndex)
    else if offset + UInt64.ofNat action.data.length > sectorSize then
      some (.error .illegalOffsetAndLength)
    else
      match st.newRoots[sectorIndex.toNat]? with
      | none => some (.error .illegalSectorIndex)
      | some oldRoot =>
      match io.readSector oldRoot with
      | none => some (.error .readSectorFailed)
      | some sector => (copyAt sector offset.toNat action.data).map fun sector =>
        let newRoot := io.merkleRoot sector
        .ok { st with
          sectorsRemoved := st.sectorsRemoved ++ [oldRoot]
          sectorsGained := (newRoot, sector) :: st.sectorsGained
          newRoots := st.newRoots.set sectorIndex.toNat newRoot
          bandwidthRevenue :=
            st.bandwidthRevenue + prices.uploadBandwidthPrice * action.data.length }
  | .other => some (.error .unknownAction)

/-- The action loop: the first panic or error stops it. -/
def applyWriteActions : WriteState H → List WriteAction → Option (Except LoopError (WriteState H))
  | st, [] => some (.ok st)
  | st, action :: rest =>
    match applyWriteAction io prices st action with
    | none => none
    | some (.error e) => some (.error e)
    | some (.ok st) => applyWriteActions st rest

/-- The new file size: a sector more for every append, `SectorSize * A` less for every trim, in
`uint64`. -/
def revisedFileSize (size : UInt64) (actions : List WriteAction) : UInt64 :=
  actions.foldl (fun size action =>
    match action.type with
    | .append => size + sectorSize
    | .trim => size - sectorSize * action.a
    | _ => size) size

/-- What the Merkle proof of a write costs in bandwidth: the old subtree and leaf hashes of the
changed sectors that existed before, and the new root. -/
def writeProofSize (so : StorageObligation H) (changed : List UInt64) : ℕ :=
  let oldNumSectors := UInt64.ofNat so.sectorRoots.length
  let starts := ((changed.dedup.filter (· < oldNumSectors)).mergeSort (· ≤ ·))
  let ranges := starts.map fun start => (start, start + 1)
  let proofSize := hashSize * ((io.merkleDiffProof ranges oldNumSectors so.sectorRoots).length +
    ranges.length + 1)
  max proofSize rpcMinLen

/-- `managedRPCLoopWrite` on a decoded request, at `blockHeight`, with the renter's signature of
the revision already received. The session's obligation changes only once the host has signed;
storing it can still fail after that. -/
def managedRPCLoopWrite (so : StorageObligation H) (blockHeight : UInt64)
    (req : LoopWriteRequest) : Option (StorageObligation H × Option LoopError) :=
  if so.originTransactionSet = [] then some (so, some .noContractLocked)
  else
    let currentRevision := so.current.revision
    match applyWriteActions io prices ⟨so.sectorRoots, [], 0, [], []⟩ req.actions with
    | none => none
    | some (.error e) => some (so, some e)
    | some (.ok st) =>
      let added := st.newRoots.length - so.sectorRoots.length
      let blockBytes :=
        if so.sectorRoots.length < st.newRoots.length then
          (so.proofDeadline - blockHeight).toNat * (sectorSize * UInt64.ofNat added).toNat
        else 0
      let storageRevenue := prices.storagePrice * blockBytes
      let newCollateral := prices.collateral * blockBytes
      let bandwidthRevenue := if req.merkleProof then
          st.bandwidthRevenue + prices.downloadBandwidthPrice * writeProofSize io so st.sectorsChanged
        else st.bandwidthRevenue
      match revisedOutputs req.newValidProofValues currentRevision.newValidProofOutputs,
        revisedOutputs req.newMissedProofValues currentRevision.newMissedProofOutputs with
      | some valid, some missed =>
        let newRevision := { currentRevision with
          newRevisionNumber := req.newRevisionNumber
          newFileSize := revisedFileSize currentRevision.newFileSize req.actions
          newFileMerkleRoot := io.cachedMerkleRoot st.newRoots
          newValidProofOutputs := valid
          newMissedProofOutputs := missed }
        let newRevenue := prices.baseRPCPrice + storageRevenue + bandwidthRevenue
        -- `verifyRevision` sees the obligation with the new roots
        match verifyRevision io.toHashing { so with sectorRoots := st.newRoots } newRevision
          blockHeight newRevenue newCollateral, shape newRevision, io.sign newRevision with
        | .error e, _, _ => some (so, some (.revisionRejected e))
        | .ok (), none, _ => some (so, some (.revisionRejected .badContractOutputCounts))
        | .ok (), some _, none => some (so, some .signingFailed)
        | .ok (), some r, some signatures =>
          let so' := { so.resign r signatures with
            sectorRoots := st.newRoots
            potentialStorageRevenue := so.potentialStorageRevenue + storageRevenue
            riskedCollateral := so.riskedCollateral + newCollateral
            potentialUploadRevenue := so.potentialUploadRevenue + bandwidthRevenue }
          if io.modify so' st.sectorsRemoved st.sectorsGained then some (so', none)
          else some (so', some .modifyFailed)
      | _, _ => none

/-! ### `managedRPCLoopRead` -/

structure LoopReadRequestSection (H : Type) where
  merkleRoot : H
  offset : UInt32
  length : UInt32
  deriving DecidableEq, Repr

structure LoopReadRequest (H : Type) where
  sections : List (LoopReadRequestSection H)
  merkleProof : Bool
  newRevisionNumber : UInt64
  newValidProofValues : List Currency
  newMissedProofValues : List Currency
  deriving DecidableEq, Repr

/-- The checks of one section; the counts of the renter's values are checked with every section,
so a request without sections never checks them. -/
def validateSection (currentRevision : FileContractRevision H) (req : LoopReadRequest H)
    (sec : LoopReadRequestSection H) : Except LoopError Unit := do
  failIf (sec.offset.toUInt64 + sec.length.toUInt64 > sectorSize) .requestOutOfBounds
  failIf (sec.length = 0) .zeroLength
  failIf (req.merkleProof ∧ (sec.offset.toUInt64 % segmentSize ≠ 0 ∨
    sec.length.toUInt64 % segmentSize ≠ 0)) .unalignedSection
  failIf (req.newValidProofValues.length ≠ currentRevision.newValidProofOutputs.length)
    .wrongValidValueCount
  failIf (req.newMissedProofValues.length ≠ currentRevision.newMissedProofOutputs.length)
    .wrongMissedValueCount

/-- The bandwidth a read is charged for: each section's bytes and a worst-case proof of `2 * 17`
hashes, at least `RPCMinLen`. -/
def readBandwidth (sections : List (LoopReadRequestSection H)) : ℕ :=
  max ((sections.map fun sec => sec.length.toNat + 2 * 17 * hashSize).sum) rpcMinLen

/-- The response loop: each section's bytes are sliced out of its sector; a failed read stops
it with an error. -/
def readSections : List (LoopReadRequestSection H) → Option (Option LoopError)
  | [] => some none
  | sec :: rest =>
    match io.readSector sec.merkleRoot with
    | none => some (some .readSectorFailed)
    | some sector =>
      if sector.length < sec.offset.toNat + sec.length.toNat then none
      else readSections rest

/-- `managedRPCLoopRead` on a decoded request, at `blockHeight`. The obligation is updated and
stored before the sectors are read and sent. -/
def managedRPCLoopRead (so : StorageObligation H) (blockHeight : UInt64)
    (req : LoopReadRequest H) : Option (StorageObligation H × Option LoopError) :=
  if so.originTransactionSet = [] then some (so, some .noContractLocked)
  else
    let currentRevision := so.current.revision
    match req.sections.forM (validateSection currentRevision req) with
    | .error e => some (so, some e)
    | .ok () =>
      match revisedOutputs req.newValidProofValues currentRevision.newValidProofOutputs,
        revisedOutputs req.newMissedProofValues currentRevision.newMissedProofOutputs with
      | some valid, some missed =>
        let newRevision := { currentRevision with
          newRevisionNumber := req.newRevisionNumber
          newValidProofOutputs := valid
          newMissedProofOutputs := missed }
        let bandwidthCost := prices.downloadBandwidthPrice * readBandwidth req.sections
        let sectorAccessCost :=
          prices.sectorAccessPrice * (req.sections.map (·.merkleRoot)).dedup.length
        let totalCost := prices.baseRPCPrice + bandwidthCost + sectorAccessCost
        match verifyPaymentRevision io.toHashing so.current newRevision blockHeight totalCost,
          shape newRevision, io.sign newRevision with
        | .error e, _, _ => some (so, some (.revisionRejected e))
        | .ok (), none, _ => some (so, some (.revisionRejected .badContractOutputCounts))
        | .ok (), some _, none => some (so, some .signingFailed)
        | .ok (), some r, some signatures =>
          let so' := { so.resign r signatures with
            potentialDownloadRevenue := so.potentialDownloadRevenue +
              (so.current.validRenterOutput.value - r.validRenterOutput.value) }
          if io.modify so' [] [] then (readSections io req.sections).map fun e => (so', e)
          else some (so', some .modifyFailed)
      | _, _ => none

/-! ### Renter input that makes the handlers panic -/

omit [DecidableEq H] in
/-- Fewer than two valid values index past the end of the renter's values. -/
theorem revisedOutputs_valid_eq_none (so : StorageObligation H) {values : List Currency}
    (short : values.length < 2) :
    revisedOutputs values so.current.revision.newValidProofOutputs = none := by
  rw [revisedOutputs_eq_none_iff, so.current.valid_length]
  exact short

/-- The renter's valid values are indexed one per output of the current revision: after actions
that apply, a request with fewer than two valid values makes `managedRPCLoopWrite` panic. -/
theorem managedRPCLoopWrite_panics_of_short_values {so : StorageObligation H}
    {blockHeight : UInt64} {req : LoopWriteRequest} {st : WriteState H}
    (locked : so.originTransactionSet ≠ [])
    (applied : applyWriteActions io prices ⟨so.sectorRoots, [], 0, [], []⟩ req.actions =
      some (.ok st))
    (short : req.newValidProofValues.length < 2) :
    managedRPCLoopWrite io prices so blockHeight req = none := by
  have panics := revisedOutputs_valid_eq_none so short
  simp only [managedRPCLoopWrite, locked, if_false, applied, panics]

/-- A read without sections never checks the counts of the renter's values, so it panics the
same way. -/
theorem managedRPCLoopRead_panics_without_sections {so : StorageObligation H}
    {blockHeight : UInt64} {req : LoopReadRequest H} (locked : so.originTransactionSet ≠ [])
    (noSections : req.sections = []) (short : req.newValidProofValues.length < 2) :
    managedRPCLoopRead io prices so blockHeight req = none := by
  have panics := revisedOutputs_valid_eq_none so short
  simp only [managedRPCLoopRead, locked, if_false, noSections, panics]
  rfl

omit [DecidableEq H] in
/-- An update at offset `2^64 - 1` with one byte passes the bound check, whose sum wraps to `0`,
and then slices its sector past the end. -/
theorem applyWriteAction_wrapped_update_panics {st : WriteState H} {index : UInt64}
    {sector : List UInt8} (inRange : index < UInt64.ofNat st.newRoots.length)
    (read : ∀ root ∈ st.newRoots, io.readSector root = some sector)
    (short : sector.length < 18446744073709551615) :
    applyWriteAction io prices st ⟨.update, index, 18446744073709551615, [0]⟩ = none := by
  have index_lt : index.toNat < st.newRoots.length :=
    lt_of_lt_of_le (UInt64.lt_iff_toNat_lt.mp inRange) (by simp [Nat.mod_le])
  have root := read _ (List.getElem_mem index_lt)
  have offset_toNat : (18446744073709551615 : UInt64).toNat = 18446744073709551615 := rfl
  simp only [applyWriteAction, UInt64.not_le.mpr inRange, if_false]
  split
  · next checked => exact absurd checked (by decide)
  · simp only [List.getElem?_eq_getElem index_lt, root, copyAt, offset_toNat, short, if_true,
      Option.map_none]

/-- Prices of one coin per unit. -/
def samplePrices : HostPrices := ⟨1, 1, 1, 1, 1, 1⟩

/-- A host whose sectors are all empty and that signs and stores everything. -/
def sampleHostIO : HostIO ℕ where
  toHashing := sampleHashing
  merkleRoot _ := 0
  readSector _ := some []
  merkleDiffProof _ _ _ := []
  sign _ := some []
  modify _ _ _ := true

/-- `sampleObligation` with a formation transaction set, so that a session can lock it. -/
def lockedObligation : StorageObligation ℕ :=
  { sampleObligation with originTransactionSet := [sampleRevisionTransaction] }

/-- A write request with no actions and no values. -/
def emptyWriteRequest : LoopWriteRequest := ⟨[], false, 2, [], []⟩

theorem emptyWriteRequest_panics :
    lockedObligation.originTransactionSet ≠ [] ∧
      applyWriteActions sampleHostIO samplePrices ⟨lockedObligation.sectorRoots, [], 0, [], []⟩
        emptyWriteRequest.actions = some (.ok ⟨[], [], 0, [], []⟩) ∧
      emptyWriteRequest.newValidProofValues.length < 2 ∧
      managedRPCLoopWrite sampleHostIO samplePrices lockedObligation 0 emptyWriteRequest = none :=
  ⟨List.cons_ne_nil _ _, rfl, by decide,
    managedRPCLoopWrite_panics_of_short_values sampleHostIO samplePrices (List.cons_ne_nil _ _) rfl
      (by decide)⟩

end Sia.Host
