import Sia.Host.MDM.Instructions
import Sia.Lib.Finmap

/-! `instructionReadOffset` (`instructionreadoffset.go`): a read at an offset of the whole
contract. `sectors.translateOffset` turns the offset into a sector of the program's roots and an
offset within it, the range is read as `ReadSector` reads it, and the Merkle proof of a partial
sector is built over the roots of every other sector, gathered with
`append(merkleRoots[:secIdx], merkleRoots[secIdx+1:]...)`. The program's roots are a Go slice
here, a window into a backing array that every slice of it shares, so that this `append` writes
into the program's own roots. The host's storage and the Merkle proofs are parameters. -/
namespace Sia.MDM

/-- `programState.sectors`, with `merkleRoots` the first `rootsLen` elements of its backing
array. -/
structure SlicedSectors where
  sectorsRemoved : Finset Hash
  sectorsGained : Finmap fun _ : Hash => List UInt8
  rootsArray : List Hash
  rootsLen : ℕ
  len_le : rootsLen ≤ rootsArray.length

namespace SlicedSectors

/-- The slice header of `merkleRoots`. -/
def roots (s : SlicedSectors) : Slice.Header := ⟨0, s.rootsLen⟩

/-- The roots the program sees through `merkleRoots`. -/
def merkleRoots (s : SlicedSectors) : List Hash := s.roots.read s.rootsArray

theorem length_merkleRoots (s : SlicedSectors) : s.merkleRoots.length = s.rootsLen := by
  simp only [merkleRoots, roots, Slice.Header.read, List.drop_zero, List.length_take]
  exact Nat.min_eq_left s.len_le

end SlicedSectors

variable {ε : Type}

/-- `translateOffset`: the offset within its sector and the sector's index. -/
def translateOffset (sectorSize : UInt64) (s : SlicedSectors) (offset : UInt64) :
    Except (MDMError ε) (UInt64 × UInt64) :=
  let secOff := offset / sectorSize
  let relOff := offset % sectorSize
  if s.rootsLen ≤ secOff.toNat then .error (.secOffOutOfBounds s.rootsLen secOff.toNat)
  else .ok (relOff, secOff)

section Execute

-- the host, and `crypto.MerkleMixedRangeProof` over a list of roots, the data of one sector
-- (empty for none), the leaf size and the segment range
variable (host : Host ε SlicedSectors)
  (mixedRangeProof : List Hash → List UInt8 → ℕ → ℕ → ℕ → List Hash)

/-- The body of `Execute` once the operands are read. `none` is a panic. -/
def executeReadOffset (s : SlicedSectors) (previousOutput : InstructionOutput ε)
    (length offset : UInt64) (merkleProof : Bool) :
    Option (InstructionOutput ε × ℕ × SlicedSectors) :=
  match translateOffset host.sectorSize s offset with
  | .error err => some (errOutput err, 0, s)
  | .ok (relOffset, secIdx) => do
    let sectorRoot ← s.merkleRoots[secIdx.toNat]?
    -- read like `ReadSector`, without a proof
    let (output, fullSec) ← executeReadSector host s previousOutput length relOffset sectorRoot false
    if !merkleProof || output.error.isSome then some (output, 0, s) else
    let proofStart := offset.toNat / segmentSize.toNat
    let proofEnd := (offset + length).toNat / segmentSize.toNat
    if length = host.sectorSize then
      -- a full sector is proved from the roots alone
      let proof := mixedRangeProof s.merkleRoots [] host.sectorSize.toNat proofStart proofEnd
      some ({ output with proof }, 0, s)
    else
      let front ← s.roots.reslice s.rootsArray 0 secIdx.toNat
      let back ← s.roots.reslice s.rootsArray (secIdx.toNat + 1) s.rootsLen
      -- the front part's capacity reaches the end of the array, so `append` writes in place
      let appended := Slice.append s.rootsArray front (back.read s.rootsArray)
      let shifted : SlicedSectors :=
        { s with
          rootsArray := appended.fst
          len_le := (Slice.length_append_fst _ _ _).symm ▸ s.len_le }
      let proof := mixedRangeProof appended.snd fullSec host.sectorSize.toNat proofStart proofEnd
      some ({ output with proof }, 0, shifted)

section Decoded

variable (pt : PriceTable) (pd released : ProgramData ε)

/-- `instructionReadOffset`: its `Cost`, `Memory` and `Time` are `ReadSector`'s. -/
def readOffsetInstruction (lengthOffset offsetOffset : UInt64) (merkleProof : Bool) :
    Instruction ε SlicedSectors :=
  { collateral := 0
    memory := 0
    time := some (timeReadSector, none)
    cost := (readUint64 pd released lengthOffset).map fun
      | .error err => (0, 0, some (.programData err))
      | .ok length => (pt.readLengthCost * length.toNat + pt.readBaseCost, 0, none)
    batch := false
    execute := fun state previousOutput =>
      withOperand (readUint64 pd released lengthOffset) state fun length =>
      withOperand (readUint64 pd released offsetOffset) state fun offset =>
      executeReadOffset host mixedRangeProof state previousOutput length offset merkleProof }

end Decoded

/-- A successful read of part of a sector other than the last, with a Merkle proof: the proof's
`append` writes the roots after the sector one place forward into the program's own backing
array. The output keeps the previous size and root, and the cache is untouched, but the
program's roots lose the sector's root and end with the last root twice; with distinct roots
they are no longer the roots the program had. -/
theorem readOffset_proof_shifts_roots (s : SlicedSectors) (previousOutput : InstructionOutput ε)
    {length offset relOffset secIdx : UInt64} {sectorRoot : Hash} {output : InstructionOutput ε}
    {fullSec : List UInt8}
    (translated : (translateOffset host.sectorSize s offset : Except (MDMError ε) _) =
      .ok (relOffset, secIdx))
    (notLast : secIdx.toNat + 1 < s.rootsLen)
    (root : s.merkleRoots[secIdx.toNat]? = some sectorRoot)
    (read : executeReadSector host s previousOutput length relOffset sectorRoot false =
      some (output, fullSec))
    (noError : output.error = none) (partialSector : length ≠ host.sectorSize) :
    ∃ proved s', executeReadOffset host mixedRangeProof s previousOutput length offset true =
        some (proved, 0, s') ∧
      proved.newSize = output.newSize ∧ proved.newMerkleRoot = output.newMerkleRoot ∧
      proved.error = none ∧
      s'.sectorsGained = s.sectorsGained ∧ s'.sectorsRemoved = s.sectorsRemoved ∧
      s'.merkleRoots = s.merkleRoots.eraseIdx secIdx.toNat ++ s.merkleRoots.drop (s.rootsLen - 1) ∧
      (s.merkleRoots.Nodup → s'.merkleRoots ≠ s.merkleRoots) := by
  have fits := s.len_le
  have cap : s.roots.cap s.rootsArray = s.rootsArray.length := Nat.sub_zero _
  have front : s.roots.reslice s.rootsArray 0 secIdx.toNat = some ⟨0, secIdx.toNat⟩ := by
    rw [Slice.Header.reslice, if_pos ⟨Nat.zero_le _, by omega⟩]
    rfl
  have back : s.roots.reslice s.rootsArray (secIdx.toNat + 1) s.rootsLen =
      some ⟨secIdx.toNat + 1, s.rootsLen - (secIdx.toNat + 1)⟩ := by
    rw [Slice.Header.reslice, if_pos ⟨by omega, by omega⟩]
    simp [SlicedSectors.roots]
  have roots : s.merkleRoots = s.rootsArray.take s.rootsLen := by
    simp [SlicedSectors.merkleRoots, SlicedSectors.roots, Slice.Header.read]
  obtain ⟨-, removed⟩ := Slice.append_remove s.rootsArray fits (Nat.lt_of_succ_lt notLast)
  simp only [executeReadOffset, translated, root, read, noError, Option.isSome_none,
    Bool.not_true, Bool.or_false, partialSector, front, back, Option.bind_eq_bind,
    Option.bind_some, Bool.false_eq_true, ↓reduceIte]
  refine ⟨_, _, rfl, rfl, rfl, rfl, rfl, rfl, ?_, ?_⟩
  · rw [roots]
    exact removed
  · intro nodup
    rw [roots] at nodup ⊢
    refine ne_of_eq_of_ne removed (Slice.eraseIdx_append_ne nodup ?_)
    rw [List.length_take, Nat.min_eq_left fits]
    exact notLast

/-- Three sectors with distinct roots, all of whose roots are in use. -/
def threeRootSectors : SlicedSectors :=
  ⟨∅, ∅, [Vector.replicate 32 0, Vector.replicate 32 1, Vector.replicate 32 2], 3, by decide⟩

/-- A host of two-byte sectors that reads every sector as zeros. -/
def zeroSectorHost : Host Unit SlicedSectors :=
  ⟨2, fun _ _ => .ok [0, 0], fun _ _ _ => [], fun _ _ _ => [],
    fun _ _ => .error ()⟩

/-- Reading the first byte of the first of three sectors, with a proof. -/
theorem threeRootSectors_readOffset_shifts :
    let readOut : InstructionOutput Unit :=
      { (errOutput .zeroLength : InstructionOutput Unit) with
        output := [0], proof := [], error := none }
    (translateOffset zeroSectorHost.sectorSize threeRootSectors 0 : Except (MDMError Unit) _) =
        .ok (0, 0) ∧
      (0 : UInt64).toNat + 1 < threeRootSectors.rootsLen ∧
      threeRootSectors.merkleRoots[(0 : UInt64).toNat]? = some (Vector.replicate 32 0) ∧
      executeReadSector zeroSectorHost threeRootSectors (errOutput .zeroLength) 1 0
          (Vector.replicate 32 0) false = some (readOut, [0, 0]) ∧
      readOut.error = none ∧ (1 : UInt64) ≠ zeroSectorHost.sectorSize ∧
      ∃ proved s', executeReadOffset zeroSectorHost (fun _ _ _ _ _ => []) threeRootSectors
          (errOutput .zeroLength) 1 0 true = some (proved, 0, s') ∧
        proved.newSize = readOut.newSize ∧ proved.newMerkleRoot = readOut.newMerkleRoot ∧
        proved.error = none ∧
        s'.sectorsGained = threeRootSectors.sectorsGained ∧
        s'.sectorsRemoved = threeRootSectors.sectorsRemoved ∧
        s'.merkleRoots = threeRootSectors.merkleRoots.eraseIdx (0 : UInt64).toNat ++
          threeRootSectors.merkleRoots.drop (threeRootSectors.rootsLen - 1) ∧
        (threeRootSectors.merkleRoots.Nodup → s'.merkleRoots ≠ threeRootSectors.merkleRoots) :=
  ⟨rfl, by decide, rfl, rfl, rfl, by decide,
    readOffset_proof_shifts_roots zeroSectorHost (fun _ _ _ _ _ => []) threeRootSectors
      (errOutput .zeroLength) rfl (by decide) rfl rfl rfl (by decide)⟩

end Execute

end Sia.MDM
