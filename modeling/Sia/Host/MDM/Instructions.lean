import Sia.Host.MDM.Program

/-! Two MDM instructions over the program data: `ReadSector`
(`instructionreadsector.go`), which returns a range of a stored sector, and `DropSectors`
(`instructiondropsectors.go`), which removes sectors from the end of the contract. The host's
storage and Merkle proofs are parameters. -/
namespace Sia.MDM

/-- The prices of `RPCPriceTable` these instructions read. -/
structure PriceTable where
  memoryTimeCost : ℕ
  readBaseCost : ℕ
  readLengthCost : ℕ
  dropSectorsBaseCost : ℕ
  dropSectorsUnitCost : ℕ

/-- The host and the program's sector list as the instructions see them: `modules.SectorSize`,
`sectors.readSector`, `sectors.dropSectors` and the Merkle range proofs of `crypto`. -/
structure Host (ε σ : Type) where
  sectorSize : UInt64
  readSector : σ → Hash → Except ε (List UInt8)
  merkleRangeProof : List UInt8 → ℕ → ℕ → List Hash
  merkleSectorRangeProof : σ → ℕ → ℕ → List Hash
  dropSectors : σ → UInt64 → Except ε (Hash × σ)

/-- `crypto.SegmentSize`. -/
def segmentSize : UInt64 := 64

/-- `modules.MDMTimeReadSector`. -/
def timeReadSector : UInt64 := 1000

/-- `modules.MDMDropSectorsTime`. -/
def dropSectorsTime (numSectorsDropped : UInt64) : UInt64 := 1 + 1 * numSectorsDropped

variable {ε σ : Type} (host : Host ε σ)

/-- `executeReadSector`: the bounds check adds `offset + length` in `uint64`, and the range is
then sliced from the sector with that sum as its end. `none` is a panic. -/
def executeReadSector (state : σ) (previousOutput : InstructionOutput ε) (length offset : UInt64)
    (sectorRoot : Hash) (merkleProof : Bool) : Option (InstructionOutput ε × List UInt8) :=
  if offset + length > host.sectorSize then some (errOutput (.readOutOfBounds offset length), [])
  else if length = 0 then some (errOutput .zeroLength, [])
  else if merkleProof ∧ (offset % segmentSize ≠ 0 ∨ length % segmentSize ≠ 0) then
    some (errOutput .unalignedProof, [])
  else
    match host.readSector state sectorRoot with
    | .error err => some (errOutput (.host err), [])
    | .ok sectorData =>
      (Slice.slice sectorData offset.toNat (offset + length).toNat).map fun readData =>
        let proof := if merkleProof then
            host.merkleRangeProof sectorData (offset.toNat / segmentSize.toNat)
              ((offset + length).toNat / segmentSize.toNat)
          else []
        ({ previousOutput with output := readData, proof := proof, error := none }, sectorData)

/-- A window inside the sector, as a true sum, is read exactly, or the read fails with an
error output: the slice never leaves a sector of `SectorSize` bytes. -/
theorem executeReadSector_of_fits (state : σ) (previousOutput : InstructionOutput ε)
    {length offset : UInt64} (sectorRoot : Hash) (merkleProof : Bool)
    (fits : offset.toNat + length.toNat ≤ host.sectorSize.toNat)
    (fullSectors : ∀ root data, host.readSector state root = .ok data →
      data.length = host.sectorSize.toNat) :
    ∃ output sectorData,
      executeReadSector host state previousOutput length offset sectorRoot merkleProof =
        some (output, sectorData) ∧
      (output.error = none → output.output = (sectorData.drop offset.toNat).take length.toNat) := by
  have sum := toNat_add_of_fits fits
  have inBounds : ¬ offset + length > host.sectorSize := by
    rw [gt_iff_lt, UInt64.lt_iff_toNat_lt, sum]
    omega
  unfold executeReadSector
  rw [if_neg inBounds]
  split
  · exact ⟨_, _, rfl, fun noError => by simp [errOutput] at noError⟩
  split
  · exact ⟨_, _, rfl, fun noError => by simp [errOutput] at noError⟩
  cases read : host.readSector state sectorRoot with
  | error err => exact ⟨_, _, rfl, fun noError => by simp [errOutput] at noError⟩
  | ok sectorData =>
    have size := fullSectors _ _ read
    have sliced : Slice.slice sectorData offset.toNat (offset + length).toNat =
        some ((sectorData.drop offset.toNat).take length.toNat) := by
      rw [Slice.slice, if_pos ⟨by omega, by omega⟩, sum, Nat.add_sub_cancel_left]
    simp only [sliced, Option.map_some]
    exact ⟨_, _, rfl, fun _ => rfl⟩

/-- A `uint64` sum that wraps past `2^64` passes both bounds checks and then slices out of
range: reading two bytes at offset `2^64 - 1` of eight received bytes panics, and so does
reading one byte of a sector at that offset. -/
theorem wrapping_window_panics :
    managedBytes (⟨List.replicate 8 0, 8, none⟩ : ProgramData Unit) ⟨List.replicate 8 0, 8, none⟩
        18446744073709551615 2 = none ∧
    executeReadSector (ε := Unit) (σ := Unit)
        ⟨4096, fun _ _ => .ok (List.replicate 4096 0), fun _ _ _ => [], fun _ _ _ => [],
          fun _ _ => .error ()⟩
        () (errOutput .zeroLength) 1 18446744073709551615 (Vector.replicate 32 0) false = none := by
  decide

/-- A program-data read inside an instruction: a panic stays a panic, an error becomes the
instruction's error output, and a value goes on to `k`. -/
def withOperand {α : Type} (read : Option (Except (ProgramDataError ε) α)) (state : σ)
    (k : α → Option (InstructionOutput ε × ℕ × σ)) : Option (InstructionOutput ε × ℕ × σ) :=
  read.bind fun
    | .error err => some (errOutput (.programData err), 0, state)
    | .ok a => k a

section Decoded

variable (pt : PriceTable) (pd released : ProgramData ε)

/-- `instructionReadSector`, with the offsets of its operands in the program data. -/
def readSectorInstruction (lengthOffset offsetOffset merkleRootOffset : UInt64)
    (merkleProof : Bool) : Instruction ε σ :=
  { collateral := 0
    memory := 0
    time := some (timeReadSector, none)
    cost := (readUint64 pd released lengthOffset).map fun
      | .error err => (0, 0, some (.programData err))
      | .ok length => (pt.readLengthCost * length.toNat + pt.readBaseCost, 0, none)
    batch := false
    execute := fun state previousOutput =>
      withOperand (readUint64 pd released lengthOffset) state fun length =>
      withOperand (readUint64 pd released offsetOffset) state fun offset =>
      withOperand (readHash pd released merkleRootOffset) state fun sectorRoot =>
      (executeReadSector host state previousOutput length offset sectorRoot merkleProof).map
        fun (output, _) => (output, 0, state) }

/-- `instructionDropSectors`. Its `Time` and `Cost` read the number of sectors from the program
data, as `Execute` does. -/
def dropSectorsInstruction (numSectorsOffset : UInt64) (merkleProof : Bool) : Instruction ε σ :=
  { collateral := 0
    memory := 0
    time := (readUint64 pd released numSectorsOffset).map fun
      | .error err => (0, some (.programData err))
      | .ok numDropped => (dropSectorsTime numDropped, none)
    cost := (readUint64 pd released numSectorsOffset).map fun
      | .error err => (0, 0, some (.programData err))
      | .ok numSectorsDropped =>
        (pt.dropSectorsUnitCost * numSectorsDropped.toNat + pt.dropSectorsBaseCost, 0, none)
    batch := false
    execute := fun state prevOutput =>
      withOperand (readUint64 pd released numSectorsOffset) state fun numSectorsDropped =>
      let oldNumSectors := prevOutput.newSize / host.sectorSize
      if numSectorsDropped > oldNumSectors then
        some (errOutput (.tooManySectorsDropped numSectorsDropped oldNumSectors), 0, state)
      else
        let newNumSectors := oldNumSectors - numSectorsDropped
        let proof := if merkleProof ∧ numSectorsDropped > 0 ∧ newNumSectors > 0 then
            host.merkleSectorRangeProof state newNumSectors.toNat oldNumSectors.toNat
          else []
        match host.dropSectors state numSectorsDropped with
        | .error err => some (errOutput (.host err), 0, state)
        | .ok (newMerkleRoot, state) =>
          some ({ newSize := newNumSectors * host.sectorSize, newMerkleRoot := newMerkleRoot,
                  output := [], proof := proof, error := none }, 0, state) }

end Decoded

/-- `DropSectors` with a number-of-sectors offset past the program data: `Time` fails and sends
an error output without returning, then `Cost` fails the same way and sends a second one. -/
theorem dropSectors_bad_offset_sends_two_errors :
    (executeInstructions (ε := Unit) (σ := Unit) 0 ⟨100, 0, 0, 0, 0, 0⟩ () (errOutput .zeroLength)
        [dropSectorsInstruction
          ⟨4096, fun _ _ => .error (), fun _ _ _ => [], fun _ _ _ => [], fun _ _ => .error ()⟩
          ⟨0, 0, 0, 0, 0⟩ ⟨[], 0, none⟩ ⟨[], 0, none⟩ 8 false]).map
      (fun result => result.1.map (·.output.error.isSome)) = some [true, true] := by
  decide

end Sia.MDM
