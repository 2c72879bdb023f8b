import Mathlib.Data.List.Sort
import Sia.Types.Decoding
import Sia.Consensus.Diffs
import Sia.Host.Registry

/-! `minimumValidChildTimestamp` of `modules/consensus/block_rules.go` and `targetAdjustmentBase`
of `processedblock.go` walk back from a block through the block map without decoding what it
stores. `encoding.Marshal` writes a processed block's `Block` first, with `Block.MarshalSia`: the
parent ID, the eight nonce bytes, then the timestamp. So a walk reads the next parent ID from bytes
0 to 32 of a stored block and its timestamp from bytes 40 to 48. For every block map, the walks over
the stored bytes give what the same walks give over the decoded blocks. -/
namespace Sia.Consensus

open Bytes Encoding

variable {H : Type} [DecidableEq H]

/-- `types.MedianTimestampWindow`. -/
def medianTimestampWindow : ℕ := 11

/-- `encoding.DecUint64` of eight bytes. -/
def decUint64 (b : List UInt8) : UInt64 := UInt64.ofNat (leValue b)

/-- `encoding.DecUint64(b[40:48])`. -/
def readTimestamp (b : List UInt8) : Option UInt64 :=
  if b.length < 48 then none else some (decUint64 ((b.drop 40).take 8))

/-- `sort.Sort(windowTimes)`, then `windowTimes[len(windowTimes)/2]`. -/
def median (windowTimes : List UInt64) : Option UInt64 :=
  let sorted := windowTimes.mergeSort (· ≤ ·)
  sorted[sorted.length / 2]?

/-- `big.NewRat(int64(timePassed), int64(expectedTimePassed))`, which panics on a zero
denominator. -/
def newRat (timePassed expectedTimePassed : UInt64) : Option ℚ :=
  if expectedTimePassed.toInt64 = 0 then none
  else some ((timePassed.toInt64.toInt : ℚ) / expectedTimePassed.toInt64.toInt)

section Walks

variable [HashBytes H] [HashRead H] (zeroID : H) (blockMap : H → Option (List UInt8))

/-- `copy(parent[:], b[:32])`; `none` where the slice runs past the bytes, as it does on the nil
slice `Get` returns for a missing key. -/
def readParentID (b : List UInt8) : Option H :=
  if b.length < 32 then none else some (HashRead.ofBytes (b.take 32))

/-- The loop of `minimumValidChildTimestamp` with `n` slots of `windowTimes` left: `parent` is the
block to read next. -/
def fillWindowTimes : ℕ → H → List UInt64 → Option (List UInt64)
  | 0, _, windowTimes => some windowTimes
  | n + 1, parent, windowTimes =>
    -- from the genesis block on, the last timestamp fills every slot left
    if parent = zeroID then fillWindowTimes n parent (windowTimes ++ [windowTimes.getLast?.getD 0])
    else do
      let parentBytes ← blockMap parent
      let next ← readParentID parentBytes
      let timestamp ← readTimestamp parentBytes
      fillWindowTimes n next (windowTimes ++ [timestamp])

/-- `minimumValidChildTimestamp`. -/
def minimumValidChildTimestamp (pb : ProcessedBlock H) : Option UInt64 := do
  let windowTimes ← fillWindowTimes zeroID blockMap (medianTimestampWindow - 1) pb.block.parentID
    [pb.block.timestamp]
  median windowTimes

/-- The loop of `targetAdjustmentBase` with `n` steps left: `parent` is the block to read next and
`current` the last one reached. -/
def walkTargetWindow : ℕ → H → H → UInt64 → Option (H × UInt64)
  | 0, _, current, windowSize => some (current, windowSize)
  | n + 1, parent, current, windowSize =>
    if parent = zeroID then some (current, windowSize)
    else do
      let next ← readParentID (← blockMap parent)
      walkTargetWindow n next parent (windowSize + 1)

/-- `targetAdjustmentBase`: the time passed since the block `targetWindow` blocks before the parent,
or since the genesis block, over the time expected. -/
def targetAdjustmentBase (blockID : Block H → H) (targetWindow blockFrequency : UInt64)
    (pb : ProcessedBlock H) : Option ℚ := do
  let (current, windowSize) ← walkTargetWindow zeroID blockMap targetWindow.toNat pb.block.parentID
    (blockID pb.block) 0
  let timestamp ← readTimestamp (← blockMap current)
  newRat (pb.block.timestamp - timestamp) (blockFrequency * windowSize)

end Walks

/-! ### The same walks over the decoded blocks -/

section Decoded

variable (zeroID : H) (blocks : Bucket H (ProcessedBlock H))

/-- What the block map holds under each ID: `encoding.Marshal` of the processed block, which is the
block's `MarshalSia` followed by the encoding of the other fields, `encodeRest`. -/
def storedBytes [HashBytes H] (encodeRest : ProcessedBlock H → List UInt8) (id : H) : Option (List UInt8) :=
  (blocks.lookup id).map fun pb => pb.block.marshalSia ++ encodeRest pb

/-- The decoded blocks met walking back from `parent` for at most `n` steps, with the IDs they are
stored under, stopping at the genesis block's zero parent ID; `none` where a parent is missing. -/
def ancestors : ℕ → H → Option (List (H × ProcessedBlock H))
  | 0, _ => some []
  | n + 1, parent =>
    if parent = zeroID then some []
    else do
      let pb ← blocks.lookup parent
      let rest ← ancestors n pb.block.parentID
      pure ((parent, pb) :: rest)

/-- The timestamps of a block and of its `medianTimestampWindow - 1` nearest ancestors, the
earliest repeated for the slots before the genesis block. -/
def windowTimestamps (pb : ProcessedBlock H) : Option (List UInt64) := do
  let chain ← ancestors zeroID blocks (medianTimestampWindow - 1) pb.block.parentID
  let times := pb.block.timestamp :: chain.map (·.2.block.timestamp)
  pure (times ++ List.replicate (medianTimestampWindow - times.length)
    (times.getLast (List.cons_ne_nil _ _)))

/-- The adjustment over the decoded blocks: the oldest block of the window is the last ancestor
met, or the block itself when its parent is the genesis block's zero ID. -/
def targetAdjustmentOfBlocks (blockID : Block H → H) (targetWindow blockFrequency : UInt64)
    (pb : ProcessedBlock H) : Option ℚ := do
  let chain ← ancestors zeroID blocks targetWindow.toNat pb.block.parentID
  let oldest ← blocks.lookup ((chain.getLast?.map (·.1)).getD (blockID pb.block))
  newRat (pb.block.timestamp - oldest.block.timestamp) (blockFrequency * UInt64.ofNat chain.length)

theorem ancestors_zeroID (n : ℕ) : ancestors zeroID blocks n zeroID = some [] := by
  cases n <;> simp [ancestors]

theorem ancestors_of_lookup {n : ℕ} {parent : H} {pb : ProcessedBlock H} (away : parent ≠ zeroID)
    (found : blocks.lookup parent = some pb) :
    ancestors zeroID blocks (n + 1) parent =
      (ancestors zeroID blocks n pb.block.parentID).map ((parent, pb) :: ·) := by
  simp [ancestors, away, found, Option.map_eq_bind]

theorem ancestors_of_missing {n : ℕ} {parent : H} (away : parent ≠ zeroID)
    (missing : blocks.lookup parent = none) : ancestors zeroID blocks (n + 1) parent = none := by
  simp [ancestors, away, missing]

theorem length_ancestors_le {n : ℕ} {parent : H} {chain : List (H × ProcessedBlock H)}
    (walked : ancestors zeroID blocks n parent = some chain) : chain.length ≤ n := by
  induction n generalizing parent chain with
  | zero =>
    cases walked
    rfl
  | succ n ih =>
    by_cases genesis : parent = zeroID
    · rw [genesis, ancestors_zeroID] at walked
      cases walked
      simp
    · cases found : blocks.lookup parent with
      | none => rw [ancestors_of_missing _ _ genesis found] at walked; cases walked
      | some pb =>
        rw [ancestors_of_lookup _ _ genesis found] at walked
        obtain ⟨rest, restWalked, rfl⟩ := Option.map_eq_some_iff.mp walked
        simpa using ih restWalked

/-- The window holds `medianTimestampWindow` timestamps. -/
theorem length_windowTimestamps {pb : ProcessedBlock H} {times : List UInt64}
    (filled : windowTimestamps zeroID blocks pb = some times) :
    times.length = medianTimestampWindow := by
  simp only [windowTimestamps, Option.bind_eq_bind, Option.pure_def] at filled
  obtain ⟨chain, walked, rfl⟩ := Option.bind_eq_some_iff.mp filled |>.imp fun _ => And.imp_right
    Option.some.inj
  have short := length_ancestors_le zeroID blocks walked
  simp only [List.length_append, List.length_cons, List.length_map, List.length_replicate,
    medianTimestampWindow] at short ⊢
  omega

end Decoded

/-! ### Reading the stored bytes -/

section Reading

variable [HashBytes H] [HashRead H]

omit [DecidableEq H] [HashRead H] in
/-- The block's own fields open its encoding: 32 bytes of parent ID, 8 of nonce, 8 of timestamp. -/
theorem marshalSia_append (b : Block H) (rest : List UInt8) :
    b.marshalSia ++ rest = HashBytes.bytes b.parentID ++ b.nonce.toList ++ writeUint64 b.timestamp ++
      (writeList SiacoinOutput.marshalSia b.minerPayouts ++
        writeList Transaction.marshalSia b.transactions ++ rest) := by
  simp only [Block.marshalSia, List.append_assoc]

omit [DecidableEq H] in
theorem readParentID_marshalSia (b : Block H) (rest : List UInt8) :
    readParentID (b.marshalSia ++ rest) = some b.parentID := by
  have root := HashBytes.length_bytes b.parentID
  rw [marshalSia_append, readParentID, if_neg (by simp [root]), List.append_assoc,
    List.append_assoc, List.take_left' root, HashRead.ofBytes_bytes]

omit [DecidableEq H] [HashRead H] in
theorem readTimestamp_marshalSia (b : Block H) (rest : List UInt8) :
    readTimestamp (b.marshalSia ++ rest) = some b.timestamp := by
  have root := HashBytes.length_bytes b.parentID
  have before : (HashBytes.bytes b.parentID ++ b.nonce.toList).length = 40 := by simp [root]
  rw [marshalSia_append, readTimestamp, if_neg (by simp [root]; omega),
    List.append_assoc _ (writeUint64 _), List.drop_left' before,
    List.take_left' (length_writeUint64 _), decUint64, Host.Registry.ofNat_leValue_writeUint64]

variable (zeroID : H) (blocks : Bucket H (ProcessedBlock H)) (encodeRest : ProcessedBlock H → List UInt8)

omit [HashRead H] in
theorem storedBytes_of_lookup {id : H} {pb : ProcessedBlock H} (found : blocks.lookup id = some pb) :
    storedBytes blocks encodeRest id = some (pb.block.marshalSia ++ encodeRest pb) := by
  simp [storedBytes, found]

/-- Over the stored bytes the loop of `minimumValidChildTimestamp` appends the timestamps of the
decoded ancestors, then repeats the last timestamp for the slots they do not reach. -/
theorem fillWindowTimes_storedBytes (n : ℕ) (parent : H) (windowTimes : List UInt64) :
    fillWindowTimes zeroID (storedBytes blocks encodeRest) n parent windowTimes =
      (ancestors zeroID blocks n parent).map fun chain =>
        windowTimes ++ chain.map (·.2.block.timestamp) ++
          List.replicate (n - chain.length)
            ((windowTimes ++ chain.map (·.2.block.timestamp)).getLast?.getD 0) := by
  induction n generalizing parent windowTimes with
  | zero => simp [fillWindowTimes, ancestors]
  | succ n ih =>
    by_cases genesis : parent = zeroID
    · subst genesis
      -- at the genesis block every slot left repeats the last timestamp
      rw [fillWindowTimes, if_pos rfl, ih, ancestors_zeroID, ancestors_zeroID]
      simp [List.replicate_succ]
    · cases found : blocks.lookup parent with
      | none =>
        simp [fillWindowTimes, genesis, storedBytes, found, ancestors_of_missing _ _ genesis found]
      | some pb =>
        rw [fillWindowTimes, if_neg genesis, storedBytes_of_lookup _ _ found]
        simp only [readParentID_marshalSia, readTimestamp_marshalSia, Option.bind_eq_bind,
          Option.bind_some]
        rw [ih, ancestors_of_lookup _ _ genesis found, Option.map_map]
        congr 1
        funext chain
        simp only [Function.comp_def, List.map_cons, List.length_cons, Nat.add_sub_add_right,
          List.append_assoc, List.singleton_append]

/-- Over the stored bytes the loop of `targetAdjustmentBase` stops at the last decoded ancestor it
reaches, having counted them. -/
theorem walkTargetWindow_storedBytes (n : ℕ) (parent current : H) (windowSize : UInt64) :
    walkTargetWindow zeroID (storedBytes blocks encodeRest) n parent current windowSize =
      (ancestors zeroID blocks n parent).map fun chain =>
        ((chain.getLast?.map (·.1)).getD current, windowSize + UInt64.ofNat chain.length) := by
  induction n generalizing parent current windowSize with
  | zero => simp [walkTargetWindow, ancestors]
  | succ n ih =>
    by_cases genesis : parent = zeroID
    · subst genesis
      simp [walkTargetWindow, ancestors_zeroID]
    · cases found : blocks.lookup parent with
      | none =>
        simp [walkTargetWindow, genesis, storedBytes, found, ancestors_of_missing _ _ genesis found]
      | some pb =>
        rw [walkTargetWindow, if_neg genesis, storedBytes_of_lookup _ _ found]
        simp only [readParentID_marshalSia, Option.bind_eq_bind, Option.bind_some]
        rw [ih, ancestors_of_lookup _ _ genesis found, Option.map_map]
        congr 1
        funext chain
        cases chain <;> simp [List.getLast?_cons, UInt64.add_assoc, add_comm]

/-- The window of `minimumValidChildTimestamp` over the stored bytes is the decoded one. -/
theorem fillWindowTimes_eq_windowTimestamps (pb : ProcessedBlock H) :
    fillWindowTimes zeroID (storedBytes blocks encodeRest) (medianTimestampWindow - 1)
        pb.block.parentID [pb.block.timestamp] =
      windowTimestamps zeroID blocks pb := by
  rw [fillWindowTimes_storedBytes, windowTimestamps]
  cases ancestors zeroID blocks (medianTimestampWindow - 1) pb.block.parentID with
  | none => rfl
  | some chain =>
    simp only [Option.map_some, Option.bind_eq_bind, Option.bind_some, Option.pure_def,
      List.length_cons, List.length_map, medianTimestampWindow, List.singleton_append,
      List.getLast?_eq_some_getLast (List.cons_ne_nil _ _), Option.getD_some]
    congr 3
    omega

/-- Over the stored bytes `targetAdjustmentBase` is the adjustment over the decoded blocks. -/
theorem targetAdjustmentBase_storedBytes (blockID : Block H → H) (targetWindow blockFrequency : UInt64)
    (pb : ProcessedBlock H) :
    targetAdjustmentBase zeroID (storedBytes blocks encodeRest) blockID targetWindow blockFrequency pb =
      targetAdjustmentOfBlocks zeroID blocks blockID targetWindow blockFrequency pb := by
  simp only [targetAdjustmentBase, targetAdjustmentOfBlocks, walkTargetWindow_storedBytes,
    Option.bind_eq_bind, Option.bind_map, Function.comp_def]
  cases ancestors zeroID blocks targetWindow.toNat pb.block.parentID with
  | none => rfl
  | some chain =>
    simp only [Option.bind_some, UInt64.zero_add]
    -- the oldest block is read where the decoded walk finds it
    cases found : blocks.lookup ((chain.getLast?.map (·.1)).getD (blockID pb.block)) with
    | none => simp [storedBytes, found]
    | some oldest => simp [storedBytes_of_lookup _ _ found, readTimestamp_marshalSia]

/-- The fast paths read the decoded chain: over the stored bytes, `minimumValidChildTimestamp` is
element `medianTimestampWindow / 2` of the sorted timestamps of the block and its nearest
ancestors, the earliest repeated before the genesis block, and `targetAdjustmentBase` is the
adjustment read off the decoded parent IDs and timestamps. -/
theorem blockRules_read_decoded (pb : ProcessedBlock H) (blockID : Block H → H)
    (targetWindow blockFrequency : UInt64) :
    minimumValidChildTimestamp zeroID (storedBytes blocks encodeRest) pb =
        (windowTimestamps zeroID blocks pb).bind
          (fun times => (times.mergeSort (· ≤ ·))[medianTimestampWindow / 2]?) ∧
      targetAdjustmentBase zeroID (storedBytes blocks encodeRest) blockID targetWindow
          blockFrequency pb =
        targetAdjustmentOfBlocks zeroID blocks blockID targetWindow blockFrequency pb := by
  refine ⟨?_, targetAdjustmentBase_storedBytes zeroID blocks encodeRest blockID targetWindow
    blockFrequency pb⟩
  rw [minimumValidChildTimestamp, fillWindowTimes_eq_windowTimestamps]
  cases filled : windowTimestamps zeroID blocks pb with
  | none => rfl
  | some times =>
    -- the sorted window keeps its length, so its middle is element five
    simp only [Option.bind_eq_bind, Option.bind_some]
    rw [median, List.length_mergeSort, length_windowTimestamps zeroID blocks filled]

end Reading

end Sia.Consensus
