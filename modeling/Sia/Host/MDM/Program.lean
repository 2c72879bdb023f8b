import Sia.Host.MDM.ProgramData

/-! The execution loop of the MDM (`modules/host/mdm/program.go`). A program runs its
instructions in order against a budget the renter paid for and a collateral budget; each
instruction first charges collateral, then memory and time, then its cost, and only then
executes. Every instruction's result, and every failure, is sent to the renter as an `Output`.
Instructions are the source's `instruction` interface: the model takes each one's answers to
`Collateral`, `Memory`, `Time`, `Cost`, `Batch` and `Execute`, the last over the program's
mutable state `σ`. Cancellation through the context is not modelled. -/
namespace Sia.MDM

/-- The errors an instruction or the loop can report. -/
inductive MDMError (ε : Type) where
  | programData (err : ProgramDataError ε)
  | insufficientCollateralBudget
  | insufficientBudget
  /-- `request is out of bounds`. -/
  | readOutOfBounds (offset length : UInt64)
  /-- `length cannot be zero`. -/
  | zeroLength
  /-- `offset and length must be multiples of SegmentSize when requesting a Merkle proof`. -/
  | unalignedProof
  /-- `bad input: numSectors is greater than the number of sectors in the contract`. -/
  | tooManySectorsDropped (numSectorsDropped oldNumSectors : UInt64)
  /-- `translateOffset: secOff out of bounds %v >= %v`, with the number of sectors first. -/
  | secOffOutOfBounds (numSectors secOff : ℕ)
  /-- An error of the host's storage. -/
  | host (err : ε)

/-- `output`: the contract's size and root after an instruction, its result bytes and proof. -/
structure InstructionOutput (ε : Type) where
  newSize : UInt64
  newMerkleRoot : Hash
  output : List UInt8
  proof : List Hash
  error : Option (MDMError ε)

/-- `Output`: what the renter receives for each instruction. -/
structure Output (ε : Type) where
  output : InstructionOutput ε
  batch : Bool
  executionCost : ℕ
  additionalCollateral : ℕ
  failureRefund : ℕ

variable {ε : Type}

/-- `errOutput(err)`: an output with only the error set. -/
def errOutput (err : MDMError ε) : InstructionOutput ε :=
  { newSize := 0, newMerkleRoot := Vector.replicate 32 0, output := [], proof := [],
    error := some err }

def outputFromError (err : MDMError ε) (collateral cost refund : ℕ) : Output ε :=
  { output := errOutput err, batch := false, executionCost := cost,
    additionalCollateral := collateral, failureRefund := refund }

/-- The accounting fields of a `program`; `staticBudget` is the renter's `RPCBudget`. -/
structure Program where
  staticBudget : ℕ
  staticCollateralBudget : ℕ
  executionCost : ℕ
  additionalCollateral : ℕ
  failureRefund : ℕ
  usedMemory : UInt64

/-- The answers of one `instruction`, with Go's multiple return values: `Time` and `Cost` return
their values alongside the error. `none` is a panic. -/
structure Instruction (ε σ : Type) where
  collateral : ℕ
  memory : UInt64
  time : Option (UInt64 × Option (MDMError ε))
  cost : Option (ℕ × ℕ × Option (MDMError ε))
  batch : Bool
  execute : σ → InstructionOutput ε → Option (InstructionOutput ε × ℕ × σ)

section Accounting

variable (p : Program)

def addCollateral (collateral : ℕ) : Except (MDMError ε) Program :=
  let additionalCollateral := p.additionalCollateral + collateral
  if p.staticCollateralBudget < additionalCollateral then .error .insufficientCollateralBudget
  else .ok { p with additionalCollateral := additionalCollateral }

/-- `addCost`: `RPCBudget.Withdraw` fails when the budget is short. -/
def addCost (cost : ℕ) : Except (MDMError ε) Program :=
  if p.staticBudget < cost then .error .insufficientBudget
  else .ok { p with staticBudget := p.staticBudget - cost, executionCost := p.executionCost + cost }

/-- `refundCost`: the refund returns to the budget and leaves the execution cost and the
failure refund; `Currency.Sub` panics in the DEBUG build when either would go negative. -/
def refundCost (cost : ℕ) : Option Program :=
  if p.executionCost < cost ∨ p.failureRefund < cost then none
  else some { p with staticBudget := p.staticBudget + cost,
                     executionCost := p.executionCost - cost,
                     failureRefund := p.failureRefund - cost }

def outputFromProgram (err : MDMError ε) : Output ε :=
  outputFromError err p.additionalCollateral p.executionCost p.failureRefund

end Accounting

/-- `executeInstructions` from the given program state, previous output and instruction
state. It returns the outputs sent, in order, and the error it returns, if any. A failing
`Time` sends an error output but does not stop the instruction. -/
def executeInstructions (memoryTimeCost : ℕ) (p : Program) (state : σ)
    (output : InstructionOutput ε) :
    List (Instruction ε σ) → Option (List (Output ε) × Option (MDMError ε))
  | [] => some ([], none)
  | i :: rest =>
    match addCollateral p i.collateral with
    | .error err => some ([outputFromProgram p err], some err)
    | .ok p => do
      let p := { p with usedMemory := p.usedMemory + i.memory }
      let (time, timeErr) ← i.time
      let timeOutputs := match timeErr with
        | some err => [outputFromProgram p err]
        | none => []
      let memoryCost := memoryTimeCost * (p.usedMemory * time).toNat
      let (instructionCost, failureRefund, costErr) ← i.cost
      match costErr with
      | some err => some (timeOutputs ++ [outputFromProgram p err], some err)
      | none =>
        match addCost p (memoryCost + instructionCost) with
        | .error err => some (timeOutputs ++ [outputFromProgram p err], some err)
        | .ok p =>
          let p := { p with failureRefund := p.failureRefund + failureRefund }
          let batch := match rest with
            | [] => false
            | next :: _ => next.batch
          let (output, refund, state) ← i.execute state output
          let p ← if refund = 0 then some p else refundCost p refund
          let sent : Output ε :=
            { output := output, batch := batch, executionCost := p.executionCost,
              additionalCollateral := p.additionalCollateral, failureRefund := p.failureRefund }
          match output.error with
          | some err => some (timeOutputs ++ [sent], some err)
          | none => do
            let (outputs, err) ← executeInstructions memoryTimeCost p state output rest
            pure (timeOutputs ++ [sent] ++ outputs, err)

end Sia.MDM
