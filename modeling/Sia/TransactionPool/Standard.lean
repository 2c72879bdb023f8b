import Sia.Types.Signatures
import Sia.Consensus.Env

/-! `modules/transactionpool/standard.go`: the IsStandard rules the pool adds to consensus. A
transaction is at most 32 kB, every public key in its unlock conditions is an entropy or ed25519
key, and every arbitrary-data entry starts with a whitelisted specifier; a set's transactions
together are at most 250 kB. The errors are those of `modules/transactionpool.go` and
`accept.go`, which the pool's other checks share. -/
namespace Sia.TransactionPool

/-- The errors the pool returns when it refuses a set. `consensusConflict` carries the text after
`"consensus conflict: "`. -/
inductive PoolError where
  | emptySet
  | lowMinerFees
  | duplicateTransactionSet
  | largeTransaction
  | largeTransactionSet
  | invalidArbPrefix
  | unrecognizedKeyType
  | consensusConflict (message : String)
  deriving DecidableEq, Repr

def PoolError.message : PoolError → String
  | .emptySet => "transaction set is empty"
  | .lowMinerFees => "transaction set needs more miner fees to be accepted"
  | .duplicateTransactionSet => "transaction set contains only duplicate transactions"
  | .largeTransaction => "transaction is too large for this transaction pool"
  | .largeTransactionSet => "transaction set is too large for this transaction pool"
  | .invalidArbPrefix => "transaction contains non-standard arbitrary data"
  | .unrecognizedKeyType => "unrecognized key type in transaction"
  | .consensusConflict message => "consensus conflict: " ++ message

/-- `modules.TransactionSizeLimit`. -/
def transactionSizeLimit : ℕ := 32000

/-- `modules.TransactionSetSizeLimit`. -/
def transactionSetSizeLimit : ℕ := 250000

/-- `modules.PrefixHostAnnouncement`: the bytes of `"HostAnnouncement"`. -/
def prefixHostAnnouncement : Specifier :=
  #v[72, 111, 115, 116, 65, 110, 110, 111, 117, 110, 99, 101, 109, 101, 110, 116]

/-- `modules.PrefixNonSia`: the bytes of `"NonSia"`, zero-padded. -/
def prefixNonSia : Specifier := #v[78, 111, 110, 83, 105, 97, 0, 0, 0, 0, 0, 0, 0, 0, 0, 0]

/-- `modules.PrefixFileContractIdentifier`: the bytes of `"FCIdentifier"`, zero-padded. -/
def prefixFileContractIdentifier : Specifier :=
  #v[70, 67, 73, 100, 101, 110, 116, 105, 102, 105, 101, 114, 0, 0, 0, 0]

/-- `checkUnlockConditions`. -/
def checkUnlockConditions (uc : UnlockConditions) : Except PoolError Unit :=
  uc.publicKeys.forM fun pk =>
    Except.failIf (pk.algorithm ≠ signatureEntropy ∧ pk.algorithm ≠ signatureEd25519)
      .unrecognizedKeyType

/-- `copy(prefix[:], arb)`: the first sixteen bytes of `arb` over `prefix`. Where `arb` is
shorter, the array keeps the bytes it held. -/
def copyPrefix (pre : Specifier) (arb : List UInt8) : Specifier :=
  Vector.ofFn fun i => arb.getD i pre[i]

/-- The whitelist of `isStandardTransaction`. -/
def StandardPrefix (pre : Specifier) : Prop :=
  pre = prefixHostAnnouncement ∨ pre = prefixNonSia ∨ pre = prefixFileContractIdentifier ∨
    pre.toList = Consensus.specifierFoundation

instance (pre : Specifier) : Decidable (StandardPrefix pre) :=
  inferInstanceAs (Decidable (_ ∨ _))

/-- The loop over the arbitrary data. Go declares `prefix` once, before the loop, so each entry
is copied over what the entries before it left. -/
def checkArbitraryData : Specifier → List (List UInt8) → Except PoolError Unit
  | _, [] => .ok ()
  | pre, arb :: rest =>
    let pre := copyPrefix pre arb
    if StandardPrefix pre then checkArbitraryData pre rest else .error .invalidArbPrefix

variable {H : Type} [HashBytes H]

/-- `isStandardTransaction`: the transaction's encoded size, once it passes the rules. -/
def isStandardTransaction (t : Transaction H) : Except PoolError ℕ := do
  let tlen := t.marshalSia.length
  Except.failIf (tlen > transactionSizeLimit) .largeTransaction
  t.siacoinInputs.forM fun sci => checkUnlockConditions sci.unlockConditions
  t.fileContractRevisions.forM fun fcr => checkUnlockConditions fcr.unlockConditions
  t.siafundInputs.forM fun sfi => checkUnlockConditions sfi.unlockConditions
  checkArbitraryData (Vector.replicate 16 0) t.arbitraryData
  pure tlen

/-- `isStandardTransactionSet`: the total size, checked against the limit after each
transaction. -/
def isStandardTransactionSet (ts : List (Transaction H)) : Except PoolError ℕ :=
  ts.foldlM (fun totalSize t => do
    let tSize ← isStandardTransaction t
    let totalSize := totalSize + tSize
    Except.failIf (totalSize > transactionSetSizeLimit) .largeTransactionSet
    pure totalSize) 0

/-! ### What a standard set is -/

theorem isStandardTransaction_eq_ok {t : Transaction H} {n : ℕ}
    (standard : isStandardTransaction t = .ok n) :
    n = t.marshalSia.length ∧ n ≤ transactionSizeLimit := by
  simp only [isStandardTransaction, Except.failIf_bind_eq_ok, not_lt] at standard
  obtain ⟨small, checked⟩ := standard
  -- the three key loops and the arbitrary-data loop pass, and the size comes back unchanged
  obtain ⟨_, -, checked⟩ := Except.bind_eq_ok.mp checked
  obtain ⟨_, -, checked⟩ := Except.bind_eq_ok.mp checked
  obtain ⟨_, -, checked⟩ := Except.bind_eq_ok.mp checked
  obtain ⟨_, -, checked⟩ := Except.bind_eq_ok.mp checked
  cases checked
  exact ⟨rfl, small⟩

/-- The loop of `isStandardTransactionSet` from a running total: it adds every transaction's size
and stays within the set limit. -/
theorem foldlM_standard_eq_ok :
    ∀ {ts : List (Transaction H)} {start n : ℕ},
      ts.foldlM (fun totalSize t => do
          let tSize ← isStandardTransaction t
          let totalSize := totalSize + tSize
          Except.failIf (totalSize > transactionSetSizeLimit) .largeTransactionSet
          pure totalSize) start = .ok n →
        n = start + (ts.map fun t => t.marshalSia.length).sum ∧
          (ts ≠ [] → n ≤ transactionSetSizeLimit)
  | [], start, n, ran => by
    cases ran
    simp
  | t :: rest, start, n, ran => by
    rw [List.foldlM_cons] at ran
    obtain ⟨total, first, others⟩ := Except.bind_eq_ok.mp ran
    obtain ⟨tSize, standard, checked⟩ := Except.bind_eq_ok.mp first
    obtain ⟨within, sized⟩ := Except.failIf_bind_eq_ok.mp checked
    cases sized
    obtain ⟨rfl, -⟩ := isStandardTransaction_eq_ok standard
    obtain ⟨sum, bounded⟩ := foldlM_standard_eq_ok others
    refine ⟨by rw [sum, List.map_cons, List.sum_cons]; omega, fun _ => ?_⟩
    by_cases empty : rest = []
    · subst empty
      cases others
      omega
    · exact bounded empty

/-- A standard set's size is the sum of its transactions' encoded sizes, within the set limit. -/
theorem isStandardTransactionSet_eq_ok {ts : List (Transaction H)} {n : ℕ}
    (standard : isStandardTransactionSet ts = .ok n) :
    n = (ts.map fun t => t.marshalSia.length).sum ∧ n ≤ transactionSetSizeLimit := by
  obtain ⟨sum, bounded⟩ := foldlM_standard_eq_ok standard
  refine ⟨by omega, ?_⟩
  by_cases empty : ts = []
  · subst empty
    cases standard
    simp [transactionSetSizeLimit]
  · exact bounded empty

end Sia.TransactionPool
