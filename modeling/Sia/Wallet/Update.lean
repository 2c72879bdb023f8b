import Sia.Wallet.History

/-! The key half of `modules/wallet/update.go` and `seed.go`: the spendable keys, the lookahead
of future keys of the primary seed, and `ProcessConsensusChange`, which first moves the keys a
change pays out of the lookahead, then updates the outputs the wallet owns, then its history.
A key is its unlock hash; `seedKey i` is the unlock hash of the seed's key of index `i`, and the
two constants of `maxLookahead` are the build's. -/
namespace Sia

open Consensus Wallet

/-- The wallet's keys and outputs, as `update.go` and `seed.go` read and write them. The keys
and the unused keys are the unlock hashes of the source's maps; the history buckets and the pool
are the `WalletDB`. -/
structure Wallet (H : Type) where
  unlocked : Bool
  keys : Finset H
  watchedAddrs : Finset H
  lookahead : Bucket H ℕ
  unusedKeys : List H
  primarySeedProgress : ℕ
  siacoinOutputs : Bucket H (SiacoinOutput H)
  siafundOutputs : Bucket H (SiafundOutput H)
  db : WalletDB H

namespace Wallet

/-- The errors of `nextPrimarySeedAddresses` that the model keeps. -/
inductive WalletError where
  /-- `modules.ErrLockedWallet` -/
  | lockedWallet
  deriving DecidableEq, Repr

variable {H : Type} [DecidableEq H]

/-- `isWalletAddress`: a spendable key or a watched address. -/
def isWalletAddress (w : Wallet H) (uh : H) : Bool := decide (uh ∈ w.keys ∨ uh ∈ w.watchedAddrs)

section Seed

-- the unlock hashes of the primary seed's keys, and `lookaheadRescanThreshold` and
-- `lookaheadBuffer`
variable (seedKey : ℕ → H) (lookaheadRescanThreshold lookaheadBuffer : ℕ)

/-- `maxLookahead` -/
def maxLookahead (start : ℕ) : ℕ := start + lookaheadRescanThreshold + lookaheadBuffer + start / 10

/-- `regenerateLookahead`: the keys after the ones already there, up to `maxLookahead start`
keys, each under its index counted from `start`. -/
def regenerateLookahead (lookahead : Bucket H ℕ) (start : ℕ) : Bucket H ℕ :=
  let maxKeys := maxLookahead lookaheadRescanThreshold lookaheadBuffer start
  let existingKeys := lookahead.keys.card
  (List.range (maxKeys - existingKeys)).foldl
    (fun la i => la.insert (seedKey (start + existingKeys + i)) (start + existingKeys + i))
    lookahead

/-- The keys of indices `progress` to `newProgress - 1` become spendable and leave the lookahead,
which is then regenerated from `newProgress`. -/
def integrateKeys (w : Wallet H) (newProgress : ℕ) : Wallet H :=
  let spendableKeys := (List.range (newProgress - w.primarySeedProgress)).map
    fun i => seedKey (w.primarySeedProgress + i)
  { w with
    keys := spendableKeys.foldl (fun keys k => insert k keys) w.keys
    lookahead := regenerateLookahead seedKey lookaheadRescanThreshold lookaheadBuffer
      (spendableKeys.foldl (fun la k => la.erase k) w.lookahead) newProgress
    primarySeedProgress := newProgress }

/-- `advanceSeedLookahead`: the seed progress moves past `index`; a rescan is due when more than
`lookaheadRescanThreshold` keys became spendable. -/
def advanceSeedLookahead (w : Wallet H) (index : ℕ) : Wallet H × Bool :=
  (w.integrateKeys seedKey lookaheadRescanThreshold lookaheadBuffer (index + 1),
    decide (lookaheadRescanThreshold < index + 1 - w.primarySeedProgress))

/-- The addresses of every siacoin and siafund output diff of a change. -/
def changeAddresses (cc : ConsensusChange H) : List H :=
  cc.diffs.siacoinOutputDiffs.map (·.siacoinOutput.unlockHash) ++
    cc.diffs.siafundOutputDiffs.map (·.siafundOutput.unlockHash)

/-- The loops of `updateLookahead`: the largest lookahead index among the addresses, starting
from 0 and replaced only by a larger one. -/
def largestLookaheadIndex (lookahead : Bucket H ℕ) (addresses : List H) : ℕ :=
  addresses.foldl (fun largestIndex uh =>
    match lookahead.lookup uh with
    | some index => if index > largestIndex then index else largestIndex
    | none => largestIndex) 0

/-- `updateLookahead`: the seed advances past the largest index found, when it is not 0. -/
def updateLookahead (w : Wallet H) (cc : ConsensusChange H) : Wallet H × Bool :=
  let largestIndex := largestLookaheadIndex w.lookahead (changeAddresses cc)
  if largestIndex > 0 then w.advanceSeedLookahead seedKey lookaheadRescanThreshold lookaheadBuffer
    largestIndex
  else (w, false)

/-- `nextPrimarySeedAddresses`, returning unlock hashes: unused keys first, then new keys of the
seed, which advance its progress and leave the lookahead. The unused keys are taken in the
order kept here; the source takes them in its map's order. -/
def nextPrimarySeedAddresses (w : Wallet H) (n : ℕ) :
    Wallet H × Except WalletError (List H) :=
  if !w.unlocked then (w, .error .lockedWallet) else
  let neededUnused := min w.unusedKeys.length n
  let n := n - neededUnused
  let progress := w.primarySeedProgress
  let (w, generated) :=
    if n > 0 then
      (w.integrateKeys seedKey lookaheadRescanThreshold lookaheadBuffer (progress + n),
        (List.range n).map fun i => seedKey (progress + i))
    else (w, [])
  ({ w with unusedKeys := w.unusedKeys.drop neededUnused },
    .ok (w.unusedKeys.take neededUnused ++ generated))

end Seed

/-! ### The outputs the wallet owns -/

/-- One siacoin diff of `updateConfirmedSet`: an output of the wallet's is stored when applied
and deleted when reverted; any other diff is skipped. -/
def updateSiacoinOutput (w : Wallet H) (diff : SiacoinOutputDiff H) : Wallet H :=
  if !w.isWalletAddress diff.siacoinOutput.unlockHash then w
  else if diff.direction = .apply then
    { w with siacoinOutputs := w.siacoinOutputs.insert diff.id diff.siacoinOutput }
  else { w with siacoinOutputs := w.siacoinOutputs.erase diff.id }

def updateSiafundOutput (w : Wallet H) (diff : SiafundOutputDiff H) : Wallet H :=
  if !w.isWalletAddress diff.siafundOutput.unlockHash then w
  else if diff.direction = .apply then
    { w with siafundOutputs := w.siafundOutputs.insert diff.id diff.siafundOutput }
  else { w with siafundOutputs := w.siafundOutputs.erase diff.id }

/-- `updateConfirmedSet`: the siacoin diffs, the siafund diffs, then the pool set from every pool
diff in turn. -/
def updateConfirmedSet (w : Wallet H) (cc : ConsensusChange H) : Wallet H :=
  let w := cc.diffs.siacoinOutputDiffs.foldl updateSiacoinOutput w
  let w := cc.diffs.siafundOutputDiffs.foldl updateSiafundOutput w
  { w with
    db.siafundPool := cc.diffs.siafundPoolDiffs.foldl
      (fun _ diff => if diff.direction = .apply then diff.adjusted else diff.previous)
      w.db.siafundPool }

section Process

variable (env : Env H) (transactionID : Transaction H → H) (genesisID : H) (seedKey : ℕ → H)
  (lookaheadRescanThreshold lookaheadBuffer : ℕ)

/-- `ProcessConsensusChange`: the lookahead, the confirmed outputs, then the history, which reads
the wallet's addresses after the lookahead has moved. A rescan it asks for runs in another
thread and is not part of the step. -/
def processConsensusChange (w : Wallet H) (cc : ConsensusChange H) : Wallet H :=
  let w := (w.updateLookahead seedKey lookaheadRescanThreshold lookaheadBuffer cc).1
  let w := w.updateConfirmedSet cc
  let db := revertHistory env transactionID genesisID w.db cc.revertedBlocks
  { w with
    db := applyHistory env w.isWalletAddress transactionID genesisID db cc }

end Process

/-! ### A payment to the key of index 0 -/

section Frame

variable {w : Wallet H}

/-- A siacoin diff changes the wallet's siacoin outputs only. -/
theorem updateSiacoinOutput_frame (d : SiacoinOutputDiff H) :
    w.updateSiacoinOutput d =
      { w with siacoinOutputs := (w.updateSiacoinOutput d).siacoinOutputs } := by
  unfold updateSiacoinOutput
  split_ifs <;> rfl

/-- A siafund diff changes the wallet's siafund outputs only. -/
theorem updateSiafundOutput_frame (d : SiafundOutputDiff H) :
    w.updateSiafundOutput d =
      { w with siafundOutputs := (w.updateSiafundOutput d).siafundOutputs } := by
  unfold updateSiafundOutput
  split_ifs <;> rfl

/-- The siacoin loop of `updateConfirmedSet` keeps the keys, the watched addresses and the
lookahead. -/
theorem foldl_updateSiacoinOutput_frame (ds : List (SiacoinOutputDiff H)) :
    ds.foldl updateSiacoinOutput w =
      { w with siacoinOutputs := (ds.foldl updateSiacoinOutput w).siacoinOutputs } := by
  induction ds generalizing w with
  | nil => rfl
  | cons d rest ih =>
    rw [List.foldl_cons, ih, updateSiacoinOutput_frame d]

theorem foldl_updateSiafundOutput_frame (ds : List (SiafundOutputDiff H)) :
    ds.foldl updateSiafundOutput w =
      { w with siafundOutputs := (ds.foldl updateSiafundOutput w).siafundOutputs } := by
  induction ds generalizing w with
  | nil => rfl
  | cons d rest ih =>
    rw [List.foldl_cons, ih, updateSiafundOutput_frame d]

/-- `updateConfirmedSet` moves no key: the addresses and the lookahead stay. -/
theorem updateConfirmedSet_keys (cc : ConsensusChange H) :
    (w.updateConfirmedSet cc).keys = w.keys ∧
      (w.updateConfirmedSet cc).watchedAddrs = w.watchedAddrs ∧
      (w.updateConfirmedSet cc).lookahead = w.lookahead := by
  simp only [updateConfirmedSet]
  rw [foldl_updateSiafundOutput_frame, foldl_updateSiacoinOutput_frame]
  exact ⟨rfl, rfl, rfl⟩

end Frame

/-- The wallet holds no siacoin output paying `k`. -/
def HoldsNoneFor (w : Wallet H) (k : H) : Prop :=
  ∀ id sco, w.siacoinOutputs.lookup id = some sco → sco.unlockHash ≠ k

/-- A diff stores only outputs that pay one of the wallet's addresses. -/
theorem HoldsNoneFor.updateSiacoinOutput {w : Wallet H} {k : H} (held : w.HoldsNoneFor k)
    (foreign : w.isWalletAddress k = false) (d : SiacoinOutputDiff H) :
    (w.updateSiacoinOutput d).HoldsNoneFor k := by
  intro id sco found
  unfold Wallet.updateSiacoinOutput at found
  split_ifs at found with skipped applied
  · exact held id sco found
  · by_cases same : id = d.id
    · -- the stored output pays a wallet address, which `k` is not
      rw [same, Finmap.lookup_insert, Option.some_inj] at found
      rintro rfl
      rw [found, foreign] at skipped
      exact skipped rfl
    · rw [Finmap.lookup_insert_of_ne _ same] at found
      exact held id sco found
  · by_cases same : id = d.id
    · rw [same, Finmap.lookup_erase] at found
      cases found
    · rw [Finmap.lookup_erase_ne same] at found
      exact held id sco found

theorem HoldsNoneFor.foldl_updateSiacoinOutput {w : Wallet H} {k : H} (held : w.HoldsNoneFor k)
    (foreign : w.isWalletAddress k = false) (ds : List (SiacoinOutputDiff H)) :
    (ds.foldl Wallet.updateSiacoinOutput w).HoldsNoneFor k := by
  induction ds generalizing w with
  | nil => exact held
  | cons d rest ih =>
    have stillForeign : (w.updateSiacoinOutput d).isWalletAddress k = false := by
      rw [updateSiacoinOutput_frame]
      exact foreign
    exact ih (held.updateSiacoinOutput foreign d) stillForeign

theorem HoldsNoneFor.updateConfirmedSet {w : Wallet H} {k : H} (held : w.HoldsNoneFor k)
    (foreign : w.isWalletAddress k = false) (cc : ConsensusChange H) :
    (w.updateConfirmedSet cc).HoldsNoneFor k := by
  have siacoins := held.foldl_updateSiacoinOutput foreign cc.diffs.siacoinOutputDiffs
  simp only [Wallet.updateConfirmedSet]
  rw [foldl_updateSiafundOutput_frame]
  exact siacoins

/-- The largest index stays 0 when every address is outside the lookahead or at index 0. -/
theorem largestLookaheadIndex_eq_zero {lookahead : Bucket H ℕ} {addresses : List H}
    (onlyZero : ∀ uh ∈ addresses, (lookahead.lookup uh).getD 0 = 0) :
    largestLookaheadIndex lookahead addresses = 0 := by
  unfold largestLookaheadIndex
  induction addresses with
  | nil => rfl
  | cons uh rest ih =>
    have atZero := onlyZero uh List.mem_cons_self
    have restZero := ih fun uh' mem => onlyZero uh' (List.mem_cons_of_mem _ mem)
    simp only [List.foldl_cons]
    cases found : lookahead.lookup uh with
    | none => exact restZero
    | some index =>
      rw [found, Option.getD_some] at atZero
      subst atZero
      exact restZero

section Untracked

variable (env : Env H) (transactionID : Transaction H → H) (genesisID : H) (seedKey : ℕ → H)
  (lookaheadRescanThreshold lookaheadBuffer : ℕ)

/-- A change whose addresses are outside the lookahead or at its index 0 moves no key. -/
theorem updateLookahead_of_onlyZero {w : Wallet H} {cc : ConsensusChange H}
    (onlyZero : ∀ uh ∈ changeAddresses cc, (w.lookahead.lookup uh).getD 0 = 0) :
    w.updateLookahead seedKey lookaheadRescanThreshold lookaheadBuffer cc = (w, false) := by
  rw [updateLookahead, largestLookaheadIndex_eq_zero onlyZero]
  rfl

/-- A change whose addresses are outside the lookahead or at its index 0, as one that pays only
the key of index 0 is: the largest index `updateLookahead` finds is 0, which it takes for none,
so the key stays in the lookahead and out of the wallet's keys, and `updateConfirmedSet` skips
its outputs. Where the consensus set holds an output to that key after the change, the wallet's
confirmed outputs disagree with it. -/
theorem index_zero_payment_untracked {w : Wallet H} {cc : ConsensusChange H}
    {s : SubscriberState H} {k id : H} {sco : SiacoinOutput H}
    (atZero : w.lookahead.lookup k = some 0)
    (onlyZero : ∀ uh ∈ changeAddresses cc, (w.lookahead.lookup uh).getD 0 = 0)
    (foreign : w.isWalletAddress k = false) (held : w.HoldsNoneFor k)
    (consensus : (s.processConsensusChange cc).siacoinOutputs.lookup id = some sco)
    (pays : sco.unlockHash = k) :
    let processed := w.processConsensusChange env transactionID genesisID seedKey
      lookaheadRescanThreshold lookaheadBuffer cc
    k ∉ processed.keys ∧ processed.lookahead.lookup k = some 0 ∧
      processed.siacoinOutputs.lookup id ≠
        (s.processConsensusChange cc).siacoinOutputs.lookup id := by
  have unmoved := updateLookahead_of_onlyZero seedKey lookaheadRescanThreshold lookaheadBuffer
    onlyZero
  obtain ⟨sameKeys, -, sameLookahead⟩ := updateConfirmedSet_keys (w := w) cc
  dsimp only [processConsensusChange]
  rw [unmoved, consensus]
  refine ⟨?_, ?_, fun stored => held.updateConfirmedSet foreign cc id sco stored pays⟩
  · rw [sameKeys]
    intro owned
    simp [isWalletAddress, owned] at foreign
  · rw [sameLookahead]
    exact atZero

end Untracked

/-- A new wallet whose seed's key of index `i` has the address `i + 100`, with both constants of
`maxLookahead` at 1: no keys yet, and the lookahead of two keys regenerated from progress 0. -/
def freshWallet : Wallet ℕ :=
  ⟨true, ∅, ∅, regenerateLookahead (fun i => i + 100) 1 1 ∅ 0, [], 0, ∅, ∅, ⟨0, 0, []⟩⟩

/-- A change applying one block, whose only diff creates the output 7 of 5 coins paying the
address 100, the seed's first key. -/
def firstKeyPayment : ConsensusChange ℕ :=
  let diffs : ConsensusChangeDiffs ℕ := ⟨[⟨.apply, 7, ⟨5, 100⟩⟩], [], [], [], []⟩
  ⟨[], [⟨1, Vector.replicate 8 0, 1001, [], []⟩], [], [diffs], diffs⟩

theorem freshWallet_misses_first_key_payment :
    freshWallet.lookahead.lookup 100 = some 0 ∧
      (∀ uh ∈ changeAddresses firstKeyPayment, (freshWallet.lookahead.lookup uh).getD 0 = 0) ∧
      freshWallet.isWalletAddress 100 = false ∧ freshWallet.HoldsNoneFor 100 ∧
      ((⟨∅, ∅, ∅, ∅, 0⟩ : SubscriberState ℕ).processConsensusChange
        firstKeyPayment).siacoinOutputs.lookup 7 = some ⟨5, 100⟩ ∧
      (⟨5, 100⟩ : SiacoinOutput ℕ).unlockHash = 100 ∧
      let processed := freshWallet.processConsensusChange testingEnv (fun _ => 0) 1000
        (fun i => i + 100) 1 1 firstKeyPayment
      100 ∉ processed.keys ∧ processed.lookahead.lookup 100 = some 0 ∧
        processed.siacoinOutputs.lookup 7 ≠
          ((⟨∅, ∅, ∅, ∅, 0⟩ : SubscriberState ℕ).processConsensusChange
            firstKeyPayment).siacoinOutputs.lookup 7 :=
  have atZero : freshWallet.lookahead.lookup 100 = some 0 := by decide
  have onlyZero : ∀ uh ∈ changeAddresses firstKeyPayment,
      (freshWallet.lookahead.lookup uh).getD 0 = 0 := by decide
  have held : freshWallet.HoldsNoneFor 100 := fun _ _ found => by simp [freshWallet] at found
  ⟨atZero, onlyZero, rfl, held, rfl, rfl,
    index_zero_payment_untracked testingEnv (fun _ => 0) 1000 (fun i => i + 100) 1 1 atZero
      onlyZero rfl held rfl rfl⟩

end Wallet

end Sia
