import Sia.TransactionPool.Update
import Sia.Lib.Replica

/-! `modules/transactionpool/subscribe.go`: what the pool tells its subscribers. The pool keeps
`subscriberSets`, the sets it has announced. After an accepted set and after a consensus change,
`updateSubscribersTransactions` reverts every announced set the pool no longer holds and
announces every held set not announced yet. `TransactionPoolSubscribe` sends a new subscriber
every announced set, `Unsubscribe` drops the subscriber's first entry in the list, and
`PurgeTransactionPool` tells nobody.

The subscriber is the wallet's `unconfirmedSets` as `ReceiveUpdatedUnconfirmedTransactions`
keeps it: a reverted set's entry is deleted and an announced set's transaction IDs are filed
under its ID. A wallet is named by a number, so a wallet may be listed twice, or leave and come
back as `threadedResetSubscriptions` makes it do; `build.Critical` on a double subscription only
logs in a release build. -/
namespace Sia.TransactionPool

open Consensus (ConsensusChange ConsensusChangeDiffs)

/-- `modules.UnconfirmedTransactionSet` as the pool builds it; `change` is `nil` where the pool
holds no diff. -/
structure UnconfirmedTransactionSet (H : Type) where
  change : Option (ConsensusChangeDiffs H)
  id : H
  ids : List H
  sizes : List UInt64
  transactions : List (Transaction H)

/-- `modules.TransactionPoolDiff`. -/
structure TransactionPoolDiff (H : Type) where
  appliedTransactions : List (UnconfirmedTransactionSet H)
  revertedTransactions : List H

variable {H : Type} [DecidableEq H]

/-- The wallet's `unconfirmedSets` after `ReceiveUpdatedUnconfirmedTransactions`. -/
def receiveUnconfirmedSets (unconfirmedSets : Finmap fun _ : H => List H)
    (diff : TransactionPoolDiff H) : Finmap fun _ : H => List H :=
  diff.appliedTransactions.foldl (fun sets ut => sets.insert ut.id ut.ids)
    (diff.revertedTransactions.foldl (fun sets id => sets.erase id) unconfirmedSets)

/-- The pool with what it told whom: the sets announced, the subscriber list, and each wallet's
`unconfirmedSets`. -/
structure Published (H : Type) where
  pool : TransactionPool H
  subscriberSets : Finmap fun _ : H => UnconfirmedTransactionSet H
  subscribers : List ℕ
  wallets : ℕ → Finmap fun _ : H => List H

/-- What reaches the pool, with the wallets' subscriptions. -/
inductive PublishEvent (H : Type) where
  | accept (ts : List (Transaction H))
      (txnFn : List (Transaction H) → Except String (ConsensusChangeDiffs H))
  | consensusChange (cc : ConsensusChange H)
      (txnFn : List (Transaction H) → Except String (ConsensusChangeDiffs H))
  | purge
  | subscribe (wallet : ℕ)
  | unsubscribe (wallet : ℕ)

/-- The event the pool itself sees, if any. -/
def PublishEvent.poolEvent : PublishEvent H → Option (PoolEvent H)
  | .accept ts txnFn => some (.accept ts txnFn)
  | .consensusChange cc txnFn => some (.consensusChange cc txnFn)
  | .purge => some .purge
  | .subscribe _ => none
  | .unsubscribe _ => none

/-- Wallet `w` receives `diff`. -/
def receiveAt (diff : TransactionPoolDiff H) (wallets : ℕ → Finmap fun _ : H => List H) (w : ℕ) :
    ℕ → Finmap fun _ : H => List H :=
  Function.update wallets w (receiveUnconfirmedSets (wallets w) diff)

/-- A diff sent to each subscriber in the list, in order; a wallet listed twice gets it twice. -/
def Published.deliver (p : Published H) (diff : TransactionPoolDiff H) :
    ℕ → Finmap fun _ : H => List H :=
  p.subscribers.foldl (receiveAt diff) p.wallets

section Announce

variable [HashBytes H] (ids : PoolIDs H) (order : GoMap.RangeOrder H)

/-- The announcement of a pooled set. -/
def unconfirmedTransactionSet (tp : TransactionPool H) (id : H) (set : List (Transaction H)) :
    UnconfirmedTransactionSet H where
  change := tp.transactionSetDiffs id
  id := id
  ids := set.map ids.transactionID
  sizes := set.map fun txn => txn.marshalSia.length.toUInt64
  transactions := set

/-- One iteration of the loop over the pool's sets: a set not announced yet is recorded and
announced. -/
def announceSet (tp : TransactionPool H)
    (acc : (Finmap fun _ : H => UnconfirmedTransactionSet H) × List (UnconfirmedTransactionSet H))
    (id : H) :
    (Finmap fun _ : H => UnconfirmedTransactionSet H) × List (UnconfirmedTransactionSet H) :=
  if id ∈ acc.1 then acc
  else
    let ut := unconfirmedTransactionSet ids tp id ((tp.transactionSets.lookup id).getD [])
    (acc.1.insert id ut, acc.2 ++ [ut])

/-- `updateSubscribersTransactions`: the new `subscriberSets` and the diff sent. -/
def updateSubscribersTransactions (tp : TransactionPool H)
    (subscriberSets : Finmap fun _ : H => UnconfirmedTransactionSet H) :
    (Finmap fun _ : H => UnconfirmedTransactionSet H) × TransactionPoolDiff H :=
  let reverted := (order.keys subscriberSets.keys).filter fun id => id ∉ tp.transactionSets
  let subscriberSets := reverted.foldl (fun sets id => sets.erase id) subscriberSets
  let announced := (order.keys tp.transactionSets.keys).foldl (announceSet ids tp)
    (subscriberSets, [])
  (announced.1, ⟨announced.2, reverted⟩)

/-- The diff `TransactionPoolSubscribe` sends a new subscriber: every announced set. -/
def subscribeDiff (subscriberSets : Finmap fun _ : H => UnconfirmedTransactionSet H) :
    TransactionPoolDiff H :=
  ⟨(order.keys subscriberSets.keys).filterMap subscriberSets.lookup, []⟩

namespace Published

/-- The pool after an accepted set or a change, with the update sent to the subscribers. -/
def notify (p : Published H) (tp : TransactionPool H) : Published H :=
  let updated := updateSubscribersTransactions ids order tp p.subscriberSets
  { pool := tp, subscriberSets := updated.1, subscribers := p.subscribers,
    wallets := p.deliver updated.2 }

/-- `TransactionPoolSubscribe(w)`. -/
def subscribe (p : Published H) (w : ℕ) : Published H :=
  { p with
    subscribers := p.subscribers ++ [w]
    wallets := receiveAt (subscribeDiff order p.subscriberSets) p.wallets w }

variable (setOrder : ℕ → List ℕ → List ℕ) (feesAtSize : ℤ → Currency)

/-- `AcceptTransactionSet`, `ProcessConsensusChange`, `PurgeTransactionPool`,
`TransactionPoolSubscribe` and `Unsubscribe`. -/
def step (p : Published H) : PublishEvent H → Option (Published H)
  | .accept ts txnFn =>
    match p.pool.acceptTransactionSet ids order feesAtSize txnFn ts with
    | .ok (_, tp) => some (p.notify ids order tp)
    | .error _ => some p
  | .consensusChange cc txnFn =>
    (processConsensusChange ids setOrder order feesAtSize txnFn p.pool cc).map (p.notify ids order)
  | .purge => some { p with pool := p.pool.purge }
  | .subscribe w => some (p.subscribe order w)
  | .unsubscribe w => some { p with subscribers := p.subscribers.erase w }

def run (p : Published H) (events : List (PublishEvent H)) : Option (Published H) :=
  events.foldlM (step ids order setOrder feesAtSize) p

end Published

end Announce

/-! ### What an update announces -/

section Update

variable [HashBytes H] {ids : PoolIDs H} {order : GoMap.RangeOrder H} {tp : TransactionPool H}

/-- The announcement the loop over the pool's sets makes for `id`. -/
abbrev announcement (ids : PoolIDs H) (tp : TransactionPool H) (id : H) :
    UnconfirmedTransactionSet H :=
  unconfirmedTransactionSet ids tp id ((tp.transactionSets.lookup id).getD [])

/-- What the loop over the pool's sets records: what was recorded stays, and a listed set not
recorded gets its announcement. -/
theorem lookup_foldl_announceSet (id : H) :
    ∀ (listed : List H)
      (acc : (Finmap fun _ : H => UnconfirmedTransactionSet H) × List (UnconfirmedTransactionSet H)),
      (listed.foldl (announceSet ids tp) acc).1.lookup id =
        (acc.1.lookup id).or (if id ∈ listed then some (announcement ids tp id) else none)
  | [], acc => by simp
  | a :: rest, acc => by
    rw [List.foldl_cons, lookup_foldl_announceSet id rest]
    unfold announceSet
    by_cases same : id = a
    · subst same
      split
      · next recorded =>
        obtain ⟨ut, found⟩ := Finmap.mem_iff.mp recorded
        simp [found]
      · next fresh => simp [Finmap.lookup_eq_none.mpr fresh]
    · split <;> simp [Finmap.lookup_insert_of_ne _ same, same]

/-- What the loop over the pool's sets keeps: every set announced so far is recorded under its ID,
was not recorded before the loop, and is the announcement of its ID; every other ID is as it was
before the loop. -/
structure Announcing (ids : PoolIDs H) (tp : TransactionPool H)
    (before : Finmap fun _ : H => UnconfirmedTransactionSet H)
    (acc : (Finmap fun _ : H => UnconfirmedTransactionSet H) × List (UnconfirmedTransactionSet H)) :
    Prop where
  takes : Replica.Takes UnconfirmedTransactionSet.id before acc.1 [] acc.2
  fresh : ∀ ut ∈ acc.2, ut.id ∉ before ∧ ut = announcement ids tp ut.id

theorem Announcing.announceSet {before : Finmap fun _ : H => UnconfirmedTransactionSet H}
    {acc : (Finmap fun _ : H => UnconfirmedTransactionSet H) × List (UnconfirmedTransactionSet H)}
    (announcing : Announcing ids tp before acc) (id : H) :
    Announcing ids tp before (announceSet ids tp acc id) := by
  unfold TransactionPool.announceSet
  split
  · exact announcing
  · next unrecorded =>
    dsimp only
    obtain ⟨⟨-, filed, kept⟩, fresh⟩ := announcing
    -- a set announced earlier is recorded, so it is not `id`
    have other : ∀ ut ∈ acc.2, ut.id ≠ id := fun ut member same =>
      unrecorded (same ▸ Finmap.mem_of_lookup_eq_some (filed ut member))
    have notBefore : id ∉ before := fun recorded =>
      unrecorded (Finmap.mem_iff.mpr (kept id (List.not_mem_nil) other ▸ Finmap.mem_iff.mp recorded))
    refine ⟨⟨fun _ member => absurd member List.not_mem_nil, fun ut member => ?_,
      fun a _ others => ?_⟩, fun ut member => ?_⟩
    · rcases List.mem_append.mp member with earlier | last
      · rw [Finmap.lookup_insert_of_ne _ (other ut earlier)]
        exact filed ut earlier
      · obtain rfl := List.mem_singleton.mp last
        exact Finmap.lookup_insert _
    · have notId : a ≠ id := fun same => others _ (List.mem_append_right _ (List.mem_singleton_self _))
        same.symm
      rw [Finmap.lookup_insert_of_ne _ notId]
      exact kept a List.not_mem_nil fun ut member => others ut (List.mem_append_left _ member)
    · rcases List.mem_append.mp member with earlier | last
      · exact fresh ut earlier
      · obtain rfl := List.mem_singleton.mp last
        exact ⟨notBefore, rfl⟩

/-- The announced sets after an update: a pooled set keeps its announcement or gets one, and a
set the pool no longer holds has none. -/
theorem lookup_updateSubscribersTransactions
    (subscriberSets : Finmap fun _ : H => UnconfirmedTransactionSet H) (id : H) :
    (updateSubscribersTransactions ids order tp subscriberSets).1.lookup id =
      if id ∈ tp.transactionSets then (subscriberSets.lookup id).or (some (announcement ids tp id))
      else none := by
  unfold updateSubscribersTransactions
  dsimp only
  rw [lookup_foldl_announceSet, Finmap.lookup_foldl_erase (fun id : H => id), List.map_id']
  by_cases pooled : id ∈ tp.transactionSets
  · cases subscriberSets.lookup id <;> simp [pooled, order.mem_keys, Finmap.mem_keys]
  · by_cases announced : id ∈ subscriberSets
    · simp [pooled, announced, order.mem_keys, Finmap.mem_keys]
    · simp [pooled, order.mem_keys, Finmap.mem_keys, Finmap.lookup_eq_none.mpr announced]

theorem mem_updateSubscribersTransactions
    (subscriberSets : Finmap fun _ : H => UnconfirmedTransactionSet H) (id : H) :
    id ∈ (updateSubscribersTransactions ids order tp subscriberSets).1 ↔ id ∈ tp.transactionSets := by
  rw [← Finmap.lookup_isSome, lookup_updateSubscribersTransactions]
  split
  · next pooled => simp [pooled]
  · next unpooled => simp [unpooled]

variable (ids order tp) in
/-- The loop over the pool's sets, from the record with the reverted sets erased. -/
theorem announcing_updateSubscribersTransactions
    (subscriberSets : Finmap fun _ : H => UnconfirmedTransactionSet H) :
    Announcing ids tp
      (((order.keys subscriberSets.keys).filter fun id => id ∉ tp.transactionSets).foldl
        (fun sets id => sets.erase id) subscriberSets)
      ((updateSubscribersTransactions ids order tp subscriberSets).1,
        (updateSubscribersTransactions ids order tp subscriberSets).2.appliedTransactions) :=
  OptionLoop.foldl_invariant _ (fun _ id announcing => announcing.announceSet id) _
    ⟨⟨by simp, by simp, fun _ _ _ => rfl⟩, by simp⟩

/-- An update's diff takes the record from what it was to what it becomes. -/
theorem updateSubscribersTransactions_takes
    (subscriberSets : Finmap fun _ : H => UnconfirmedTransactionSet H) :
    Replica.Takes UnconfirmedTransactionSet.id subscriberSets
      (updateSubscribersTransactions ids order tp subscriberSets).1
      (updateSubscribersTransactions ids order tp subscriberSets).2.revertedTransactions
      (updateSubscribersTransactions ids order tp subscriberSets).2.appliedTransactions := by
  have announcing := announcing_updateSubscribersTransactions ids order tp subscriberSets
  refine ⟨fun id dropped => ?_, announcing.takes.filed, fun id kept untouched => ?_⟩
  · have unpooled : id ∉ tp.transactionSets := by
      simpa using (List.mem_filter.mp dropped).2
    rw [← Finmap.lookup_eq_none, lookup_updateSubscribersTransactions, if_neg unpooled]
  · rw [announcing.takes.kept id List.not_mem_nil untouched,
      Finmap.lookup_foldl_erase (fun id : H => id), List.map_id']
    exact if_neg kept

end Update

end Sia.TransactionPool
