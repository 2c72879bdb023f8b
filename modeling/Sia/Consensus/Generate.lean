import Sia.Consensus.Record
import Sia.Consensus.ConsensusSet

/-! Generating a whole block (`generateAndApplyDiff`): its transactions, then maintenance. The
outputs maturing at the block's height are exactly the entries of their bucket, so recording
their removal empties it before it is deleted; the contracts expiring at that height are exactly
those filed under it, so the expiration index stays in step. Together with the exact journal of
`Record`, the block's diffs replay to the state generation produced and revert to the state
before it. -/
namespace Sia.Consensus

open Journal OptionLoop

variable {H : Type} [LinearOrder H] [HashBytes H] (env : Env H)
  {s s' : ConsensusDB H × ProcessedBlock H}

/-- A list of transactions applies when its first one is valid and applies, and the rest apply
after it. -/
theorem applyTransactions_cons_eq_some {t : Transaction H} {rest : List (Transaction H)}
    (ran : applyTransactions env s (t :: rest) = some (.ok s')) :
    ∃ mid, validTransaction env s.1 t = .ok () ∧ applyTransaction env s t = some mid ∧
      applyTransactions env mid rest = some (.ok s') := by
  cases valid : validTransaction env s.1 t with
  | error e => simp only [applyTransactions, valid, Option.some.injEq, reduceCtorEq] at ran
  | ok u =>
    cases applied : applyTransaction env s t with
    | none => simp only [applyTransactions, valid, applied, reduceCtorEq] at ran
    | some mid =>
      simp only [applyTransactions, valid, applied] at ran
      exact ⟨mid, rfl, rfl, ran⟩

theorem applyTransactions_recorded :
    ∀ {s s' : ConsensusDB H × ProcessedBlock H} {txs : List (Transaction H)},
      applyTransactions env s txs = some (.ok s') →
      Recorded (fun fs => txs.foldl (foundationTx env s.2.height) fs) id s s'
  | s, s', [], ran => by
    simp only [applyTransactions, Option.some.injEq, Except.ok.injEq] at ran
    subst ran
    exact .refl s
  | s, s', t :: rest, ran => by
    obtain ⟨mid, -, applied, ran⟩ := applyTransactions_cons_eq_some env ran
    have first := applyTransaction_recorded env t applied
    have later := applyTransactions_recorded ran
    rw [first.height] at later
    exact first.trans later

/-! ### Maintenance -/

omit [HashBytes H] in
theorem applyMinerPayouts_recorded (ran : applyMinerPayouts env s = some s') :
    Recorded id id s s' :=
  foldlM_recorded (fun _ ⟨_, _⟩ _ _ step => recordDelayedSiacoinOutputDiff_recorded step nofun) ran

omit [HashBytes H] in
/-- The subsidy step pays nothing, or records one new delayed output. -/
theorem applyFoundationSubsidy_eq_some (ran : applyFoundationSubsidy env s = some s') :
    s' = s ∨ ∃ d : DelayedSiacoinOutputDiff H,
      d.direction = .apply ∧ recordDelayedSiacoinOutputDiff s d = some s' := by
  simp only [applyFoundationSubsidy] at ran
  split_ifs at ran
  · exact .inl (Option.some.inj ran).symm
  · exact .inl (Option.some.inj ran).symm
  · exact .inr ⟨_, rfl, ran⟩
  · exact .inr ⟨_, rfl, ran⟩

omit [HashBytes H] in
theorem applyFoundationSubsidy_recorded (ran : applyFoundationSubsidy env s = some s') :
    Recorded id id s s' := by
  rcases applyFoundationSubsidy_eq_some env ran with rfl | ⟨d, applied, paid⟩
  · exact .refl _
  · refine recordDelayedSiacoinOutputDiff_recorded paid fun reverted => ?_
    rw [applied] at reverted
    cases reverted

omit [HashBytes H] in
theorem mem_dscoBucketIDs {db : ConsensusDB H} {height : ℕ} {id : H} :
    id ∈ dscoBucketIDs db height ↔ (height, id) ∈ db.dsco := by
  simp only [dscoBucketIDs, Finset.mem_sort, Finset.mem_image, Finset.mem_filter, Finmap.mem_keys]
  constructor
  · rintro ⟨⟨key, id'⟩, ⟨mem, rfl⟩, rfl⟩
    exact mem
  · intro mem
    exact ⟨(height, id), ⟨mem, rfl⟩, rfl⟩

omit [HashBytes H] in
theorem mem_dscoBucket {db : ConsensusDB H} {height : ℕ} {id : H} {sco : SiacoinOutput H} :
    (id, sco) ∈ dscoBucket db height ↔ db.dsco.lookup (height, id) = some sco := by
  simp only [dscoBucket, List.mem_filterMap, Option.map_eq_some_iff, Prod.mk.injEq]
  constructor
  · rintro ⟨id', -, sco', found, rfl, rfl⟩
    exact found
  · intro found
    exact ⟨id, mem_dscoBucketIDs.mpr (Finmap.mem_of_lookup_eq_some found), sco, found, rfl, rfl⟩

omit [HashBytes H] in
/-- Every ID of the bucket appears once, with its stored output. -/
theorem dscoBucket_ids {db : ConsensusDB H} {height : ℕ} :
    (dscoBucket db height).map Prod.fst = dscoBucketIDs db height := by
  simp only [dscoBucket]
  rw [List.map_filterMap]
  calc _ = (dscoBucketIDs db height).filterMap some := by
        apply List.filterMap_congr
        intro id mem
        -- each listed ID is a key of the bucket, so its lookup succeeds
        obtain ⟨sco, found⟩ := Option.isSome_iff_exists.mp
          (Finmap.lookup_isSome.mpr (mem_dscoBucketIDs.mp mem))
        simp only [found, Option.map_some]
    _ = _ := List.filterMap_some

omit [HashBytes H] in
theorem dscoBucket_nodup {db : ConsensusDB H} {height : ℕ} :
    ((dscoBucket db height).map Prod.fst).Nodup := by
  rw [dscoBucket_ids]
  exact Finset.sort_nodup _ _

omit [HashBytes H] in
/-- The outputs maturing at this height move to the spendable set, each recorded as it leaves
its bucket; the bucket, then empty, is deleted. -/
theorem applyMaturedSiacoinOutputs_recorded (ran : applyMaturedSiacoinOutputs env s = some s') :
    Recorded id (fun b => if env.params.maturityDelay ≤ s.2.height then b.erase s.2.height else b)
      s s' ∧ (env.params.maturityDelay ≤ s.2.height → s.2.height ∈ s.1.dscoBuckets) := by
  simp only [applyMaturedSiacoinOutputs] at ran
  by_cases early : s.2.height < env.params.maturityDelay
  · rw [if_pos early, Option.some.injEq] at ran
    subst ran
    exact ⟨(Recorded.refl s).mono (fun _ => rfl) fun b => by rw [if_neg (by omega)]; rfl,
      fun late => absurd late (by omega)⟩
  rw [if_neg early] at ran
  by_cases missing : s.2.height ∉ s.1.dscoBuckets
  · rw [if_pos missing] at ran
    cases ran
  rw [if_neg missing] at ran
  refine ⟨?_, fun _ => not_not.mp missing⟩
  by_cases spendable : (dscoBucket s.1 s.2.height).any fun e => decide (e.1 ∈ s.1.siacoinOutputs)
  · rw [if_pos spendable] at ran
    cases ran
  rw [if_neg spendable] at ran
  obtain ⟨s1, added, ran⟩ := Option.bind_eq_some_iff.mp ran
  obtain ⟨s2, removed, ran⟩ := Option.bind_eq_some_iff.mp ran
  obtain ⟨db, deleted, ran⟩ := Option.bind_eq_some_iff.mp ran
  cases ran
  -- the matured outputs become spendable while the delayed bucket is untouched
  obtain ⟨spent, kept⟩ := foldlM_rel (fun a b => Recorded id id a b ∧ b.1.dsco = a.1.dsco)
    (fun a => ⟨.refl a, rfl⟩) (fun first second => ⟨first.1.trans_id second.1, second.2.trans first.2⟩)
    (fun _ d _ mem step => by
      obtain ⟨⟨id, sco⟩, -, rfl⟩ := List.mem_map.mp mem
      exact ⟨recordSiacoinOutputDiff_recorded step nofun, by rw [recordSiacoinOutputDiff_keeps step]⟩)
    added
  -- then every entry of the bucket is removed, as stored
  have removals : ∀ d ∈ (dscoBucket s.1 s.2.height).map fun e =>
      (⟨.revert, e.1, e.2, s.2.height⟩ : DelayedSiacoinOutputDiff H),
      d.direction = .revert ∧ s1.1.dsco.lookup (d.maturityHeight, d.id) = some d.siacoinOutput := by
    intro d mem
    obtain ⟨⟨id, sco⟩, entry, rfl⟩ := List.mem_map.mp mem
    exact ⟨rfl, by rw [kept]; exact mem_dscoBucket.mp entry⟩
  have distinct : (((dscoBucket s.1 s.2.height).map fun e =>
      (⟨.revert, e.1, e.2, s.2.height⟩ : DelayedSiacoinOutputDiff H)).map
        fun d => (d.maturityHeight, d.id)).Nodup := by
    rw [List.map_map]
    have keys : (fun d : DelayedSiacoinOutputDiff H => (d.maturityHeight, d.id)) ∘
        (fun e : H × SiacoinOutput H => (⟨.revert, e.1, e.2, s.2.height⟩ : DelayedSiacoinOutputDiff H)) =
        (Prod.mk s.2.height) ∘ Prod.fst := rfl
    rw [keys, ← List.map_map]
    exact dscoBucket_nodup.map (Prod.mk_right_injective s.2.height)
  obtain ⟨unloaded, emptied⟩ := recordDelayedSiacoinOutputDiffs_removals removals distinct removed
  -- nothing is left under this height, so deleting the bucket drops no output
  have empty : ∀ k ∈ s2.1.dsco, k.1 ≠ s.2.height := by
    intro k mem same
    rw [emptied, Finmap.mem_foldl_erase] at mem
    obtain ⟨stored, notListed⟩ := mem
    obtain ⟨sco, found⟩ := Option.isSome_iff_exists.mp (Finmap.lookup_isSome.mpr stored)
    apply notListed
    rw [kept] at found
    obtain ⟨height, id⟩ := k
    simp only at same
    subst same
    exact List.mem_map.mpr ⟨⟨.revert, id, sco, s.2.height⟩,
      List.mem_map.mpr ⟨(id, sco), mem_dscoBucket.mpr found, rfl⟩, rfl⟩
  obtain ⟨-, rfl⟩ := deleteDSCOBucket_eq_some.mp deleted
  rw [Finmap.filterKeys_eq_self empty]
  have closed : Recorded id (·.erase s.2.height) (s2.1, s2.2)
      ({ s2.1 with dscoBuckets := s2.1.dscoBuckets.erase s.2.height }, s2.2) :=
    Recorded.of_buckets _ fun filed k mem => Finset.mem_erase.mpr ⟨empty k mem, filed k mem⟩
  exact ((spent.trans_id unloaded).trans closed).mono (fun _ => rfl) fun b => by
    rw [if_pos (by omega)]
    rfl

omit [HashBytes H] in
theorem mem_expiringContracts {db : ConsensusDB H} {height : ℕ} {id : H} :
    id ∈ expiringContracts db height ↔ ∃ w, (w, id) ∈ db.fcex ∧ w.toNat = height := by
  simp only [expiringContracts, Finset.mem_sort, Finset.mem_image, Finset.mem_filter]
  constructor
  · rintro ⟨⟨w, id'⟩, ⟨mem, expires⟩, rfl⟩
    exact ⟨w, mem, expires⟩
  · rintro ⟨w, mem, expires⟩
    exact ⟨(w, id), ⟨mem, expires⟩, rfl⟩

omit [HashBytes H] in
/-- A contract without a proof pays its missed outputs as new delayed outputs and is recorded
as stored. -/
theorem applyMissedStorageProof_eq_some {db : ConsensusDB H} {pb : ProcessedBlock H} {fcid : H}
    {r : List (DelayedSiacoinOutputDiff H) × FileContractDiff H}
    (ran : applyMissedStorageProof env db pb fcid = some r) :
    ∃ fc, db.fileContracts.lookup fcid = some fc ∧ r.2 = ⟨.revert, fcid, fc⟩ ∧
      ∀ d ∈ r.1, d.direction = .apply := by
  obtain ⟨fc, found, ran⟩ := Option.bind_eq_some_iff.mp ran
  split at ran
  · cases ran
  obtain ⟨dscods, paid, ran⟩ := Option.bind_eq_some_iff.mp ran
  cases ran
  refine ⟨fc, found, rfl, fun d mem => ?_⟩
  obtain ⟨⟨mpo, i⟩, -, made⟩ := mem_of_mapM_eq_some paid mem
  simp only at made
  split at made
  · cases made
  · cases made
    rfl

omit [HashBytes H] in
theorem expiringContracts_nodup {db : ConsensusDB H} {height : ℕ} :
    (expiringContracts db height).Nodup :=
  Finset.sort_nodup _ _

/-- Every contract filed under this height pays its missed outputs and is recorded as it is
removed. With the index in step, no contract left expires at this height, and the index stays
in step once its entries for this height are dropped. -/
theorem applyFileContractMaintenance_recorded
    (ran : applyFileContractMaintenance env s = some s') :
    Recorded id id s s' ∧ (Indexed s.1 →
      ∀ id fc, s'.1.fileContracts.lookup id = some fc → fc.windowEnd.toNat ≠ s.2.height) := by
  obtain ⟨results, expired, ran⟩ := Option.bind_eq_some_iff.mp ran
  obtain ⟨s1, paid, ran⟩ := Option.bind_eq_some_iff.mp ran
  obtain ⟨s2, removed, ran⟩ := Option.bind_eq_some_iff.mp ran
  cases ran
  have specs : ∀ r ∈ results, ∃ fcid ∈ expiringContracts s.1 s.2.height, ∃ fc,
      s.1.fileContracts.lookup fcid = some fc ∧ r.2 = ⟨.revert, fcid, fc⟩ ∧
        ∀ d ∈ r.1, d.direction = .apply := by
    intro r mem
    obtain ⟨fcid, listed, missed⟩ := mem_of_mapM_eq_some expired mem
    exact ⟨fcid, listed, applyMissedStorageProof_eq_some env missed⟩
  have backs : (results.map (·.2)).map (·.id) = expiringContracts s.1 s.2.height := by
    rw [List.map_map]
    apply map_of_mapM_eq_some _ _ expired
    intro fcid r missed
    obtain ⟨fc, -, same, -⟩ := applyMissedStorageProof_eq_some env missed
    rw [Function.comp_apply, same]
  -- the missed outputs are new delayed outputs, which leave the contracts and the index
  obtain ⟨paidRecorded, contracts1, fcex1⟩ := foldlM_rel
    (fun a b => Recorded id id a b ∧ b.1.fileContracts = a.1.fileContracts ∧ b.1.fcex = a.1.fcex)
    (fun a => ⟨.refl a, rfl, rfl⟩)
    (fun first second => ⟨first.1.trans_id second.1, second.2.1.trans first.2.1,
      second.2.2.trans first.2.2⟩)
    (fun _ d _ mem step => by
      obtain ⟨r, listed, inside⟩ := List.mem_flatMap.mp mem
      obtain ⟨-, -, -, -, -, puts⟩ := specs r listed
      have put := puts d inside
      refine ⟨recordDelayedSiacoinOutputDiff_recorded step fun reverted => ?_, ?_, ?_⟩
      · rw [put] at reverted
        cases reverted
      · rw [recordDelayedSiacoinOutputDiff_keeps step]
      · rw [recordDelayedSiacoinOutputDiff_keeps step])
    paid
  -- then each expiring contract is removed as stored
  have removals : ∀ d ∈ results.map (·.2),
      d.direction = .revert ∧ s1.1.fileContracts.lookup d.id = some d.fileContract := by
    intro d mem
    obtain ⟨r, listed, rfl⟩ := List.mem_map.mp mem
    obtain ⟨fcid, -, fc, found, same, -⟩ := specs r listed
    rw [same, contracts1]
    exact ⟨rfl, found⟩
  have distinct : ((results.map (·.2)).map (·.id)).Nodup := by
    rw [backs]
    exact expiringContracts_nodup
  obtain ⟨removedRecorded, contracts2⟩ := recordFileContractDiffs_removals removals distinct removed
  -- a contract still stored was not filed under this height
  have gone : Indexed s.1 →
      ∀ id fc, s2.1.fileContracts.lookup id = some fc → fc.windowEnd.toNat ≠ s.2.height := by
    intro indexed id fc found expires
    rw [contracts2, Finmap.lookup_foldl_erase, backs, contracts1] at found
    split at found
    · cases found
    · rename_i unlisted
      apply unlisted
      have filed : (fc.windowEnd, id) ∈ s.1.fcex := by
        rw [indexed]
        exact mem_expirations.mpr ⟨fc, found, rfl⟩
      exact mem_expiringContracts.mpr ⟨fc.windowEnd, filed, expires⟩
  -- so dropping the entries filed under this height keeps the index in step
  have recorded := paidRecorded.trans_id removedRecorded
  refine ⟨recorded.reindexed fun indexed => ?_, gone⟩
  show s2.1.fcex.filter (·.1.toNat ≠ s.2.height) = expirations s2.1.fileContracts
  rw [recorded.indexed indexed]
  apply Finset.filter_true_of_mem
  rintro ⟨w, id⟩ mem
  obtain ⟨fc, found, rfl⟩ := mem_expirations.mp mem
  exact gone indexed id fc found

/-- Maintenance records exactly, closes the bucket maturing at this height, which it found, and
leaves no contract expiring at this height. -/
theorem applyMaintenance_recorded (ran : applyMaintenance env s = some s') :
    Recorded id (fun b => if env.params.maturityDelay ≤ s.2.height then b.erase s.2.height else b)
      s s' ∧ (env.params.maturityDelay ≤ s.2.height → s.2.height ∈ s.1.dscoBuckets) ∧
      (Indexed s.1 →
        ∀ id fc, s'.1.fileContracts.lookup id = some fc → fc.windowEnd.toNat ≠ s.2.height) := by
  obtain ⟨s1, payouts, ran⟩ := Option.bind_eq_some_iff.mp ran
  obtain ⟨s2, subsidy, ran⟩ := Option.bind_eq_some_iff.mp ran
  obtain ⟨s3, matured, expired⟩ := Option.bind_eq_some_iff.mp ran
  have paid := (applyMinerPayouts_recorded env payouts).trans_id
    (applyFoundationSubsidy_recorded env subsidy)
  obtain ⟨unloaded, found⟩ := applyMaturedSiacoinOutputs_recorded env matured
  obtain ⟨closed, gone⟩ := applyFileContractMaintenance_recorded env expired
  have height2 : s2.2.height = s.2.height := paid.height
  have height3 : s3.2.height = s.2.height := unloaded.height.trans height2
  rw [height2] at unloaded found
  rw [height3] at gone
  have buckets2 : s2.1.dscoBuckets = s.1.dscoBuckets := paid.buckets
  refine ⟨((paid.trans unloaded).trans closed).mono (fun _ => rfl) (fun _ => rfl),
    fun late => buckets2 ▸ found late, fun indexed => gone ((paid.trans unloaded).indexed indexed)⟩

/-- What a successful generation did: the block is a child of the current block, the bucket of
its delayed outputs was opened, its transactions passed and were applied, then maintenance ran
and the block was put on the path. -/
theorem generateAndApplyDiff_steps {db db' : ConsensusDB H} {pb pb' : ProcessedBlock H}
    (ran : generateAndApplyDiff env db pb = some (.ok (db', pb'))) :
    currentBlockID db = some pb.block.parentID ∧
      ∃ db1 s final maintained,
        createDSCOBucket db (pb.height + env.params.maturityDelay) = some db1 ∧
        applyTransactions env (db1, pb) pb.block.transactions = some (.ok s) ∧
        applyMaintenance env s = some (final, maintained) ∧
        pb' = { maintained with diffsGenerated := true } ∧
        db' = updateCurrentPath env final pb' .apply := by
  simp only [generateAndApplyDiff] at ran
  split_ifs at ran with wrong
  refine ⟨not_not.mp wrong, ?_⟩
  cases opened : createDSCOBucket db (pb.height + env.params.maturityDelay) with
  | none => simp only [opened, reduceCtorEq] at ran
  | some db1 =>
    simp only [opened] at ran
    cases applied : applyTransactions env (db1, pb) pb.block.transactions with
    | none => simp only [applied, reduceCtorEq] at ran
    | some result =>
      cases result with
      | error e => simp only [applied, Option.some.injEq, reduceCtorEq] at ran
      | ok s =>
        simp only [applied, Option.map_eq_some_iff, Except.ok.injEq, Prod.mk.injEq] at ran
        obtain ⟨⟨final, maintained⟩, kept, rfl, rfl⟩ := ran
        exact ⟨db1, s, final, maintained, rfl, applied, kept, rfl, rfl⟩

/-- Generation opens the bucket of the outputs it delays, then records the block's transactions
and maintenance exactly; the Foundation state moves as a replay of the block moves it. -/
theorem generateAndApplyDiff_recorded {db db' : ConsensusDB H} {parent pb : ProcessedBlock H}
    {b : Block H} (ran : generateAndApplyDiff env db (newChild parent b) = some (.ok (db', pb))) :
    ∃ db1 final, createDSCOBucket db (parent.height + 1 + env.params.maturityDelay) = some db1 ∧
      Recorded (foundationBlock env pb) (fun bs => if env.params.maturityDelay ≤ parent.height + 1
        then bs.erase (parent.height + 1) else bs) (db1, newChild parent b) (final, pb) ∧
      (env.params.maturityDelay ≤ parent.height + 1 → parent.height + 1 ∈ db1.dscoBuckets) ∧
      (Indexed db1 → ∀ id fc, final.fileContracts.lookup id = some fc →
        fc.windowEnd.toNat ≠ parent.height + 1) ∧
      db' = updateCurrentPath env final pb .apply := by
  obtain ⟨-, db1, s, final, maintained, opened, applied, kept, rfl, rfl⟩ :=
    generateAndApplyDiff_steps env ran
  have txs := applyTransactions_recorded env applied
  obtain ⟨upkeep, found, gone⟩ := applyMaintenance_recorded env kept
  have height : s.2.height = parent.height + 1 := txs.height
  rw [height] at upkeep found gone
  have buckets : s.1.dscoBuckets = db1.dscoBuckets := txs.buckets
  refine ⟨db1, final, opened, ?_, fun late => buckets ▸ found late,
    fun indexed => gone (txs.indexed indexed), rfl⟩
  -- marking the diffs generated changes nothing the frame sees
  have whole := txs.trans upkeep
  have block : maintained.block = b := whole.block
  have height' : maintained.height = parent.height + 1 := whole.height
  have moved : final.view.foundation =
      foundationBlock env (newChild parent b) db1.view.foundation := whole.foundation
  refine { whole.mono (fun _ => rfl) (fun _ => rfl) with
    block := whole.block, foundation := ?_ }
  show final.view.foundation = foundationBlock env { maintained with diffsGenerated := true } _
  rw [moved]
  simp only [foundationBlock, block, height']
  rfl

end Sia.Consensus
