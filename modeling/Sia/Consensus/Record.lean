import Sia.Consensus.Commit

/-! Generating a block's diffs (`applyTransaction` and `applyMaintenance`). Every component
commits each diff as it records it, and each recorded diff is exact against the state it is
committed to: a put of an absent key, or a delete of the value stored, as the view sees it. So
the diffs a block records form an exact journal of its buckets, which replays to the state the
block produced and undoes back to the state before it. -/
namespace Sia.Consensus

open Journal OptionLoop

variable {H : Type} [DecidableEq H]

/-- `s'` extends the diff lists of `s` by changes that are exact on the view of `s` and lead to
the view of `s'`; the Foundation state moves by `f` and the set of delayed-output buckets by `g`,
and the block, its height and the current path stay. -/
structure Recorded (f : FoundationState H → FoundationState H) (g : Finset ℕ → Finset ℕ)
    (s s' : ConsensusDB H × ProcessedBlock H) : Prop where
  block : s'.2.block = s.2.block
  height : s'.2.height = s.2.height
  siacoins : ∃ ds, s'.2.siacoinOutputDiffs = s.2.siacoinOutputDiffs ++ ds ∧
    Logged s.1.view.siacoinValues (ds.map (·.valueChange)) s'.1.view.siacoinValues
  contracts : ∃ ds, s'.2.fileContractDiffs = s.2.fileContractDiffs ++ ds ∧
    Logged s.1.fileContracts (ds.map (·.change)) s'.1.fileContracts
  siafunds : ∃ ds, s'.2.siafundOutputDiffs = s.2.siafundOutputDiffs ++ ds ∧
    Logged s.1.view.siafundClaims (ds.map (·.claimChange)) s'.1.view.siafundClaims
  delayed : ∃ ds, s'.2.delayedSiacoinOutputDiffs = s.2.delayedSiacoinOutputDiffs ++ ds ∧
    Logged s.1.dsco (ds.map (·.change)) s'.1.dsco
  pool : ∃ ds, s'.2.siafundPoolDiffs = s.2.siafundPoolDiffs ++ ds ∧
    Overwrites (·.previous) (·.adjusted) s.1.siafundPool ds s'.1.siafundPool
  path : s'.1.blockHeight = s.1.blockHeight ∧ s'.1.blockPath = s.1.blockPath
  foundation : s'.1.view.foundation = f s.1.view.foundation
  buckets : s'.1.dscoBuckets = g s.1.dscoBuckets
  indexed : Indexed s.1 → Indexed s'.1
  filed : DelayedFiled s.1 → DelayedFiled s'.1

namespace Recorded

variable {f f' : FoundationState H → FoundationState H} {g g' : Finset ℕ → Finset ℕ}
  {s s' s'' : ConsensusDB H × ProcessedBlock H}

theorem refl (s : ConsensusDB H × ProcessedBlock H) : Recorded id id s s where
  block := rfl
  height := rfl
  siacoins := ⟨[], (List.append_nil _).symm, .nil _⟩
  contracts := ⟨[], (List.append_nil _).symm, .nil _⟩
  siafunds := ⟨[], (List.append_nil _).symm, .nil _⟩
  delayed := ⟨[], (List.append_nil _).symm, .nil _⟩
  pool := ⟨[], (List.append_nil _).symm, .nil _⟩
  path := ⟨rfl, rfl⟩
  foundation := rfl
  buckets := rfl
  indexed := id
  filed := id

theorem trans (first : Recorded f g s s') (second : Recorded f' g' s' s'') :
    Recorded (f' ∘ f) (g' ∘ g) s s'' where
  block := second.block.trans first.block
  height := second.height.trans first.height
  siacoins := by
    obtain ⟨ds, extended, logged⟩ := first.siacoins
    obtain ⟨ds', extended', logged'⟩ := second.siacoins
    exact ⟨ds ++ ds', by rw [extended', extended, List.append_assoc],
      by simpa only [List.map_append] using logged.append logged'⟩
  contracts := by
    obtain ⟨ds, extended, logged⟩ := first.contracts
    obtain ⟨ds', extended', logged'⟩ := second.contracts
    exact ⟨ds ++ ds', by rw [extended', extended, List.append_assoc],
      by simpa only [List.map_append] using logged.append logged'⟩
  siafunds := by
    obtain ⟨ds, extended, logged⟩ := first.siafunds
    obtain ⟨ds', extended', logged'⟩ := second.siafunds
    exact ⟨ds ++ ds', by rw [extended', extended, List.append_assoc],
      by simpa only [List.map_append] using logged.append logged'⟩
  delayed := by
    obtain ⟨ds, extended, logged⟩ := first.delayed
    obtain ⟨ds', extended', logged'⟩ := second.delayed
    exact ⟨ds ++ ds', by rw [extended', extended, List.append_assoc],
      by simpa only [List.map_append] using logged.append logged'⟩
  pool := by
    obtain ⟨ds, extended, logged⟩ := first.pool
    obtain ⟨ds', extended', logged'⟩ := second.pool
    exact ⟨ds ++ ds', by rw [extended', extended, List.append_assoc], logged.append logged'⟩
  path := ⟨second.path.1.trans first.path.1, second.path.2.trans first.path.2⟩
  foundation := by rw [second.foundation, first.foundation, Function.comp_apply]
  buckets := by rw [second.buckets, first.buckets, Function.comp_apply]
  indexed := second.indexed ∘ first.indexed
  filed := second.filed ∘ first.filed

theorem mono {f' : FoundationState H → FoundationState H} {g' : Finset ℕ → Finset ℕ}
    (recorded : Recorded f g s s') (sameF : ∀ fs, f fs = f' fs) (sameG : ∀ b, g b = g' b) :
    Recorded f' g' s s' :=
  { recorded with
    foundation := by rw [recorded.foundation, sameF]
    buckets := by rw [recorded.buckets, sameG] }

/-- The composite of steps that each keep the Foundation state and the buckets. -/
theorem trans_id (first : Recorded id id s s') (second : Recorded id id s' s'') :
    Recorded id id s s'' :=
  first.trans second

/-! Each kind of diff on its own: the state changes only in that kind's bucket. -/

theorem of_siacoins {ds : List (SiacoinOutputDiff H)} {outputs : Bucket H (SiacoinOutput H)}
    (listed : s'.2 = { s.2 with siacoinOutputDiffs := s.2.siacoinOutputDiffs ++ ds })
    (state : s'.1 = { s.1 with siacoinOutputs := outputs })
    (logged : Logged s.1.view.siacoinValues (ds.map (·.valueChange)) s'.1.view.siacoinValues) :
    Recorded id id s s' := by
  obtain ⟨db', pb'⟩ := s'
  subst listed state
  exact { refl s with siacoins := ⟨ds, rfl, logged⟩ }

theorem of_contracts {ds : List (FileContractDiff H)} {contracts : Bucket H (FileContract H)}
    {fcex : Finset (UInt64 × H)}
    (listed : s'.2 = { s.2 with fileContractDiffs := s.2.fileContractDiffs ++ ds })
    (state : s'.1 = { s.1 with fileContracts := contracts, fcex := fcex })
    (logged : Logged s.1.fileContracts (ds.map (·.change)) s'.1.fileContracts)
    (indexed : Indexed s.1 → Indexed s'.1) : Recorded id id s s' := by
  obtain ⟨db', pb'⟩ := s'
  subst listed state
  exact { refl s with contracts := ⟨ds, rfl, logged⟩, indexed := indexed }

theorem of_siafunds {ds : List (SiafundOutputDiff H)} {outputs : Bucket H (SiafundOutput H)}
    (listed : s'.2 = { s.2 with siafundOutputDiffs := s.2.siafundOutputDiffs ++ ds })
    (state : s'.1 = { s.1 with siafundOutputs := outputs })
    (logged : Logged s.1.view.siafundClaims (ds.map (·.claimChange)) s'.1.view.siafundClaims) :
    Recorded id id s s' := by
  obtain ⟨db', pb'⟩ := s'
  subst listed state
  exact { refl s with siafunds := ⟨ds, rfl, logged⟩ }

theorem of_delayed {ds : List (DelayedSiacoinOutputDiff H)} {dsco : Bucket (ℕ × H) (SiacoinOutput H)}
    (listed : s'.2 = { s.2 with delayedSiacoinOutputDiffs := s.2.delayedSiacoinOutputDiffs ++ ds })
    (state : s'.1 = { s.1 with dsco := dsco })
    (logged : Logged s.1.dsco (ds.map (·.change)) s'.1.dsco)
    (filed : DelayedFiled s.1 → DelayedFiled s'.1) : Recorded id id s s' := by
  obtain ⟨db', pb'⟩ := s'
  subst listed state
  exact { refl s with delayed := ⟨ds, rfl, logged⟩, filed := filed }

theorem of_pool {ds : List SiafundPoolDiff} {pool : Currency}
    (listed : s'.2 = { s.2 with siafundPoolDiffs := s.2.siafundPoolDiffs ++ ds })
    (state : s'.1 = { s.1 with siafundPool := pool })
    (logged : Overwrites (·.previous) (·.adjusted) s.1.siafundPool ds s'.1.siafundPool) :
    Recorded id id s s' := by
  obtain ⟨db', pb'⟩ := s'
  subst listed state
  exact { refl s with pool := ⟨ds, rfl, logged⟩ }

/-- Opening or closing delayed-output buckets records nothing. -/
theorem of_buckets {db : ConsensusDB H} {pb : ProcessedBlock H} (g : Finset ℕ → Finset ℕ)
    (filed : DelayedFiled db → DelayedFiled { db with dscoBuckets := g db.dscoBuckets }) :
    Recorded id g (db, pb) ({ db with dscoBuckets := g db.dscoBuckets }, pb) :=
  { refl (db, pb) with buckets := rfl, filed := filed }

/-- The expiration index is not part of the view; rebuilding it keeps the frame if it stays in
step. -/
theorem reindexed {db : ConsensusDB H} {pb : ProcessedBlock H} {fcex : Finset (UInt64 × H)}
    (recorded : Recorded f g s (db, pb)) (indexed : Indexed s.1 → Indexed { db with fcex := fcex }) :
    Recorded f g s ({ db with fcex := fcex }, pb) :=
  { recorded with indexed := indexed }

end Recorded

/-! ### Recording one diff

A put is exact because its commit found the key absent; a delete is exact when the caller
recorded the value it read. -/

section Record

variable {s s' : ConsensusDB H × ProcessedBlock H}

theorem recordSiacoinOutputDiff_eq_some {d : SiacoinOutputDiff H}
    (ran : recordSiacoinOutputDiff s d = some s') :
    commitSiacoinOutputDiff s.1 d .apply = some s'.1 ∧
      s'.2 = { s.2 with siacoinOutputDiffs := s.2.siacoinOutputDiffs ++ [d] } := by
  obtain ⟨db, committed, listed⟩ := Option.bind_eq_some_iff.mp ran
  cases listed
  exact ⟨committed, rfl⟩

theorem recordSiafundOutputDiff_eq_some {d : SiafundOutputDiff H}
    (ran : recordSiafundOutputDiff s d = some s') :
    commitSiafundOutputDiff s.1 d .apply = some s'.1 ∧
      s'.2 = { s.2 with siafundOutputDiffs := s.2.siafundOutputDiffs ++ [d] } := by
  obtain ⟨db, committed, listed⟩ := Option.bind_eq_some_iff.mp ran
  cases listed
  exact ⟨committed, rfl⟩

theorem recordDelayedSiacoinOutputDiff_eq_some {d : DelayedSiacoinOutputDiff H}
    (ran : recordDelayedSiacoinOutputDiff s d = some s') :
    commitDelayedSiacoinOutputDiff s.1 d .apply = some s'.1 ∧
      s'.2 = { s.2 with delayedSiacoinOutputDiffs := s.2.delayedSiacoinOutputDiffs ++ [d] } := by
  obtain ⟨db, committed, listed⟩ := Option.bind_eq_some_iff.mp ran
  cases listed
  exact ⟨committed, rfl⟩

omit [DecidableEq H] in
theorem recordSiafundPoolDiff_eq_some {d : SiafundPoolDiff}
    (ran : recordSiafundPoolDiff s d = some s') :
    commitSiafundPoolDiff s.1 d .apply = some s'.1 ∧
      s'.2 = { s.2 with siafundPoolDiffs := s.2.siafundPoolDiffs ++ [d] } := by
  obtain ⟨db, committed, listed⟩ := Option.bind_eq_some_iff.mp ran
  cases listed
  exact ⟨committed, rfl⟩

theorem recordSiacoinOutputDiff_recorded {d : SiacoinOutputDiff H}
    (ran : recordSiacoinOutputDiff s d = some s')
    (stored : d.direction = .revert →
      s.1.view.siacoinValues.lookup d.id = some d.siacoinOutput.value) :
    Recorded id id s s' := by
  obtain ⟨committed, listed⟩ := recordSiacoinOutputDiff_eq_some ran
  have moved := commitSiacoinOutputDiff_eq_some committed
  have exact : d.valueChange.Exact s.1.view.siacoinValues := by
    obtain ⟨direction, id, sco⟩ := d
    cases direction with
    | apply =>
      simp only [commitSiacoinOutputDiff, if_true] at committed
      exact Change.exact_mapValues _ (addSiacoinOutput_eq_some.mp committed).1
    | revert => exact stored rfl
  have redone : s'.1.view.siacoinValues = d.valueChange.redo s.1.view.siacoinValues := by
    rw [moved]
    exact (Change.redo_mapValues _ _ _).symm
  have logged : Logged s.1.view.siacoinValues [d.valueChange] s'.1.view.siacoinValues := by
    rw [redone]
    exact .single exact
  exact Recorded.of_siacoins listed moved logged

theorem recordSiafundOutputDiff_recorded {d : SiafundOutputDiff H}
    (ran : recordSiafundOutputDiff s d = some s')
    (stored : d.direction = .revert →
      s.1.view.siafundClaims.lookup d.id = some (siafundClaim d.siafundOutput)) :
    Recorded id id s s' := by
  obtain ⟨committed, listed⟩ := recordSiafundOutputDiff_eq_some ran
  have moved := commitSiafundOutputDiff_eq_some committed
  have exact : d.claimChange.Exact s.1.view.siafundClaims := by
    obtain ⟨direction, id, sfo⟩ := d
    cases direction with
    | apply =>
      simp only [commitSiafundOutputDiff, if_true] at committed
      exact Change.exact_mapValues _ (addSiafundOutput_eq_some.mp committed).2.1
    | revert => exact stored rfl
  have redone : s'.1.view.siafundClaims = d.claimChange.redo s.1.view.siafundClaims := by
    rw [moved]
    exact (Change.redo_mapValues _ _ _).symm
  have logged : Logged s.1.view.siafundClaims [d.claimChange] s'.1.view.siafundClaims := by
    rw [redone]
    exact .single exact
  exact Recorded.of_siafunds listed moved logged

theorem recordDelayedSiacoinOutputDiff_recorded {d : DelayedSiacoinOutputDiff H}
    (ran : recordDelayedSiacoinOutputDiff s d = some s')
    (stored : d.direction = .revert →
      s.1.dsco.lookup (d.maturityHeight, d.id) = some d.siacoinOutput) :
    Recorded id id s s' := by
  obtain ⟨committed, listed⟩ := recordDelayedSiacoinOutputDiff_eq_some ran
  have moved := commitDelayedSiacoinOutputDiff_eq_some committed
  have exact : d.change.Exact s.1.dsco := by
    obtain ⟨direction, id, sco, maturityHeight⟩ := d
    cases direction with
    | apply =>
      simp only [commitDelayedSiacoinOutputDiff, if_true] at committed
      exact (addDSCO_eq_some.mp committed).2.2.1
    | revert => exact stored rfl
  have logged : Logged s.1.dsco [d.change] s'.1.dsco := by
    rw [moved]
    exact .single exact
  -- a put found its bucket; a delete only drops an output
  have filed : DelayedFiled s.1 → DelayedFiled s'.1 := by
    intro filed k mem
    obtain ⟨direction, id, sco, maturityHeight⟩ := d
    cases direction with
    | apply =>
      simp only [commitDelayedSiacoinOutputDiff, if_true] at committed
      obtain ⟨-, bucket, -, same⟩ := addDSCO_eq_some.mp committed
      rw [same] at mem ⊢
      rcases Finmap.mem_insert.mp mem with rfl | old
      · exact bucket
      · exact filed k old
    | revert =>
      simp only [commitDelayedSiacoinOutputDiff, reduceCtorEq, if_false] at committed
      obtain ⟨-, -, same⟩ := removeDSCO_eq_some.mp committed
      rw [same] at mem ⊢
      exact filed k (Finmap.mem_erase.mp mem).2
  exact Recorded.of_delayed listed moved logged filed

theorem recordSiafundPoolDiff_recorded {d : SiafundPoolDiff}
    (ran : recordSiafundPoolDiff s d = some s') : Recorded id id s s' := by
  obtain ⟨committed, listed⟩ := recordSiafundPoolDiff_eq_some ran
  obtain ⟨-, -, before, moved⟩ := commitSiafundPoolDiff_eq_some committed
  exact Recorded.of_pool listed moved (by rw [moved]; exact .single before.symm)

theorem recordDelayedSiacoinOutputDiffs_removals :
    ∀ {s s' : ConsensusDB H × ProcessedBlock H} {ds : List (DelayedSiacoinOutputDiff H)},
      (∀ d ∈ ds, d.direction = .revert ∧
        s.1.dsco.lookup (d.maturityHeight, d.id) = some d.siacoinOutput) →
      (ds.map fun d => (d.maturityHeight, d.id)).Nodup →
      ds.foldlM recordDelayedSiacoinOutputDiff s = some s' →
      Recorded id id s s' ∧
        s'.1.dsco = ds.foldl (fun m d => m.erase (d.maturityHeight, d.id)) s.1.dsco
  | s, s', [], _, _, ran => by
    cases ran
    exact ⟨.refl s, rfl⟩
  | s, s', d :: ds, removals, distinct, ran => by
    rw [List.foldlM_cons] at ran
    obtain ⟨mid, first, rest⟩ := Option.bind_eq_some_iff.mp ran
    obtain ⟨reverted, stored⟩ := removals d List.mem_cons_self
    have erased : mid.1.dsco = s.1.dsco.erase (d.maturityHeight, d.id) := by
      rw [commitDelayedSiacoinOutputDiff_eq_some (recordDelayedSiacoinOutputDiff_eq_some first).1]
      obtain ⟨direction, id, sco, maturityHeight⟩ := d
      subst reverted
      rfl
    rw [List.map_cons, List.nodup_cons] at distinct
    -- the later removals find their outputs still stored
    have later : ∀ e ∈ ds, e.direction = .revert ∧
        mid.1.dsco.lookup (e.maturityHeight, e.id) = some e.siacoinOutput := by
      intro e mem
      have apart : (e.maturityHeight, e.id) ≠ (d.maturityHeight, d.id) := fun same =>
        distinct.1 (same ▸ List.mem_map_of_mem (f := fun d => (d.maturityHeight, d.id)) mem)
      obtain ⟨reverted', stored'⟩ := removals e (List.mem_cons_of_mem d mem)
      rw [erased, Finmap.lookup_erase_ne apart]
      exact ⟨reverted', stored'⟩
    obtain ⟨recorded, dsco⟩ := recordDelayedSiacoinOutputDiffs_removals later distinct.2 rest
    exact ⟨(recordDelayedSiacoinOutputDiff_recorded first fun _ => stored).trans_id recorded,
      by rw [dsco, erased, List.foldl_cons]⟩

variable [HashBytes H]

theorem recordFileContractDiff_eq_some {d : FileContractDiff H}
    (ran : recordFileContractDiff s d = some s') :
    commitFileContractDiff s.1 d .apply = some s'.1 ∧
      s'.2 = { s.2 with fileContractDiffs := s.2.fileContractDiffs ++ [d] } := by
  obtain ⟨db, committed, listed⟩ := Option.bind_eq_some_iff.mp ran
  cases listed
  exact ⟨committed, rfl⟩

theorem recordFileContractDiff_recorded {d : FileContractDiff H}
    (ran : recordFileContractDiff s d = some s')
    (stored : d.direction = .revert → s.1.fileContracts.lookup d.id = some d.fileContract) :
    Recorded id id s s' := by
  obtain ⟨committed, listed⟩ := recordFileContractDiff_eq_some ran
  obtain ⟨fcex, moved⟩ := commitFileContractDiff_eq_some committed
  have exact : d.change.Exact s.1.fileContracts := by
    obtain ⟨direction, id, fc⟩ := d
    cases direction with
    | apply =>
      simp only [commitFileContractDiff, if_true] at committed
      exact (addFileContract_eq_some.mp committed).2.1
    | revert => exact stored rfl
  have logged : Logged s.1.fileContracts [d.change] s'.1.fileContracts := by
    rw [moved]
    exact .single exact
  exact Recorded.of_contracts listed moved logged fun indexed =>
    commitFileContractDiff_indexed indexed committed

theorem recordFileContractDiffs_removals :
    ∀ {s s' : ConsensusDB H × ProcessedBlock H} {ds : List (FileContractDiff H)},
      (∀ d ∈ ds, d.direction = .revert ∧ s.1.fileContracts.lookup d.id = some d.fileContract) →
      (ds.map (·.id)).Nodup → ds.foldlM recordFileContractDiff s = some s' →
      Recorded id id s s' ∧ s'.1.fileContracts = ds.foldl (fun m d => m.erase d.id) s.1.fileContracts
  | s, s', [], _, _, ran => by
    cases ran
    exact ⟨.refl s, rfl⟩
  | s, s', d :: ds, removals, distinct, ran => by
    rw [List.foldlM_cons] at ran
    obtain ⟨mid, first, rest⟩ := Option.bind_eq_some_iff.mp ran
    obtain ⟨reverted, stored⟩ := removals d List.mem_cons_self
    have erased : mid.1.fileContracts = s.1.fileContracts.erase d.id := by
      obtain ⟨fcex, moved⟩ := commitFileContractDiff_eq_some (recordFileContractDiff_eq_some first).1
      rw [moved]
      obtain ⟨direction, id, fc⟩ := d
      subst reverted
      rfl
    rw [List.map_cons, List.nodup_cons] at distinct
    -- the later removals find their contracts still stored
    have later : ∀ e ∈ ds, e.direction = .revert ∧ mid.1.fileContracts.lookup e.id = some e.fileContract := by
      intro e mem
      have apart : e.id ≠ d.id := fun same => distinct.1 (same ▸ List.mem_map_of_mem mem)
      obtain ⟨reverted', stored'⟩ := removals e (List.mem_cons_of_mem d mem)
      rw [erased, Finmap.lookup_erase_ne apart]
      exact ⟨reverted', stored'⟩
    obtain ⟨recorded, contracts⟩ := recordFileContractDiffs_removals later distinct.2 rest
    exact ⟨(recordFileContractDiff_recorded first fun _ => stored).trans_id recorded,
      by rw [contracts, erased, List.foldl_cons]⟩

end Record

theorem recordSiacoinOutputDiff_keeps {s s' : ConsensusDB H × ProcessedBlock H}
    {d : SiacoinOutputDiff H} (ran : recordSiacoinOutputDiff s d = some s') :
    s'.1 = { s.1 with siacoinOutputs := s'.1.siacoinOutputs } := by
  rw [commitSiacoinOutputDiff_eq_some (recordSiacoinOutputDiff_eq_some ran).1]

theorem recordDelayedSiacoinOutputDiff_keeps {s s' : ConsensusDB H × ProcessedBlock H}
    {d : DelayedSiacoinOutputDiff H} (ran : recordDelayedSiacoinOutputDiff s d = some s') :
    s'.1 = { s.1 with dsco := s'.1.dsco } := by
  rw [commitDelayedSiacoinOutputDiff_eq_some (recordDelayedSiacoinOutputDiff_eq_some ran).1]

theorem lookup_siacoinValues {db : ConsensusDB H} {id : H} {sco : SiacoinOutput H}
    (found : db.siacoinOutputs.lookup id = some sco) :
    db.view.siacoinValues.lookup id = some sco.value := by
  simp only [ConsensusDB.view, Finmap.lookup_mapValues, found, Option.map_some]

theorem lookup_siafundClaims {db : ConsensusDB H} {id : H} {sfo : SiafundOutput H}
    (found : db.siafundOutputs.lookup id = some sfo) :
    db.view.siafundClaims.lookup id = some (siafundClaim sfo) := by
  simp only [ConsensusDB.view, Finmap.lookup_mapValues, found, Option.map_some]

/-- A step that only moves the Foundation state records nothing. -/
theorem Recorded.of_foundationMoved {f : FoundationState H → FoundationState H}
    {db db' : ConsensusDB H} {pb : ProcessedBlock H} (moved : FoundationMoved f db db') :
    Recorded f id (db, pb) (db', pb) := by
  have viewed := moved.1
  have values : db'.view.siacoinValues = db.view.siacoinValues := by rw [viewed]
  have claims : db'.view.siafundClaims = db.view.siafundClaims := by rw [viewed]
  have contracts : db'.fileContracts = db.fileContracts := congrArg View.fileContracts viewed
  have delayed : db'.dsco = db.dsco := congrArg View.dsco viewed
  have pool : db'.siafundPool = db.siafundPool := congrArg View.siafundPool viewed
  exact
    { block := rfl
      height := rfl
      siacoins := ⟨[], (List.append_nil _).symm, by rw [values]; exact .nil _⟩
      contracts := ⟨[], (List.append_nil _).symm, by rw [contracts]; exact .nil _⟩
      siafunds := ⟨[], (List.append_nil _).symm, by rw [claims]; exact .nil _⟩
      delayed := ⟨[], (List.append_nil _).symm, by rw [delayed]; exact .nil _⟩
      pool := ⟨[], (List.append_nil _).symm, by rw [pool]; exact .nil _⟩
      path := ⟨congrArg View.blockHeight viewed, congrArg View.blockPath viewed⟩
      foundation := congrArg View.foundation viewed
      buckets := congrArg View.dscoBuckets viewed
      indexed := fun indexed => by
        simp only [Indexed, moved.2.1, moved.2.2]
        exact indexed
      filed := fun filed => by
        simp only [DelayedFiled]
        rw [delayed, show db'.dscoBuckets = db.dscoBuckets from congrArg View.dscoBuckets viewed]
        exact filed }

/-- Each iteration of a loop records exactly, so the loop does. -/
theorem foldlM_recorded {α : Type} {s s' : ConsensusDB H × ProcessedBlock H}
    {step : ConsensusDB H × ProcessedBlock H → α → Option (ConsensusDB H × ProcessedBlock H)}
    {xs : List α} (each : ∀ a x b, x ∈ xs → step a x = some b → Recorded id id a b)
    (ran : xs.foldlM step s = some s') : Recorded id id s s' :=
  foldlM_rel (Recorded id id) Recorded.refl Recorded.trans_id each ran

/-! ### The components of a transaction -/

section Components

variable (env : Env H) (t : Transaction H) {s s' : ConsensusDB H × ProcessedBlock H}

theorem applySiacoinInput_recorded {sci : SiacoinInput H}
    (ran : applySiacoinInput s sci = some s') : Recorded id id s s' := by
  obtain ⟨sco, found, recorded⟩ := Option.bind_eq_some_iff.mp ran
  exact recordSiacoinOutputDiff_recorded recorded fun _ => lookup_siacoinValues found

theorem applySiacoinInputs_recorded (ran : applySiacoinInputs t s = some s') :
    Recorded id id s s' :=
  foldlM_recorded (fun _ _ _ _ step => applySiacoinInput_recorded step) ran

theorem applySiacoinOutputs_recorded (ran : applySiacoinOutputs env t s = some s') :
    Recorded id id s s' :=
  foldlM_recorded (fun _ ⟨_, _⟩ _ _ step => recordSiacoinOutputDiff_recorded step nofun) ran

variable [HashBytes H]

theorem applyFileContract_recorded {entry : FileContract H × ℕ}
    (ran : applyFileContract env t s entry = some s') : Recorded id id s s' := by
  obtain ⟨mid, contract, taxed⟩ := Option.bind_eq_some_iff.mp ran
  exact (recordFileContractDiff_recorded contract nofun).trans_id
    (recordSiafundPoolDiff_recorded taxed)

theorem applyFileContracts_recorded (ran : applyFileContracts env t s = some s') :
    Recorded id id s s' :=
  foldlM_recorded (fun _ _ _ _ step => applyFileContract_recorded env t step) ran

/-- The stored contract is recorded as it is removed, and the revision added under its ID. -/
theorem applyFileContractRevision_recorded {fcr : FileContractRevision H}
    (ran : applyFileContractRevision s fcr = some s') : Recorded id id s s' := by
  obtain ⟨fc, found, ran⟩ := Option.bind_eq_some_iff.mp ran
  obtain ⟨mid, removed, added⟩ := Option.bind_eq_some_iff.mp ran
  exact (recordFileContractDiff_recorded removed fun _ => found).trans_id
    (recordFileContractDiff_recorded added nofun)

theorem applyFileContractRevisions_recorded (ran : applyFileContractRevisions t s = some s') :
    Recorded id id s s' :=
  foldlM_recorded (fun _ _ _ _ step => applyFileContractRevision_recorded step) ran

/-- The valid proof outputs become delayed outputs, which leaves the contract in place to be
recorded as it is removed. -/
theorem applyStorageProof_recorded {sp : StorageProof H}
    (ran : applyStorageProof env s sp = some s') : Recorded id id s s' := by
  obtain ⟨fc, found, ran⟩ := Option.bind_eq_some_iff.mp ran
  obtain ⟨mid, delayed, removed⟩ := Option.bind_eq_some_iff.mp ran
  obtain ⟨paid, kept⟩ := foldlM_rel
    (fun a b => Recorded id id a b ∧ b.1.fileContracts = a.1.fileContracts)
    (fun a => ⟨.refl a, rfl⟩)
    (fun first second => ⟨first.1.trans_id second.1, second.2.trans first.2⟩)
    (fun _ ⟨_, _⟩ _ _ step => ⟨recordDelayedSiacoinOutputDiff_recorded step nofun,
      by rw [recordDelayedSiacoinOutputDiff_keeps step]⟩) delayed
  have stored : mid.1.fileContracts.lookup sp.parentID = some fc := by
    rw [kept]
    exact found
  exact paid.trans_id (recordFileContractDiff_recorded removed fun _ => stored)

theorem applyStorageProofs_recorded (ran : applyStorageProofs env t s = some s') :
    Recorded id id s s' :=
  foldlM_recorded (fun _ _ _ _ step => applyStorageProof_recorded env step) ran

omit [HashBytes H] in
/-- `getSiafundOutput` may rewrite the unlock hash, never the value or the claim start. -/
theorem getSiafundOutput_claim {db : ConsensusDB H} {lastGenesis devAddr id : H}
    {sfo : SiafundOutput H} (found : getSiafundOutput db lastGenesis devAddr id = some sfo) :
    db.view.siafundClaims.lookup id = some (siafundClaim sfo) := by
  obtain ⟨stored, lookedUp, rfl⟩ := Option.map_eq_some_iff.mp found
  rw [lookup_siafundClaims lookedUp]
  split_ifs <;> rfl

omit [HashBytes H] in
/-- What spending a siafund input can do: read the spent output, which claims from no later than
the pool, record its claim, `(pool - ClaimStart) / SiafundCount` per siafund and keyed by
`SiaClaimOutputID`, as a delayed output, and then record the output as spent. -/
theorem applySiafundInput_eq_some {sfi : SiafundInput H}
    (ran : applySiafundInput env s sfi = some s') :
    ∃ sfo mid,
      getSiafundOutput s.1 (lastGenesisUnlockHash env.params) env.devAddr sfi.parentID = some sfo ∧
      sfo.claimStart ≤ s.1.siafundPool ∧
      recordDelayedSiacoinOutputDiff s ⟨.apply, env.siaClaimOutputID sfi.parentID,
        ⟨(s.1.siafundPool - sfo.claimStart) / siafundCount * sfo.value, sfi.claimUnlockHash⟩,
        s.2.height + env.params.maturityDelay⟩ = some mid ∧
      recordSiafundOutputDiff mid ⟨.revert, sfi.parentID, sfo⟩ = some s' := by
  obtain ⟨sfo, found, ran⟩ := Option.bind_eq_some_iff.mp ran
  by_cases short : s.1.siafundPool < sfo.claimStart
  · simp only [short, if_true] at ran
    cases ran
  · simp only [short, if_false] at ran
    obtain ⟨mid, paid, spent⟩ := Option.bind_eq_some_iff.mp ran
    exact ⟨sfo, mid, found, Nat.le_of_not_lt short, paid, spent⟩

omit [HashBytes H] in
/-- The claim is paid as a delayed output, then the spent output is recorded as read. -/
theorem applySiafundInput_recorded {sfi : SiafundInput H}
    (ran : applySiafundInput env s sfi = some s') : Recorded id id s s' := by
  obtain ⟨sfo, mid, found, -, paid, spent⟩ := applySiafundInput_eq_some env ran
  have stored : mid.1.view.siafundClaims.lookup sfi.parentID = some (siafundClaim sfo) := by
    rw [recordDelayedSiacoinOutputDiff_keeps paid]
    exact getSiafundOutput_claim found
  exact (recordDelayedSiacoinOutputDiff_recorded paid nofun).trans_id
    (recordSiafundOutputDiff_recorded spent fun _ => stored)

omit [HashBytes H] in
theorem applySiafundInputs_recorded (ran : applySiafundInputs env t s = some s') :
    Recorded id id s s' :=
  foldlM_recorded (fun _ _ _ _ step => applySiafundInput_recorded env step) ran

omit [HashBytes H] in
theorem applySiafundOutputs_recorded (ran : applySiafundOutputs env t s = some s') :
    Recorded id id s s' :=
  foldlM_recorded (fun _ ⟨_, _⟩ _ _ step => recordSiafundOutputDiff_recorded step nofun) ran

/-- A transaction records its seven components exactly and moves the Foundation state by its
arbitrary data. -/
theorem applyTransaction_recorded (ran : applyTransaction env s t = some s') :
    Recorded (foundationTx env s.2.height · t) id s s' := by
  obtain ⟨s1, inputs, ran⟩ := Option.bind_eq_some_iff.mp ran
  obtain ⟨s2, outputs, ran⟩ := Option.bind_eq_some_iff.mp ran
  obtain ⟨s3, contracts, ran⟩ := Option.bind_eq_some_iff.mp ran
  obtain ⟨s4, revisions, ran⟩ := Option.bind_eq_some_iff.mp ran
  obtain ⟨s5, proofs, ran⟩ := Option.bind_eq_some_iff.mp ran
  obtain ⟨s6, claims, ran⟩ := Option.bind_eq_some_iff.mp ran
  obtain ⟨s7, created, ran⟩ := Option.bind_eq_some_iff.mp ran
  obtain ⟨db, data, ran⟩ := Option.bind_eq_some_iff.mp ran
  cases ran
  have components : Recorded id id s s7 :=
    (applySiacoinInputs_recorded t inputs).trans_id <|
    (applySiacoinOutputs_recorded env t outputs).trans_id <|
    (applyFileContracts_recorded env t contracts).trans_id <|
    (applyFileContractRevisions_recorded t revisions).trans_id <|
    (applyStorageProofs_recorded env t proofs).trans_id <|
    (applySiafundInputs_recorded env t claims).trans_id
    (applySiafundOutputs_recorded env t created)
  have moved : Recorded (foundationTx env s7.2.height · t) id s7 (db, s7.2) :=
    Recorded.of_foundationMoved (applyArbitraryData_moved env data)
  rw [components.height] at moved
  exact components.trans moved

end Components

end Sia.Consensus
