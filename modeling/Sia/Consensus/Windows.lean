import Sia.Consensus.Replay

/-! Contract windows through a block. Validation admits a contract, or a revision, only with a
window that opens after the current height and closes after it opens; maintenance expires every
contract whose window closes at the block's height. So every state a generated block produces
keeps each stored contract's window end above its height, and with it the expiration buckets of
past heights empty. -/
namespace Sia.Consensus

open OptionLoop

variable {H : Type}

section Steps

variable [DecidableEq H] {P : FileContract H → Prop} {s s' s'' : ConsensusDB H × ProcessedBlock H}

/-- Every contract stored after a step was stored before it, or satisfies `P`. -/
def ContractsFrom (P : FileContract H → Prop) (s s' : ConsensusDB H × ProcessedBlock H) : Prop :=
  ∀ id fc, s'.1.fileContracts.lookup id = some fc → s.1.fileContracts.lookup id = some fc ∨ P fc

/-- Every stored contract's window closes after the current height. -/
def EndsAfter (db : ConsensusDB H) : Prop :=
  ∀ id fc, db.fileContracts.lookup id = some fc → db.blockHeight < fc.windowEnd.toNat

namespace ContractsFrom

theorem refl (s : ConsensusDB H × ProcessedBlock H) : ContractsFrom P s s :=
  fun _ _ found => .inl found

theorem trans (first : ContractsFrom P s s') (second : ContractsFrom P s' s'') :
    ContractsFrom P s s'' := by
  intro id fc found
  rcases second id fc found with earlier | admitted
  · exact first id fc earlier
  · exact .inr admitted

theorem of_eq (same : s'.1.fileContracts = s.1.fileContracts) : ContractsFrom P s s' := by
  intro id fc found
  rw [same] at found
  exact .inl found

theorem loop {α : Type}
    {step : ConsensusDB H × ProcessedBlock H → α → Option (ConsensusDB H × ProcessedBlock H)}
    {xs : List α} (each : ∀ a x b, x ∈ xs → step a x = some b → ContractsFrom P a b)
    (ran : xs.foldlM step s = some s') : ContractsFrom P s s' :=
  foldlM_rel (ContractsFrom P) refl trans each ran

end ContractsFrom

/-! Recording a diff of any other kind leaves the contracts; a contract diff adds its contract
only when it is applied. -/

theorem recordSiacoinOutputDiff_contractsFrom {d : SiacoinOutputDiff H}
    (ran : recordSiacoinOutputDiff s d = some s') : ContractsFrom P s s' :=
  .of_eq (by rw [recordSiacoinOutputDiff_keeps ran])

theorem recordDelayedSiacoinOutputDiff_contractsFrom {d : DelayedSiacoinOutputDiff H}
    (ran : recordDelayedSiacoinOutputDiff s d = some s') : ContractsFrom P s s' :=
  .of_eq (by rw [recordDelayedSiacoinOutputDiff_keeps ran])

theorem recordSiafundOutputDiff_contractsFrom {d : SiafundOutputDiff H}
    (ran : recordSiafundOutputDiff s d = some s') : ContractsFrom P s s' :=
  .of_eq (by rw [commitSiafundOutputDiff_eq_some (recordSiafundOutputDiff_eq_some ran).1])

theorem recordSiafundPoolDiff_contractsFrom {d : SiafundPoolDiff}
    (ran : recordSiafundPoolDiff s d = some s') : ContractsFrom P s s' :=
  .of_eq (by rw [(commitSiafundPoolDiff_eq_some (recordSiafundPoolDiff_eq_some ran).1).2.2.2])

theorem recordFileContractDiff_contractsFrom [HashBytes H] {d : FileContractDiff H}
    (ran : recordFileContractDiff s d = some s') (admitted : d.direction = .apply → P d.fileContract) :
    ContractsFrom P s s' := by
  obtain ⟨fcex, moved⟩ := commitFileContractDiff_eq_some (recordFileContractDiff_eq_some ran).1
  intro id fc found
  rw [moved] at found
  obtain ⟨direction, key, stored⟩ := d
  by_cases same : id = key
  · subst same
    cases direction with
    | apply =>
      -- the applied contract is the one now stored under its key
      simp only [commitChange, FileContractDiff.change, journalChange, Journal.Change.redo,
        Finmap.lookup_insert, Option.some.injEq] at found
      subst found
      exact .inr (admitted rfl)
    | revert =>
      simp [commitChange, FileContractDiff.change, journalChange, Journal.Change.redo] at found
  · cases direction <;>
      simp only [commitChange, FileContractDiff.change, journalChange, Journal.Change.redo,
        Finmap.lookup_insert_of_ne _ same, Finmap.lookup_erase_ne same] at found <;>
      exact .inl found

end Steps

/-! ### The components of a transaction -/

section Components

variable [DecidableEq H] [HashBytes H] (env : Env H) (t : Transaction H)
  {P : FileContract H → Prop} {s s' : ConsensusDB H × ProcessedBlock H}

omit [HashBytes H] in
theorem applySiacoinInputs_contractsFrom (ran : applySiacoinInputs t s = some s') :
    ContractsFrom P s s' :=
  .loop (fun _ _ _ _ step => by
    obtain ⟨sco, -, recorded⟩ := Option.bind_eq_some_iff.mp step
    exact recordSiacoinOutputDiff_contractsFrom recorded) ran

omit [HashBytes H] in
theorem applySiacoinOutputs_contractsFrom (ran : applySiacoinOutputs env t s = some s') :
    ContractsFrom P s s' :=
  .loop (fun _ ⟨_, _⟩ _ _ step => recordSiacoinOutputDiff_contractsFrom step) ran

theorem applyFileContracts_contractsFrom (admitted : ∀ fc ∈ t.fileContracts, P fc)
    (ran : applyFileContracts env t s = some s') : ContractsFrom P s s' :=
  .loop (fun _ ⟨fc, i⟩ _ mem step => by
    obtain ⟨mid, contract, taxed⟩ := Option.bind_eq_some_iff.mp step
    have listed : fc ∈ t.fileContracts := List.fst_mem_of_mem_zipIdx mem
    exact (recordFileContractDiff_contractsFrom contract fun _ => admitted fc listed).trans
      (recordSiafundPoolDiff_contractsFrom taxed)) ran

/-- A revision stores a contract with the revision's window end. -/
theorem applyFileContractRevisions_contractsFrom
    (admitted : ∀ fcr ∈ t.fileContractRevisions, ∀ fc : FileContract H,
      fc.windowEnd = fcr.newWindowEnd → P fc)
    (ran : applyFileContractRevisions t s = some s') : ContractsFrom P s s' :=
  .loop (fun _ fcr _ mem step => by
    obtain ⟨fc, -, step⟩ := Option.bind_eq_some_iff.mp step
    obtain ⟨mid, removed, added⟩ := Option.bind_eq_some_iff.mp step
    exact (recordFileContractDiff_contractsFrom removed nofun).trans
      (recordFileContractDiff_contractsFrom added fun _ => admitted fcr mem _ rfl)) ran

theorem applyStorageProofs_contractsFrom (ran : applyStorageProofs env t s = some s') :
    ContractsFrom P s s' :=
  .loop (fun _ _ _ _ step => by
    obtain ⟨fc, -, step⟩ := Option.bind_eq_some_iff.mp step
    obtain ⟨mid, paid, removed⟩ := Option.bind_eq_some_iff.mp step
    have outputs : ContractsFrom P _ mid :=
      .loop (fun _ ⟨_, _⟩ _ _ step => recordDelayedSiacoinOutputDiff_contractsFrom step) paid
    exact outputs.trans (recordFileContractDiff_contractsFrom removed nofun)) ran

omit [HashBytes H] in
theorem applySiafundInputs_contractsFrom (ran : applySiafundInputs env t s = some s') :
    ContractsFrom P s s' :=
  .loop (fun _ _ _ _ step => by
    obtain ⟨_, _, -, -, paid, spent⟩ := applySiafundInput_eq_some env step
    exact (recordDelayedSiacoinOutputDiff_contractsFrom paid).trans
      (recordSiafundOutputDiff_contractsFrom spent)) ran

omit [HashBytes H] in
theorem applySiafundOutputs_contractsFrom (ran : applySiafundOutputs env t s = some s') :
    ContractsFrom P s s' :=
  .loop (fun _ ⟨_, _⟩ _ _ step => recordSiafundOutputDiff_contractsFrom step) ran

/-- A transaction stores no contract but its own contracts and revisions. -/
theorem applyTransaction_contractsFrom (contracts : ∀ fc ∈ t.fileContracts, P fc)
    (revisions : ∀ fcr ∈ t.fileContractRevisions, ∀ fc : FileContract H,
      fc.windowEnd = fcr.newWindowEnd → P fc)
    (ran : applyTransaction env s t = some s') : ContractsFrom P s s' := by
  obtain ⟨s1, inputs, ran⟩ := Option.bind_eq_some_iff.mp ran
  obtain ⟨s2, outputs, ran⟩ := Option.bind_eq_some_iff.mp ran
  obtain ⟨s3, created, ran⟩ := Option.bind_eq_some_iff.mp ran
  obtain ⟨s4, revised, ran⟩ := Option.bind_eq_some_iff.mp ran
  obtain ⟨s5, proofs, ran⟩ := Option.bind_eq_some_iff.mp ran
  obtain ⟨s6, claims, ran⟩ := Option.bind_eq_some_iff.mp ran
  obtain ⟨s7, funds, ran⟩ := Option.bind_eq_some_iff.mp ran
  obtain ⟨db, data, ran⟩ := Option.bind_eq_some_iff.mp ran
  cases ran
  exact (applySiacoinInputs_contractsFrom t inputs).trans <|
    (applySiacoinOutputs_contractsFrom env t outputs).trans <|
    (applyFileContracts_contractsFrom env t contracts created).trans <|
    (applyFileContractRevisions_contractsFrom t revisions revised).trans <|
    (applyStorageProofs_contractsFrom env t proofs).trans <|
    (applySiafundInputs_contractsFrom env t claims).trans <|
    (applySiafundOutputs_contractsFrom env t funds).trans
    (.of_eq (applyArbitraryData_moved env data).2.1)

end Components

/-! ### Maintenance -/

section Maintenance

variable [LinearOrder H] [HashBytes H] (env : Env H) {P : FileContract H → Prop}
  {s s' : ConsensusDB H × ProcessedBlock H}

omit [HashBytes H] in
theorem applyMinerPayouts_contractsFrom (ran : applyMinerPayouts env s = some s') :
    ContractsFrom P s s' :=
  .loop (fun _ ⟨_, _⟩ _ _ step => recordDelayedSiacoinOutputDiff_contractsFrom step) ran

omit [HashBytes H] in
theorem applyFoundationSubsidy_contractsFrom (ran : applyFoundationSubsidy env s = some s') :
    ContractsFrom P s s' := by
  simp only [applyFoundationSubsidy] at ran
  split_ifs at ran
  · cases ran
    exact .refl s
  · cases ran
    exact .refl s
  -- the initial subsidy and the regular one
  · exact recordDelayedSiacoinOutputDiff_contractsFrom ran
  · exact recordDelayedSiacoinOutputDiff_contractsFrom ran

omit [HashBytes H] in
theorem applyMaturedSiacoinOutputs_contractsFrom
    (ran : applyMaturedSiacoinOutputs env s = some s') : ContractsFrom P s s' := by
  simp only [applyMaturedSiacoinOutputs] at ran
  split_ifs at ran
  · cases ran
    exact .refl s
  · obtain ⟨s1, added, ran⟩ := Option.bind_eq_some_iff.mp ran
    obtain ⟨s2, removed, ran⟩ := Option.bind_eq_some_iff.mp ran
    obtain ⟨db, deleted, ran⟩ := Option.bind_eq_some_iff.mp ran
    cases ran
    obtain ⟨-, rfl⟩ := deleteDSCOBucket_eq_some.mp deleted
    have matured : ContractsFrom P s s1 :=
      .loop (fun _ _ _ _ step => recordSiacoinOutputDiff_contractsFrom step) added
    have unloaded : ContractsFrom P s1 s2 :=
      .loop (fun _ _ _ _ step => recordDelayedSiacoinOutputDiff_contractsFrom step) removed
    exact (matured.trans unloaded).trans (.of_eq rfl)

/-- Maintenance only removes contracts: every contract diff it records is a removal. -/
theorem applyFileContractMaintenance_contractsFrom
    (ran : applyFileContractMaintenance env s = some s') : ContractsFrom P s s' := by
  obtain ⟨results, expired, ran⟩ := Option.bind_eq_some_iff.mp ran
  obtain ⟨s1, paid, ran⟩ := Option.bind_eq_some_iff.mp ran
  obtain ⟨s2, removed, ran⟩ := Option.bind_eq_some_iff.mp ran
  cases ran
  have removals : ∀ d ∈ results.map (·.2), d.direction = .revert := by
    intro d mem
    obtain ⟨r, listed, rfl⟩ := List.mem_map.mp mem
    obtain ⟨fcid, -, missed⟩ := mem_of_mapM_eq_some expired listed
    obtain ⟨fc, -, same, -⟩ := applyMissedStorageProof_eq_some env missed
    rw [same]
  have outputs : ContractsFrom P s s1 :=
    .loop (fun _ _ _ _ step => recordDelayedSiacoinOutputDiff_contractsFrom step) paid
  have expiries : ContractsFrom P s1 s2 :=
    .loop (fun _ d _ mem step => recordFileContractDiff_contractsFrom step fun applied => by
      rw [removals d mem] at applied
      cases applied) removed
  exact (outputs.trans expiries).trans (.of_eq rfl)

theorem applyMaintenance_contractsFrom (ran : applyMaintenance env s = some s') :
    ContractsFrom P s s' := by
  obtain ⟨s1, payouts, ran⟩ := Option.bind_eq_some_iff.mp ran
  obtain ⟨s2, subsidy, ran⟩ := Option.bind_eq_some_iff.mp ran
  obtain ⟨s3, matured, expired⟩ := Option.bind_eq_some_iff.mp ran
  exact (applyMinerPayouts_contractsFrom env payouts).trans <|
    (applyFoundationSubsidy_contractsFrom env subsidy).trans <|
    (applyMaturedSiacoinOutputs_contractsFrom env matured).trans
    (applyFileContractMaintenance_contractsFrom env expired)

/-! ### A generated block -/

/-- Each transaction is validated at the parent's height, so what it stores closes after it. -/
theorem applyTransactions_contractsFrom :
    ∀ {s s' : ConsensusDB H × ProcessedBlock H} {txs : List (Transaction H)},
      applyTransactions env s txs = some (.ok s') →
      ContractsFrom (fun fc => s.1.blockHeight < fc.windowEnd.toNat) s s'
  | s, s', [], ran => by
    simp only [applyTransactions, Option.some.injEq, Except.ok.injEq] at ran
    subst ran
    exact .refl s
  | s, s', t :: rest, ran => by
    cases valid : validTransaction env s.1 t with
    | error e => simp only [applyTransactions, valid, Option.some.injEq, reduceCtorEq] at ran
    | ok u =>
      cases applied : applyTransaction env s t with
      | none => simp only [applyTransactions, valid, applied, reduceCtorEq] at ran
      | some mid =>
        simp only [applyTransactions, valid, applied] at ran
        obtain ⟨standalone, -⟩ := validTransaction_eq_ok env valid
        obtain ⟨-, -, -, -, contracts, revisions, -⟩ := standaloneValid_eq_ok env standalone
        have first : ContractsFrom (fun fc => s.1.blockHeight < fc.windowEnd.toNat) s mid := by
          refine applyTransaction_contractsFrom env t (fun fc mem => ?_)
            (fun fcr mem fc same => ?_) applied
          · obtain ⟨opens, closes, -⟩ := correctFileContracts_eq_ok env contracts fc mem
            have closes' := UInt64.lt_iff_toNat_lt.mp closes
            omega
          · obtain ⟨opens, closes, -⟩ := correctFileContractRevisions_eq_ok revisions fcr mem
            have closes' := UInt64.lt_iff_toNat_lt.mp closes
            rw [same]
            omega
        have later := applyTransactions_contractsFrom ran
        rw [(applyTransaction_recorded env t applied).path.1] at later
        exact first.trans later

/-- A generated block keeps every contract's window end above the height, when its parent did,
the index was in step and the parent stood at its own height. -/
theorem generateAndApplyDiff_endsAfter {db db' : ConsensusDB H} {parent pb : ProcessedBlock H}
    {b : Block H} (ends : EndsAfter db) (indexed : Indexed db)
    (height : db.blockHeight = parent.height)
    (ran : generateAndApplyDiff env db (newChild parent b) = some (.ok (db', pb))) :
    EndsAfter db' := by
  obtain ⟨-, db1, s, final, maintained, opened, applied, kept, rfl, rfl⟩ :=
    generateAndApplyDiff_steps env ran
  obtain ⟨-, rfl⟩ := createDSCOBucket_eq_some.mp opened
  have txs := applyTransactions_recorded env applied
  obtain ⟨upkeep, -, gone⟩ := applyMaintenance_recorded env kept
  have admitted := (applyTransactions_contractsFrom env applied).trans
    (applyMaintenance_contractsFrom env kept)
  have blockHeight : final.blockHeight = db.blockHeight := (txs.trans upkeep).path.1
  have child : s.2.height = parent.height + 1 := txs.height
  intro id fc found
  have expires := gone (txs.indexed indexed) id fc found
  show final.blockHeight + 1 < fc.windowEnd.toNat
  -- the contract is the parent's or new, so it closes after the parent's height, not at this one
  have after : db.blockHeight < fc.windowEnd.toNat := by
    rcases admitted id fc found with kept | new
    · exact ends id fc kept
    · exact new
  omega

end Maintenance

end Sia.Consensus
