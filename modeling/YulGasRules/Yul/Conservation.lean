import YulGasRules.Yul.Refinement

/-!
# What no run changes

Facts about all runs of the system, which are facts about all evaluations: whatever
contracts are called, and whatever these call in turn, value is not created, code and
nonces are kept, and in static mode nothing is written.  The substate grows, the block
and the transaction stay the same, and calls do not exceed the depth limit.

A run may lose the world, and all accounts with it: by an operation without a semantics,
or by a loop or a call that is begun while a jump is pending.  Where a fact speaks of
what is kept, it has to except the runs that do.
-/

namespace YulGasRules.Yul

open Collections Fuel

namespace World

/-! ## Accounts through the steps -/

section Accounts

variable {evolution : Evolution (Account .Yul)} (world : World)

/-- Storing a word writes to the account of the contract, if there is one. -/
theorem evolves_sstore {spos sval : UInt256}
    (writes : ∀ account : Account .Yul,
      evolution.kept account (account.updateStorage spos sval)) :
    evolution.Evolves world.accountMap (world.sstore spos sval).accountMap := by
  cases present : world.lookupAccount world.executionEnv.codeOwner with
  | none =>
      simp only [YulGasRules.State.sstore, present, Option.elim_none]
      exact .refl _
  | some account =>
      simp only [YulGasRules.State.sstore, present, Option.elim_some]
      exact .insert_old present (writes account)

/-- So does storing a transient word. -/
theorem evolves_tstore {spos sval : UInt256}
    (writes : ∀ account : Account .Yul,
      evolution.kept account (account.updateTransientStorage spos sval)) :
    evolution.Evolves world.accountMap (world.tstore spos sval).accountMap := by
  cases present : world.lookupAccount world.executionEnv.codeOwner with
  | none =>
      simp only [YulGasRules.State.tstore, present, Option.elim_none]
      exact .refl _
  | some account =>
      simp only [YulGasRules.State.tstore, present, Option.elim_some]
      exact .insert_old present (writes account)

/-- Self-destruction settles two balances, and may create the account of the receiver. -/
theorem evolves_selfdestruct (r : AccountAddress)
    (settles : ∀ (account : Account .Yul) (balance : UInt256),
      evolution.kept account { account with balance })
    (starts : ∀ balance, evolution.fresh { (default : Account .Yul) with balance }) :
    evolution.Evolves world.accountMap (world.selfdestruct r).accountMap := by
  simp only [selfdestruct, selfdestructAccountMap]
  split
  · exact .refl _
  · rename_i owner owned
    split
    · rename_i absent
      split
      · exact .refl _
      · apply Evolution.Evolves.trans (.insert_new absent (starts owner.balance))
        apply Evolution.Evolves.insert_old _ (settles owner ⟨0⟩)
        rw [Finmap.lookup_insert_of_ne]
        · exact owned
        · rintro rfl
          rw [owned] at absent
          cases absent
    · rename_i receiver found
      split
      · rename_i distinct
        apply Evolution.Evolves.trans (.insert_old found (settles receiver _))
        apply Evolution.Evolves.insert_old _ (settles owner ⟨0⟩)
        rw [Finmap.lookup_insert_of_ne]
        · exact owned
        · exact distinct.symm
      · rename_i same
        have same := not_not.mp same
        subst same
        rw [owned] at found
        cases found
        apply Evolution.Evolves.trans (.insert_old owned (settles owner ⟨0⟩))
        exact .insert_old (Finmap.lookup_insert _) (evolution.refl _)

end Accounts

/-! ## Loss -/

/-- No account is left. -/
def Lost (world : World) : Prop := world.accountMap = ∅

theorem Lost.lookup_eq_none {world : World} (lost : world.Lost) (addr : AccountAddress) :
    world.accountMap.lookup addr = none := by
  rw [lost]
  exact Finmap.lookup_empty addr

/-- Where there is no account, none is written to, pays or is called. -/
theorem Step.lost {before after : World} (step : Step before after) (lost : before.Lost) :
    after.Lost := by
  cases step with
  | addAccessedAccount addr => exact lost
  | addAccessedStorageKey key => exact lost
  | sstore perm spos sval =>
      simp only [YulGasRules.State.sstore, YulGasRules.State.lookupAccount,
        lost.lookup_eq_none, Option.elim_none]
      exact lost
  | tstore perm spos sval =>
      simp only [YulGasRules.State.tstore, YulGasRules.State.lookupAccount,
        lost.lookup_eq_none, Option.elim_none]
      exact lost
  | log perm topics data => exact lost
  | selfdestruct perm r =>
      simp only [Lost, World.selfdestruct, selfdestructAccountMap,
        YulGasRules.State.lookupAccount, lost.lookup_eq_none]
      exact lost
  | transfer toAddr value allowed paid =>
      rcases AccountMap.exists_of_transferBalance paid with ⟨account, present, _, _⟩
      rw [lost.lookup_eq_none] at present
      cases present
  | becomeStatic => exact lost
  | lose => rfl

/-- Without accounts there is none to call. -/
theorem Enters.not_lost {outer start : World} (enters : Enters outer start) :
    ¬outer.Lost := by
  intro lost
  cases enters with
  | call source weiValue calldata found shallow owner allowed =>
      rw [lost.lookup_eq_none] at found
      cases found

theorem Leaves.lost {outer last after : World} (leaves : Leaves outer last after)
    (lost : last.Lost) : after.Lost := by
  cases leaves with
  | resume kept => exact lost
  | leak => exact lost

/-- The step that loses the world. -/
def Loss (_before after : World) : Prop := after = default

/-- The world is lost on the way: a run that loses it, by itself or in the call of
another contract, leads from one world to the other. -/
def Loses (before after : World) : Prop := system.Through Loss before after

/-- No run leads out of a world without accounts. -/
theorem lost_final : system.Final Lost where
  step := Step.lost
  enter := Enters.not_lost
  leave := Leaves.lost

/-- After a run that loses the world no account is left. -/
theorem Loses.lost {before after : World} (loses : before.Loses after) : after.Lost := by
  apply lost_final.of_through _ loses
  rintro before after rfl
  rfl

/-- What a run that loses no world does, from what its steps do and what calls do to the
environment. -/
theorem absorbs_without_loss {R : World → World → Prop} (refl : ∀ world, R world world)
    (trans : ∀ {first second third}, R first second → R second third → R first third)
    (step : ∀ {before after}, Step before after → ¬Loss before after → R before after)
    (nested : ∀ {outer start last after}, Enters outer start → R start last →
      Leaves outer last after → R outer after) : (system.without Loss).Absorbs R where
  refl := refl
  step := fun taken => step taken.1 taken.2
  trans := trans
  nested := nested

/-! ## Value -/

/-- A write that keeps the balance of an account keeps the sum. -/
theorem totalBalance_write {world : World} {addr : AccountAddress} {account written : Account .Yul}
    (present : world.accountMap.lookup addr = some account)
    (same : written.balance = account.balance) :
    AccountMap.totalBalance (world.accountMap.insert addr written) =
      world.accountMap.totalBalance := by
  have inserted := AccountMap.totalBalance_insert world.accountMap addr written
  rw [AccountMap.balanceAt_of_lookup present, same] at inserted
  omega

theorem balance_updateStorage (account : Account .Yul) (spos sval : UInt256) :
    (account.updateStorage spos sval).balance = account.balance := by
  simp only [Account.updateStorage]
  split <;> rfl

theorem balance_updateTransientStorage (account : Account .Yul) (spos sval : UInt256) :
    (account.updateTransientStorage spos sval).balance = account.balance := by
  simp only [Account.updateTransientStorage]
  split <;> rfl

theorem totalBalance_sstore (world : World) (spos sval : UInt256) :
    (world.sstore spos sval).accountMap.totalBalance = world.accountMap.totalBalance := by
  cases present : world.lookupAccount world.executionEnv.codeOwner with
  | none => simp only [YulGasRules.State.sstore, present, Option.elim_none]
  | some account =>
      simp only [YulGasRules.State.sstore, present, Option.elim_some]
      exact totalBalance_write present (balance_updateStorage account spos sval)

theorem totalBalance_tstore (world : World) (spos sval : UInt256) :
    (world.tstore spos sval).accountMap.totalBalance = world.accountMap.totalBalance := by
  cases present : world.lookupAccount world.executionEnv.codeOwner with
  | none => simp only [YulGasRules.State.tstore, present, Option.elim_none]
  | some account =>
      simp only [YulGasRules.State.tstore, present, Option.elim_some]
      exact totalBalance_write present (balance_updateTransientStorage account spos sval)

/-- The balance of a contract that destroys itself moves, or is burnt. -/
theorem totalBalance_selfdestruct_le (world : World) (r : AccountAddress) :
    (world.selfdestruct r).accountMap.totalBalance ≤ world.accountMap.totalBalance := by
  simp only [selfdestruct, selfdestructAccountMap]
  split
  · exact Nat.le_refl _
  · rename_i owner owned
    split
    · rename_i absent
      split
      · exact Nat.le_refl _
      · apply AccountMap.totalBalance_move_le owned _ rfl
        · exact Nat.le_add_left _ _
        · intro same
          rw [← same, owned] at absent
          cases absent
    · rename_i receiver found
      split
      · rename_i distinct
        apply AccountMap.totalBalance_move_le owned (Ne.symm distinct) rfl
        rw [AccountMap.balanceAt_of_lookup found]
        exact UInt256.toNat_add_le _ _
      · rename_i same
        have same := not_not.mp same
        subst same
        exact AccountMap.totalBalance_burn_le found rfl rfl

/-- No step creates value. -/
theorem Step.totalBalance_le {before after : World} (step : Step before after) :
    after.accountMap.totalBalance ≤ before.accountMap.totalBalance := by
  cases step with
  | addAccessedAccount addr => exact Nat.le_refl _
  | addAccessedStorageKey key => exact Nat.le_refl _
  | sstore perm spos sval => exact Nat.le_of_eq (totalBalance_sstore before spos sval)
  | tstore perm spos sval => exact Nat.le_of_eq (totalBalance_tstore before spos sval)
  | log perm topics data => exact Nat.le_refl _
  | selfdestruct perm r => exact totalBalance_selfdestruct_le before r
  | transfer toAddr value allowed paid => exact AccountMap.totalBalance_transfer_le paid
  | becomeStatic => exact Nat.le_refl _
  | lose => exact Nat.zero_le _

/-- No run creates value. -/
theorem totalBalance_absorbs : system.Absorbs fun before after =>
    after.accountMap.totalBalance ≤ before.accountMap.totalBalance where
  refl := fun _ => Nat.le_refl _
  step := Step.totalBalance_le
  trans := fun first second => second.trans first
  nested := by
    intro outer start last after entered inner left
    have same : start.accountMap = outer.accountMap := by
      cases entered
      rfl
    have same' : after.accountMap = last.accountMap := by
      cases left <;> rfl
    rw [same', ← same]
    exact inner

/-! ## Code and nonces -/

theorem identity_updateStorage (account : Account .Yul) (spos sval : UInt256) :
    (Account.identity .Yul).kept account (account.updateStorage spos sval) := by
  simp only [Account.updateStorage]
  split <;> exact ⟨rfl, rfl⟩

theorem identity_updateTransientStorage (account : Account .Yul) (spos sval : UInt256) :
    (Account.identity .Yul).kept account (account.updateTransientStorage spos sval) := by
  simp only [Account.updateTransientStorage]
  split <;> exact ⟨rfl, rfl⟩

/-- No step but a loss changes code or nonces. -/
theorem Step.identity {before after : World} (step : Step before after)
    (kept : ¬Loss before after) :
    (Account.identity .Yul).Evolves before.accountMap after.accountMap := by
  cases step with
  | addAccessedAccount addr => exact .refl _
  | addAccessedStorageKey key => exact .refl _
  | sstore perm spos sval =>
      exact evolves_sstore before fun account => identity_updateStorage account spos sval
  | tstore perm spos sval =>
      exact evolves_tstore before fun account =>
        identity_updateTransientStorage account spos sval
  | log perm topics data => exact .refl _
  | selfdestruct perm r =>
      exact evolves_selfdestruct before r (fun _ _ => ⟨rfl, rfl⟩) fun _ => ⟨rfl, rfl⟩
  | transfer toAddr value allowed paid => exact AccountMap.identity_of_transfer paid
  | becomeStatic => exact .refl _
  | lose => exact (kept rfl).elim

theorem Enters.accountMap_eq {outer start : World} (enters : Enters outer start) :
    start.accountMap = outer.accountMap := by
  cases enters
  rfl

/-- The accounts are passed on, whichever environment goes with them. -/
theorem Leaves.accountMap_eq {outer last after : World} (leaves : Leaves outer last after) :
    after.accountMap = last.accountMap := by
  cases leaves <;> rfl

/-- A relation between account maps passes through calls. -/
theorem nested_of_accountMaps {R : AccountMap .Yul → AccountMap .Yul → Prop}
    {outer start last after : World} (entered : Enters outer start)
    (inner : R start.accountMap last.accountMap) (left : Leaves outer last after) :
    R outer.accountMap after.accountMap := by
  rw [← entered.accountMap_eq, left.accountMap_eq]
  exact inner

/-- No run deploys, changes or deletes code, or changes a nonce. -/
theorem identity_absorbs : (system.without Loss).Absorbs fun before after =>
    (Account.identity .Yul).Evolves before.accountMap after.accountMap :=
  absorbs_without_loss (fun _ => .refl _) (fun first second => first.trans second) Step.identity
    (nested_of_accountMaps (R := (Account.identity .Yul).Evolves))

/-! ## Static mode -/

/-- In static mode accounts are kept as they are.  A call that transfers nothing may still
create the account of its receiver. -/
def unwritten : Evolution (Account .Yul) where
  kept before after := after = before
  fresh account := account = default
  refl := fun _ => rfl
  trans := fun _ _ _ first second => second.trans first
  stays := fun _ _ fresh kept => kept.trans fresh

/-- What static mode keeps. -/
structure Static (before after : World) : Prop where
  perm : after.executionEnv.perm = false
  accounts : unwritten.Evolves before.accountMap after.accountMap
  logSeries : after.substate.logSeries = before.substate.logSeries
  selfDestructSet : after.substate.selfDestructSet = before.substate.selfDestructSet
  refundBalance : after.substate.refundBalance = before.substate.refundBalance

theorem Static.of_accountMap {before : World} (perm : before.executionEnv.perm = false)
    {accountMap : AccountMap .Yul} (accounts : unwritten.Evolves before.accountMap accountMap) :
    Static before { before with accountMap } :=
  ⟨perm, accounts, rfl, rfl, rfl⟩

/-- A transfer of nothing writes nothing. -/
theorem unwritten_of_transfer {σ σ' : AccountMap .Yul} {fromAddr toAddr : AccountAddress}
    (paid : AccountMap.transferBalance .Yul σ fromAddr toAddr ⟨0⟩ = some σ') :
    unwritten.Evolves σ σ' := by
  apply AccountMap.evolves_of_transfer paid
  · intro account _
    rw [UInt256.sub_zero_eq]
    exact unwritten.refl account
  · intro account
    rw [UInt256.add_zero_eq]
    exact unwritten.refl account
  · rfl

/-- Without permission only accesses and transfers of nothing are left, and losses. -/
theorem Step.static {before after : World} (step : Step before after)
    (kept : ¬Loss before after) (perm : before.executionEnv.perm = false) :
    Static before after := by
  have impossible (allowed : before.executionEnv.perm = true) : Static before after := by
    rw [perm] at allowed
    cases allowed
  cases step with
  | addAccessedAccount addr => exact ⟨perm, .refl _, rfl, rfl, rfl⟩
  | addAccessedStorageKey key => exact ⟨perm, .refl _, rfl, rfl, rfl⟩
  | sstore allowed spos sval => exact impossible allowed
  | tstore allowed spos sval => exact impossible allowed
  | log allowed topics data => exact impossible allowed
  | selfdestruct allowed r => exact impossible allowed
  | transfer toAddr value allowed paid =>
      have zero : value = ⟨0⟩ := by
        apply allowed.resolve_left
        rw [perm]
        exact Bool.false_ne_true
      subst zero
      exact .of_accountMap perm (unwritten_of_transfer paid)
  | becomeStatic => exact ⟨rfl, .refl _, rfl, rfl, rfl⟩
  | lose => exact (kept rfl).elim

theorem Static.trans {first second third : World} (static : Static first second)
    (rest : Static second third) : Static first third where
  perm := rest.perm
  accounts := static.accounts.trans rest.accounts
  logSeries := rest.logSeries.trans static.logSeries
  selfDestructSet := rest.selfDestructSet.trans static.selfDestructSet
  refundBalance := rest.refundBalance.trans static.refundBalance

/-- Static mode is handed on to callees. -/
theorem Enters.perm_eq_false {outer start : World} (enters : Enters outer start)
    (perm : outer.executionEnv.perm = false) : start.executionEnv.perm = false := by
  cases enters with
  | call source weiValue calldata found shallow owner allowed =>
      apply Bool.eq_false_iff.mpr
      intro permitted
      rw [allowed permitted] at perm
      cases perm

/-- And it is kept when they return. -/
theorem Leaves.perm_eq_false {outer last after : World} (leaves : Leaves outer last after)
    (perm : outer.executionEnv.perm = false) (perm' : last.executionEnv.perm = false) :
    after.executionEnv.perm = false := by
  cases leaves with
  | resume kept =>
      rcases kept with same | same
      · exact same.trans perm'
      · exact same.trans perm
  | leak => exact perm'

theorem Enters.substate_eq {outer start : World} (enters : Enters outer start) :
    start.substate = outer.substate := by
  cases enters
  rfl

theorem Leaves.substate_eq {outer last after : World} (leaves : Leaves outer last after) :
    after.substate = last.substate := by
  cases leaves <;> rfl

/-- No run leaves static mode, or writes anything in it. -/
theorem static_absorbs : (system.without Loss).Absorbs fun before after =>
    before.executionEnv.perm = false → Static before after := by
  apply absorbs_without_loss
  · exact fun world perm => ⟨perm, .refl _, rfl, rfl, rfl⟩
  · exact fun first second perm => (first perm).trans (second (first perm).perm)
  · exact fun step kept perm => step.static kept perm
  · intro outer start last after entered inner left perm
    have static := inner (entered.perm_eq_false perm)
    have substate := left.substate_eq
    exact
      { perm := left.perm_eq_false perm static.perm
        accounts := nested_of_accountMaps entered static.accounts left
        logSeries := by rw [substate, static.logSeries, entered.substate_eq]
        selfDestructSet := by rw [substate, static.selfDestructSet, entered.substate_eq]
        refundBalance := by rw [substate, static.refundBalance, entered.substate_eq] }

/-! ## The substate -/

/-- What has been touched, logged or marked stays so. -/
structure Grown (before after : Substate) : Prop where
  logSeries : before.logSeries.toList <+: after.logSeries.toList
  selfDestructSet : before.selfDestructSet ⊆ after.selfDestructSet
  accessedAccounts : before.accessedAccounts ⊆ after.accessedAccounts
  accessedStorageKeys : before.accessedStorageKeys ⊆ after.accessedStorageKeys

theorem Grown.refl (substate : Substate) : Grown substate substate :=
  ⟨List.prefix_refl _, Finset.Subset.refl _, Finset.Subset.refl _, Finset.Subset.refl _⟩

theorem Grown.trans {first second third : Substate} (grown : Grown first second)
    (rest : Grown second third) : Grown first third where
  logSeries := grown.logSeries.trans rest.logSeries
  selfDestructSet := grown.selfDestructSet.trans rest.selfDestructSet
  accessedAccounts := grown.accessedAccounts.trans rest.accessedAccounts
  accessedStorageKeys := grown.accessedStorageKeys.trans rest.accessedStorageKeys

/-- Storing a word concerns the accounts and the substate only. -/
theorem exists_sstore (world : World) (spos sval : UInt256) :
    ∃ accountMap substate, world.sstore spos sval = { world with accountMap, substate } ∧
      Grown world.substate substate := by
  cases present : world.lookupAccount world.executionEnv.codeOwner with
  | none =>
      simp only [YulGasRules.State.sstore, present, Option.elim_none]
      exact ⟨world.accountMap, world.substate, rfl, .refl _⟩
  | some account =>
      simp only [YulGasRules.State.sstore, present, Option.elim_some]
      exact ⟨_, _, rfl, { Grown.refl world.substate with
        accessedStorageKeys := Finset.subset_insert _ _ }⟩

theorem exists_tstore (world : World) (spos sval : UInt256) :
    ∃ accountMap, world.tstore spos sval = { world with accountMap } := by
  cases present : world.lookupAccount world.executionEnv.codeOwner with
  | none =>
      simp only [YulGasRules.State.tstore, present, Option.elim_none]
      exact ⟨world.accountMap, rfl⟩
  | some account =>
      simp only [YulGasRules.State.tstore, present, Option.elim_some]
      exact ⟨_, rfl⟩

/-- No step but a loss shortens the substate. -/
theorem Step.grown {before after : World} (step : Step before after)
    (kept : ¬Loss before after) : Grown before.substate after.substate := by
  cases step with
  | addAccessedAccount addr =>
      exact { Grown.refl before.substate with
        accessedAccounts := Finset.subset_insert addr _ }
  | addAccessedStorageKey key =>
      exact { Grown.refl before.substate with
        accessedStorageKeys := Finset.subset_insert key _ }
  | sstore perm spos sval =>
      rcases exists_sstore before spos sval with ⟨accountMap, substate, same, grown⟩
      rw [same]
      exact grown
  | tstore perm spos sval =>
      rcases exists_tstore before spos sval with ⟨accountMap, same⟩
      rw [same]
      exact .refl _
  | log perm topics data =>
      exact { Grown.refl before.substate with
        logSeries := by
          simp only [World.log, Array.toList_push]
          exact List.prefix_append _ _ }
  | selfdestruct perm r =>
      exact { Grown.refl before.substate with
        selfDestructSet := Finset.subset_insert _ _
        accessedAccounts := Finset.subset_insert r _ }
  | transfer toAddr value allowed paid => exact .refl _
  | becomeStatic => exact .refl _
  | lose => exact (kept rfl).elim

/-- No run takes back a log entry or forgets an access. -/
theorem grown_absorbs : (system.without Loss).Absorbs fun before after =>
    Grown before.substate after.substate := by
  apply absorbs_without_loss
  · exact fun world => .refl world.substate
  · exact fun first second => first.trans second
  · exact Step.grown
  · intro outer start last after entered inner left
    rw [left.substate_eq, ← entered.substate_eq]
    exact inner

/-! ## The transaction -/

/-- What stays the same while a transaction runs.  The depth is not restored after a call,
so that the limit is one on the number of calls as well as on their nesting. -/
structure SameTransaction (before after : World) : Prop where
  σ₀ : after.σ₀ = before.σ₀
  blocks : after.blocks = before.blocks
  header : after.executionEnv.header = before.executionEnv.header
  sender : after.executionEnv.sender = before.executionEnv.sender
  gasPrice : after.executionEnv.gasPrice = before.executionEnv.gasPrice
  blobVersionedHashes :
    after.executionEnv.blobVersionedHashes = before.executionEnv.blobVersionedHashes
  depth : before.executionEnv.depth ≤ after.executionEnv.depth
  limit : before.executionEnv.depth ≤ 1024 → after.executionEnv.depth ≤ 1024

/-- Where the environment is the same, so is the transaction. -/
theorem SameTransaction.of_eq {before after : World} (σ₀ : after.σ₀ = before.σ₀)
    (blocks : after.blocks = before.blocks)
    (env : after.executionEnv = before.executionEnv) : SameTransaction before after := by
  constructor
  case σ₀ => exact σ₀
  case blocks => exact blocks
  all_goals
    rw [env]
    try exact id

theorem SameTransaction.trans {first second third : World} (same : SameTransaction first second)
    (rest : SameTransaction second third) : SameTransaction first third where
  σ₀ := rest.σ₀.trans same.σ₀
  blocks := rest.blocks.trans same.blocks
  header := rest.header.trans same.header
  sender := rest.sender.trans same.sender
  gasPrice := rest.gasPrice.trans same.gasPrice
  blobVersionedHashes := rest.blobVersionedHashes.trans same.blobVersionedHashes
  depth := same.depth.trans rest.depth
  limit := fun shallow => rest.limit (same.limit shallow)

/-- No step but a loss concerns the transaction. -/
theorem Step.sameTransaction {before after : World} (step : Step before after)
    (kept : ¬Loss before after) : SameTransaction before after := by
  cases step with
  | addAccessedAccount addr => exact .of_eq rfl rfl rfl
  | addAccessedStorageKey key => exact .of_eq rfl rfl rfl
  | sstore perm spos sval =>
      rcases exists_sstore before spos sval with ⟨accountMap, substate, same, _⟩
      rw [same]
      exact .of_eq rfl rfl rfl
  | tstore perm spos sval =>
      rcases exists_tstore before spos sval with ⟨accountMap, same⟩
      rw [same]
      exact .of_eq rfl rfl rfl
  | log perm topics data => exact .of_eq rfl rfl rfl
  | selfdestruct perm r => exact .of_eq rfl rfl rfl
  | transfer toAddr value allowed paid => exact .of_eq rfl rfl rfl
  | becomeStatic => exact ⟨rfl, rfl, rfl, rfl, rfl, rfl, Nat.le_refl _, id⟩
  | lose => exact (kept rfl).elim

/-- A call is made below the limit, and is one deeper. -/
theorem Enters.sameTransaction {outer start : World} (enters : Enters outer start) :
    SameTransaction outer start := by
  cases enters with
  | call source weiValue calldata found shallow owner allowed =>
      exact ⟨rfl, rfl, rfl, rfl, rfl, rfl, Nat.le_succ _, fun _ => shallow⟩

theorem Leaves.sameTransaction {outer last after : World} (leaves : Leaves outer last after) :
    SameTransaction last after := by
  cases leaves <;> exact ⟨rfl, rfl, rfl, rfl, rfl, rfl, Nat.le_refl _, id⟩

/-- No run leaves its transaction, takes back the depth of a call or exceeds the limit. -/
theorem sameTransaction_absorbs : (system.without Loss).Absorbs SameTransaction :=
  absorbs_without_loss (fun _ => .of_eq rfl rfl rfl) .trans Step.sameTransaction
    fun entered inner left =>
      (entered.sameTransaction.trans inner).trans left.sameTransaction

end World

/-! ## What no evaluation changes -/

/-- Every world that the outcome shows, when the code ends or halts, satisfies `P`. -/
def ShowsOnly (P : World → Prop) : Except Exception State → Prop :=
  Ends (fun final => P final.world) (fun exception => ∀ world, exception.Shows world → P world)

section Evaluation

variable [FFI] (codeOverride : Option YulContract) (fuel : Nat) (stmt : Stmt) (state : State)

/-- What all runs have in common shows in every evaluation. -/
theorem exec_showsOnly {R : World → World → Prop}
    (contains : ∀ {before after}, World.system.Runs before after → R before after) :
    ShowsOnly (R state.world) (exec fuel stmt codeOverride state) :=
  (exec_reaches codeOverride fuel stmt state).ends contains

/-- Whatever a statement does and calls, the balances do not add up to more than before. -/
theorem exec_totalBalance_le :
    ShowsOnly (fun world =>
        world.accountMap.totalBalance ≤ state.world.accountMap.totalBalance)
      (exec fuel stmt codeOverride state) :=
  exec_showsOnly codeOverride fuel stmt state World.totalBalance_absorbs.of_runs

/-- Whatever a statement does and calls, accounts keep their code and their nonce, and new
accounts have none, unless the world is lost on the way. -/
theorem exec_identity :
    ShowsOnly (fun world => state.world.Loses world ∨
        (Account.identity .Yul).Evolves state.world.accountMap world.accountMap)
      (exec fuel stmt codeOverride state) :=
  exec_showsOnly codeOverride fuel stmt state World.identity_absorbs.of_runs_unless

/-- Log entries and records of accesses and destructions only ever accumulate, unless the
world is lost on the way. -/
theorem exec_grown :
    ShowsOnly (fun world => state.world.Loses world ∨
        World.Grown state.world.substate world.substate)
      (exec fuel stmt codeOverride state) :=
  exec_showsOnly codeOverride fuel stmt state World.grown_absorbs.of_runs_unless

/-- Block and transaction stay the same, and the depth grows up to the limit, unless the
world is lost on the way, and the depth with it. -/
theorem exec_sameTransaction :
    ShowsOnly (fun world => state.world.Loses world ∨ state.world.SameTransaction world)
      (exec fuel stmt codeOverride state) :=
  exec_showsOnly codeOverride fuel stmt state World.sameTransaction_absorbs.of_runs_unless

/-- In static mode nothing is written, logged or destroyed, by any contract called, unless
the world is lost on the way. -/
theorem exec_static (perm : state.world.executionEnv.perm = false) :
    ShowsOnly (fun world => state.world.Loses world ∨ state.world.Static world)
      (exec fuel stmt codeOverride state) := by
  apply (exec_showsOnly codeOverride fuel stmt state World.static_absorbs.of_runs_unless).mono
  · exact fun final shown => shown.imp_right fun static => static perm
  · exact fun exception each world shows =>
      (each world shows).imp_right fun static => static perm

end Evaluation

/-- `pop(call(0, addr, 0, 0, 0, 0, 0))` -/
def ping (addr : UInt256) : Stmt :=
  .ExprStmtCall (.Call (.inl .CALL)
    [.Lit ⟨0⟩, .Lit addr, .Lit ⟨0⟩, .Lit ⟨0⟩, .Lit ⟨0⟩, .Lit ⟨0⟩, .Lit ⟨0⟩])

/-- A contract that calls account 2 and halts. -/
def pinging : YulContract := ⟨.Block [ping ⟨2⟩, .ExprStmtCall (.Call (.inl .STOP) [])], ∅⟩

/-- Account 0 runs in static mode, and account 1 has code.  There is no account 2. -/
def staticShared : SharedState .Yul :=
  { (default : SharedState .Yul) with
    accountMap := ((∅ : AccountMap .Yul).insert 0 default).insert 1
      { (default : Account .Yul) with code := pinging }
    executionEnv := { (default : ExecutionEnv .Yul) with perm := false } }

/-- The contract that is called from static mode stays in it, and the account that it
calls in turn is created, with nothing in it. -/
theorem exec_static_ping :
    ∃ final, @exec ⟨fun _ => ByteArray.empty⟩ 25 (ping ⟨1⟩) none (.Ok staticShared default) =
        .ok final ∧
      final.world.accountMap.lookup 2 = some default ∧
      World.Static staticShared.toState final.world := by
  have shows := @exec_static ⟨fun _ => ByteArray.empty⟩ none 25 (ping ⟨1⟩)
    (.Ok staticShared default) rfl
  obtain ⟨final, ends, created⟩ :
      ∃ final, @exec ⟨fun _ => ByteArray.empty⟩ 25 (ping ⟨1⟩) none (.Ok staticShared default) =
          .ok final ∧ final.world.accountMap.lookup 2 = some default :=
    ⟨_, rfl, rfl⟩
  rw [ends] at shows
  rcases shows with loses | static
  · rw [loses.lost.lookup_eq_none] at created
    cases created
  · exact ⟨final, ends, created, static⟩

end YulGasRules.Yul
