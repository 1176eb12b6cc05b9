import YulGasRules.Collections.FiniteMaps
import YulGasRules.Fuel.Relation
import YulGasRules.Yul.Computation
import YulGasRules.Yul.Strangers
import YulGasRules.Yul.World

/-!
# States up to the codes of accounts

Two states are recodings of each other if they differ in the codes of accounts alone,
and these are related.  No operation tells the codes apart: whatever it reads, writes or
returns is the same on both sides, and the states that it leads to are recodings again.
Only a call of a function or of a contract looks into a code.

The related codes have to include the default one with itself, since fresh accounts hold
it.
-/

namespace YulGasRules.Yul

open Collections Fuel

/-! ## The relations -/

section Relations

variable (R : YulContract → YulContract → Prop)

/-- The accounts differ in their codes, which are related. -/
inductive AccountRecoded : Account .Yul → Account .Yul → Prop where
  | intro (account : Account .Yul) {code code' : YulContract} (codes : R code code') :
      AccountRecoded { account with code } { account with code := code' }

/-- Accounts at the same addresses, with recoded codes. -/
abbrev AccountsRecoded : AccountMap .Yul → AccountMap .Yul → Prop :=
  Corresponds (AccountRecoded R)

/-- The same world with other accounts and another running code. -/
def World.recode (world : World) (accountMap : AccountMap .Yul) (code : YulContract) : World :=
  { world with accountMap, executionEnv := { world.executionEnv with code } }

/-- The worlds differ in codes alone, those of accounts and the running one. -/
inductive WorldRecoded : World → World → Prop where
  | intro (world : World) {accountMap accountMap' : AccountMap .Yul}
      {code code' : YulContract} (accounts : AccountsRecoded R accountMap accountMap')
      (codes : R code code') :
      WorldRecoded (world.recode accountMap code) (world.recode accountMap' code')

/-- The states are of one kind and hold the same memory and the same variables. -/
inductive StateRecoded : State → State → Prop where
  | ok (machine : MachineState) (store : VarStore) {world world' : World}
      (worlds : WorldRecoded R world world') :
      StateRecoded (.Ok ⟨world, machine⟩ store) (.Ok ⟨world', machine⟩ store)
  | outOfFuel : StateRecoded .OutOfFuel .OutOfFuel
  | jump (kind : JumpKind) (machine : MachineState) (store : VarStore) {world world' : World}
      (worlds : WorldRecoded R world world') :
      StateRecoded (.Checkpoint (kind.jump ⟨world, machine⟩ store))
        (.Checkpoint (kind.jump ⟨world', machine⟩ store))

/-- Exceptions are the same, up to the state that a program halts in and the name of an
account or of a function that is not there. -/
inductive ExceptionRecoded : Exception → Exception → Prop where
  | same {exception : Exception} (silent : ∀ world, ¬exception.Shows world) :
      ExceptionRecoded exception exception
  | missing (name name' : String) :
      ExceptionRecoded (.MissingContract name) (.MissingContract name')
  | undefined (name name' : YulFunctionName) :
      ExceptionRecoded (.MissingContractFunction name) (.MissingContractFunction name')
  | halt {state state' : State} (recoded : StateRecoded R state state') (value : UInt256) :
      ExceptionRecoded (.YulHalt state value) (.YulHalt state' value)

/-- Outputs hold the same results. -/
def OutputsRecoded {α : Type} (output output' : State × α) : Prop :=
  StateRecoded R output.1 output'.1 ∧ output.2 = output'.2

/-- Results are the same, with recoded states. -/
abbrev OutcomesRecoded {α : Type} : Outcome α → Outcome α → Prop :=
  Related (OutputsRecoded R) (ExceptionRecoded R)

end Relations

variable {R : YulContract → YulContract → Prop}

/-! ### The other way round -/

section Symmetry

theorem AccountRecoded.symm {account account' : Account .Yul}
    (recoded : AccountRecoded R account account') :
    AccountRecoded (flip R) account' account := by
  cases recoded with
  | intro account codes => exact .intro account codes

theorem WorldRecoded.symm {world world' : World} (recoded : WorldRecoded R world world') :
    WorldRecoded (flip R) world' world := by
  cases recoded with
  | intro world accounts codes =>
      exact .intro world (accounts.symm.mono fun _ _ => AccountRecoded.symm) codes

/-- A recoding may be read the other way around. -/
theorem StateRecoded.symm {state state' : State} (recoded : StateRecoded R state state') :
    StateRecoded (flip R) state' state := by
  cases recoded with
  | ok machine store worlds => exact .ok machine store worlds.symm
  | outOfFuel => exact .outOfFuel
  | jump kind machine store worlds => exact .jump kind machine store worlds.symm

theorem ExceptionRecoded.symm {exception exception' : Exception}
    (recoded : ExceptionRecoded R exception exception') :
    ExceptionRecoded (flip R) exception' exception := by
  cases recoded with
  | same silent => exact .same silent
  | missing name name' => exact .missing name' name
  | undefined name name' => exact .undefined name' name
  | halt states value => exact .halt states.symm value

end Symmetry

/-! ### The same codes -/

section Reflexivity

theorem AccountsRecoded.refl (same : ∀ code, R code code) (σ : AccountMap .Yul) :
    AccountsRecoded R σ σ := by
  intro addr
  cases σ.lookup addr with
  | none => exact .none
  | some account => exact .some (.intro account (same account.code))

theorem WorldRecoded.refl (same : ∀ code, R code code) (world : World) :
    WorldRecoded R world world :=
  .intro world (.refl same world.accountMap) (same world.executionEnv.code)

/-- Nothing need be recoded. -/
theorem StateRecoded.refl (same : ∀ code, R code code) (state : State) :
    StateRecoded R state state := by
  cases state with
  | Ok shared store => exact .ok shared.toMachineState store (.refl same shared.toState)
  | OutOfFuel => exact .outOfFuel
  | Checkpoint jump =>
      cases jump with
      | Continue shared store =>
          exact .jump .Continue shared.toMachineState store (.refl same shared.toState)
      | Break shared store =>
          exact .jump .Break shared.toMachineState store (.refl same shared.toState)
      | Leave shared store =>
          exact .jump .Leave shared.toMachineState store (.refl same shared.toState)

theorem AccountRecoded.eq {account account' : Account .Yul}
    (recoded : AccountRecoded Eq account account') : account = account' := by
  cases recoded with
  | intro account codes => rw [codes]

/-- A recoding by equal codes changes nothing. -/
theorem WorldRecoded.eq {world world' : World} (worlds : WorldRecoded Eq world world') :
    world = world' := by
  cases worlds with
  | @intro world accountMap accountMap' _ _ accounts codes =>
      have same : accountMap = accountMap' := by
        apply Finmap.ext_lookup
        intro addr
        have found := accounts addr
        generalize accountMap.lookup addr = account, accountMap'.lookup addr = account' at found
        cases found with
        | none => rfl
        | some recoded => rw [recoded.eq]
      rw [same, codes]

/-- Recodings with the same codes are the same states. -/
theorem StateRecoded.eq {state state' : State} (states : StateRecoded Eq state state') :
    state = state' := by
  cases states with
  | ok machine store worlds => rw [worlds.eq]
  | outOfFuel => rfl
  | jump kind machine store worlds => rw [worlds.eq]

end Reflexivity

/-! ## Accounts -/

section Accounts

/-- An account without code is a recoding of itself. -/
theorem AccountRecoded.fresh (unset : R default default) (balance : UInt256) :
    AccountRecoded R { (default : Account .Yul) with balance }
      { (default : Account .Yul) with balance } :=
  .intro { (default : Account .Yul) with balance } unset

/-- Storage does not see the code. -/
theorem AccountRecoded.updateStorage {account account' : Account .Yul}
    (recoded : AccountRecoded R account account') (k v : UInt256) :
    AccountRecoded R (account.updateStorage k v) (account'.updateStorage k v) := by
  cases recoded with
  | intro account codes =>
      by_cases erased : v == default
      · simp only [Account.updateStorage, if_pos erased]
        exact .intro { account with storage := account.storage.erase k } codes
      · simp only [Account.updateStorage, if_neg erased]
        exact .intro { account with storage := account.storage.insert k v } codes

theorem AccountRecoded.updateTransientStorage {account account' : Account .Yul}
    (recoded : AccountRecoded R account account') (k v : UInt256) :
    AccountRecoded R (account.updateTransientStorage k v)
      (account'.updateTransientStorage k v) := by
  cases recoded with
  | intro account codes =>
      by_cases erased : v == default
      · simp only [Account.updateTransientStorage, if_pos erased]
        exact .intro { account with tstorage := account.tstorage.erase k } codes
      · simp only [Account.updateTransientStorage, if_neg erased]
        exact .intro { account with tstorage := account.tstorage.insert k v } codes

variable {σ σ' : AccountMap .Yul}

/-- What is read of an account is the same if its code does not matter. -/
theorem read_recoded {α : Type} (accounts : AccountsRecoded R σ σ') (addr : AccountAddress)
    (absent : α) (part : Account .Yul → α)
    (blind : ∀ (account : Account .Yul) (code : YulContract),
      part { account with code } = part account) :
    (σ.lookup addr).elim absent part = (σ'.lookup addr).elim absent part := by
  have found := accounts addr
  generalize σ.lookup addr = account, σ'.lookup addr = account' at found
  cases found with
  | none => rfl
  | some recoded =>
      cases recoded with
      | intro account codes => simp only [Option.elim_some, blind]

/-- A receiver that is created gets the code of a new account on both sides. -/
theorem increaseBalance_recoded (unset : R default default)
    (accounts : AccountsRecoded R σ σ') (addr : AccountAddress) (amount : UInt256) :
    AccountsRecoded R (AccountMap.increaseBalance .Yul σ addr amount)
      (AccountMap.increaseBalance .Yul σ' addr amount) := by
  have found := accounts addr
  simp only [AccountMap.increaseBalance]
  generalize σ.lookup addr = account, σ'.lookup addr = account' at found
  cases found with
  | none => exact accounts.insert addr (.fresh unset amount)
  | some recoded =>
      cases recoded with
      | intro account codes =>
          exact accounts.insert addr
            (.intro { account with balance := account.balance + amount } codes)

theorem decreaseBalance_recoded (accounts : AccountsRecoded R σ σ') (addr : AccountAddress)
    (amount : UInt256) :
    Option.Rel (AccountsRecoded R) (AccountMap.decreaseBalance .Yul σ addr amount)
      (AccountMap.decreaseBalance .Yul σ' addr amount) := by
  have found := accounts addr
  simp only [AccountMap.decreaseBalance]
  generalize σ.lookup addr = account, σ'.lookup addr = account' at found
  cases found with
  | none => exact .none
  | some recoded =>
      cases recoded with
      | intro account codes =>
          by_cases short : account.balance < amount
          · simp only [if_pos short]
            exact .none
          · simp only [if_neg short]
            exact .some (accounts.insert addr
              (.intro { account with balance := account.balance - amount } codes))

/-- A transfer succeeds on both sides or on none. -/
theorem transferBalance_recoded (unset : R default default)
    (accounts : AccountsRecoded R σ σ') (fromAddr toAddr : AccountAddress)
    (amount : UInt256) :
    Option.Rel (AccountsRecoded R)
      (AccountMap.transferBalance .Yul σ fromAddr toAddr amount)
      (AccountMap.transferBalance .Yul σ' fromAddr toAddr amount) := by
  have paid := decreaseBalance_recoded accounts fromAddr amount
  simp only [AccountMap.transferBalance]
  generalize AccountMap.decreaseBalance .Yul σ fromAddr amount = less,
    AccountMap.decreaseBalance .Yul σ' fromAddr amount = less' at paid
  cases paid with
  | none => exact .none
  | some remaining => exact .some (increaseBalance_recoded unset remaining toAddr amount)

end Accounts

/-! ## Worlds -/

namespace WorldRecoded

/-- The default world holds no code but the default. -/
theorem unset (same : R default default) : WorldRecoded R default default :=
  .intro default (.empty _) same

variable {world world' : World}

theorem accounts (worlds : WorldRecoded R world world') :
    AccountsRecoded R world.accountMap world'.accountMap := by
  cases worlds with
  | intro world accounts codes => exact accounts

theorem codes (worlds : WorldRecoded R world world') :
    R world.executionEnv.code world'.executionEnv.code := by
  cases worlds with
  | intro world accounts codes => exact codes

/-- What is neither accounts nor code is the same. -/
theorem same {α : Type} (worlds : WorldRecoded R world world') (part : World → α)
    (blind : ∀ (world : World) accountMap code,
      part (world.recode accountMap code) = part world) : part world = part world' := by
  cases worlds with
  | intro world accounts codes => rw [blind, blind]

/-- The running codes are recodings of each other, or none runs on either side. -/
theorem runningCode (worlds : WorldRecoded R world world') :
    Option.Rel R world.runningCode world'.runningCode := by
  cases worlds with
  | @intro world accountMap accountMap' _ _ accounts _ =>
      have found := accounts world.executionEnv.codeOwner
      simp only [YulGasRules.State.runningCode, World.recode]
      generalize accountMap.lookup _ = account, accountMap'.lookup _ = account' at found
      cases found with
      | none => exact .none
      | some recoded =>
          cases recoded with
          | intro account codes => exact .some codes

/-! ### Operations -/

/-- Accounts that a transfer has changed are put in on both sides. -/
theorem withAccounts (worlds : WorldRecoded R world world')
    {accountMap accountMap' : Option (AccountMap .Yul)}
    (maps : Option.Rel (AccountsRecoded R) accountMap accountMap') :
    WorldRecoded R { world with accountMap := accountMap.getD world.accountMap }
      { world' with accountMap := accountMap'.getD world'.accountMap } := by
  cases worlds with
  | intro world kept codes =>
      cases maps with
      | some accounts => exact .intro world accounts codes
      | none => exact .intro world kept codes

theorem addAccessedAccount (worlds : WorldRecoded R world world') (addr : AccountAddress) :
    WorldRecoded R (world.addAccessedAccount addr) (world'.addAccessedAccount addr) := by
  cases worlds with
  | intro world accounts codes => exact .intro (world.addAccessedAccount addr) accounts codes

theorem balance (worlds : WorldRecoded R world world') (k : UInt256) :
    WorldRecoded R (world.balance k).1 (world'.balance k).1 ∧
      (world.balance k).2 = (world'.balance k).2 :=
  ⟨worlds.addAccessedAccount _, read_recoded worlds.accounts _ _ _ fun _ _ => rfl⟩

theorem selfbalance_eq (worlds : WorldRecoded R world world') :
    world.selfbalance = world'.selfbalance := by
  cases worlds with
  | intro world accounts codes => exact read_recoded accounts _ _ _ fun _ _ => rfl

theorem sload (worlds : WorldRecoded R world world') (spos : UInt256) :
    WorldRecoded R (world.sload spos).1 (world'.sload spos).1 ∧
      (world.sload spos).2 = (world'.sload spos).2 := by
  cases worlds with
  | intro world accounts codes =>
      exact ⟨.intro (world.addAccessedStorageKey (world.executionEnv.codeOwner, spos)) accounts
        codes, read_recoded accounts _ _ _ fun _ _ => rfl⟩

theorem tload (worlds : WorldRecoded R world world') (spos : UInt256) :
    WorldRecoded R (world.tload spos).1 (world'.tload spos).1 ∧
      (world.tload spos).2 = (world'.tload spos).2 := by
  cases worlds with
  | intro world accounts codes =>
      exact ⟨.intro world accounts codes, read_recoded accounts _ _ _ fun _ _ => rfl⟩

theorem tstore (worlds : WorldRecoded R world world') (spos sval : UInt256) :
    WorldRecoded R (world.tstore spos sval) (world'.tstore spos sval) := by
  cases worlds with
  | @intro world accountMap accountMap' _ _ accounts codes =>
      have found := accounts world.executionEnv.codeOwner
      simp only [YulGasRules.State.tstore, YulGasRules.State.lookupAccount, World.recode]
      generalize accountMap.lookup _ = account, accountMap'.lookup _ = account' at found
      cases found with
      | none => exact .intro world accounts codes
      | some recoded =>
          exact .intro world (accounts.insert _ (recoded.updateTransientStorage spos sval)) codes

theorem sstore (worlds : WorldRecoded R world world') (spos sval : UInt256) :
    WorldRecoded R (world.sstore spos sval) (world'.sstore spos sval) := by
  cases worlds with
  | @intro world accountMap accountMap' _ _ accounts codes =>
      have found := accounts world.executionEnv.codeOwner
      -- the refund depends on the old storage, which both accounts share
      generalize present : accountMap.lookup _ = account,
        present' : accountMap'.lookup _ = account' at found
      cases found with
      | none =>
          simp only [YulGasRules.State.sstore, YulGasRules.State.lookupAccount, World.recode,
            present, present', Option.elim_none]
          exact .intro world accounts codes
      | some recoded =>
          have written := recoded.updateStorage spos sval
          cases recoded with
          | intro account related =>
              simp only [YulGasRules.State.sstore, YulGasRules.State.lookupAccount,
                World.recode, present, present', Option.elim_some, Option.getD_some]
              exact .intro
                { world.addAccessedStorageKey (world.executionEnv.codeOwner, spos) with
                  substate.refundBalance := _ }
                (accounts.insert _ written) codes

/-- Self-destruction does not see the code. -/
theorem selfdestruct (unset : R default default) (worlds : WorldRecoded R world world')
    (r : AccountAddress) : WorldRecoded R (world.selfdestruct r) (world'.selfdestruct r) := by
  cases worlds with
  | @intro world accountMap accountMap' code code' accounts codes =>
      suffices destroyed : AccountsRecoded R
          (selfdestructAccountMap (world.recode accountMap code) world.executionEnv.codeOwner r)
          (selfdestructAccountMap (world.recode accountMap' code') world.executionEnv.codeOwner
            r) from .intro (world.selfdestruct r) destroyed codes
      have owner := accounts world.executionEnv.codeOwner
      have receiver := accounts r
      simp only [selfdestructAccountMap, YulGasRules.State.lookupAccount, World.recode]
      generalize accountMap.lookup world.executionEnv.codeOwner = owned,
        accountMap'.lookup world.executionEnv.codeOwner = owned' at owner
      generalize accountMap.lookup r = received, accountMap'.lookup r = received' at receiver
      cases owner with
      | none => exact accounts
      | some owner =>
          cases owner with
          | intro owner related =>
              have emptied : AccountRecoded R _ _ :=
                .intro { owner with balance := ⟨0⟩ } related
              cases receiver with
              | none =>
                  dsimp only
                  split
                  · exact accounts
                  · exact (accounts.insert r (.fresh unset owner.balance)).insert _ emptied
              | some receiver =>
                  cases receiver with
                  | intro receiver related =>
                      dsimp only
                      split
                      · exact (accounts.insert r (.intro
                          { receiver with balance := receiver.balance + owner.balance }
                          related)).insert _ emptied
                      · exact (accounts.insert r
                          (.intro { receiver with balance := ⟨0⟩ } related)).insert _ emptied

end WorldRecoded

/-! ## States -/

namespace StateRecoded

variable {state state' : State}

/-! ### Reads -/

/-- Variables are read alike. -/
theorem read (states : StateRecoded R state state') (id : Identifier) :
    state[id]! = state'[id]! := by
  cases states with
  | ok machine store worlds => rw [State.getElem!_ok, State.getElem!_ok]
  | outOfFuel => rfl
  | jump kind machine store worlds => rfl

theorem lookup_eq (states : StateRecoded R state state') (var : Identifier) :
    state.lookup! var = state'.lookup! var := by
  cases states with
  | ok machine store worlds => rfl
  | outOfFuel => rfl
  | jump kind machine store worlds => cases kind <;> rfl

theorem toMachineState_eq (states : StateRecoded R state state') :
    state.toMachineState = state'.toMachineState := by
  cases states <;> rfl

/-- A state that is not ordinary has no world, on either side. -/
theorem toState (unset : R default default) (states : StateRecoded R state state') :
    WorldRecoded R state.toState state'.toState := by
  cases states with
  | ok machine store worlds => exact worlds
  | outOfFuel => exact .unset unset
  | jump kind machine store worlds => exact .unset unset

/-- What is read of the environment is the same if its code does not matter. -/
theorem env_eq {α : Type} (states : StateRecoded R state state')
    (part : ExecutionEnv .Yul → α) (blind : ∀ env code, part { env with code } = part env) :
    part state.executionEnv = part state'.executionEnv := by
  cases states with
  | ok machine store worlds =>
      exact worlds.same (fun world => part world.executionEnv) fun world _ code =>
        blind world.executionEnv code
  | outOfFuel => rfl
  | jump kind machine store worlds => rfl

theorem runningCode (unset : R default default) (states : StateRecoded R state state') :
    Option.Rel R state.runningCode state'.runningCode :=
  (states.toState unset).runningCode

/-- The codes of the environments are related. -/
theorem codes (unset : R default default) (states : StateRecoded R state state') :
    R state.executionEnv.code state'.executionEnv.code := by
  cases states with
  | ok machine store worlds => exact worlds.codes
  | outOfFuel => exact unset
  | jump kind machine store worlds => exact unset

/-! ### Updates -/

theorem insert (states : StateRecoded R state state') (var : Identifier) (val : Literal) :
    StateRecoded R (state.insert var val) (state'.insert var val) := by
  cases states with
  | ok machine store worlds => exact .ok machine (store.insert var val) worlds
  | outOfFuel => exact .outOfFuel
  | jump kind machine store worlds => exact .jump kind machine store worlds

/-- Variables are bound alike. -/
theorem multifill (states : StateRecoded R state state') (vars : List Identifier)
    (vals : List Literal) :
    StateRecoded R (state.multifill vars vals) (state'.multifill vars vals) := by
  cases states with
  | ok machine store worlds =>
      simp only [State.multifill]
      induction vars.zip vals with
      | nil => exact .ok machine store worlds
      | cons entry entries ih => exact ih.insert entry.1 entry.2
  | outOfFuel => exact .outOfFuel
  | jump kind machine store worlds => exact .jump kind machine store worlds

theorem declare (states : StateRecoded R state state') (vars : List Identifier) :
    StateRecoded R (vars.foldr (fun var state => state.insert var ⟨0⟩) state)
      (vars.foldr (fun var state => state.insert var ⟨0⟩) state') := by
  induction vars with
  | nil => exact states
  | cons var vars ih => exact ih.insert var ⟨0⟩

/-- New worlds and the same machine state may be put in. -/
theorem setSharedState (states : StateRecoded R state state') {shared shared' : SharedState .Yul}
    (worlds : WorldRecoded R shared.toState shared'.toState)
    (machines : shared.toMachineState = shared'.toMachineState) :
    StateRecoded R (state.setSharedState shared) (state'.setSharedState shared') := by
  cases shared
  cases shared'
  cases machines
  cases states with
  | ok _ store _ => exact .ok _ store worlds
  | outOfFuel => exact .outOfFuel
  | jump kind machine store worlds => exact .jump kind machine store worlds

/-- A jump of any kind is set alike. -/
theorem setJump (states : StateRecoded R state state') (kind : JumpKind)
    {set : State → State} (ordinary : ∀ shared store,
      set (.Ok shared store) = .Checkpoint (kind.jump shared store))
    (exhausted : set .OutOfFuel = .OutOfFuel) (pending : ∀ jump,
      set (.Checkpoint jump) = .Checkpoint jump) :
    StateRecoded R (set state) (set state') := by
  cases states with
  | ok machine store worlds =>
      rw [ordinary, ordinary]
      exact .jump kind machine store worlds
  | outOfFuel =>
      rw [exhausted]
      exact .outOfFuel
  | jump kind machine store worlds =>
      rw [pending, pending]
      exact .jump kind machine store worlds

theorem setStatic (states : StateRecoded R state state') (p : Bool) :
    StateRecoded R (setStatic state p) (setStatic state' p) := by
  cases states with
  | ok machine store worlds =>
      cases worlds with
      | intro world accounts codes =>
          exact .ok machine store (.intro (world.setPerm p) accounts codes)
  | outOfFuel => exact .outOfFuel
  | jump kind machine store worlds => exact .jump kind machine store worlds

/-! ### Frames -/

theorem mkOk (unset : R default default) (states : StateRecoded R state state') :
    StateRecoded R state.mkOk state'.mkOk := by
  cases states with
  | ok machine store worlds => exact .ok machine store worlds
  | outOfFuel => exact .outOfFuel
  | jump kind machine store worlds => exact .ok default default (.unset unset)

theorem reviveJump (states : StateRecoded R state state') :
    StateRecoded R state.reviveJump state'.reviveJump := by
  cases states with
  | ok machine store worlds => exact .ok machine store worlds
  | outOfFuel => exact .outOfFuel
  | jump kind machine store worlds => cases kind <;> exact .ok machine store worlds

/-- Whether the earlier state is kept depends on its kind. -/
theorem overwrite {before before' : State} (states : StateRecoded R state state')
    (earlier : StateRecoded R before before') :
    StateRecoded R (state.overwrite? before) (state'.overwrite? before') := by
  cases earlier with
  | ok machine store worlds => exact states
  | outOfFuel => exact .outOfFuel
  | jump kind machine store worlds => exact .jump kind machine store worlds

theorem setStore {other other' : State} (states : StateRecoded R state state')
    (others : StateRecoded R other other') :
    StateRecoded R (state.setStore other) (state'.setStore other') := by
  cases states with
  | ok machine store worlds =>
      cases others with
      | ok _ store _ => exact .ok machine store worlds
      | outOfFuel => exact .ok machine store worlds
      | jump kind _ _ _ => exact .ok machine store worlds
  | outOfFuel => exact .outOfFuel
  | jump kind machine store worlds => exact .jump kind machine store worlds

/-- A user function is entered alike. -/
theorem enterCall (unset : R default default) (definition : FunctionDefinition)
    (states : StateRecoded R state state') (args : List Literal) :
    StateRecoded R (enterCall definition (state, args))
      (enterCall definition (state', args)) := by
  cases states with
  | ok machine store worlds =>
      exact ((StateRecoded.ok machine default worlds).multifill definition.params args).mkOk
        unset
  | outOfFuel => exact .outOfFuel
  | jump kind machine store worlds => exact .ok default default (.unset unset)

/-- A call returns what its last state holds in the return variables. -/
theorem leaveCall (definition : FunctionDefinition) (states : StateRecoded R state state')
    {args : List Literal} {final final' : State} (finals : StateRecoded R final final') :
    OutputsRecoded R (leaveCall definition (state, args) final)
      (leaveCall definition (state', args) final') := by
  constructor
  · exact (finals.reviveJump.overwrite states).setStore states
  · apply List.map_congr_left
    intro var _
    exact finals.lookup_eq var

end StateRecoded

end YulGasRules.Yul
