import YulGasRules.Yul.State

/-!
# The code of the running contract

A call of a user function looks the function up in the code of the account that
owns the running code.  That code is followed here through the updates of a state:
the variable store and the memory play no part in it, and an instruction that
writes to an account leaves the account's code alone.

Only an ordinary state can have running code.  The others show an empty account
map, as the default state does.
-/

namespace YulGasRules

namespace State

/-- The code that the account of the running contract holds, if there is one. -/
def runningCode (self : State .Yul) : Option Yul.YulContract :=
  (self.accountMap.lookup self.executionEnv.codeOwner).map (·.code)

variable (self : State .Yul)

/-- An account can be replaced by one with the same code. -/
theorem runningCode_insert {addr : AccountAddress} {old new : Account .Yul}
    (present : self.accountMap.lookup addr = some old) (same : new.code = old.code) :
    runningCode { self with accountMap := self.accountMap.insert addr new } =
      self.runningCode := by
  simp only [runningCode]
  by_cases owner : self.executionEnv.codeOwner = addr
  · subst owner
    simp only [Finmap.lookup_insert, present, Option.map_some, same]
  · simp only [Finmap.lookup_insert_of_ne _ owner]

/-- Storage is no part of the code. -/
@[simp] theorem code_updateStorage (account : Account .Yul) (k v : UInt256) :
    (account.updateStorage k v).code = account.code := by
  simp only [Account.updateStorage]
  split <;> rfl

@[simp] theorem code_updateTransientStorage (account : Account .Yul) (k v : UInt256) :
    (account.updateTransientStorage k v).code = account.code := by
  simp only [Account.updateTransientStorage]
  split <;> rfl

/-- Storing a word keeps the code that runs. -/
theorem runningCode_sstore (spos sval : UInt256) :
    (self.sstore spos sval).runningCode = self.runningCode := by
  cases present : self.lookupAccount self.executionEnv.codeOwner with
  | none => simp only [sstore, present, Option.elim_none]
  | some account =>
      simp only [sstore, present, Option.elim_some]
      exact self.runningCode_insert present (code_updateStorage account spos sval)

theorem runningCode_tstore (spos sval : UInt256) :
    (self.tstore spos sval).runningCode = self.runningCode := by
  cases present : self.lookupAccount self.executionEnv.codeOwner with
  | none => simp only [tstore, present, Option.elim_none]
  | some account =>
      simp only [tstore, present, Option.elim_some]
      exact self.runningCode_insert present (code_updateTransientStorage account spos sval)

end State

namespace Yul

/-- The code that the account of the running contract holds, if there is one. -/
def State.runningCode (state : State) : Option YulContract :=
  state.toState.runningCode

section Updates

variable (state : State)

/-- No code runs where there is no account. -/
@[simp] theorem runningCode_default : (default : State).runningCode = none := rfl

theorem runningCode_eq_lookup :
    state.runningCode =
      (state.sharedState.accountMap.lookup state.executionEnv.codeOwner).map (·.code) := by
  cases state <;> rfl

@[simp] theorem runningCode_insert (var : Identifier) (val : Literal) :
    (state.insert var val).runningCode = state.runningCode := by
  cases state <;> rfl

theorem runningCode_toSharedState :
    state.toSharedState.toState.runningCode = state.runningCode := by
  cases state <;> rfl

/-- The shared part decides on the code that runs. -/
theorem runningCode_setSharedState {shared : SharedState .Yul}
    (same : shared.toState.runningCode = state.runningCode) :
    (state.setSharedState shared).runningCode = state.runningCode := by
  cases state with
  | Ok shared store => exact same
  | OutOfFuel => rfl
  | Checkpoint jump => rfl

@[simp] theorem runningCode_multifill (vars : List Identifier) (vals : List Literal) :
    (state.multifill vars vals).runningCode = state.runningCode := by
  cases state with
  | Ok shared store =>
      simp only [State.multifill]
      induction vars.zip vals with
      | nil => rfl
      | cons entry entries ih => exact (runningCode_insert _ _ _).trans ih
  | OutOfFuel => rfl
  | Checkpoint jump => rfl

@[simp] theorem runningCode_mkOk : state.mkOk.runningCode = state.runningCode := by
  cases state <;> rfl

/-- A user function runs in the same contract. -/
@[simp] theorem runningCode_initcall (params : List Identifier) (args : List Literal) :
    (state.initcall params args).runningCode = state.runningCode := by
  cases state with
  | Ok shared store => exact runningCode_multifill (.Ok shared default) params args
  | OutOfFuel => rfl
  | Checkpoint jump => rfl

end Updates

/-- A state with running code is ordinary. -/
theorem State.exists_ok_of_running {state : State} {code : YulContract}
    (running : state.runningCode = some code) : ∃ shared store, state = .Ok shared store := by
  cases state with
  | Ok shared store => exact ⟨shared, store, rfl⟩
  | OutOfFuel => cases running
  | Checkpoint jump => cases running

end Yul

end YulGasRules
