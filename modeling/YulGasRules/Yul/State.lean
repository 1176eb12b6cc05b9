import YulGasRules.Machine.Ops

/-!
# States of the Yul interpreter

A state is ordinary, out of fuel, or a checkpoint left behind by a jump.  All
updates act on ordinary states and leave the others alone, while reads of the
others see default values; in particular a checkpoint shows an empty account map.
-/

namespace YulGasRules.Yul

/-- The variables in scope with their values. -/
abbrev VarStore := Finmap fun _ : Identifier => Literal

/-- What outlives the running code: the accounts, the substate and the environment. -/
abbrev World := YulGasRules.State .Yul

/-- A jump in control flow, with the state at jump-time. -/
inductive Jump where
  | Continue : SharedState .Yul → VarStore → Jump
  | Break : SharedState .Yul → VarStore → Jump
  | Leave : SharedState .Yul → VarStore → Jump

/-- The Yul `State`. -/
inductive State where
  | Ok : SharedState .Yul → VarStore → State
  | OutOfFuel : State
  | Checkpoint : Jump → State

instance : Inhabited State where
  default := .Ok default default

/-- The ways to stop before the end. -/
inductive Exception where
  | InvalidArguments : Exception
  | NotEncodableRLP : Exception
  | InvalidInstruction : Exception
  | OutOfFuel : Exception
  | StaticModeViolation : Exception
  | MissingContract (s : String) : Exception
  | MissingContractFunction (s : String) : Exception
  | InvalidExpression : Exception
  | YulEXTCODESIZENotImplemented : Exception
  | Revert : Exception
  | YulHalt (state : State) (value : UInt256) : Exception

namespace State

/-! ## Queries -/

/-- Only an ordinary state has a shared part, as the source reads it. -/
def sharedState : State → SharedState .Yul
  | Ok sharedState _ => sharedState
  | _ => default

/-- The shared part again, under the name that the coercion has. -/
def toSharedState : State → SharedState .Yul
  | Ok s _ => s
  | _ => default

def executionEnv : State → ExecutionEnv .Yul
  | Ok s _ => s.executionEnv
  | _ => default

def toMachineState : State → MachineState
  | Ok s _ => s.toMachineState
  | _ => default

def toState : State → YulGasRules.State .Yul
  | Ok s _ => s.toState
  | _ => default

/-- The variables of an ordinary state. -/
def store : State → VarStore
  | Ok _ store => store
  | _ => default

/-- Lookup the literal associated with a variable, `0` if not found. -/
def lookup! (var : Identifier) : State → Literal
  | Ok _ store => (store.lookup var).get!
  | Checkpoint (.Continue _ store) => (store.lookup var).get!
  | Checkpoint (.Break _ store) => (store.lookup var).get!
  | Checkpoint (.Leave _ store) => (store.lookup var).get!
  | _ => ⟨0⟩

instance : GetElem State Identifier Literal (fun s idx => idx ∈ s.store) where
  getElem s ident _ := s.lookup! ident

/-! ## Updates -/

/-- Insert an (identifier, literal) pair into the varstore. -/
def insert (var : Identifier) (val : Literal) : State → State
  | Ok sharedState store => Ok sharedState (store.insert var val)
  | s => s

/-- Zip a list of variables with a list of literals and insert right-to-left. -/
def multifill (vars : List Identifier) (vals : List Literal) : State → State
  | s@(Ok _ _) => (List.zip vars vals).foldr (fun (var, val) s => s.insert var val) s
  | s => s

/-- A state that is not ordinary stays as it is, here and in the updates below. -/
def setSharedState (sharedState : SharedState .Yul) : State → State
  | Ok _ store => Ok sharedState store
  | s => s

def setMachineState (mstate : MachineState) : State → State
  | Ok sstate store => Ok { sstate with toMachineState := mstate } store
  | s => s

def setState (state : YulGasRules.State .Yul) : State → State
  | Ok sstate store => Ok { sstate with toState := state } store
  | s => s

/-- Overwrite the varstore of some state. -/
def setStore (s s' : State) : State :=
  match s, s' with
  | Ok sharedState _, Ok _ store => Ok sharedState store
  | s, _ => s

/-- An ordinary state is put aside until the jump has been made. -/
def setContinue : State → State
  | Ok sharedState store => Checkpoint (.Continue sharedState store)
  | s => s

def setBreak : State → State
  | Ok sharedState store => Checkpoint (.Break sharedState store)
  | s => s

def setLeave : State → State
  | Ok sharedState store => Checkpoint (.Leave sharedState store)
  | s => s

/-- Initialize function parameters and return values in varstore. -/
def initcall (params : List Identifier) (args : List Literal) : State → State
  | s@(Ok _ _) => (s.setStore default).multifill params args
  | s => s

/-- Since it does not matter what happens if the state is a checkpoint, the
default is used. -/
def mkOk : State → State
  | Checkpoint _ => default
  | s => s

/-- Helper function for `reviveJump`. -/
def revive : Jump → State
  | .Continue sharedState store => Ok sharedState store
  | .Break sharedState store => Ok sharedState store
  | .Leave sharedState store => Ok sharedState store

/-- Revive the state saved in a jump. -/
def reviveJump : State → State
  | Checkpoint c => revive c
  | s => s

/-- If `s'` is not ordinary, overwrite `s` with `s'`. -/
def overwrite? (s s' : State) : State :=
  match s' with
  | Ok _ _ => s
  | _ => s'

end State

end YulGasRules.Yul
