import YulGasRules.Yul.State

/-!
# Semantics of the primitive operations

A primitive operation takes a state and its argument words to a new state and at
most one result word.  Most operations are instances of a few combinators, one
for each part of the state that the operation reads or replaces.
-/

namespace YulGasRules.Yul

/-- A primitive operation on states. -/
abbrev Transformer := State → List Literal → Except Exception (State × Option Literal)

/-- A function of one word, which leaves the state alone. -/
def execUnOp (f : UInt256 → UInt256) : Transformer
  | s, [a] => .ok (s, f a)
  | _, _ => .error .InvalidArguments

/-- A function of two words. -/
def execBinOp (f : UInt256 → UInt256 → UInt256) : Transformer
  | s, [a, b] => .ok (s, f a b)
  | _, _ => .error .InvalidArguments

/-- A function of three words. -/
def execTriOp (f : UInt256 → UInt256 → UInt256 → UInt256) : Transformer
  | s, [a, b, c] => .ok (s, f a b c)
  | _, _ => .error .InvalidArguments

/-- A value that is read of the environment, whatever the arguments. -/
def executionEnvOp (op : ExecutionEnv .Yul → UInt256) : Transformer :=
  fun yulState _ => .ok (yulState, some (op yulState.executionEnv))

/-- A value that is read of the environment by one word. -/
def unaryExecutionEnvOp (op : ExecutionEnv .Yul → UInt256 → UInt256) : Transformer
  | yulState, [a] => .ok (yulState, some (op yulState.executionEnv a))
  | _, _ => .error .InvalidArguments

/-- A value that is read of the machine state, whatever the arguments. -/
def machineStateOp (op : MachineState → UInt256) : Transformer :=
  fun yulState _ => .ok (yulState, some (op yulState.toMachineState))

/-- An update of the machine state by two words, without a result. -/
def binaryMachineStateOp (op : MachineState → UInt256 → UInt256 → MachineState) :
    Transformer
  | yulState, [a, b] =>
      .ok (yulState.setMachineState (op yulState.toMachineState a b), none)
  | _, _ => .error .InvalidArguments

/-- An update of the machine state by two words, with a result. -/
def binaryMachineStateOp' (op : MachineState → UInt256 → UInt256 → UInt256 × MachineState) :
    Transformer
  | yulState, [a, b] =>
      let (val, mState') := op yulState.toMachineState a b
      .ok (yulState.setMachineState mState', some val)
  | _, _ => .error .InvalidArguments

/-- An update of the machine state by three words. -/
def ternaryMachineStateOp
    (op : MachineState → UInt256 → UInt256 → UInt256 → MachineState) : Transformer
  | yulState, [a, b, c] =>
      .ok (yulState.setMachineState (op yulState.toMachineState a b c), none)
  | _, _ => .error .InvalidArguments

/-- An update of the world by two words. -/
def binaryStateOp
    (op : YulGasRules.State .Yul → UInt256 → UInt256 → YulGasRules.State .Yul) :
    Transformer
  | yulState, [a, b] => .ok (yulState.setState (op yulState.toState a b), none)
  | _, _ => .error .InvalidArguments

/-- A value that is read of the world, whatever the arguments. -/
def stateOp (op : YulGasRules.State .Yul → UInt256) : Transformer :=
  fun yulState _ => .ok (yulState, some (op yulState.toState))

/-- An update of the world by one word, with a result. -/
def unaryStateOp
    (op : YulGasRules.State .Yul → UInt256 → YulGasRules.State .Yul × UInt256) :
    Transformer
  | yulState, [lit] =>
      let (state', b) := op yulState.toState lit
      .ok (yulState.setSharedState { yulState.toSharedState with toState := state' }, some b)
  | _, _ => .error .InvalidArguments

/-- An update of world and machine state together by three words. -/
def ternaryCopyOp
    (op : SharedState .Yul → UInt256 → UInt256 → UInt256 → SharedState .Yul) : Transformer
  | yulState, [a, b, c] =>
      .ok (yulState.setSharedState (op yulState.toSharedState a b c), none)
  | _, _ => .error .InvalidArguments

/-- An entry is logged, with the topics that are given. -/
def yulLogOp (yulState : State) (a b : UInt256) (t : Array UInt256) :
    State × Option Literal :=
  (yulState.setSharedState (SharedState.logOp a b t yulState.toSharedState), none)

/-- At another number of arguments, `LOG0` succeeds and logs nothing, and so do the
others. -/
def log0Op : Transformer
  | yulState, [a, b] => .ok (yulLogOp yulState a b #[])
  | yulState, _ => .ok (yulState, none)

def log1Op : Transformer
  | yulState, [a, b, c] => .ok (yulLogOp yulState a b #[c])
  | yulState, _ => .ok (yulState, none)

def log2Op : Transformer
  | yulState, [a, b, c, d] => .ok (yulLogOp yulState a b #[c, d])
  | yulState, _ => .ok (yulState, none)

def log3Op : Transformer
  | yulState, [a, b, c, d, e] => .ok (yulLogOp yulState a b #[c, d, e])
  | yulState, _ => .ok (yulState, none)

def log4Op : Transformer
  | yulState, [a, b, c, d, e, f] => .ok (yulLogOp yulState a b #[c, d, e, f])
  | yulState, _ => .ok (yulState, none)

/-- `RETURN` halts with the memory slice as return data. -/
def returnOp : Transformer := fun yulState lits =>
  match binaryMachineStateOp MachineState.evmReturn yulState lits with
  | .error e => .error e
  | .ok (s, v) => .error (.YulHalt s (v.getD ⟨1⟩))

/-- `REVERT` computes the memory slice and then drops it with the state. -/
def revertOp : Transformer := fun yulState lits =>
  match binaryMachineStateOp MachineState.evmRevert yulState lits with
  | .error e => .error e
  | .ok (_, _) => .error .Revert

/-- `RETURNDATACOPY` updates the machine state by three words. -/
def returndatacopyOp : Transformer
  | yulState, [a, b, c] =>
      let mState' := yulState.toSharedState.toMachineState.returndatacopy a b c
      .ok (yulState.setMachineState mState', none)
  | _, _ => .error .InvalidArguments

/-- `MLOAD` reads the machine state and expands the memory. -/
def mloadOp : Transformer
  | yulState, [a] =>
      let (v, mState') := yulState.toSharedState.toMachineState.mload a
      .ok (yulState.setMachineState mState', some v)
  | _, _ => .error .InvalidArguments

/-- The account map after `SELFDESTRUCT`: the balance of the running account
`Iₐ` moves to `r`, and is burnt when the two coincide. -/
def selfdestructAccountMap (state : YulGasRules.State .Yul) (Iₐ r : AccountAddress) :
    AccountMap .Yul :=
  match state.lookupAccount Iₐ with
  | none => state.accountMap
  | some σ_Iₐ =>
      match state.lookupAccount r with
      | none =>
          if σ_Iₐ.balance == ⟨0⟩ then state.accountMap
          else
            (state.accountMap.insert r
              { (default : Account .Yul) with balance := σ_Iₐ.balance }).insert Iₐ
                { σ_Iₐ with balance := ⟨0⟩ }
      | some σ_r =>
          if r ≠ Iₐ then
            (state.accountMap.insert r
              { σ_r with balance := σ_r.balance + σ_Iₐ.balance }).insert Iₐ
                { σ_Iₐ with balance := ⟨0⟩ }
          else
            (state.accountMap.insert r { σ_r with balance := ⟨0⟩ }).insert Iₐ
              { σ_Iₐ with balance := ⟨0⟩ }

/-- `SELFDESTRUCT` marks the running contract and moves its balance. -/
def selfdestructOp : Transformer
  | yulState, [a] =>
      let Iₐ := yulState.executionEnv.codeOwner
      let r := AccountAddress.ofUInt256 a
      let A' : Substate :=
        { yulState.toState.substate with
          selfDestructSet := insert Iₐ yulState.toState.substate.selfDestructSet
          accessedAccounts := insert r yulState.toState.substate.accessedAccounts }
      .ok (yulState.setState
        { yulState.toState with
          accountMap := selfdestructAccountMap yulState.toState Iₐ r
          substate := A' }, none)
  | _, _ => .error .InvalidArguments

/-- Operations without a Yul semantics fall back on the default value of the
result type, which is success in the default state: the state is lost. -/
def unmodelledOp : Transformer := fun _ _ => default

/-- The semantics of one primitive operation. -/
def step [FFI] : PrimOp → Transformer
  | .STOP => fun yulState _ => .error (.YulHalt yulState ⟨0⟩)
  | .ADD => execBinOp UInt256.add
  | .MUL => execBinOp UInt256.mul
  | .SUB => execBinOp UInt256.sub
  | .DIV => execBinOp UInt256.div
  | .SDIV => execBinOp UInt256.sdiv
  | .MOD => execBinOp UInt256.mod
  | .SMOD => execBinOp UInt256.smod
  | .ADDMOD => execTriOp UInt256.addMod
  | .MULMOD => execTriOp UInt256.mulMod
  | .EXP => execBinOp UInt256.exp
  | .SIGNEXTEND => execBinOp UInt256.signextend
  | .LT => execBinOp UInt256.lt
  | .GT => execBinOp UInt256.gt
  | .SLT => execBinOp UInt256.slt
  | .SGT => execBinOp UInt256.sgt
  | .EQ => execBinOp UInt256.eq
  | .ISZERO => execUnOp UInt256.isZero
  | .AND => execBinOp UInt256.land
  | .OR => execBinOp UInt256.lor
  | .XOR => execBinOp UInt256.xor
  | .NOT => execUnOp UInt256.lnot
  | .BYTE => execBinOp UInt256.byteAt
  | .SHL => execBinOp (flip UInt256.shiftLeft)
  | .SHR => execBinOp (flip UInt256.shiftRight)
  | .SAR => execBinOp UInt256.sar
  | .KECCAK256 => binaryMachineStateOp' MachineState.keccak256
  | .ADDRESS => executionEnvOp fun env => .ofNat env.codeOwner.val
  | .BALANCE => unaryStateOp State.balance
  | .ORIGIN => executionEnvOp fun env => .ofNat env.sender.val
  | .CALLER => executionEnvOp fun env => .ofNat env.source.val
  | .CALLVALUE => executionEnvOp ExecutionEnv.weiValue
  | .CALLDATALOAD => unaryStateOp fun s v => (s, s.calldataload v)
  | .CALLDATASIZE => executionEnvOp fun env => .ofNat env.calldata.size
  | .CALLDATACOPY => ternaryCopyOp SharedState.calldatacopy
  | .GASPRICE => executionEnvOp fun env => .ofNat env.gasPrice
  | .EXTCODESIZE => fun _ _ => .error .YulEXTCODESIZENotImplemented
  | .RETURNDATASIZE => machineStateOp MachineState.returndatasize
  | .RETURNDATACOPY => returndatacopyOp
  | .BLOCKHASH => unaryStateOp fun s v => (s, s.blockHash v)
  | .COINBASE => stateOp fun s => .ofNat s.coinBase.val
  | .TIMESTAMP => stateOp State.timeStamp
  | .NUMBER => stateOp State.number
  | .PREVRANDAO => executionEnvOp prevRandao
  | .GASLIMIT => stateOp State.gasLimit
  | .CHAINID => stateOp State.chainId
  | .SELFBALANCE => stateOp State.selfbalance
  | .BASEFEE => executionEnvOp basefee
  | .BLOBHASH => unaryExecutionEnvOp blobhash
  | .BLOBBASEFEE => executionEnvOp ExecutionEnv.getBlobGasprice
  | .MLOAD => mloadOp
  | .MSTORE => binaryMachineStateOp MachineState.mstore
  | .MSTORE8 => binaryMachineStateOp MachineState.mstore8
  | .SLOAD => unaryStateOp State.sload
  | .SSTORE => binaryStateOp State.sstore
  | .TLOAD => unaryStateOp State.tload
  | .TSTORE => binaryStateOp State.tstore
  | .MSIZE => machineStateOp MachineState.msize
  | .GAS => machineStateOp MachineState.gas
  | .MCOPY => ternaryMachineStateOp MachineState.mcopy
  | .LOG0 => log0Op
  | .LOG1 => log1Op
  | .LOG2 => log2Op
  | .LOG3 => log3Op
  | .LOG4 => log4Op
  | .RETURN => returnOp
  | .REVERT => revertOp
  | .SELFDESTRUCT => selfdestructOp
  | .INVALID => fun _ _ => .error .InvalidInstruction
  | .POP => fun yulState _ => .ok (yulState, none)
  | _ => unmodelledOp

end YulGasRules.Yul
