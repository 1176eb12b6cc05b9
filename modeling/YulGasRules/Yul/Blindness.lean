import YulGasRules.Fuel.Simulation
import YulGasRules.Yul.Recoding

/-!
# Operations are blind to codes

Applied in states that are recodings of each other, a primitive operation gives the same
value and leads to states that are recodings of each other again.  Where it asks for
another contract to be run, it asks for the same account on both sides, whose codes are
related, and what it makes of the callee's last state is the same up to codes.
-/

namespace YulGasRules.Yul

open Fuel

variable {R : YulContract → YulContract → Prop}

/-! ## Primitive operations -/

/-- The operation does not tell related codes apart. -/
def Transformer.Blind (R : YulContract → YulContract → Prop) (transformer : Transformer) :
    Prop :=
  ∀ (state state' : State) (args : List Literal), StateRecoded R state state' →
    OutcomesRecoded R (transformer state args) (transformer state' args)

/-- The action does not tell recodings of a world apart. -/
def Action.Blind (R : YulContract → YulContract → Prop) (act : Action) : Prop :=
  ∀ (machine : MachineState) (args : List Literal) ⦃world world' : World⦄,
    WorldRecoded R world world' →
      WorldRecoded R (act ⟨world, machine⟩ args).1.toState (act ⟨world', machine⟩ args).1.toState ∧
        (act ⟨world, machine⟩ args).1.toMachineState =
          (act ⟨world', machine⟩ args).1.toMachineState ∧
        (act ⟨world, machine⟩ args).2 = (act ⟨world', machine⟩ args).2

namespace Action.Blind

/-- A value that depends on the arguments alone is the same on both sides. -/
theorem value (value : List Literal → Option Literal) :
    (Action.read fun _ args => value args).Blind R :=
  fun _ _ _ _ worlds => ⟨worlds, rfl, rfl⟩

/-- A computation on the machine state sees no codes. -/
theorem compute (op : MachineState → List Literal → MachineState × Option Literal) :
    (Action.compute op).Blind R :=
  fun _ _ _ _ worlds => ⟨worlds, rfl, rfl⟩

/-- A change of the world has to lead from recodings to recodings. -/
theorem change {op : World → List Literal → World × Option Literal}
    (blind : ∀ args ⦃world world' : World⦄, WorldRecoded R world world' →
      WorldRecoded R (op world args).1 (op world' args).1 ∧
        (op world args).2 = (op world' args).2) :
    (Action.change op).Blind R :=
  fun _ args _ _ worlds => ⟨(blind args worlds).1, rfl, (blind args worlds).2⟩

/-- A log entry names the running contract, which is the same. -/
theorem log (count : Nat) : (Action.log count).Blind R := by
  intro machine args world world' worlds
  cases worlds with
  | intro world accounts codes =>
      simp only [Action.log]
      split
      · split
        · exact ⟨.intro (world.log _ _) accounts codes, rfl, rfl⟩
        · exact ⟨.intro world accounts codes, rfl, rfl⟩
      · exact ⟨.intro world accounts codes, rfl, rfl⟩

end Action.Blind

/-- A state that is not ordinary shows the same to both sides, and is left alone. -/
theorem Transformer.Shaped.blind {transformer : Transformer} {signature : Signature}
    {act : Action} (shaped : transformer.Shaped signature act) (blind : act.Blind R) :
    transformer.Blind R := by
  intro state state' args states
  rw [shaped, shaped]
  split
  · cases states with
    | ok machine store worlds =>
        rcases blind machine args worlds with ⟨after, machines, values⟩
        exact .ok ⟨.setSharedState (.ok machine store worlds) after machines, values⟩
    | outOfFuel => exact .ok ⟨.outOfFuel, rfl⟩
    | jump kind machine store worlds => exact .ok ⟨.jump kind machine store worlds, rfl⟩
  · exact .error (.same fun _ => id)

/-- What is read of the environment is the same if its code does not matter. -/
theorem executionEnvOp_blind (op : ExecutionEnv .Yul → UInt256)
    (blind : ∀ env code, op { env with code } = op env) : (executionEnvOp op).Blind R := by
  apply (executionEnvOp_shaped op).blind
  intro machine args world world' worlds
  refine ⟨worlds, rfl, congrArg some ?_⟩
  exact worlds.same (fun world => op world.executionEnv) fun _ _ code => blind _ code

/-- The machine state is the same on both sides. -/
theorem machineStateOp_blind (op : MachineState → UInt256) : (machineStateOp op).Blind R :=
  (machineStateOp_shaped op).blind fun _ _ _ _ worlds => ⟨worlds, rfl, rfl⟩

/-- The same exception is raised on both sides. -/
theorem raises_blind {exception : Exception} (silent : ∀ world, ¬exception.Shows world) :
    Transformer.Blind R fun _ _ => .error exception :=
  fun _ _ _ _ => .error (.same silent)

/-- Halting hands the state over to the exception. -/
theorem returnOp_blind : returnOp.Blind R := by
  intro state state' args states
  rw [returnOp_eq, returnOp_eq]
  split
  · apply Related.error
    apply ExceptionRecoded.halt
    cases states with
    | ok machine store worlds => exact .ok _ store worlds
    | outOfFuel => exact .outOfFuel
    | jump kind machine store worlds => exact .jump kind machine store worlds
  · exact .error (.same fun _ => id)

/-- The state is dropped on both sides. -/
theorem revertOp_blind : revertOp.Blind R := by
  intro state state' args _
  rw [revertOp_eq, revertOp_eq]
  split <;> exact .error (.same fun _ => id)

/-- An operation without a semantics leads to the default world, whose code is the default
one. -/
theorem unmodelledOp_blind (unset : R default default) : unmodelledOp.Blind R :=
  fun _ _ _ _ => .ok ⟨.ok default default (.unset unset), rfl⟩

/-! ### All operations -/

section Step

variable [FFI]

/-- Arithmetic sees its operands alone. -/
theorem stopArith_blind (op : Operation.SAOp) : (step (.StopArith op)).Blind R := by
  cases op
  case STOP => exact fun _ _ _ states => .error (.halt states ⟨0⟩)
  case ADDMOD | MULMOD => exact (execTriOp_shaped _).blind (.value _)
  all_goals exact (execBinOp_shaped _).blind (.value _)

theorem compBit_blind (op : Operation.CBLOp) : (step (.CompBit op)).Blind R := by
  cases op
  case ISZERO | NOT => exact (execUnOp_shaped _).blind (.value _)
  all_goals exact (execBinOp_shaped _).blind (.value _)

/-- The environment is read without its code. -/
theorem env_blind (unset : R default default) (op : Operation.EOp) :
    (step (.Env op)).Blind R := by
  cases op
  case BALANCE =>
    exact (unaryStateOp_shaped YulGasRules.State.balance).blind
      (.change fun _ _ _ worlds => (worlds.balance _).imp_right (congrArg some))
  case CALLDATALOAD =>
    refine (unaryStateOp_shaped fun world a => (world, world.calldataload a)).blind
      (.change fun args _ _ worlds => ⟨worlds, congrArg some ?_⟩)
    exact worlds.same (·.calldataload args[0]!) fun _ _ _ => rfl
  case CALLDATACOPY =>
    apply (ternaryCopyOp_shaped SharedState.calldatacopy).blind
    intro machine args world world' worlds
    have calldata := worlds.same (·.executionEnv.calldata) fun _ _ _ => rfl
    refine ⟨worlds, ?_, rfl⟩
    simp only [SharedState.calldatacopy, calldata]
  case RETURNDATACOPY => exact returndatacopyOp_shaped.blind (.compute _)
  case RETURNDATASIZE => exact machineStateOp_blind MachineState.returndatasize
  case EXTCODESIZE => exact raises_blind fun _ => id
  case CODESIZE | CODECOPY | EXTCODECOPY | EXTCODEHASH => exact unmodelledOp_blind unset
  all_goals
    simp only [step]
    exact executionEnvOp_blind _ fun _ _ => rfl

/-- A block header has no code, and an account is read for its balance. -/
theorem block_blind (op : Operation.BOp) : (step (.Block op)).Blind R := by
  cases op
  case BLOCKHASH =>
    refine (unaryStateOp_shaped fun world a => (world, world.blockHash a)).blind
      (.change fun args _ _ worlds => ⟨worlds, congrArg some ?_⟩)
    exact worlds.same (·.blockHash args[0]!) fun _ _ _ => rfl
  case BLOBHASH =>
    apply (unaryExecutionEnvOp_shaped blobhash).blind
    intro machine args world world' worlds
    refine ⟨worlds, rfl, congrArg some ?_⟩
    exact worlds.same (fun world => blobhash world.executionEnv args[0]!) fun _ _ _ => rfl
  case SELFBALANCE =>
    apply (stateOp_shaped YulGasRules.State.selfbalance).blind
    exact fun _ _ _ _ worlds => ⟨worlds, rfl, congrArg some worlds.selfbalance_eq⟩
  case PREVRANDAO | BASEFEE | BLOBBASEFEE =>
    simp only [step]
    exact executionEnvOp_blind _ fun _ _ => rfl
  all_goals
    simp only [step]
    apply (stateOp_shaped _).blind
    intro machine args world world' worlds
    refine ⟨worlds, rfl, ?_⟩
    cases worlds
    rfl

/-- Storage is kept and read apart from code. -/
theorem stackMemFlow_blind (op : Operation.SMSFOp) : (step (.StackMemFlow op)).Blind R := by
  cases op
  case POP => exact pop_shaped.blind (.value _)
  case MLOAD => exact mloadOp_shaped.blind (.compute _)
  case MSTORE | MSTORE8 => exact (binaryMachineStateOp_shaped _).blind (.compute _)
  case SLOAD =>
    exact (unaryStateOp_shaped YulGasRules.State.sload).blind
      (.change fun _ _ _ worlds => (worlds.sload _).imp_right (congrArg some))
  case SSTORE =>
    exact (binaryStateOp_shaped YulGasRules.State.sstore).blind
      (.change fun _ _ _ worlds => ⟨worlds.sstore _ _, rfl⟩)
  case TLOAD =>
    exact (unaryStateOp_shaped YulGasRules.State.tload).blind
      (.change fun _ _ _ worlds => (worlds.tload _).imp_right (congrArg some))
  case TSTORE =>
    exact (binaryStateOp_shaped YulGasRules.State.tstore).blind
      (.change fun _ _ _ worlds => ⟨worlds.tstore _ _, rfl⟩)
  case MCOPY => exact (ternaryMachineStateOp_shaped _).blind (.compute _)
  all_goals exact machineStateOp_blind _

/-- An account keeps its code when it destroys itself. -/
theorem system_blind (unset : R default default) (op : Operation.SOp) :
    (step (.System op)).Blind R := by
  cases op
  case RETURN => exact returnOp_blind
  case REVERT => exact revertOp_blind
  case INVALID => exact raises_blind fun _ => id
  case SELFDESTRUCT =>
    exact selfdestructOp_shaped.blind
      (.change fun _ _ _ worlds => ⟨worlds.selfdestruct unset _, rfl⟩)
  all_goals exact unmodelledOp_blind unset

/-- No operation tells related codes apart. -/
theorem step_blind (unset : R default default) (prim : PrimOp) : (step prim).Blind R := by
  cases prim with
  | StopArith op => exact stopArith_blind op
  | CompBit op => exact compBit_blind op
  | Keccak op =>
      cases op with
      | KECCAK256 =>
          exact (binaryMachineStateOp'_shaped MachineState.keccak256).blind (.compute _)
  | Env op => exact env_blind unset op
  | Block op => exact block_blind op
  | StackMemFlow op => exact stackMemFlow_blind op
  | Log op => exact (log_shaped op).blind (.log _)
  | System op => exact system_blind unset op

end Step

/-! ## Requests -/

/-- What the two sides ask for: related outcomes, or callees that start in recodings of
each other. -/
inductive RequestRecoded (R : YulContract → YulContract → Prop) : Request → Request → Prop where
  | done {outcome outcome' : Outcome (List Literal)}
      (outcomes : OutcomesRecoded R outcome outcome') :
      RequestRecoded R (.done outcome) (.done outcome')
  | run {codeOverride codeOverride' : Option YulContract} {start start' : State}
      {return' return'' : State → Outcome (List Literal)}
      (overrides : Option.Rel R codeOverride codeOverride')
      (starts : StateRecoded R start start')
      (returns : ∀ {last last'}, StateRecoded R last last' →
        OutcomesRecoded R (return' last) (return'' last')) :
      RequestRecoded R (.run codeOverride start return') (.run codeOverride' start' return'')

section Calls

variable {s₀ s₀' : State}

/-- The accounts that an operation sees are recodings, also where the state is not
ordinary. -/
theorem StateRecoded.accounts (states : StateRecoded R s₀ s₀') :
    AccountsRecoded R s₀.sharedState.accountMap s₀'.sharedState.accountMap := by
  cases states with
  | ok machine store worlds => exact worlds.accounts
  | outOfFuel => exact .empty _
  | jump kind machine store worlds => exact .empty _

/-- The callee is given the same calldata. -/
theorem calldataOf_eq (states : StateRecoded R s₀ s₀') (inOffset inSize : UInt256) :
    calldataOf s₀ inOffset inSize = calldataOf s₀' inOffset inSize := by
  rw [calldataOf, states.toMachineState_eq, calldataOf]

/-- A call that does not take place leaves recodings behind, after a transfer or not. -/
theorem buildContractCallEmptyReturnState_recoded (states : StateRecoded R s₀ s₀')
    {accountMap₁ accountMap₁' : Option (AccountMap .Yul)}
    (maps : Option.Rel (AccountsRecoded R) accountMap₁ accountMap₁') (val : Literal) :
    OutcomesRecoded R (buildContractCallEmptyReturnState s₀ accountMap₁ val)
      (buildContractCallEmptyReturnState s₀' accountMap₁' val) := by
  cases states with
  | ok machine store worlds =>
      exact .ok ⟨.ok { machine with H_return := .empty, returnData := .empty } store
        (worlds.withAccounts maps), rfl⟩
  | outOfFuel => exact .error (.same fun _ => id)
  | jump kind machine store worlds => exact .ok ⟨.jump kind machine store worlds, rfl⟩

/-- The caller gets its own environment back, its code included. -/
theorem contractCallReturn_recoded (unset : R default default)
    (callers : StateRecoded R s₀ s₀') (memory : ByteArray) (varstore : VarStore)
    (outOffset outSize : UInt256) {last last' : State} (lasts : StateRecoded R last last') :
    OutcomesRecoded R (contractCallReturn s₀ memory varstore outOffset outSize last)
      (contractCallReturn s₀' memory varstore outOffset outSize last') := by
  have codeOwner := callers.env_eq (·.codeOwner) fun _ _ => rfl
  have source := callers.env_eq (·.source) fun _ _ => rfl
  have weiValue := callers.env_eq (·.weiValue) fun _ _ => rfl
  have codes := callers.codes unset
  cases lasts with
  | ok machine store worlds =>
      cases worlds with
      | intro world accounts _ =>
          simp only [contractCallReturn, codeOwner, source, weiValue]
          refine .ok ⟨.ok _ varstore (.intro { world with
            executionEnv := { world.executionEnv with
              calldata := default
              codeOwner := s₀'.executionEnv.codeOwner
              source := s₀'.executionEnv.source
              weiValue := s₀'.executionEnv.weiValue } } accounts codes), rfl⟩
  | outOfFuel => exact .error (.same fun _ => id)
  | jump kind machine store worlds => exact .ok ⟨.jump kind machine store worlds, rfl⟩

/-- Balances are the same, so that a transfer is paid on both sides or on neither. -/
theorem transferRequest_recoded (unset : R default default) (states : StateRecoded R s₀ s₀')
    (value : Literal) (toAddr : AccountAddress) {call call' : AccountMap .Yul → Request}
    (calls : ∀ {accountMap₁ accountMap₁'}, AccountsRecoded R accountMap₁ accountMap₁' →
      RequestRecoded R (call accountMap₁) (call' accountMap₁')) :
    RequestRecoded R (transferRequest s₀ value toAddr call)
      (transferRequest s₀' value toAddr call') := by
  have perm := states.env_eq (·.perm) fun _ _ => rfl
  have codeOwner := states.env_eq (·.codeOwner) fun _ _ => rfl
  simp only [transferRequest, perm, codeOwner]
  split
  · exact .done (.error (.same fun _ => id))
  · have paid := transferBalance_recoded unset states.accounts s₀'.executionEnv.codeOwner
      toAddr value
    generalize AccountMap.transferBalance .Yul s₀.sharedState.accountMap _ _ _ = after,
      AccountMap.transferBalance .Yul s₀'.sharedState.accountMap _ _ _ = after' at paid
    cases paid with
    | none => exact .done (buildContractCallEmptyReturnState_recoded states .none ⟨0⟩)
    | some accounts => exact calls accounts

/-- Two calls of the same account ask for recodings if what they keep without a callee
does, and the start of the callee. -/
theorem ContractCall.request_recoded {call call' : ContractCall}
    (states : StateRecoded R s₀ s₀') (address : call.address = call'.address)
    (limits : Option.Rel (AccountsRecoded R) call.limitMap call'.limitMap)
    (maps : Option.Rel (AccountsRecoded R) call.accountMap₁ call'.accountMap₁)
    (overrides : ∀ {code code'}, R code code' →
      Option.Rel R (call.codeOverride code) (call'.codeOverride code'))
    (environments : ∀ {world world' : World} {code code'}, WorldRecoded R world world' →
      R code code' → WorldRecoded R
        { world with executionEnv := call.env world.executionEnv code }
        { world' with executionEnv := call'.env world'.executionEnv code' })
    {return' return'' : VarStore → State → Outcome (List Literal)}
    (returns : ∀ store {last last'}, StateRecoded R last last' →
      OutcomesRecoded R (return' store last) (return'' store last')) :
    RequestRecoded R (call.request s₀ return') (call'.request s₀' return'') := by
  have depth := states.env_eq (·.depth) fun _ _ => rfl
  simp only [ContractCall.request, depth]
  split
  · exact .done (buildContractCallEmptyReturnState_recoded states limits ⟨0⟩)
  · cases states with
    | outOfFuel => exact .done (.error (.same fun _ => id))
    | jump kind machine store worlds => exact .done (.ok ⟨.jump kind machine store worlds, rfl⟩)
    | @ok machine store world world' worlds =>
        have found := worlds.accounts call'.address
        rw [address]
        dsimp only
        generalize world.accountMap.lookup _ = account,
          world'.accountMap.lookup _ = account' at found
        cases found with
        | none =>
            exact .done (buildContractCallEmptyReturnState_recoded (.ok machine store worlds)
              maps ⟨1⟩)
        | some recoded =>
            cases recoded with
            | intro account codes =>
                exact .run (overrides codes) (.ok { machine with memory := .mk #[] } default
                  ((environments worlds codes).withAccounts maps)) (returns store)

/-- `CALL` runs the code of the account called, in the account's own name. -/
theorem callRequest_recoded (unset : R default default) (states : StateRecoded R s₀ s₀')
    (args : List Literal) : RequestRecoded R (callRequest s₀ args) (callRequest s₀' args) := by
  match args with
  | [] | [_] | [_, _] | [_, _, _] | [_, _, _, _] | [_, _, _, _, _] | [_, _, _, _, _, _] =>
      exact .done (.error (.same fun _ => id))
  | _ :: address_arg :: value :: inOffset :: inSize :: outOffset :: outSize :: _ =>
      apply transferRequest_recoded unset states
      intro accountMap₁ accountMap₁' accounts
      apply ContractCall.request_recoded states
      · rfl
      · exact .none
      · exact .some accounts
      · exact fun _ => .none
      · intro world world' code code' worlds codes
        cases worlds with
        | intro world accounts _ =>
            rw [calldataOf_eq states]
            exact .intro
              (world.enter default (AccountAddress.ofUInt256 address_arg)
                world.executionEnv.codeOwner value (calldataOf s₀' inOffset inSize)
                world.executionEnv.perm) accounts codes
      · intro store last last' lasts
        rw [states.toMachineState_eq]
        exact contractCallReturn_recoded unset states _ store outOffset outSize lasts

/-- `CALLCODE` runs it in the name of the caller, with the functions of the code called. -/
theorem callcodeRequest_recoded (unset : R default default) (states : StateRecoded R s₀ s₀')
    (args : List Literal) :
    RequestRecoded R (callcodeRequest s₀ args) (callcodeRequest s₀' args) := by
  match args with
  | [] | [_] | [_, _] | [_, _, _] | [_, _, _, _] | [_, _, _, _, _] | [_, _, _, _, _, _] =>
      exact .done (.error (.same fun _ => id))
  | _ :: address_arg :: value :: inOffset :: inSize :: outOffset :: outSize :: _ =>
      have codeOwner := states.env_eq (·.codeOwner) fun _ _ => rfl
      simp only [callcodeRequest, codeOwner]
      apply transferRequest_recoded unset states
      intro accountMap₁ accountMap₁' accounts
      apply ContractCall.request_recoded states
      · rfl
      · exact .some accounts
      · exact .some accounts
      · exact .some
      · intro world world' code code' worlds codes
        cases worlds with
        | intro world accounts _ =>
            rw [calldataOf_eq states]
            exact .intro
              (world.enter default world.executionEnv.codeOwner world.executionEnv.codeOwner
                value (calldataOf s₀' inOffset inSize) world.executionEnv.perm) accounts codes
      · intro store last last' lasts
        rw [states.toMachineState_eq]
        exact contractCallReturn_recoded unset states _ store outOffset outSize lasts

/-- `DELEGATECALL` keeps the caller's source and value as well. -/
theorem delegatecallRequest_recoded (unset : R default default)
    (states : StateRecoded R s₀ s₀') (args : List Literal) :
    RequestRecoded R (delegatecallRequest s₀ args) (delegatecallRequest s₀' args) := by
  match args with
  | [] | [_] | [_, _] | [_, _, _] | [_, _, _, _] | [_, _, _, _, _] =>
      exact .done (.error (.same fun _ => id))
  | _ :: address_arg :: inOffset :: inSize :: outOffset :: outSize :: _ =>
      apply ContractCall.request_recoded states
      · rfl
      · exact .none
      · exact .none
      · exact .some
      · intro world world' code code' worlds codes
        cases worlds with
        | intro world accounts _ =>
            rw [calldataOf_eq states]
            exact .intro
              (world.enter default world.executionEnv.codeOwner world.executionEnv.source
                world.executionEnv.weiValue (calldataOf s₀' inOffset inSize)
                world.executionEnv.perm) accounts codes
      · intro store last last' lasts
        rw [states.toMachineState_eq]
        exact contractCallReturn_recoded unset states _ store outOffset outSize lasts

/-- `STATICCALL` gives the permission back on both sides. -/
theorem staticcallRequest_recoded (unset : R default default) (states : StateRecoded R s₀ s₀')
    (args : List Literal) :
    RequestRecoded R (staticcallRequest s₀ args) (staticcallRequest s₀' args) := by
  match args with
  | [] | [_] | [_, _] | [_, _, _] | [_, _, _, _] | [_, _, _, _, _] =>
      exact .done (.error (.same fun _ => id))
  | _ :: address_arg :: inOffset :: inSize :: outOffset :: outSize :: _ =>
      have perm := states.env_eq (·.perm) fun _ _ => rfl
      have static := states.setStatic false
      simp only [staticcallRequest, perm]
      split
      · exact .done (.error (.same fun _ => id))
      · apply ContractCall.request_recoded static
        · rfl
        · exact .none
        · exact .none
        · exact fun _ => .none
        · intro world world' code code' worlds codes
          cases worlds with
          | intro world accounts _ =>
              rw [calldataOf_eq static]
              exact .intro
                (world.enter default (AccountAddress.ofUInt256 address_arg)
                  world.executionEnv.codeOwner ⟨0⟩
                  (calldataOf (setStatic s₀' false) inOffset inSize)
                  world.executionEnv.perm) accounts codes
        · intro store last last' lasts
          rw [static.toMachineState_eq]
          apply (contractCallReturn_recoded unset states _ store outOffset outSize lasts).map
          intro output output' outputs
          exact ⟨outputs.1.setStatic _, outputs.2⟩

end Calls

/-- What an operation asks for does not depend on codes, up to the codes to be run. -/
theorem request_recoded [FFI] (unset : R default default) {s₀ s₀' : State}
    (states : StateRecoded R s₀ s₀') (prim : PrimOp) (args : List Literal) :
    RequestRecoded R (request s₀ prim args) (request s₀' prim args) := by
  have perm := states.env_eq (·.perm) fun _ _ => rfl
  simp only [request, perm]
  split
  · exact .done (.error (.same fun _ => id))
  · split
    · exact callRequest_recoded unset states args
    · exact staticcallRequest_recoded unset states args
    · exact callcodeRequest_recoded unset states args
    · exact delegatecallRequest_recoded unset states args
    · refine .done ((step_blind unset prim s₀ s₀' args states).map ?_)
      intro output output' outputs
      exact ⟨outputs.1, congrArg Option.toList outputs.2⟩

end YulGasRules.Yul
