import YulGasRules.Yul.Signature
import YulGasRules.Yul.Interpreter

/-!
# Requests of primitive operations

A primitive operation either ends by itself or asks for another contract to be run.
The four contract calls differ in what they transfer, in the environment that the
callee sees and in the code that its functions are looked up in.  Everything else they
share, and it is stated here once: what an operation asks for does not depend on the
interpreter that answers it.
-/

namespace YulGasRules.Yul

/-- What an operation comes to: an outcome, or a callee to run from a state. -/
inductive Request where
  | done (outcome : Outcome (List Literal))
  | run (codeOverride : Option YulContract) (start : State)
      (return' : State → Outcome (List Literal))

/-- The outcome of the operation, given an interpreter for callees. -/
def Request.answer (callee : Option YulContract → State → Outcome (List Literal)) :
    Request → Outcome (List Literal)
  | .done outcome => outcome
  | .run codeOverride start return' => contractCall callee codeOverride start return'

/-- What distinguishes one call of a contract from another. -/
structure ContractCall where
  address : AccountAddress
  /-- The accounts after the transfer, if there is one. -/
  accountMap₁ : Option (AccountMap .Yul)
  /-- The accounts that are kept at the depth limit. -/
  limitMap : Option (AccountMap .Yul)
  /-- Where the functions of the callee are looked up. -/
  codeOverride : YulContract → Option YulContract
  /-- The environment of the callee, whose code is given. -/
  env : ExecutionEnv .Yul → YulContract → ExecutionEnv .Yul

/-- The state that the callee starts in. -/
def ContractCall.start (call : ContractCall) (shared : SharedState .Yul) (code : YulContract) :
    SharedState .Yul :=
  { shared with
    executionEnv := call.env shared.executionEnv code
    memory := ByteArray.mk #[]
    accountMap := call.accountMap₁.getD shared.accountMap }

/-- The request for a contract to be called, and what is made of its answer. -/
def ContractCall.request (call : ContractCall) (s₀ : State)
    (return' : VarStore → State → Outcome (List Literal)) : Request :=
  if s₀.executionEnv.depth ≥ 1024 then
    .done (buildContractCallEmptyReturnState s₀ call.limitMap ⟨0⟩)
  else
    match s₀ with
    | .OutOfFuel => .done (.error .OutOfFuel)
    | .Checkpoint j => .done (.ok (.Checkpoint j, [⟨0⟩]))
    | .Ok shared varstore =>
        match shared.accountMap.lookup call.address with
        | none => .done (buildContractCallEmptyReturnState s₀ call.accountMap₁ ⟨1⟩)
        | some account =>
            .run (call.codeOverride account.code) (.Ok (call.start shared account.code) default)
              (return' varstore)

/-- A transfer comes first.  It is refused in static mode, and without the funds the
call does not take place. -/
def transferRequest (s₀ : State) (value : Literal) (toAddr : AccountAddress)
    (call : AccountMap .Yul → Request) : Request :=
  if ¬s₀.executionEnv.perm ∧ value ≠ ⟨0⟩ then .done (.error .StaticModeViolation)
  else
    match AccountMap.transferBalance .Yul s₀.sharedState.accountMap
        s₀.executionEnv.codeOwner toAddr value with
    | none => .done (buildContractCallEmptyReturnState s₀ none ⟨0⟩)
    | some accountMap₁ => call accountMap₁

/-- The part of memory that is handed over. -/
def calldataOf (s₀ : State) (inOffset inSize : UInt256) : ByteArray :=
  s₀.toMachineState.memory.readWithPadding inOffset.toNat inSize.toNat

/-- What `CALL` asks for. -/
def callRequest (s₀ : State) : List Literal → Request
  | _ :: address_arg :: value :: inOffset :: inSize :: outOffset :: outSize :: _ =>
      let address := AccountAddress.ofUInt256 address_arg
      transferRequest s₀ value address fun accountMap₁ =>
        ContractCall.request
          { address
            accountMap₁ := some accountMap₁
            limitMap := none
            codeOverride := fun _ => none
            env := fun env code => { env with
              calldata := calldataOf s₀ inOffset inSize
              code
              codeOwner := address
              source := env.codeOwner
              weiValue := value
              depth := env.depth + 1 } }
          s₀ fun varstore =>
            contractCallReturn s₀ s₀.toMachineState.memory varstore outOffset outSize
  | _ => .done (.error .InvalidArguments)

/-- What `CALLCODE` asks for. -/
def callcodeRequest (s₀ : State) : List Literal → Request
  | _ :: address_arg :: value :: inOffset :: inSize :: outOffset :: outSize :: _ =>
      transferRequest s₀ value s₀.executionEnv.codeOwner fun accountMap₁ =>
        ContractCall.request
          { address := AccountAddress.ofUInt256 address_arg
            accountMap₁ := some accountMap₁
            limitMap := some accountMap₁
            codeOverride := some
            env := fun env code => { env with
              calldata := calldataOf s₀ inOffset inSize
              code
              source := env.codeOwner
              weiValue := value
              depth := env.depth + 1 } }
          s₀ fun varstore =>
            contractCallReturn s₀ s₀.toMachineState.memory varstore outOffset outSize
  | _ => .done (.error .InvalidArguments)

/-- What `DELEGATECALL` asks for. -/
def delegatecallRequest (s₀ : State) : List Literal → Request
  | _ :: address_arg :: inOffset :: inSize :: outOffset :: outSize :: _ =>
      ContractCall.request
        { address := AccountAddress.ofUInt256 address_arg
          accountMap₁ := none
          limitMap := none
          codeOverride := some
          env := fun env code => { env with
            calldata := calldataOf s₀ inOffset inSize
            code
            depth := env.depth + 1 } }
        s₀ fun varstore =>
          contractCallReturn s₀ s₀.toMachineState.memory varstore outOffset outSize
  | _ => .done (.error .InvalidArguments)

/-- What `STATICCALL` asks for. -/
def staticcallRequest (s₀ : State) : List Literal → Request
  | _ :: address_arg :: inOffset :: inSize :: outOffset :: outSize :: _ =>
      if ¬s₀.executionEnv.perm then .done (.error .StaticModeViolation)
      else
        let s₀Static := setStatic s₀ false
        let address := AccountAddress.ofUInt256 address_arg
        ContractCall.request
          { address
            accountMap₁ := none
            limitMap := none
            codeOverride := fun _ => none
            env := fun env code => { env with
              calldata := calldataOf s₀Static inOffset inSize
              code
              codeOwner := address
              source := env.codeOwner
              weiValue := ⟨0⟩
              depth := env.depth + 1 } }
          s₀Static fun varstore s₂ =>
            (contractCallReturn s₀ s₀Static.toMachineState.memory varstore outOffset outSize
              s₂).map fun (s₃, rets) => (setStatic s₃ s₀.executionEnv.perm, rets)
  | _ => .done (.error .InvalidArguments)

/-- What an operation asks for. -/
def request [FFI] (s₀ : State) (prim : PrimOp) (args : List Literal) : Request :=
  if ¬s₀.executionEnv.perm ∧ prim ∈ staticViolations then .done (.error .StaticModeViolation)
  else
    match prim with
    | .CALL => callRequest s₀ args
    | .STATICCALL => staticcallRequest s₀ args
    | .CALLCODE => callcodeRequest s₀ args
    | .DELEGATECALL => delegatecallRequest s₀ args
    | _ => .done ((step prim s₀ args).map fun output => (output.1, output.2.toList))

/-! ## The interpreter answers requests -/

section Answers

variable (callee : Option YulContract → State → Outcome (List Literal))

/-- Each operation answers its request by the callee. -/
theorem callOp_eq_answer (s₀ : State) : (args : List Literal) →
    callOp callee s₀ args = (callRequest s₀ args).answer callee
  | [] | [_] | [_, _] | [_, _, _] | [_, _, _, _] | [_, _, _, _, _] | [_, _, _, _, _, _] => rfl
  | _ :: address_arg :: value :: inOffset :: inSize :: outOffset :: outSize :: _ => by
      simp only [callOp, callRequest, transferRequest]
      by_cases refused : ¬s₀.executionEnv.perm ∧ value ≠ ⟨0⟩
      · simp only [if_pos refused, Request.answer]
      · simp only [if_neg refused]
        cases AccountMap.transferBalance .Yul s₀.sharedState.accountMap
            s₀.executionEnv.codeOwner (AccountAddress.ofUInt256 address_arg) value with
        | none => rfl
        | some accountMap₁ =>
            simp only [ContractCall.request]
            by_cases deep : s₀.executionEnv.depth ≥ 1024
            · simp only [if_pos deep, Request.answer]
            · simp only [if_neg deep]
              cases s₀ with
              | OutOfFuel => rfl
              | Checkpoint j => rfl
              | Ok shared varstore =>
                  dsimp only [State.sharedState]
                  cases shared.accountMap.lookup (AccountAddress.ofUInt256 address_arg) <;> rfl

theorem callcodeOp_eq_answer (s₀ : State) : (args : List Literal) →
    callcodeOp callee s₀ args = (callcodeRequest s₀ args).answer callee
  | [] | [_] | [_, _] | [_, _, _] | [_, _, _, _] | [_, _, _, _, _] | [_, _, _, _, _, _] => rfl
  | _ :: address_arg :: value :: inOffset :: inSize :: outOffset :: outSize :: _ => by
      simp only [callcodeOp, callcodeRequest, transferRequest]
      by_cases refused : ¬s₀.executionEnv.perm ∧ value ≠ ⟨0⟩
      · simp only [if_pos refused, Request.answer]
      · simp only [if_neg refused]
        cases AccountMap.transferBalance .Yul s₀.sharedState.accountMap
            s₀.executionEnv.codeOwner s₀.executionEnv.codeOwner value with
        | none => rfl
        | some accountMap₁ =>
            simp only [ContractCall.request]
            by_cases deep : s₀.executionEnv.depth ≥ 1024
            · simp only [if_pos deep, Request.answer]
            · simp only [if_neg deep]
              cases s₀ with
              | OutOfFuel => rfl
              | Checkpoint j => rfl
              | Ok shared varstore =>
                  dsimp only [State.sharedState]
                  cases shared.accountMap.lookup (AccountAddress.ofUInt256 address_arg) <;> rfl

theorem delegatecallOp_eq_answer (s₀ : State) : (args : List Literal) →
    delegatecallOp callee s₀ args = (delegatecallRequest s₀ args).answer callee
  | [] | [_] | [_, _] | [_, _, _] | [_, _, _, _] | [_, _, _, _, _] => rfl
  | _ :: address_arg :: inOffset :: inSize :: outOffset :: outSize :: _ => by
      simp only [delegatecallOp, delegatecallRequest, ContractCall.request]
      by_cases deep : s₀.executionEnv.depth ≥ 1024
      · simp only [if_pos deep, Request.answer]
      · simp only [if_neg deep]
        cases s₀ with
        | OutOfFuel => rfl
        | Checkpoint j => rfl
        | Ok shared varstore =>
            dsimp only [State.sharedState]
            cases shared.accountMap.lookup (AccountAddress.ofUInt256 address_arg) <;> rfl

theorem staticcallOp_eq_answer (s₀ : State) : (args : List Literal) →
    staticcallOp callee s₀ args = (staticcallRequest s₀ args).answer callee
  | [] | [_] | [_, _] | [_, _, _] | [_, _, _, _] | [_, _, _, _, _] => rfl
  | _ :: address_arg :: inOffset :: inSize :: outOffset :: outSize :: _ => by
      simp only [staticcallOp, staticcallRequest]
      by_cases refused : ¬s₀.executionEnv.perm
      · simp only [if_pos refused, Request.answer]
      · simp only [if_neg refused, ContractCall.request]
        cases s₀ with
        | OutOfFuel => exact (refused Bool.false_ne_true).elim
        | Checkpoint j => exact (refused Bool.false_ne_true).elim
        | Ok shared varstore =>
            -- the caller in static mode has the depth of the caller
            change (if shared.executionEnv.depth ≥ 1024 then _ else _) =
              Request.answer callee (if shared.executionEnv.depth ≥ 1024 then _ else _)
            by_cases deep : shared.executionEnv.depth ≥ 1024
            · rw [if_pos deep, if_pos deep]
              rfl
            · rw [if_neg deep, if_neg deep]
              change (match shared.accountMap.lookup (AccountAddress.ofUInt256 address_arg)
                with | none => _ | some _ => _) = Request.answer callee
                  (match shared.accountMap.lookup (AccountAddress.ofUInt256 address_arg)
                    with | none => _ | some _ => _)
              cases shared.accountMap.lookup (AccountAddress.ofUInt256 address_arg) <;> rfl

/-- An operation that calls no contract has its answer already. -/
theorem primCallWith_eq_answer [FFI] (s₀ : State) (prim : PrimOp) (args : List Literal) :
    primCallWith callee s₀ prim args = (request s₀ prim args).answer callee := by
  simp only [primCallWith, request]
  by_cases refused : ¬s₀.executionEnv.perm ∧ prim ∈ staticViolations
  · simp only [if_pos refused, Request.answer]
  · simp only [if_neg refused]
    split
    · exact callOp_eq_answer callee s₀ args
    · exact staticcallOp_eq_answer callee s₀ args
    · exact callcodeOp_eq_answer callee s₀ args
    · exact delegatecallOp_eq_answer callee s₀ args
    · simp only [Request.answer]
      cases step prim s₀ args <;> rfl

end Answers

end YulGasRules.Yul
