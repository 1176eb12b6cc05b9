import YulGasRules.Yul.Semantics

/-!
# The Yul interpreter

A fuel-indexed evaluator for expressions and statements.  Every recursive call
spends fuel, so all functions are structurally recursive in it.  Where a function
of the source passes its own fuel on to `primCall` unchanged, it takes here the
interpreter at that fuel as an argument instead.
-/

namespace YulGasRules.Yul

/-- Outcome of a computation that ends in a state and a result. -/
abbrev Outcome (α : Type) := Except Exception (State × α)

/-- The first result, for a call in an expression. -/
def head' : Outcome (List Literal) → Outcome Literal
  | .ok (s, rets) => .ok (s, List.head! rets)
  | .error e => .error e

/-- An argument in front of the others. -/
def cons' (arg : Literal) : Outcome (List Literal) → Outcome (List Literal)
  | .ok (s, args) => .ok (s, arg :: args)
  | .error e => .error e

def reverse' : Outcome (List Literal) → Outcome (List Literal)
  | .ok (s, args) => .ok (s, args.reverse)
  | .error e => .error e

/-- The results of a call, bound to variables. -/
def multifill' (vars : List Identifier) : Outcome (List Literal) → Except Exception State
  | .ok (s, rets) => .ok (s.multifill vars rets)
  | .error e => .error e

/-! ## Calls of other contracts -/

/-- The permission to write, of an ordinary state. -/
def setStatic (s : State) (p : Bool) : State :=
  match s with
  | .OutOfFuel => .OutOfFuel
  | .Checkpoint j => .Checkpoint j
  | .Ok sharedState varstore =>
      .Ok { sharedState with executionEnv := { sharedState.executionEnv with perm := p } }
        varstore

/-- The state after a call for which no code is run. -/
def buildContractCallEmptyReturnState (s₀ : State) (accountMap₁ : Option (AccountMap .Yul))
    (v : Literal) : Outcome (List Literal) :=
  match s₀ with
  | .OutOfFuel => .error .OutOfFuel
  | .Checkpoint j => .ok (.Checkpoint j, [⟨0⟩])
  | .Ok sharedState₀ varstore =>
      .ok (.Ok { sharedState₀ with
        H_return := ByteArray.empty
        returnData := ByteArray.empty
        accountMap := accountMap₁.getD s₀.toSharedState.accountMap } varstore, [v])

/-- What the caller `s₀` sees of the callee's last state `s₂`: the return data is
copied into the caller's memory and the execution environment is restored. -/
def contractCallReturn (s₀ : State) (memory : ByteArray) (varstore : VarStore)
    (outOffset outSize : UInt256) (s₂ : State) : Outcome (List Literal) :=
  let H_return := s₂.toMachineState.H_return
  let memory₃ :=
    H_return.copySlice 0 memory outOffset.toNat (min outSize.toNat H_return.size)
  match s₂ with
  | .OutOfFuel => .error .OutOfFuel
  | .Checkpoint j => .ok (.Checkpoint j, [⟨0⟩])
  | .Ok sharedState₂ _ =>
      let executionEnv₃ := { sharedState₂.executionEnv with
        calldata := default
        code := s₀.executionEnv.code
        codeOwner := s₀.executionEnv.codeOwner
        source := s₀.executionEnv.source
        weiValue := s₀.executionEnv.weiValue }
      .ok (.Ok { sharedState₂ with
        memory := memory₃
        returnData := H_return
        H_return := ByteArray.empty
        executionEnv := executionEnv₃ } varstore, [⟨1⟩])

/-- Run a callee and hand its last state to the caller, whether it fell through
or halted.  Every other exception ends the caller as well. -/
def contractCall (callDispatcher : Option YulContract → State → Outcome (List Literal))
    (codeOverride : Option YulContract) (s₁ : State)
    (return' : State → Outcome (List Literal)) : Outcome (List Literal) :=
  match callDispatcher codeOverride s₁ with
  | .error (.YulHalt s₂ _) => return' s₂
  | .error e => .error e
  | .ok (s₂, _) => return' s₂

section ContractCalls

variable (callDispatcher : Option YulContract → State → Outcome (List Literal))

/-- `CALL`: the callee runs in its own name, with a value transferred. -/
def callOp (s₀ : State) : List Literal → Outcome (List Literal)
  | _ :: address_arg :: value :: inOffset :: inSize :: outOffset :: outSize :: _ =>
      if ¬s₀.executionEnv.perm ∧ value ≠ ⟨0⟩ then .error .StaticModeViolation
      else
        let address := AccountAddress.ofUInt256 address_arg
        let calldata₁ :=
          s₀.toMachineState.memory.readWithPadding inOffset.toNat inSize.toNat
        match AccountMap.transferBalance .Yul s₀.sharedState.accountMap
            s₀.executionEnv.codeOwner address value with
        | none => buildContractCallEmptyReturnState s₀ none ⟨0⟩
        | some accountMap₁ =>
            if s₀.executionEnv.depth ≥ 1024 then
              buildContractCallEmptyReturnState s₀ none ⟨0⟩
            else
              match s₀ with
              | .OutOfFuel => .error .OutOfFuel
              | .Checkpoint j => .ok (.Checkpoint j, [⟨0⟩])
              | .Ok sharedState varstore =>
                  match s₀.sharedState.accountMap.lookup address with
                  | none => buildContractCallEmptyReturnState s₀ (some accountMap₁) ⟨1⟩
                  | some yulContract =>
                      let executionEnv₁ := { sharedState.executionEnv with
                        calldata := calldata₁
                        code := yulContract.code
                        codeOwner := address
                        source := s₀.executionEnv.codeOwner
                        weiValue := value
                        depth := s₀.executionEnv.depth + 1 }
                      let sharedState₁ := { sharedState with
                        executionEnv := executionEnv₁
                        memory := ByteArray.mk #[]
                        accountMap := accountMap₁ }
                      contractCall callDispatcher none (.Ok sharedState₁ default)
                        (contractCallReturn s₀ s₀.toMachineState.memory varstore
                          outOffset outSize)
  | _ => .error .InvalidArguments

/-- `STATICCALL`: the callee runs in its own name and may not write. -/
def staticcallOp (s₀ : State) : List Literal → Outcome (List Literal)
  | _ :: address_arg :: inOffset :: inSize :: outOffset :: outSize :: _ =>
      if ¬s₀.executionEnv.perm then .error .StaticModeViolation
      else
        let s₀Static := setStatic s₀ false
        let address := AccountAddress.ofUInt256 address_arg
        let calldata₁ :=
          s₀Static.toMachineState.memory.readWithPadding inOffset.toNat inSize.toNat
        if s₀Static.toSharedState.executionEnv.depth ≥ 1024 then
          buildContractCallEmptyReturnState s₀Static none ⟨0⟩
        else
          match s₀Static with
          | .OutOfFuel => .error .OutOfFuel
          | .Checkpoint j => .ok (.Checkpoint j, [⟨0⟩])
          | .Ok sharedState varstore =>
              match s₀Static.sharedState.accountMap.lookup address with
              | none => buildContractCallEmptyReturnState s₀Static none ⟨1⟩
              | some yulContract =>
                  let executionEnv₁ := { s₀Static.executionEnv with
                    calldata := calldata₁
                    code := yulContract.code
                    codeOwner := address
                    source := s₀Static.executionEnv.codeOwner
                    weiValue := ⟨0⟩
                    depth := s₀Static.toSharedState.executionEnv.depth + 1 }
                  let sharedState₁ := { sharedState with
                    executionEnv := executionEnv₁
                    memory := ByteArray.mk #[] }
                  contractCall callDispatcher none (.Ok sharedState₁ default)
                    fun s₂ =>
                      (contractCallReturn s₀ s₀Static.toMachineState.memory varstore
                        outOffset outSize s₂).map
                          fun (s₃, rets) => (setStatic s₃ s₀.executionEnv.perm, rets)
  | _ => .error .InvalidArguments

/-- `CALLCODE`: the callee's code runs in the caller's name. -/
def callcodeOp (s₀ : State) : List Literal → Outcome (List Literal)
  | _ :: address_arg :: value :: inOffset :: inSize :: outOffset :: outSize :: _ =>
      if ¬s₀.executionEnv.perm ∧ value ≠ ⟨0⟩ then .error .StaticModeViolation
      else
        let address := AccountAddress.ofUInt256 address_arg
        let calldata₁ :=
          s₀.toMachineState.memory.readWithPadding inOffset.toNat inSize.toNat
        match AccountMap.transferBalance .Yul s₀.sharedState.accountMap
            s₀.executionEnv.codeOwner s₀.executionEnv.codeOwner value with
        | none => buildContractCallEmptyReturnState s₀ none ⟨0⟩
        | some accountMap₁ =>
            -- unlike `CALL`, the transfer is kept at the depth limit
            if s₀.executionEnv.depth ≥ 1024 then
              buildContractCallEmptyReturnState s₀ (some accountMap₁) ⟨0⟩
            else
              match s₀ with
              | .OutOfFuel => .error .OutOfFuel
              | .Checkpoint j => .ok (.Checkpoint j, [⟨0⟩])
              | .Ok sharedState varstore =>
                  match s₀.sharedState.accountMap.lookup address with
                  | none => buildContractCallEmptyReturnState s₀ (some accountMap₁) ⟨1⟩
                  | some yulContract =>
                      let executionEnv₁ := { sharedState.executionEnv with
                        calldata := calldata₁
                        code := yulContract.code
                        codeOwner := s₀.executionEnv.codeOwner
                        source := s₀.executionEnv.codeOwner
                        weiValue := value
                        depth := s₀.executionEnv.depth + 1 }
                      let sharedState₁ := { sharedState with
                        executionEnv := executionEnv₁
                        memory := ByteArray.mk #[]
                        accountMap := accountMap₁ }
                      contractCall callDispatcher (some yulContract.code)
                        (.Ok sharedState₁ default)
                        (contractCallReturn s₀ s₀.toMachineState.memory varstore
                          outOffset outSize)
  | _ => .error .InvalidArguments

/-- `DELEGATECALL`: as `CALLCODE`, with the sender and the value of the caller itself. -/
def delegatecallOp (s₀ : State) : List Literal → Outcome (List Literal)
  | _ :: address_arg :: inOffset :: inSize :: outOffset :: outSize :: _ =>
      let address := AccountAddress.ofUInt256 address_arg
      let calldata₁ :=
        s₀.toMachineState.memory.readWithPadding inOffset.toNat inSize.toNat
      if s₀.executionEnv.depth ≥ 1024 then
        buildContractCallEmptyReturnState s₀ none ⟨0⟩
      else
        match s₀ with
        | .OutOfFuel => .error .OutOfFuel
        | .Checkpoint j => .ok (.Checkpoint j, [⟨0⟩])
        | .Ok sharedState varstore =>
            match s₀.sharedState.accountMap.lookup address with
            | none => buildContractCallEmptyReturnState s₀ none ⟨1⟩
            | some yulContract =>
                let executionEnv₁ := { sharedState.executionEnv with
                  calldata := calldata₁
                  code := yulContract.code
                  codeOwner := s₀.executionEnv.codeOwner
                  depth := s₀.executionEnv.depth + 1 }
                let sharedState₁ := { sharedState with
                  executionEnv := executionEnv₁
                  memory := ByteArray.mk #[] }
                contractCall callDispatcher (some yulContract.code)
                  (.Ok sharedState₁ default)
                  (contractCallReturn s₀ s₀.toMachineState.memory varstore
                    outOffset outSize)
  | _ => .error .InvalidArguments

/-- The operations that a static call must not reach. -/
def staticViolations : List PrimOp :=
  [.CREATE, .CREATE2, .SSTORE, .SELFDESTRUCT, .LOG0, .LOG1, .LOG2, .LOG3, .LOG4, .TSTORE]

/-- `primCall` with the interpreter for callees as an argument. -/
def primCallWith [FFI] (s₀ : State) (prim : PrimOp) (args : List Literal) :
    Outcome (List Literal) :=
  if ¬s₀.executionEnv.perm ∧ prim ∈ staticViolations then .error .StaticModeViolation
  else
    match prim with
    | .CALL => callOp callDispatcher s₀ args
    | .STATICCALL => staticcallOp callDispatcher s₀ args
    | .CALLCODE => callcodeOp callDispatcher s₀ args
    | .DELEGATECALL => delegatecallOp callDispatcher s₀ args
    | _ =>
        match step prim s₀ args with
        | .ok (s, lit) => .ok (s, lit.toList)
        | .error e => .error e

end ContractCalls

/-! ## Expressions and statements -/

/-- An operation in an expression gives its first result. -/
def evalPrimCall (primCall : State → PrimOp → List Literal → Outcome (List Literal))
    (prim : PrimOp) : Outcome (List Literal) → Outcome Literal
  | .ok (s, args) => head' (primCall s prim args)
  | .error e => .error e

/-- An operation in a declaration binds its results. -/
def execPrimCall (primCall : State → PrimOp → List Literal → Outcome (List Literal))
    (prim : PrimOp) (vars : List Identifier) :
    Outcome (List Literal) → Except Exception State
  | .ok (s, args) => multifill' vars (primCall s prim args)
  | .error e => .error e

/-- The user function a call refers to; no name stands for the dispatcher. -/
def resolve (codeOverride : Option YulContract) (account : Account .Yul) :
    Option YulFunctionName → Option FunctionDefinition
  | none => some (.Def [] [] [(codeOverride.getD account.code).dispatcher])
  | some yulFunctionName =>
      (codeOverride.getD account.code).functions.lookup yulFunctionName

mutual
/-- A unit of fuel for each operation. -/
def primCall [FFI] (fuel : Nat) (s₀ : State) (prim : PrimOp) (args : List Literal) :
    Outcome (List Literal) :=
  match fuel with
  | 0 => .error .OutOfFuel
  | fuel₁ + 1 => primCallWith (callDispatcher fuel₁) s₀ prim args

/-- The rest of the arguments, after the first one. -/
def evalTail [FFI] (fuel : Nat) (args : List Expr) (codeOverride : Option YulContract) :
    Outcome Literal → Outcome (List Literal)
  | .ok (s, arg) =>
      match fuel with
      | 0 => .error .OutOfFuel
      | fuel' + 1 => cons' arg (evalArgs fuel' args codeOverride s)
  | .error e => .error e

/-- `evalArgs` evaluates a list of arguments. -/
def evalArgs [FFI] (fuel : Nat) (args : List Expr) (codeOverride : Option YulContract)
    (s : State) : Outcome (List Literal) :=
  match fuel with
  | 0 => .error .OutOfFuel
  | fuel' + 1 =>
      match args with
      | [] => .ok (s, [])
      | arg :: args => evalTail fuel' args codeOverride (eval fuel' arg codeOverride s)

/-- `call` executes a call of a user-defined function. -/
def call [FFI] (fuel : Nat) (args : List Literal)
    (yulFunctionNameOption : Option YulFunctionName)
    (codeOverride : Option YulContract) (s : State) : Outcome (List Literal) :=
  match fuel with
  | 0 => .error .OutOfFuel
  | fuel' + 1 =>
      match s.sharedState.accountMap.lookup s.executionEnv.codeOwner with
      | none => .error (.MissingContract s!"{s.executionEnv.codeOwner}")
      | some yulContract =>
          match resolve codeOverride yulContract yulFunctionNameOption with
          | none => .error (.MissingContractFunction (yulFunctionNameOption.getD ".none"))
          | some f =>
              let s₁ := (s.initcall f.params args).mkOk
              match exec fuel' (.Block f.body) codeOverride s₁ with
              | .error e => .error e
              | .ok s₂ =>
                  let s₃ := (s₂.reviveJump.overwrite? s).setStore s
                  .ok (s₃, f.rets.map s₂.lookup!)

/-- `callDispatcher` calls the dispatcher of an external contract.  It expects the
`calldata` and `code` to be appropriately set. -/
def callDispatcher [FFI] (fuel : Nat) (codeOverride : Option YulContract) (s : State) :
    Outcome (List Literal) :=
  match fuel with
  | 0 => .error .OutOfFuel
  | fuel' + 1 =>
      let f := FunctionDefinition.Def [] [] [s.executionEnv.code.dispatcher]
      let s₁ := (s.initcall f.params []).mkOk
      match exec fuel' (.Block f.body) codeOverride s₁ with
      | .error e => .error e
      | .ok s₂ =>
          let s₃ := (s₂.reviveJump.overwrite? s).setStore s
          .ok (s₃, f.rets.map s₂.lookup!)

/-- A user function in an expression gives its first result. -/
def evalCall [FFI] (fuel : Nat) (f : YulFunctionName) (codeOverride : Option YulContract) :
    Outcome (List Literal) → Outcome Literal
  | .ok (s, args) =>
      match fuel with
      | 0 => .error .OutOfFuel
      | fuel' + 1 => head' (call fuel' args f codeOverride s)
  | .error e => .error e

/-- A user function in a declaration binds its results. -/
def execCall [FFI] (fuel : Nat) (yulFunctionName : YulFunctionName)
    (vars : List Identifier) (codeOverride : Option YulContract) :
    Outcome (List Literal) → Except Exception State
  | .ok (s, args) =>
      match fuel with
      | 0 => .error .OutOfFuel
      | fuel' + 1 => multifill' vars (call fuel' args yulFunctionName codeOverride s)
  | .error e => .error e

/-- `execSwitchCases` executes each case of a `switch` statement. -/
def execSwitchCases [FFI] (fuel : Nat) (codeOverride : Option YulContract) (s : State) :
    List (Literal × List Stmt) →
      Except Exception (List (Literal × Except Exception State))
  | [] => .ok []
  | (val, stmts) :: cases' =>
      match fuel with
      | 0 => .error .OutOfFuel
      | fuel' + 1 =>
          match exec fuel' (.Block stmts) codeOverride s with
          | .error (.YulHalt s₂ v) =>
              match execSwitchCases fuel' codeOverride s cases' with
              | .error e => .error e
              | .ok s₃ => .ok ((val, .error (.YulHalt s₂ v)) :: s₃)
          | .error e =>
              match execSwitchCases fuel' codeOverride s cases' with
              | .error e => .error e
              | .ok s₃ => .ok ((val, .error e) :: s₃)
          | .ok s₂ =>
              match execSwitchCases fuel' codeOverride s cases' with
              | .error e => .error e
              | .ok s₃ => .ok ((val, .ok s₂) :: s₃)

/-- `eval` evaluates an expression.  Calls evaluated here are assumed to have
coarity 1. -/
def eval [FFI] (fuel : Nat) (expr : Expr) (codeOverride : Option YulContract)
    (s : State) : Outcome Literal :=
  match fuel with
  | 0 => .error .OutOfFuel
  | fuel' + 1 =>
      match expr with
      | .Call (.inl prim) args =>
          evalPrimCall (primCall fuel') prim
            (reverse' (evalArgs fuel' args.reverse codeOverride s))
      | .Call (.inr yulFunctionName) args =>
          evalCall fuel' yulFunctionName codeOverride
            (reverse' (evalArgs fuel' args.reverse codeOverride s))
      | .Var id => .ok (s, s[id]!)
      | .Lit val => .ok (s, val)

/-- `exec` executes a single statement. -/
def exec [FFI] (fuel : Nat) (stmt : Stmt) (codeOverride : Option YulContract)
    (s : State) : Except Exception State :=
  match fuel with
  | 0 => .error .OutOfFuel
  | fuel' + 1 =>
      match stmt with
      | .Block [] => .ok s
      | .Block (stmt :: stmts) =>
          match exec fuel' stmt codeOverride s with
          | .error e => .error e
          | .ok s₁ => exec fuel' (.Block stmts) codeOverride s₁
      | .Let vars none => .ok (List.foldr (fun var s => s.insert var ⟨0⟩) s vars)
      | .Let vars (some (.Call (.inl prim) args)) =>
          execPrimCall (primCall fuel') prim vars
            (reverse' (evalArgs fuel' args.reverse codeOverride s))
      | .Let vars (some (.Call (.inr yulFunctionName) args)) =>
          execCall fuel' yulFunctionName vars codeOverride
            (reverse' (evalArgs fuel' args.reverse codeOverride s))
      | .Let vars (some (.Var identifier)) =>
          .ok (s.insert vars.head! s[identifier]!)
      | .Let vars (some (.Lit literal)) => .ok (s.insert vars.head! literal)
      | .If cond body =>
          match eval fuel' cond codeOverride s with
          | .error e => .error e
          | .ok (s, cond) =>
              if cond ≠ ⟨0⟩ then exec fuel' (.Block body) codeOverride s else .ok s
      | .ExprStmtCall (.Call (.inl prim) args) =>
          execPrimCall (primCall fuel') prim []
            (reverse' (evalArgs fuel' args.reverse codeOverride s))
      | .ExprStmtCall (.Call (.inr f) args) =>
          execCall fuel' f [] codeOverride
            (reverse' (evalArgs fuel' args.reverse codeOverride s))
      | .ExprStmtCall _ => .error .InvalidExpression
      | .Switch cond cases' default' =>
          match eval fuel' cond codeOverride s with
          | .error e => .error e
          | .ok (s₁, cond) =>
              match execSwitchCases fuel' codeOverride s₁ cases' with
              | .error e => .error e
              | .ok branches =>
                  -- the default branch runs whether or not a case is selected
                  match exec fuel' (.Block default') codeOverride s₁ with
                  | .error e => .error e
                  | .ok s₂ =>
                      List.foldr (fun (valᵢ, sᵢ) s => if valᵢ = cond then sᵢ else s)
                        (.ok s₂) branches
      | .For cond post body => loop fuel' cond post body codeOverride s
      | .Continue => .ok s.setContinue
      | .Break => .ok s.setBreak
      | .Leave => .ok s.setLeave

/-- `loop` executes a for-loop. -/
def loop [FFI] (fuel : Nat) (cond : Expr) (post body : List Stmt)
    (codeOverride : Option YulContract) (s : State) : Except Exception State :=
  match fuel with
  | 0 => .error .OutOfFuel
  | 1 => .error .OutOfFuel
  | fuel' + 1 + 1 =>
      match eval fuel' cond codeOverride s.mkOk with
      | .error e => .error e
      | .ok (s₁, x) =>
          if x = ⟨0⟩ then .ok (s₁.overwrite? s)
          else
            match exec fuel' (.Block body) codeOverride s₁ with
            | .error e => .error e
            | .ok s₂ =>
                match s₂ with
                | .OutOfFuel => .ok (s₂.overwrite? s)
                | .Checkpoint (.Break _ _) => .ok (s₂.reviveJump.overwrite? s)
                | .Checkpoint (.Leave _ _) => .ok (s₂.overwrite? s)
                | .Checkpoint (.Continue _ _)
                | _ =>
                    match exec fuel' (.Block post) codeOverride s₂.reviveJump with
                    | .error e => .error e
                    | .ok s₃ =>
                        let s₄ := s₃.overwrite? s
                        match exec fuel' (.For cond post body) codeOverride s₄ with
                        | .error e => .error e
                        | .ok s₅ => .ok (s₅.overwrite? s)
end

/-- The observable outcome of a program.  Failures other than a revert and a
violation of static mode show as the default state. -/
def execTopLevel [FFI] (fuel : Nat) (stmt : Stmt) (s : State) : State :=
  match exec fuel stmt none s with
  | .error .InvalidArguments => default
  | .error .NotEncodableRLP => default
  | .error .InvalidInstruction => default
  | .error .OutOfFuel => default
  | .error .StaticModeViolation => s
  | .error (.MissingContract _) => default
  | .error (.MissingContractFunction _) => default
  | .error .InvalidExpression => default
  | .error .YulEXTCODESIZENotImplemented => default
  | .error .Revert => s
  | .error (.YulHalt s _) => s
  | .ok s => s

end YulGasRules.Yul
