import YulGasRules.Yul.Computation
import YulGasRules.Yul.Signature

/-!
# Total primitive operations

A primitive operation is total at a number of arguments when, given enough fuel,
it succeeds on any arguments of that number from every state.  Although this
speaks of all states, it can be read off the operation: calls of other contracts
and operations guarded by the static mode are never total, and the others are
total at the argument counts of their signature.
-/

namespace YulGasRules.Yul

open Fuel

/-! ## States in which calls of other contracts fail -/

/-- A transfer of value is refused in the default state. -/
theorem callOp_fails (callee : Option YulContract → State → Outcome (List Literal)) :
    ∀ count, ∃ exception,
      callOp callee default (List.replicate count ⟨1⟩) = .error exception
  | 0 | 1 | 2 | 3 | 4 | 5 | 6 => ⟨.InvalidArguments, rfl⟩
  | _ + 7 => ⟨.StaticModeViolation, rfl⟩

theorem callcodeOp_fails (callee : Option YulContract → State → Outcome (List Literal)) :
    ∀ count, ∃ exception,
      callcodeOp callee default (List.replicate count ⟨1⟩) = .error exception
  | 0 | 1 | 2 | 3 | 4 | 5 | 6 => ⟨.InvalidArguments, rfl⟩
  | _ + 7 => ⟨.StaticModeViolation, rfl⟩

theorem staticcallOp_fails (callee : Option YulContract → State → Outcome (List Literal)) :
    ∀ count, ∃ exception,
      staticcallOp callee default (List.replicate count ⟨1⟩) = .error exception
  | 0 | 1 | 2 | 3 | 4 | 5 => ⟨.InvalidArguments, rfl⟩
  | _ + 6 => ⟨.StaticModeViolation, rfl⟩

/-- A contract that fails as soon as it is called. -/
def brokenContract : YulContract := ⟨.ExprStmtCall (.Var ""), ∅⟩

/-- A state in which the account at address `1` holds the broken contract. -/
def brokenCallee : State :=
  let account : Account .Yul := { (default : Account .Yul) with code := brokenContract }
  .Ok { (default : SharedState .Yul) with
    accountMap := (∅ : AccountMap .Yul).insert (AccountAddress.ofUInt256 ⟨1⟩) account } default

variable [FFI]

/-! ## Total operations -/

/-- Given enough fuel, the operation succeeds on `count` arguments from every state. -/
def TotalPrim (prim : PrimOp) (count : Nat) : Prop :=
  ∃ threshold, ∀ fuel, threshold ≤ fuel → ∀ state args, args.length = count →
    ∃ output, primCall fuel state prim args = .ok output

/-- Whether an operation is total at an argument count, read off the operation. -/
def isTotal (prim : PrimOp) (count : Nat) : Bool :=
  prim ∉ staticViolations && prim ∉ contractCalls && (signature prim).allows count

/-- What a successful operation may do to the running code. -/
def KeepsCode (prim : PrimOp) (before after : State) : Prop :=
  after.runningCode = before.runningCode ∨ (prim ∈ unmodelled ∧ after = default)

/-- Outside of calls of other contracts, an operation runs if the static mode permits. -/
theorem primCallWith_of_own {prim : PrimOp} (own : prim ∉ contractCalls)
    (callee : Option YulContract → State → Outcome (List Literal)) (state : State)
    (args : List Literal) :
    primCallWith callee state prim args =
      if ¬state.executionEnv.perm ∧ prim ∈ staticViolations then .error .StaticModeViolation
      else (step prim state args).map fun output => (output.1, output.2.toList) := by
  simp only [primCallWith]
  congr 1
  split
  · exact absurd (by decide) own
  · exact absurd (by decide) own
  · exact absurd (by decide) own
  · exact absurd (by decide) own
  · cases step prim state args <;> rfl

theorem primCall_of_own {prim : PrimOp} (own : prim ∉ contractCalls)
    (unguarded : prim ∉ staticViolations) (fuel : Nat) (state : State) (args : List Literal) :
    primCall (fuel + 1) state prim args =
      (step prim state args).map fun output => (output.1, output.2.toList) := by
  rw [primCall, primCallWith_of_own own, if_neg fun guarded => unguarded guarded.2]

/-- A total operation needs a single unit of fuel. -/
theorem primCall_of_isTotal {prim : PrimOp} {count : Nat} (total : isTotal prim count = true)
    (fuel : Nat) (state : State) (args : List Literal) (enough : args.length = count) :
    Ends (fun output => KeepsCode prim state output.1) (fun _ => False)
      (primCall (fuel + 1) state prim args) := by
  simp only [isTotal, Bool.and_eq_true, decide_eq_true_eq] at total
  obtain ⟨⟨unguarded, own⟩, allowed⟩ := total
  rw [primCall_of_own own unguarded]
  by_cases lacking : prim ∈ unmodelled
  · rw [step_of_unmodelled lacking]
    exact .inr ⟨lacking, rfl⟩
  · subst enough
    have conforms := step_conforms prim lacking state args
    rw [allowed] at conforms
    apply Ends.map (conforms.mono (fun _ kept => kept.2) (fun _ refused => nomatch refused))
    intro output kept
    exact .inl kept

theorem total_of_isTotal {prim : PrimOp} {count : Nat} (total : isTotal prim count = true) :
    TotalPrim prim count := by
  use 1
  intro fuel enough state args same
  cases fuel with
  | zero => omega
  | succ fuel =>
      obtain ⟨output, succeeds, _⟩ := (primCall_of_isTotal total fuel state args same).exists_ok
      exact ⟨output, succeeds⟩

/-! ## Operations that are not total -/

theorem not_total_of_failing {prim : PrimOp} {count : Nat} (state : State) (args : List Literal)
    (same : args.length = count)
    (fails : ∀ fuel, ∃ exception, primCall (fuel + 1) state prim args = .error exception) :
    ¬TotalPrim prim count := by
  rintro ⟨threshold, beyond⟩
  obtain ⟨output, succeeds⟩ := beyond (threshold + 1) (Nat.le_succ threshold) state args same
  obtain ⟨exception, failed⟩ := fails threshold
  rw [succeeds] at failed
  cases failed

/-- The default state is static. -/
theorem not_total_of_guarded {prim : PrimOp} (guarded : prim ∈ staticViolations)
    (count : Nat) : ¬TotalPrim prim count := by
  apply not_total_of_failing default (List.replicate count ⟨1⟩) (List.length_replicate ..)
  intro fuel
  exact ⟨.StaticModeViolation, if_pos ⟨Bool.false_ne_true, guarded⟩⟩

theorem not_total_of_refused {prim : PrimOp} {count : Nat} (own : prim ∉ contractCalls)
    (unguarded : prim ∉ staticViolations) (refused : (signature prim).allows count = false) :
    ¬TotalPrim prim count := by
  have modelled : prim ∉ unmodelled := by
    intro lacking
    rw [signature_of_unmodelled lacking] at refused
    cases refused
  have same : (List.replicate count (⟨1⟩ : Literal)).length = count := List.length_replicate ..
  apply not_total_of_failing default (List.replicate count ⟨1⟩) same
  intro fuel
  have conforms := step_conforms prim modelled default (List.replicate count ⟨1⟩)
  rw [same, refused] at conforms
  have fails : Ends (fun _ => False) (fun _ => True)
      (step prim default (List.replicate count ⟨1⟩)) :=
    conforms.mono (fun _ accepted => nomatch accepted.1) (fun _ _ => trivial)
  obtain ⟨exception, failed, _⟩ := fails.exists_error
  rw [primCall_of_own own unguarded, failed]
  exact ⟨exception, rfl⟩

theorem callDispatcher_broken {state : State} (broken : state.executionEnv.code = brokenContract)
    (codeOverride : Option YulContract) :
    ∀ fuel, callDispatcher fuel codeOverride state = .error .OutOfFuel ∨
      callDispatcher fuel codeOverride state = .error .InvalidExpression
  | 0 => .inl rfl
  | 1 => .inl rfl
  | 2 => by
      left
      simp only [callDispatcher, broken]
      rfl
  | _ + 3 => by
      right
      simp only [callDispatcher, broken]
      rfl

theorem contractCall_broken {state : State} (broken : state.executionEnv.code = brokenContract)
    (fuel : Nat) (codeOverride : Option YulContract)
    (return' : State → Outcome (List Literal)) :
    ∃ exception,
      contractCall (callDispatcher fuel) codeOverride state return' = .error exception := by
  rcases callDispatcher_broken broken codeOverride fuel with failed | failed
  · exact ⟨.OutOfFuel, by simp only [contractCall, failed]⟩
  · exact ⟨.InvalidExpression, by simp only [contractCall, failed]⟩

theorem delegatecallOp_fails (fuel : Nat) :
    ∀ count, ∃ exception,
      delegatecallOp (callDispatcher fuel) brokenCallee (List.replicate count ⟨1⟩) =
        .error exception
  | 0 | 1 | 2 | 3 | 4 | 5 => ⟨.InvalidArguments, rfl⟩
  | _ + 6 => contractCall_broken rfl fuel _ _

theorem not_total_of_contractCall {prim : PrimOp} (foreign : prim ∈ contractCalls) (count : Nat) :
    ¬TotalPrim prim count := by
  have same : (List.replicate count (⟨1⟩ : Literal)).length = count := List.length_replicate ..
  simp only [contractCalls, List.mem_cons, List.not_mem_nil, or_false] at foreign
  rcases foreign with rfl | rfl | rfl | rfl
  · exact not_total_of_failing default _ same
      fun fuel => callOp_fails (callDispatcher fuel) count
  · exact not_total_of_failing default _ same
      fun fuel => staticcallOp_fails (callDispatcher fuel) count
  · exact not_total_of_failing default _ same
      fun fuel => callcodeOp_fails (callDispatcher fuel) count
  · exact not_total_of_failing brokenCallee _ same fun fuel => delegatecallOp_fails fuel count

/-- Totality, which speaks of all states, can be read off the operation. -/
theorem totalPrim_iff (prim : PrimOp) (count : Nat) :
    TotalPrim prim count ↔ isTotal prim count = true := by
  refine ⟨fun total => ?_, total_of_isTotal⟩
  by_contra refused
  by_cases guarded : prim ∈ staticViolations
  · exact not_total_of_guarded guarded count total
  by_cases foreign : prim ∈ contractCalls
  · exact not_total_of_contractCall foreign count total
  · refine not_total_of_refused foreign guarded ?_ total
    simpa [isTotal, guarded, foreign] using refused

end YulGasRules.Yul
