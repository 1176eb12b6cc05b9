import YulGasRules.Fuel.Effect
import YulGasRules.Yul.Arithmetic
import YulGasRules.Yul.Stores
import YulGasRules.Yul.Strangers

/-!
# Code on paper

On paper an instruction computes a number, uses one of the stores, or halts, and code does
so from instruction to instruction: operands from the last to the first, statements from
the first to the last, a loop as long as its condition is not zero, a function in variables
of its own.  The code that is covered calls no other contracts, does not jump out of
blocks, and accesses memory below `2^64` only.  The effect of other code is unknown.
-/

namespace YulGasRules.Yul

open Collections Fuel

/-- The stores and the variables. -/
structure Sheet where
  stores : Stores
  vars : VarStore

/-- How code halts: it takes back what it did, or it keeps it and may return data. -/
inductive Halt where
  | reverts
  | stops (stores : Stores)
  | returns (stores : Stores) (data : ByteArray)

/-- What instructions and functions do to a sheet. -/
abbrev Calls := YulFunctionName → Sheet → List Literal → Effect Halt (Sheet × List Literal)

/-- Bind values to variables, the last one first. -/
def VarStore.bind (store : VarStore) (vars : List Identifier) (vals : List Literal) : VarStore :=
  (vars.zip vals).foldr (fun entry store => store.insert entry.1 entry.2) store

/-- Declare variables, as zero. -/
def VarStore.declare (store : VarStore) (vars : List Identifier) : VarStore :=
  vars.foldr (fun var store => store.insert var ⟨0⟩) store

/-- An expression needs exactly one value. -/
def single : Sheet × List Literal → Effect Halt (Sheet × Literal)
  | (sheet, [val]) => .ends (sheet, val)
  | _ => .unknown

/-- Take turns as long as the condition is not zero, but not more often than `turns` says. -/
def loopOnPaper (cond : Sheet → Effect Halt (Sheet × Literal))
    (body post : Sheet → Effect Halt Sheet) : Nat → Sheet → Effect Halt Sheet
  | 0, _ => .unknown
  | turns + 1, sheet =>
      (cond sheet).bind fun (sheet, val) =>
        if val = ⟨0⟩ then .ends sheet
        else (body sheet).bind fun sheet => (post sheet).bind (loopOnPaper cond body post turns)

/-- Instructions that halt. -/
def Stores.halt {α : Type} (stores : Stores) : PrimOp → List Literal → Effect Halt α
  | .STOP, [] => .halts (.stops stores)
  | .RETURN, [p, s] => .halts (.returns stores (sliceOf stores.memory p.toNat s.toNat))
  | .REVERT, [_, _] => .halts .reverts
  | _, _ => .unknown

section Paper

variable [FFI] (inputs : Inputs)

/-- What an instruction does. -/
def Sheet.run (sheet : Sheet) (prim : PrimOp) (args : List Literal) :
    Effect Halt (Sheet × List Literal) :=
  match prim.number args with
  | some n => .ends (sheet, [.wrap n])
  | none =>
      if prim.reach args < 2 ^ 64 then
        match sheet.stores.step inputs prim args with
        | some (stores, vals) => .ends ({ sheet with stores }, vals)
        | none => sheet.stores.halt prim args
      else .unknown

variable (calls : Calls)

/-- What an instruction or a function does. -/
def Sheet.apply (sheet : Sheet) :
    PrimOp ⊕ YulFunctionName → List Literal → Effect Halt (Sheet × List Literal)
  | .inl prim, args => sheet.run inputs prim args
  | .inr f, args => calls f sheet args

mutual
/-- The value of an expression. -/
def Expr.onPaper : Expr → Sheet → Effect Halt (Sheet × Literal)
  | .Var id, sheet => .ends (sheet, sheet.vars.value id)
  | .Lit val, sheet => .ends (sheet, val)
  | .Call f args, sheet =>
      (operandsOnPaper args sheet).bind fun (sheet, vals) =>
        (sheet.apply inputs calls f vals).bind single

def operandsOnPaper : List Expr → Sheet → Effect Halt (Sheet × List Literal)
  | [], sheet => .ends (sheet, [])
  | arg :: args, sheet =>
      (operandsOnPaper args sheet).bind fun (sheet, vals) =>
        (arg.onPaper sheet).map fun (sheet, val) => (sheet, val :: vals)
end

/-- Bind the values of a call to variables. -/
def letOnPaper (vars : List Identifier) (f : PrimOp ⊕ YulFunctionName) (args : List Expr)
    (sheet : Sheet) : Effect Halt Sheet :=
  (operandsOnPaper inputs calls args sheet).bind fun (sheet, vals) =>
    (sheet.apply inputs calls f vals).map fun (sheet, vals) =>
      { sheet with vars := sheet.vars.bind vars vals }

mutual
/-- The effect of a statement, with loops of at most `turns` turns. -/
def Stmt.onPaper (turns : Nat) : Stmt → Sheet → Effect Halt Sheet
  | .Block stmts, sheet => blockOnPaper turns stmts sheet
  | .Let vars none, sheet => .ends { sheet with vars := sheet.vars.declare vars }
  | .Let vars (some (.Call f args)), sheet => letOnPaper inputs calls vars f args sheet
  | .Let [var] (some (.Var id)), sheet =>
      .ends { sheet with vars := sheet.vars.insert var (sheet.vars.value id) }
  | .Let [var] (some (.Lit val)), sheet =>
      .ends { sheet with vars := sheet.vars.insert var val }
  | .ExprStmtCall (.Call f args), sheet => letOnPaper inputs calls [] f args sheet
  | .If cond body, sheet =>
      (cond.onPaper inputs calls sheet).bind fun (sheet, val) =>
        if val = ⟨0⟩ then .ends sheet else blockOnPaper turns body sheet
  | .Switch cond branches default', sheet =>
      (cond.onPaper inputs calls sheet).bind fun (sheet, val) =>
        -- the default branch takes part even where it is not taken
        (blockOnPaper turns default' sheet).bind fun after =>
          branchesOnPaper turns branches val after sheet
  | .For cond post body, sheet =>
      loopOnPaper (cond.onPaper inputs calls) (blockOnPaper turns body) (blockOnPaper turns post)
        turns sheet
  | _, _ => .unknown

def blockOnPaper (turns : Nat) : List Stmt → Sheet → Effect Halt Sheet
  | [], sheet => .ends sheet
  | stmt :: stmts, sheet => (stmt.onPaper turns sheet).bind (blockOnPaper turns stmts)

/-- The first branch for the value, or else the outcome of the default branch. -/
def branchesOnPaper (turns : Nat) :
    List (Literal × List Stmt) → Literal → Sheet → Sheet → Effect Halt Sheet
  | [], _, after, _ => .ends after
  | (label, stmts) :: branches, val, after, sheet =>
      if label = val then blockOnPaper turns stmts sheet
      else branchesOnPaper turns branches val after sheet
end

/-- Calls of the functions of a contract, nested at most `depth` times. -/
def callsOnPaper (code : YulContract) : Nat → Calls
  | 0 => fun _ _ _ => .unknown
  | depth + 1 => fun f sheet args =>
      match code.functions.lookup f with
      | none => .unknown
      | some definition =>
          (blockOnPaper inputs (callsOnPaper code depth) depth definition.body
            ⟨sheet.stores, VarStore.bind default definition.params args⟩).map fun final =>
              ({ sheet with stores := final.stores }, definition.rets.map final.vars.value)

end Paper

end YulGasRules.Yul
