import Mathlib.Data.Finmap
import YulGasRules.Machine.UInt256

/-!
# Abstract syntax of Yul

The primitive operations available to Yul code, grouped as in the source, and
the mutually recursive syntax of expressions, statements and function
definitions.  The source indexes operations by the machine they belong to; only
the Yul instance is described here, so the operations that exist for bytecode
alone (pushes, duplications, exchanges, jumps) do not occur.
-/

namespace YulGasRules

/-- The two machines of the source.  They differ here in the code an account
holds. -/
inductive OperationType where
  | Yul
  | EVM
  deriving DecidableEq, Repr

namespace Operation

/-- Stop and arithmetic operations. -/
inductive SAOp where
  | STOP | ADD | MUL | SUB | DIV | SDIV | MOD | SMOD | ADDMOD | MULMOD | EXP | SIGNEXTEND
  deriving DecidableEq, Repr

/-- Comparison and bitwise logic operations. -/
inductive CBLOp where
  | LT | GT | SLT | SGT | EQ | ISZERO | AND | OR | XOR | NOT | BYTE | SHL | SHR | SAR
  deriving DecidableEq, Repr

/-- Keccak operation. -/
inductive KOp where
  | KECCAK256
  deriving DecidableEq, Repr

/-- Environment information. -/
inductive EOp where
  | ADDRESS | BALANCE | ORIGIN | CALLER | CALLVALUE | CALLDATALOAD | CALLDATASIZE
  | CALLDATACOPY | GASPRICE | CODESIZE | CODECOPY | EXTCODESIZE | EXTCODECOPY
  | RETURNDATASIZE | RETURNDATACOPY | EXTCODEHASH
  deriving DecidableEq, Repr

/-- Block information. -/
inductive BOp where
  | BLOCKHASH | COINBASE | TIMESTAMP | NUMBER | PREVRANDAO | GASLIMIT | CHAINID
  | SELFBALANCE | BASEFEE | BLOBHASH | BLOBBASEFEE
  deriving DecidableEq, Repr

/-- Stack, memory, storage and flow operations. -/
inductive SMSFOp where
  | POP | MLOAD | MSTORE | SLOAD | SSTORE | MSTORE8 | MSIZE | GAS | TLOAD | TSTORE | MCOPY
  deriving DecidableEq, Repr

/-- Logging operations. -/
inductive LOp where
  | LOG0 | LOG1 | LOG2 | LOG3 | LOG4
  deriving DecidableEq, Repr

/-- System operations. -/
inductive SOp where
  | CREATE | CALL | CALLCODE | RETURN | DELEGATECALL | CREATE2 | STATICCALL | REVERT
  | INVALID | SELFDESTRUCT
  deriving DecidableEq, Repr

end Operation

open Operation

/-- A primitive operation of Yul. -/
inductive Operation where
  | StopArith : SAOp → Operation
  | CompBit : CBLOp → Operation
  | Keccak : KOp → Operation
  | Env : EOp → Operation
  | Block : BOp → Operation
  | StackMemFlow : SMSFOp → Operation
  | Log : LOp → Operation
  | System : SOp → Operation
  deriving DecidableEq, Repr

namespace Operation

abbrev STOP : Operation := .StopArith .STOP
abbrev ADD : Operation := .StopArith .ADD
abbrev MUL : Operation := .StopArith .MUL
abbrev SUB : Operation := .StopArith .SUB
abbrev DIV : Operation := .StopArith .DIV
abbrev SDIV : Operation := .StopArith .SDIV
abbrev MOD : Operation := .StopArith .MOD
abbrev SMOD : Operation := .StopArith .SMOD
abbrev ADDMOD : Operation := .StopArith .ADDMOD
abbrev MULMOD : Operation := .StopArith .MULMOD
abbrev EXP : Operation := .StopArith .EXP
abbrev SIGNEXTEND : Operation := .StopArith .SIGNEXTEND

abbrev LT : Operation := .CompBit .LT
abbrev GT : Operation := .CompBit .GT
abbrev SLT : Operation := .CompBit .SLT
abbrev SGT : Operation := .CompBit .SGT
abbrev EQ : Operation := .CompBit .EQ
abbrev ISZERO : Operation := .CompBit .ISZERO
abbrev AND : Operation := .CompBit .AND
abbrev OR : Operation := .CompBit .OR
abbrev XOR : Operation := .CompBit .XOR
abbrev NOT : Operation := .CompBit .NOT
abbrev BYTE : Operation := .CompBit .BYTE
abbrev SHL : Operation := .CompBit .SHL
abbrev SHR : Operation := .CompBit .SHR
abbrev SAR : Operation := .CompBit .SAR

abbrev KECCAK256 : Operation := .Keccak .KECCAK256

abbrev ADDRESS : Operation := .Env .ADDRESS
abbrev BALANCE : Operation := .Env .BALANCE
abbrev ORIGIN : Operation := .Env .ORIGIN
abbrev CALLER : Operation := .Env .CALLER
abbrev CALLVALUE : Operation := .Env .CALLVALUE
abbrev CALLDATALOAD : Operation := .Env .CALLDATALOAD
abbrev CALLDATASIZE : Operation := .Env .CALLDATASIZE
abbrev CALLDATACOPY : Operation := .Env .CALLDATACOPY
abbrev GASPRICE : Operation := .Env .GASPRICE
abbrev CODESIZE : Operation := .Env .CODESIZE
abbrev CODECOPY : Operation := .Env .CODECOPY
abbrev EXTCODESIZE : Operation := .Env .EXTCODESIZE
abbrev EXTCODECOPY : Operation := .Env .EXTCODECOPY
abbrev RETURNDATASIZE : Operation := .Env .RETURNDATASIZE
abbrev RETURNDATACOPY : Operation := .Env .RETURNDATACOPY
abbrev EXTCODEHASH : Operation := .Env .EXTCODEHASH

abbrev BLOCKHASH : Operation := .Block .BLOCKHASH
abbrev COINBASE : Operation := .Block .COINBASE
abbrev TIMESTAMP : Operation := .Block .TIMESTAMP
abbrev NUMBER : Operation := .Block .NUMBER
abbrev PREVRANDAO : Operation := .Block .PREVRANDAO
abbrev GASLIMIT : Operation := .Block .GASLIMIT
abbrev CHAINID : Operation := .Block .CHAINID
abbrev SELFBALANCE : Operation := .Block .SELFBALANCE
abbrev BASEFEE : Operation := .Block .BASEFEE
abbrev BLOBHASH : Operation := .Block .BLOBHASH
abbrev BLOBBASEFEE : Operation := .Block .BLOBBASEFEE

abbrev POP : Operation := .StackMemFlow .POP
abbrev MLOAD : Operation := .StackMemFlow .MLOAD
abbrev MSTORE : Operation := .StackMemFlow .MSTORE
abbrev SLOAD : Operation := .StackMemFlow .SLOAD
abbrev SSTORE : Operation := .StackMemFlow .SSTORE
abbrev MSTORE8 : Operation := .StackMemFlow .MSTORE8
abbrev MSIZE : Operation := .StackMemFlow .MSIZE
abbrev GAS : Operation := .StackMemFlow .GAS
abbrev TLOAD : Operation := .StackMemFlow .TLOAD
abbrev TSTORE : Operation := .StackMemFlow .TSTORE
abbrev MCOPY : Operation := .StackMemFlow .MCOPY

abbrev LOG0 : Operation := .Log .LOG0
abbrev LOG1 : Operation := .Log .LOG1
abbrev LOG2 : Operation := .Log .LOG2
abbrev LOG3 : Operation := .Log .LOG3
abbrev LOG4 : Operation := .Log .LOG4

abbrev CREATE : Operation := .System .CREATE
abbrev CALL : Operation := .System .CALL
abbrev CALLCODE : Operation := .System .CALLCODE
abbrev RETURN : Operation := .System .RETURN
abbrev DELEGATECALL : Operation := .System .DELEGATECALL
abbrev CREATE2 : Operation := .System .CREATE2
abbrev STATICCALL : Operation := .System .STATICCALL
abbrev REVERT : Operation := .System .REVERT
abbrev INVALID : Operation := .System .INVALID
abbrev SELFDESTRUCT : Operation := .System .SELFDESTRUCT

end Operation

namespace Yul

/-- The name of a variable. -/
abbrev Identifier := String

/-- The operations that Yul code may call. -/
abbrev PrimOp := Operation

/-- The name of a user function. -/
abbrev YulFunctionName := String

mutual
/-- Parameters, results and body of a user function. -/
inductive FunctionDefinition where
  | Def : List Identifier → List Identifier → List Stmt → FunctionDefinition

/-- Expressions.  A call is of an operation or of a user function. -/
inductive Expr where
  | Call : (PrimOp ⊕ YulFunctionName) → List Expr → Expr
  | Var : Identifier → Expr
  | Lit : Literal → Expr

/-- Statements.  A loop has no initialiser: the compiler moves it in front. -/
inductive Stmt where
  | Block : List Stmt → Stmt
  | Let : List Identifier → Option Expr → Stmt
  | ExprStmtCall : Expr → Stmt
  | Switch : Expr → List (Literal × List Stmt) → List Stmt → Stmt
  | For : Expr → List Stmt → List Stmt → Stmt
  | If : Expr → List Stmt → Stmt
  | Continue : Stmt
  | Break : Stmt
  | Leave : Stmt
end

instance : Inhabited Stmt := ⟨.Block []⟩

namespace FunctionDefinition

def params : FunctionDefinition → List Identifier
  | Def params _ _ => params

def rets : FunctionDefinition → List Identifier
  | Def _ rets _ => rets

def body : FunctionDefinition → List Stmt
  | Def _ _ body => body

end FunctionDefinition

/-- The code of a contract: what it runs when it is called, and its functions. -/
structure YulContract where
  dispatcher : Stmt
  functions : Finmap fun _ : YulFunctionName => FunctionDefinition

instance : Inhabited YulContract := ⟨⟨default, ∅⟩⟩

end Yul

/-- The code an account holds: bytes on one machine, syntax on the other. -/
abbrev contractCode : OperationType → Type
  | .EVM => ByteArray
  | .Yul => Yul.YulContract

instance {τ : OperationType} : Inhabited (contractCode τ) where
  default := match τ with
    | .EVM => (default : ByteArray)
    | .Yul => (default : Yul.YulContract)

end YulGasRules
