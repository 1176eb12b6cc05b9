import YulGasRules.Rules.Emitted

/-!
# The bodies emitted for `require` and for a custom error

The branch that the compiler emits for `require(to != address(0), "zero address")`
encodes the message by a chain of helper functions, and the one for a guarded
`revert E()` encodes the selector by a single helper.  Both are bodies of the form
above in every contract that includes their helpers.  Both call user functions, so
neither reverts from every state, and the law holds for them only where the
contract runs.
-/

namespace YulGasRules.Law1

open Yul YulGasRules.Core Fuel

/-! ## The emitted functions -/

/-- `prim(args)` as an expression. -/
abbrev op (prim : PrimOp) (args : List Expr) : Expr := .Call (.inl prim) args

/-- `f(args)` as an expression. -/
abbrev callUser (f : YulFunctionName) (args : List Expr) : Expr := .Call (.inr f) args

/-! The names of the helpers for the message end in its hash. -/

abbrev storeLiteral : YulFunctionName :=
  "store_literal_in_memory_a4b4461cfc9c1f0249c17896b005545dc5d1690f81d2023afc517b07ed3227a7"

abbrev encodeLiteral : YulFunctionName :=
  "abi_encode_t_stringliteral_a4b4461cfc9c1f0249c17896b005545dc5d1690f81d2023afc517b07ed3227a7_to_t_string_memory_ptr_fromStack"

abbrev encodeTupleLiteral : YulFunctionName :=
  "abi_encode_tuple_t_stringliteral_a4b4461cfc9c1f0249c17896b005545dc5d1690f81d2023afc517b07ed3227a7__to_t_string_memory_ptr__fromStack"

def allocate_unbounded : FunctionDefinition :=
  .Def [] ["memPtr"] [.Let ["memPtr"] (some (op .MLOAD [.Lit ⟨64⟩]))]

def array_storeLengthForEncoding_t_string_memory_ptr_fromStack : FunctionDefinition :=
  .Def ["pos", "length"] ["updated_pos"]
    [.ExprStmtCall (op .MSTORE [.Var "pos", .Var "length"]),
      .Let ["updated_pos"] (some (op .ADD [.Var "pos", .Lit ⟨0x20⟩]))]

/-- The text `zero address` as a literal, padded on the right to a word. -/
def zeroAddress : Literal :=
  ⟨0x7a65726f20616464726573730000000000000000000000000000000000000000⟩

def store_literal_in_memory : FunctionDefinition :=
  .Def ["memPtr"] []
    [.ExprStmtCall (op .MSTORE [op .ADD [.Var "memPtr", .Lit ⟨0⟩], .Lit zeroAddress])]

def abi_encode_t_stringliteral_to_t_string_memory_ptr_fromStack : FunctionDefinition :=
  .Def ["pos"] ["end"]
    [.Let ["pos"] (some (callUser
        "array_storeLengthForEncoding_t_string_memory_ptr_fromStack"
        [.Var "pos", .Lit ⟨12⟩])),
      .ExprStmtCall (callUser storeLiteral [.Var "pos"]),
      .Let ["end"] (some (op .ADD [.Var "pos", .Lit ⟨32⟩]))]

def abi_encode_tuple_t_stringliteral_to_t_string_memory_ptr_fromStack :
    FunctionDefinition :=
  .Def ["headStart"] ["tail"]
    [.Let ["tail"] (some (op .ADD [.Var "headStart", .Lit ⟨32⟩])),
      .ExprStmtCall (op .MSTORE
        [op .ADD [.Var "headStart", .Lit ⟨0⟩], op .SUB [.Var "tail", .Var "headStart"]]),
      .Let ["tail"] (some (callUser encodeLiteral [.Var "tail"]))]

def abi_encode_tuple_to_fromStack : FunctionDefinition :=
  .Def ["headStart"] ["tail"]
    [.Let ["tail"] (some (op .ADD [.Var "headStart", .Lit ⟨0⟩]))]

/-- The functions that the two bodies call, directly or through others. -/
def helpers : Finmap fun _ : YulFunctionName => FunctionDefinition :=
  [⟨"allocate_unbounded", allocate_unbounded⟩,
    ⟨"array_storeLengthForEncoding_t_string_memory_ptr_fromStack",
      array_storeLengthForEncoding_t_string_memory_ptr_fromStack⟩,
    ⟨storeLiteral, store_literal_in_memory⟩,
    ⟨encodeLiteral, abi_encode_t_stringliteral_to_t_string_memory_ptr_fromStack⟩,
    ⟨encodeTupleLiteral,
      abi_encode_tuple_t_stringliteral_to_t_string_memory_ptr_fromStack⟩,
    ⟨"abi_encode_tuple__to__fromStack", abi_encode_tuple_to_fromStack⟩].toFinmap

/-- The contract defines the helpers as they are emitted. -/
def IncludesHelpers (c : YulContract) : Prop :=
  ∀ f definition, helpers.lookup f = some definition → c.Defines f definition

/-! ## The emitted bodies -/

section Bodies

variable [FFI] {c : YulContract}

/-- The branch of `require(to != address(0), "zero address")`. -/
def requireBody (includes : IncludesHelpers c) : EmittedBody ModelledPrim c :=
  .ofCheck includes
    [.Let ["memPtr"] (some (callUser "allocate_unbounded" [])),
      .ExprStmtCall (op .MSTORE [.Var "memPtr",
        .Lit ⟨0x08c379a000000000000000000000000000000000000000000000000000000000⟩]),
      .Let ["end"] (some (callUser encodeTupleLiteral [op .ADD [.Var "memPtr", .Lit ⟨4⟩]]))]
    (.Var "memPtr") (op .SUB [.Var "end", .Var "memPtr"]) 8
    (by decide +kernel) (by decide +kernel)

/-- The branch of `if (!(to != address(0))) { revert E(); }`.  The compiler puts these
statements into a block of their own inside the branch, which is left out here: blocks
open no scope in the interpreter. -/
def errorBody (includes : IncludesHelpers c) : EmittedBody ModelledPrim c :=
  .ofCheck includes
    [.Let ["_3"] (some (.Lit ⟨0⟩)),
      .ExprStmtCall (op .MSTORE [.Var "_3",
        .Lit ⟨0x92bbf6e800000000000000000000000000000000000000000000000000000000⟩]),
      .Let ["_2"] (some (callUser "abi_encode_tuple__to__fromStack"
        [op .ADD [.Var "_3", .Lit ⟨4⟩]]))]
    (.Var "_3") (op .SUB [.Var "_2", .Var "_3"]) 8
    (by decide +kernel) (by decide +kernel)

/-- Neither body reverts from every state. -/
theorem requireBody_not_eventuallyReverts (includes : IncludesHelpers c) :
    ¬EventuallyReverts (requireBody includes).stmts :=
  (requireBody includes).total.not_eventuallyReverts rfl

theorem errorBody_not_eventuallyReverts (includes : IncludesHelpers c) :
    ¬EventuallyReverts (errorBody includes).stmts :=
  (errorBody includes).total.not_eventuallyReverts rfl

/-- The two branches are interchangeable where a contract with the helpers runs. -/
theorem require_error_eventually_equiv_where_running (includes : IncludesHelpers c)
    {B : Expr} (guard : StraightExpr ModelledPrim c.Defines B) (Q : List Stmt) :
    EventuallyObsEquivOn (Running c)
      ([.If (.Call (.inl .ISZERO) [B]) (requireBody includes).stmts] ++ Q)
      ([.If (.Call (.inl .ISZERO) [B]) (errorBody includes).stmts] ++ Q) :=
  emitted_eventually_equiv_where_running guard (requireBody includes) (errorBody includes) Q

end Bodies

/-- A contract of the helpers alone. -/
def helperContract : YulContract := ⟨.Block [], helpers⟩

theorem helperContract_includesHelpers : IncludesHelpers helperContract :=
  fun _ _ found => found

/-- The emitted branches under a condition that is kept in a variable. -/
theorem require_error_equiv_helperContract :
    @EventuallyObsEquivOn unhashed (Running helperContract)
      ([.If (.Call (.inl .ISZERO) [.Var "condition"])
        (@requireBody unhashed helperContract helperContract_includesHelpers).stmts] ++ [])
      ([.If (.Call (.inl .ISZERO) [.Var "condition"])
        (@errorBody unhashed helperContract helperContract_includesHelpers).stmts] ++ []) :=
  @require_error_eventually_equiv_where_running unhashed helperContract
    helperContract_includesHelpers (.Var "condition") (.var "condition") []

/-- The emitted `require` branch is straight-line code over total operations and calls
that do not recurse, and yet does not eventually revert. -/
theorem emitted_require_does_not_revert :
    ¬@EventuallyReverts unhashed
      (@EmittedBody.total unhashed helperContract
        (@requireBody unhashed helperContract helperContract_includesHelpers)).stmts :=
  @requireBody_not_eventuallyReverts unhashed helperContract helperContract_includesHelpers

end YulGasRules.Law1
