import YulGasRules.Collections.FiniteMaps
import YulGasRules.Collections.ByteArrays
import YulGasRules.Fuel.Judgment
import YulGasRules.Fuel.Agreement
import YulGasRules.Fuel.Approximation
import YulGasRules.Fuel.Meaning
import YulGasRules.Fuel.Relation
import YulGasRules.Fuel.Simulation
import YulGasRules.Fuel.NestedRuns
import YulGasRules.Fuel.Effect
import YulGasRules.Machine.UInt256
import YulGasRules.Machine.Bytes
import YulGasRules.Machine.State
import YulGasRules.Machine.Ops
import YulGasRules.Machine.Accounts
import YulGasRules.Machine.Words
import YulGasRules.Machine.Numbers
import YulGasRules.Machine.Encoding
import YulGasRules.Machine.Memory
import YulGasRules.Yul.Ast
import YulGasRules.Yul.State
import YulGasRules.Yul.Semantics
import YulGasRules.Yul.Shapes
import YulGasRules.Yul.Interpreter
import YulGasRules.Yul.Running
import YulGasRules.Yul.Computation
import YulGasRules.Yul.Signature
import YulGasRules.Yul.Totality
import YulGasRules.Yul.StraightLine
import YulGasRules.Yul.Settings
import YulGasRules.Yul.Monotone
import YulGasRules.Yul.Meaning
import YulGasRules.Yul.CallGraph
import YulGasRules.Yul.Strangers
import YulGasRules.Yul.Indifference
import YulGasRules.Yul.Noninterference
import YulGasRules.Yul.Requests
import YulGasRules.Yul.World
import YulGasRules.Yul.Refinement
import YulGasRules.Yul.Conservation
import YulGasRules.Yul.Denotation
import YulGasRules.Yul.Recoding
import YulGasRules.Yul.Blindness
import YulGasRules.Yul.Rewriting
import YulGasRules.Yul.Congruence
import YulGasRules.Yul.Arithmetic
import YulGasRules.Yul.Stores
import YulGasRules.Yul.OnPaper
import YulGasRules.Yul.Effects
import YulGasRules.Rules.Core
import YulGasRules.Rules.RequireCustomError
import YulGasRules.Rules.Emitted
import YulGasRules.Rules.EmittedCode
import YulGasRules.Rules.SingleLineSwap
import YulGasRules.Rules.Replacement
