import EvmObject.Opcode.Info

/-!
# The instruction table

Sixteen rows of sixteen entries, indexed by the high and the low half of the opcode byte. The set is
that of the Shanghai instructions with relative jumps (`RJUMP`, `RJUMPI`) and functions (`CALLF`,
`RETF`). A byte without an entry is undefined.
-/

namespace EvmObject.Opcode.Info

/-- An instruction without operand bytes. -/
def effect (name : String) (inputs outputs : Nat) : Option Info :=
  some ((plain name).withStack inputs outputs)

/-- A push of `size` operand bytes. -/
def push (name : String) (size : Nat) : Option Info :=
  some (((plain name).withStack 0 1).withImmediate size)

/-- Copies the word at depth `depth` to the top. -/
def copy (name : String) (depth : Nat) : Option Info :=
  effect name depth (depth + 1)

/-- Exchanges the top with the word `depth` below it. -/
def exchange (name : String) (depth : Nat) : Option Info :=
  effect name (depth + 1) (depth + 1)

/-- Sixteen undefined bytes. -/
def undefined : Array (Option Info) := Array.replicate 16 none

/-- Bytes `0x00` to `0x0F`: stopping and arithmetic. -/
def arithmetic : Array (Option Info) := #[
  (effect "STOP" 0 0).map ending, effect "ADD" 2 1, effect "MUL" 2 1, effect "SUB" 2 1,
  effect "DIV" 2 1, effect "SDIV" 2 1, effect "MOD" 2 1, effect "SMOD" 2 1, effect "ADDMOD" 3 1,
  effect "MULMOD" 3 1, effect "EXP" 2 1, effect "SIGNEXTEND" 2 1, none, none, none, none]

/-- Bytes `0x10` to `0x1F`: comparison and bitwise logic. -/
def logic : Array (Option Info) := #[
  effect "LT" 2 1, effect "GT" 2 1, effect "SLT" 2 1, effect "SGT" 2 1, effect "EQ" 2 1,
  effect "ISZERO" 1 1, effect "AND" 2 1, effect "OR" 2 1, effect "XOR" 2 1, effect "NOT" 1 1,
  effect "BYTE" 2 1, effect "SHL" 2 1, effect "SHR" 2 1, effect "SAR" 2 1, none, none]

/-- Bytes `0x20` to `0x2F`: hashing. -/
def hashing : Array (Option Info) := #[
  effect "KECCAK256" 2 1, none, none, none, none, none, none, none, none, none, none, none, none,
  none, none, none]

/-- Bytes `0x30` to `0x3F`: the calling context. -/
def context : Array (Option Info) := #[
  effect "ADDRESS" 0 1, effect "BALANCE" 1 1, effect "ORIGIN" 0 1, effect "CALLER" 0 1,
  effect "CALLVALUE" 0 1, effect "CALLDATALOAD" 1 1, effect "CALLDATASIZE" 0 1,
  effect "CALLDATACOPY" 3 0, effect "CODESIZE" 0 1, effect "CODECOPY" 3 0, effect "GASPRICE" 0 1,
  effect "EXTCODESIZE" 1 1, effect "EXTCODECOPY" 4 0, effect "RETURNDATASIZE" 0 1,
  effect "RETURNDATACOPY" 3 0, effect "EXTCODEHASH" 1 1]

/-- Bytes `0x40` to `0x4F`: the block context. -/
def block : Array (Option Info) := #[
  effect "BLOCKHASH" 1 1, effect "COINBASE" 0 1, effect "TIMESTAMP" 0 1, effect "NUMBER" 0 1,
  effect "DIFFICULTY" 0 1, effect "GASLIMIT" 0 1, effect "CHAINID" 0 1, effect "SELFBALANCE" 0 1,
  effect "BASEFEE" 0 1, none, none, none, none, none, none, none]

/-- Bytes `0x50` to `0x5F`: stack, memory, storage, and relative jumps. -/
def storage : Array (Option Info) := #[
  effect "POP" 1 0, effect "MLOAD" 1 1, effect "MSTORE" 2 0, effect "MSTORE8" 2 0,
  effect "SLOAD" 1 1, effect "SSTORE" 2 0, (effect "JUMP" 1 0).map legacy,
  (effect "JUMPI" 2 0).map legacy, (effect "PC" 0 1).map legacy, effect "MSIZE" 0 1,
  effect "GAS" 0 1, effect "JUMPDEST" 0 0,
  (effect "RJUMP" 0 0).map (·.withImmediate 2 |>.ending),
  (effect "RJUMPI" 1 0).map (·.withImmediate 2), none, effect "PUSH0" 0 1]

/-- Bytes `0x60` to `0x6F`: pushes of 1 to 16 bytes. -/
def shortPushes : Array (Option Info) := #[
  push "PUSH1" 1, push "PUSH2" 2, push "PUSH3" 3, push "PUSH4" 4, push "PUSH5" 5, push "PUSH6" 6,
  push "PUSH7" 7, push "PUSH8" 8, push "PUSH9" 9, push "PUSH10" 10, push "PUSH11" 11,
  push "PUSH12" 12, push "PUSH13" 13, push "PUSH14" 14, push "PUSH15" 15, push "PUSH16" 16]

/-- Bytes `0x70` to `0x7F`: pushes of 17 to 32 bytes. -/
def longPushes : Array (Option Info) := #[
  push "PUSH17" 17, push "PUSH18" 18, push "PUSH19" 19, push "PUSH20" 20, push "PUSH21" 21,
  push "PUSH22" 22, push "PUSH23" 23, push "PUSH24" 24, push "PUSH25" 25, push "PUSH26" 26,
  push "PUSH27" 27, push "PUSH28" 28, push "PUSH29" 29, push "PUSH30" 30, push "PUSH31" 31,
  push "PUSH32" 32]

/-- Bytes `0x80` to `0x8F`: duplication. -/
def duplications : Array (Option Info) := #[
  copy "DUP1" 1, copy "DUP2" 2, copy "DUP3" 3, copy "DUP4" 4, copy "DUP5" 5, copy "DUP6" 6,
  copy "DUP7" 7, copy "DUP8" 8, copy "DUP9" 9, copy "DUP10" 10, copy "DUP11" 11, copy "DUP12" 12,
  copy "DUP13" 13, copy "DUP14" 14, copy "DUP15" 15, copy "DUP16" 16]

/-- Bytes `0x90` to `0x9F`: exchange. -/
def exchanges : Array (Option Info) := #[
  exchange "SWAP1" 1, exchange "SWAP2" 2, exchange "SWAP3" 3, exchange "SWAP4" 4,
  exchange "SWAP5" 5, exchange "SWAP6" 6, exchange "SWAP7" 7, exchange "SWAP8" 8,
  exchange "SWAP9" 9, exchange "SWAP10" 10, exchange "SWAP11" 11, exchange "SWAP12" 12,
  exchange "SWAP13" 13, exchange "SWAP14" 14, exchange "SWAP15" 15, exchange "SWAP16" 16]

/-- Bytes `0xA0` to `0xAF`: logging. -/
def logs : Array (Option Info) := #[
  effect "LOG0" 2 0, effect "LOG1" 3 0, effect "LOG2" 4 0, effect "LOG3" 5 0, effect "LOG4" 6 0,
  none, none, none, none, none, none, none, none, none, none, none]

/-- Bytes `0xB0` to `0xBF`: functions of the container. -/
def functions : Array (Option Info) := #[
  (effect "CALLF" 0 0).map (·.withImmediate 2), (effect "RETF" 0 0).map ending, none, none, none,
  none, none, none, none, none, none, none, none, none, none, none]

/-- Bytes `0xF0` to `0xFF`: calls, creation and ending. -/
def system : Array (Option Info) := #[
  effect "CREATE" 3 1, effect "CALL" 7 1, effect "CALLCODE" 7 1,
  (effect "RETURN" 2 0).map ending, effect "DELEGATECALL" 6 1, effect "CREATE2" 4 1, none, none,
  none, none, effect "STATICCALL" 6 1, none, none, (effect "REVERT" 2 0).map ending,
  (effect "INVALID" 0 0).map ending, (effect "SELFDESTRUCT" 1 0).map ending]

/-- The rows in the order of the high half of the byte. -/
def table : Array (Array (Option Info)) := #[
  arithmetic, logic, hashing, context, block, storage, shortPushes, longPushes,
  duplications, exchanges, logs, functions, undefined, undefined, undefined, system]

/-- The entry of a byte; `none` if the byte is undefined. -/
def ofByte? (byte : UInt8) : Option Info :=
  table[byte.toNat / 16]?.bind fun row => row[byte.toNat % 16]?.join

end EvmObject.Opcode.Info
