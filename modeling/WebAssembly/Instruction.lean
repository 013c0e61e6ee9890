import WebAssembly.Opcode

/-!
# Instructions

An instruction holds its immediates and, if it is structured, the sequences inside it.
-/

namespace WebAssembly

/-- The immediates of a load or store: the alignment as a power of two, and the offset
that is added to the address operand. -/
structure MemArg where
  align : UInt32
  offset : UInt32
  deriving DecidableEq, Repr, Inhabited

/-- One instruction of a body. -/
inductive Instr
  | unreachable
  | nop
  | block (type : Option FuncType) (body : List Instr)
  | loop (type : Option FuncType) (body : List Instr)
  | ifElse (type : Option FuncType) (whenTrue whenFalse : List Instr)
  | br (label : UInt32)
  | brIf (label : UInt32)
  | brTable (labels : List UInt32) (default : UInt32)
  | ret
  | call (function : UInt32)
  | callIndirect (type : UInt32)
  | drop
  | select
  | localGet (index : UInt32)
  | localSet (index : UInt32)
  | localTee (index : UInt32)
  | globalGet (index : UInt32)
  | globalSet (index : UInt32)
  | load (op : LoadOp) (arg : MemArg)
  | store (op : StoreOp) (arg : MemArg)
  | memorySize
  | memoryGrow
  | const (type : NumberType) (bits : UInt64)
  | unary (op : UnaryOp)
  | binary (op : BinaryOp)
  | reserved (code : UInt8)
  deriving Repr, Inhabited

namespace Instr

def opcode : Instr → Opcode
  | .unreachable => .unreachable
  | .nop => .nop
  | .block _ _ => .block
  | .loop _ _ => .loop
  | .ifElse _ _ _ => .ifElse
  | .br _ => .br
  | .brIf _ => .brIf
  | .brTable _ _ => .brTable
  | .ret => .ret
  | .call _ => .call
  | .callIndirect _ => .callIndirect
  | .drop => .drop
  | .select => .select
  | .localGet _ => .localGet
  | .localSet _ => .localSet
  | .localTee _ => .localTee
  | .globalGet _ => .globalGet
  | .globalSet _ => .globalSet
  | .load op _ => .load op
  | .store op _ => .store op
  | .memorySize => .memorySize
  | .memoryGrow => .memoryGrow
  | .const type _ => .const type
  | .unary op => .unary op
  | .binary op => .binary op
  | .reserved code => .reserved code

def name (instr : Instr) : String :=
  instr.opcode.name

end Instr

/-- The signature of a structured instruction; a missing one is empty. -/
def blockSignature (type : Option FuncType) : FuncType :=
  type.getD {}

/-- An initial value of a global, or the offset of a segment. -/
inductive ConstExpr
  | const (type : NumberType) (bits : UInt64)
  | globalGet (index : UInt32)
  | other (opcode : Opcode)
  deriving DecidableEq, Repr, Inhabited

end WebAssembly
