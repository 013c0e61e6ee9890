import WebAssembly.Validation.Context
import WebAssembly.Validation.Signature

/-!
# Checking of bodies

Each instruction has a stack effect under a context; a sequence has the effect of its
instructions one after the other.  A body is accepted when it leaves exactly the results
of its function.
-/

namespace WebAssembly

namespace Context

/-- Checks the signature of a block: its types, and that more than one result or any
parameter needs a feature. -/
def checkBlockType (c : Context) (type : FuncType) : Check Unit := do
  ValueType.checkAll type.params
  ValueType.checkAll type.results
  Attempt.require (type.params = [] && type.results.length ≤ 1 ||
    c.features.has .multiValue)
    (.blockType type)

/-- Checks that the targets of a branch table carry the same types as its default. -/
def checkTargets (c : Context) (types : List ValueType) (default : UInt32) :
    List UInt32 → Check Unit
  | [] => .ok ()
  | label :: rest => do
    let target ← c.label label
    Attempt.require (StackEffect.listsMatch target types)
      (.branchTarget label target default types)
    c.checkTargets types default rest

def checkMemory (c : Context) : Check Unit :=
  Attempt.require (c.memories ≠ []) .unknownMemory

def checkTable (c : Context) : Check Unit := do
  match c.tables with
  | [] => Attempt.fail .unknownTable
  | table :: _ =>
    let table ← Attempt.present table
    Attempt.require (table.element = TableType.funcref) .tableNotFuncref

/-- Checks that an alignment does not exceed the number of bytes of the access. -/
def checkAlign (arg : MemArg) (byteCount : Nat) : Check Unit :=
  Attempt.require (arg.align.toNat < 32 &&
    Nat.pow 2 arg.align.toNat ≤ byteCount) .alignment

mutual

/-- The effect of one instruction, after instructions of the effect `running` in the
same sequence. -/
def effect (c : Context) (running : StackEffect) : Instr → Check StackEffect
  | .unreachable => .ok (leaving [])
  | .nop => .ok .empty
  | .block type body => do
    let type := blockSignature type
    c.checkBlockType type
    let inner ← (c.inBlock type.results).accumulate { results := type.params } 0 body
    Attempt.ofExcept (inner.checkResults type.results)
    pure (fixed type.params type.results)
  | .loop type body => do
    let type := blockSignature type
    c.checkBlockType type
    let inner ← (c.inBlock type.params).accumulate { results := type.params } 0 body
    Attempt.ofExcept (inner.checkResults type.results)
    pure (fixed type.params type.results)
  | .ifElse type whenTrue whenFalse => do
    let type := blockSignature type
    c.checkBlockType type
    let inner ← (c.inBlock type.results).accumulate
        { results := type.params } 0 whenTrue
    Attempt.ofExcept (inner.checkResults type.results)
    Attempt.mapCause .insideElse do
      let inner ← (c.inBlock type.results).accumulate
          { results := type.params } 0 whenFalse
      Attempt.ofExcept (inner.checkResults type.results)
    pure (fixed (type.params ++ [.i32]) type.results)
  | .br label => do
    let types ← c.label label
    pure (leaving types)
  | .brIf label => do
    let types ← c.label label
    pure (fixed (types ++ [.i32]) types)
  | .brTable labels default => do
    let types ← c.label default
    c.checkTargets types default labels
    pure (leaving (types ++ [.i32]))
  | .ret => .ok (leaving c.returns)
  | .call index => do
    let type ← c.functionType index
    pure (fixed type.params type.results)
  | .callIndirect index => do
    c.checkTable
    let type ← Attempt.orFail (.typeIndex index) (Index.lookup c.types index)
    let type ← Attempt.present type
    pure (fixed (type.params ++ [.i32]) type.results)
  | .drop => .ok (fixed [running.typeAt 0] [])
  | .select =>
    let type := if running.typeAt 1 = .any then running.typeAt 2 else running.typeAt 1
    .ok (fixed [type, type, .i32] [type])
  | .localGet index => do
    let type ← Attempt.orFail (.localIndex index) (Index.lookup c.locals index)
    pure (fixed [] [type])
  | .localSet index => do
    let type ← Attempt.orFail (.localIndex index) (Index.lookup c.locals index)
    pure (fixed [type] [])
  | .localTee index => do
    let type ← Attempt.orFail (.localIndex index) (Index.lookup c.locals index)
    pure (fixed [type] [type])
  | .globalGet index => do
    let type ← c.globalType index
    pure (fixed [] [type.value])
  | .globalSet index => do
    let type ← c.globalType index
    Attempt.require type.isMutable (.setsImmutable index)
    pure (fixed [type.value] [])
  | .load op arg => do
    c.checkMemory
    checkAlign arg op.access.width
    pure (fixed [.i32] [op.access.type])
  | .store op arg => do
    c.checkMemory
    checkAlign arg op.access.width
    pure (fixed [.i32, op.access.type] [])
  | .memorySize => do
    c.checkMemory
    pure (fixed [] [.i32])
  | .memoryGrow => do
    c.checkMemory
    pure (fixed [.i32] [.i32])
  | .const type _ => .ok (fixed [] [.number type])
  | .unary op => do
    match op with
    | .signExtend _ =>
      Attempt.require (c.features.has .signExtension) (.signExtensionDisabled op)
    | _ => pure ()
    pure op.effect
  | .binary op => .ok op.effect
  | .reserved code => Attempt.fail (.opcode code)

/-- The effect of a sequence after instructions of the effect `running`, where a fault
is located by the instruction and its position, counted from `position`. -/
def accumulate (c : Context) (running : StackEffect) (position : Nat) :
    List Instr → Check StackEffect
  | [] => .ok running
  | instr :: rest => do
    let next ← Attempt.mapCause (.inside instr.opcode position) do
      let effect ← c.effect running instr
      Attempt.ofExcept (running.andThen effect)
    c.accumulate next (position + 1) rest

end

theorem effect_unreachable (c : Context) (running : StackEffect) :
    c.effect running .unreachable = .ok (leaving []) := by
  rw [effect]

theorem effect_ret (c : Context) (running : StackEffect) :
    c.effect running .ret = .ok (leaving c.returns) := by
  rw [effect]

/-- The effect of a sequence after instructions of the effect `running`, with faults as
they are. -/
def sequenceEffectFrom (c : Context) (running : StackEffect) :
    List Instr → Check StackEffect
  | [] => .ok running
  | instr :: rest => do
    let effect ← c.effect running instr
    let next ← Attempt.ofExcept (running.andThen effect)
    c.sequenceEffectFrom next rest

def sequenceEffect (c : Context) (body : List Instr) : Check StackEffect :=
  c.sequenceEffectFrom .empty body

/-- Checks that a sequence turns the given operands into exactly the given results. -/
def checkSequence (c : Context) (params results : List ValueType) (body : List Instr) :
    Check Unit := do
  let effect ← c.accumulate { results := params } 0 body
  Attempt.ofExcept (effect.checkResults results)

def checkFunction (c : Context) (type : FuncType) (code : Code) : Check Unit :=
  (c.inFunction type code.locals).checkSequence [] type.results code.body

end Context
end WebAssembly
