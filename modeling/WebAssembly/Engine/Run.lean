import WebAssembly.Engine.Stack
import WebAssembly.Numeric.Evaluation
import WebAssembly.Session

/-!
# Runs

The state of one invocation, and the steps on it that involve neither control flow nor
calls.  A run that does not end normally is aborted: by a trap, by a bug, or because the
bound on its length was reached.
-/

namespace WebAssembly

/-- Why a run does not end normally. -/
inductive Abort
  | trap (cause : TrapCause)
  | bug (cause : Bug)
  | exhausted
  deriving Inhabited

/-- Something that happens in a run. -/
inductive Moment
  | entered (function : String)
  | left
  | dispatched (instr : Instr)
  | restarted
  deriving Inhabited

/-- The state of a run. -/
structure Run where
  session : Session
  stack : Stack
  /-- The locals of the innermost call. -/
  locals : Array Val := #[]
  /-- The names of the active functions, innermost last. -/
  active : Array String := #[]
  /-- The instructions that were counted against the budget. -/
  steps : UInt64 := 0
  /-- What happened and the session at that time, newest first, if the run is
  watched. -/
  trace : List (Moment × Session) := []
  deriving Inhabited

/-- The names of the active functions of a run, innermost first. -/
def Run.backtrace (r : Run) : List String :=
  r.active.toList.reverse

/-- What is fixed for a run. -/
structure Setting where
  config : EngineConfig
  context : ContextRef
  /-- Whether the run keeps a trace. -/
  watched : Bool := false
  deriving Inhabited

/-- A step of a run. -/
abbrev Exec (α : Type) := EStateM Abort Run α

/-- How a sequence of instructions ends: by running off its end, by leaving for a label,
or by returning. -/
inductive Signal
  | next
  | branch (depth : Nat)
  | ret
  deriving DecidableEq, Repr, Inhabited

namespace Exec

@[inline]
def trap {α : Type} (cause : TrapCause) : Exec α :=
  throw (.trap cause)

@[inline]
def bug {α : Type} (cause : Bug) : Exec α :=
  throw (.bug cause)

/-- An entry whose absence is a bug without words. -/
@[inline]
def present {α : Type} : Option α → Exec α
  | some a => pure a
  | none => bug .crash

/-- A lookup in the store that fails only by a bug. -/
@[inline]
def access {α : Type} : Except AccessError α → Exec α
  | .ok a => pure a
  | .error cause => bug (.access cause)

@[inline]
def record (setting : Setting) (moment : Moment) : Exec Unit := fun r =>
  if setting.watched then .ok () { r with trace := (moment, r.session) :: r.trace }
  else .ok () r

@[inline]
def store : Exec Store := fun r =>
  .ok r.session.store r

@[inline]
def modifyStore (change : Store → Store) : Exec Unit := fun r =>
  .ok () { r with session := { r.session with store := change r.session.store } }

@[inline]
def push (v : Val) : Exec Unit := fun r =>
  .ok () { r with stack := .value v :: r.stack }

@[inline]
def pushAll (values : List Val) : Exec Unit := fun r =>
  .ok () { r with stack := r.stack.pushAll values }

@[inline]
def pushMark (entry : Entry) : Exec Unit := fun r =>
  .ok () { r with stack := entry :: r.stack }

@[inline]
def take {α : Type} (pop : Stack → Except Bug (α × Stack)) : Exec α := fun r =>
  match pop r.stack with
  | .ok (a, rest) => .ok a { r with stack := rest }
  | .error cause => .error (.bug cause) r

@[inline]
def rearrange (change : Stack → Except Bug Stack) : Exec Unit := fun r =>
  match change r.stack with
  | .ok stack => .ok () { r with stack }
  | .error cause => .error (.bug cause) r

@[inline]
def pop : Exec Val := take Stack.pop

@[inline]
def popTyped (type : ValueType) : Exec Val := take (Stack.popTyped type)

/-- Pops an operand of type `i32`. -/
@[inline]
def popU32 : Exec UInt32 := do
  let v ← popTyped .i32
  pure v.u32

/-- Pops operands, in the order in which they were pushed. -/
@[inline]
def popMany (count : Nat) : Exec (List Val) := take (Stack.popMany count)

@[inline]
def countStep (setting : Setting) : Exec Unit := do
  let budget := setting.config.stepBudget
  if budget > 0 then
    modify fun r => { r with steps := r.steps + 1 }
    if (← get).steps > budget then trap .stepBudget

/-- Traps if contexts are watched and the one of the run is done. -/
@[inline]
def checkInterrupt (setting : Setting) : Exec Unit := do
  if setting.config.closeOnContextDone then
    match (← get).session.doneReason setting.context with
    | some reason => trap (.contextDone reason)
    | none => pure ()

def currentModule (addr : UInt32) : Exec ModuleInst := do
  present (← store).modules[addr.toNat]?

def memoryAddr (inst : ModuleInst) : Exec UInt32 :=
  match inst.memories with
  | addr :: _ => pure addr
  | [] => bug (.noMemory inst.name)

def tableAddr (inst : ModuleInst) : Exec UInt32 :=
  match inst.tables with
  | addr :: _ => pure addr
  | [] => bug (.noTable inst.name)

def globalAddr (inst : ModuleInst) (index : UInt32) : Exec UInt32 :=
  match Index.lookup inst.globals index with
  | some addr => pure addr
  | none => bug (.globalIndex index)

def functionAt (inst : ModuleInst) (index : UInt32) : Exec UInt32 := do
  match Index.lookup inst.functions index with
  | some addr =>
    let _ ← access ((← store).function addr)
    pure addr
  | none => bug (.functionIndex index)

/-- Pops an index into the table and gives the function there, which must have the type
at the given index. -/
def indirectTarget (inst : ModuleInst) (type : UInt32) : Exec UInt32 := do
  let addr ← tableAddr inst
  let table ← access ((← store).table addr)
  let index ← popU32
  match table.slots[index.toNat]? with
  | some (some function) =>
    let f ← access ((← store).function function)
    let expected ← present inst.types[type.toNat]?.join
    let actual ← present f.type
    if actual = expected then pure function else trap .indirectCallType
  | _ => trap .tableAccess

/-- Replaces a local by an operand of its type, which is popped and given back. -/
def setLocal (index : UInt32) : Exec Val := do
  let old ← present (← get).locals[index.toNat]?
  let v ← popTyped old.type
  modify fun r => { r with locals := r.locals.setIfInBounds index.toNat v }
  pure v

/-- Executes an instruction that neither transfers control nor calls.  Other
instructions do nothing here. -/
def plain (module : UInt32) : Instr → Exec Unit
  | .unreachable => trap .unreachable
  | .drop => do
    let _ ← pop
  | .select => do
    let condition ← popU32
    let second ← pop
    let first ← pop
    if first.type ≠ second.type then bug (.selectOperands first second)
    push (if condition ≠ 0 then first else second)
  | .localGet index => do
    push (← present (← get).locals[index.toNat]?)
  | .localSet index => do
    let _ ← setLocal index
  | .localTee index => do
    push (← setLocal index)
  | .globalGet index => do
    let addr ← globalAddr (← currentModule module) index
    let g ← access ((← store).global addr)
    push g.value
  | .globalSet index => do
    let addr ← globalAddr (← currentModule module) index
    let g ← access ((← store).global addr)
    let v ← popTyped g.type.value
    modifyStore (·.setGlobal addr { g with value := v })
  | .load op arg => do
    let addr ← memoryAddr (← currentModule module)
    let memory ← access ((← store).memory addr)
    let base ← popU32
    match memory.load? op (MemInst.address base arg.offset) with
    | some v => push v
    | none => trap .memoryAccess
  | .store op arg => do
    let addr ← memoryAddr (← currentModule module)
    let memory ← access ((← store).memory addr)
    let v ← pop
    let base ← popU32
    let position := MemInst.address base arg.offset
    if memory.admits op position then
      modifyStore (·.modifyMemory addr (·.store op position v))
    else trap .memoryAccess
  | .memorySize => do
    let addr ← memoryAddr (← currentModule module)
    let memory ← access ((← store).memory addr)
    push (Val.ofU32 memory.pages)
  | .memoryGrow => do
    let delta ← popU32
    let addr ← memoryAddr (← currentModule module)
    let memory ← access ((← store).memory addr)
    match memory.grow? delta with
    | some grown =>
      modifyStore (·.setMemory addr grown)
      push (Val.ofU32 memory.pages)
    | none => push (Val.ofU32 0xffffffff)
  | .const type bits => push (Val.ofBits (.number type) bits)
  | .unary op => do
    let a ← popTyped (.number op.operand)
    match op.eval a with
    | .ok v => push v
    | .error cause => trap (.arithmetic cause)
  | .binary op => do
    let b ← popTyped (.number op.operand)
    let a ← popTyped (.number op.operand)
    match op.eval a b with
    | .ok v => push v
    | .error cause => trap (.arithmetic cause)
  | .reserved code => bug (.unsupported (.reserved code))
  | _ => pure ()

end Exec
end WebAssembly
