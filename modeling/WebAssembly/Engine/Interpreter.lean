import WebAssembly.Engine.Answer
import WebAssembly.Engine.Run

/-!
# The interpreter

Bodies are executed as the trees of instructions that they are.  An exit to a label or
out of a function rearranges the stack at once, and the signal that goes up tells the
enclosing structured instructions how many of them are left.

Host functions may call back into the engine, so calls, host programs, commands and
invocations are defined together with the execution of instructions.  All of them take a
bound on their nesting and length; a run that reaches it is exhausted, which is kept
apart from every real outcome.
-/

namespace WebAssembly

/-- How a host program ends. -/
inductive HostEnd
  | done (results : List Val)
  | fail (error : Error)
  | stop (cause : HostStop)
  deriving Inhabited

namespace Exec

/-- The abort of a run in which an operation of a host program does not end. -/
def abortOf : Error → Abort
  | .exhausted => .exhausted
  | _ => .bug .crash

/-- Carries out an operation on the session of the run. -/
def onSession {α : Type} (operation : Operation α) : Exec α := fun r =>
  match r with
  | { session, stack, locals, active, steps, trace } =>
    match operation session with
    | .ok a session => .ok a { session, stack, locals, active, steps, trace }
    | .error error session =>
      .error (abortOf error) { session, stack, locals, active, steps, trace }

/-- Aborts the run as a host program asks. -/
def stop {α : Type} : HostStop → Exec α
  | .trap text => trap (.raised text)
  | .bug text => bug (.reported text)
  | .crash => bug .crash

def branch (label : UInt32) : Exec Signal := do
  rearrange (Stack.branch label)
  pure (.branch label.toNat)

/-- Begins a call: its name becomes the innermost active one. -/
def enter (setting : Setting) (name : String) : Exec Unit := do
  let active := (← get).active
  if (active.size : Int) ≥ setting.config.ceiling then trap .callStackOverflow
  checkInterrupt setting
  modify fun r => { r with active := r.active.push name }
  record setting (.entered name)

/-- Ends a call. -/
def exit (setting : Setting) : Exec Unit := do
  modify fun r => { r with active := r.active.pop }
  record setting .left

def typeOf (function : UInt32) : Exec FuncType := do
  let f ← present (← store).functions[function.toNat]?
  present f.type

/-- Checks results of a host function against its type, counting from `index`. -/
def checkResultTypes (name : String) (type : FuncType) (index : Nat) :
    List Val → List ValueType → Exec Unit
  | v :: values, expected :: rest => do
    if v.type ≠ expected then trap (.hostResultType name index v type)
    checkResultTypes name type (index + 1) values rest
  | _, _ => pure ()

/-- Ends a call of a host function: its results are checked and pushed. -/
def finishHost (function : UInt32) (name : String) : HostEnd → Exec Unit
  | .done results => do
    let type ← typeOf function
    if results.length ≠ type.results.length then
      trap (.hostResultCount name results.length type)
    checkResultTypes name type 0 results type.results
    pushAll results
  | .fail error => trap (.hostFailure name error)
  | .stop cause => stop cause

/-- Runs a body on arguments, as an operation: the run is forgotten but for its
session. -/
def toOperation {α : Type} (setting : Setting) (args : List Val)
    (body : Exec α) : Operation α :=
  fun session =>
    match body { session, stack := Stack.pushAll [] args } with
    | .ok a r => .ok a r.session
    | .error (.trap cause) r =>
      .error (.trap cause r.backtrace)
        (if setting.config.logging then
          r.session.observe (.log (.trapped cause r.backtrace))
         else r.session)
    | .error (.bug cause) r => .error (.bug cause) r.session
    | .error .exhausted r => .error .exhausted r.session

end Exec

/-- Checks arguments against the parameters of a function, counting from `index`. -/
def checkArgumentTypes (index : Nat) :
    List Val → List ValueType → Except ArgumentError Unit
  | v :: values, expected :: rest =>
    if v.type = expected then checkArgumentTypes (index + 1) values rest
    else .error (.type index expected v.type)
  | _, _ => .ok ()

def checkArguments (type : FuncType) (args : List Val) : Except ArgumentError Unit :=
  if args.length = type.params.length then checkArgumentTypes 0 args type.params
  else .error (.count type.params.length args.length)

namespace Engine

open Exec

/-- Runs the start function of a module; its failure is one of the instantiation. -/
def runStart {α : Type} (module : String) (operation : Operation α) :
    Operation Unit := fun s =>
  match operation s with
  | .ok _ s => .ok () s
  | .error .exhausted s => .error .exhausted s
  | .error .crash s => .error .crash s
  | .error error s => .error (.instantiation module (.start error)) s

mutual

/-- Executes one instruction of a function of the given module instance. -/
def exec (fuel : Nat) (setting : Setting) (module : UInt32)
    (instr : Instr) : Exec Signal :=
  match fuel with
  | 0 => throw .exhausted
  | fuel + 1 => do
    countStep setting
    record setting (.dispatched instr)
    match instr with
    | .block type body =>
      let type := blockSignature type
      execBlock fuel setting module false type.params.length type.results.length body
    | .loop type body =>
      let type := blockSignature type
      execBlock fuel setting module true type.params.length type.results.length body
    | .ifElse type whenTrue whenFalse =>
      let type := blockSignature type
      let condition ← popU32
      execBlock fuel setting module false type.params.length type.results.length
        (if condition ≠ 0 then whenTrue else whenFalse)
    | .br label => branch label
    | .brIf label =>
      let condition ← popU32
      if condition ≠ 0 then branch label else pure .next
    | .brTable labels default =>
      let index ← popU32
      branch ((Index.lookup labels index).getD default)
    | .ret =>
      rearrange Stack.ret
      pure .ret
    | .call index =>
      let function ← functionAt (← currentModule module) index
      call fuel setting function
      pure .next
    | .callIndirect type =>
      let function ← indirectTarget (← currentModule module) type
      call fuel setting function
      pure .next
    | instr =>
      plain module instr
      pure .next
termination_by structural fuel

/-- Executes instructions until one of them leaves the sequence. -/
def execSequence (fuel : Nat) (setting : Setting) (module : UInt32)
    (body : List Instr) : Exec Signal :=
  match fuel with
  | 0 => throw .exhausted
  | fuel + 1 =>
    match body with
    | [] => pure .next
    | instr :: rest => do
      match ← exec fuel setting module instr with
      | .next => execSequence fuel setting module rest
      | signal => pure signal
termination_by structural fuel

/-- Executes the body of a structured instruction under a label of its own.  A loop is
restarted by an exit to its label; any other body is left. -/
def execBlock (fuel : Nat) (setting : Setting) (module : UInt32) (isLoop : Bool)
    (params results : Nat) (body : List Instr) : Exec Signal :=
  match fuel with
  | 0 => throw .exhausted
  | fuel + 1 => do
    let args ← popMany params
    pushMark (.label (if isLoop then params else results))
    pushAll args
    match ← execSequence fuel setting module body with
    | .next =>
      let values ← popMany results
      rearrange Stack.popLabel
      pushAll values
      pure .next
    | .ret => pure .ret
    | .branch (depth + 1) => pure (.branch depth)
    | .branch 0 =>
      if isLoop then
        checkInterrupt setting
        record setting .restarted
        execBlock fuel setting module isLoop params results body
      else pure .next
termination_by structural fuel

/-- Calls a function, whose arguments are on the stack, and leaves its results in their
place. -/
def call (fuel : Nat) (setting : Setting) (function : UInt32) : Exec Unit :=
  match fuel with
  | 0 => throw .exhausted
  | fuel + 1 => do
    let f ← present (← store).functions[function.toNat]?
    enter setting f.name
    match f.kind with
    | .host =>
      let type ← present f.type
      let params ← popMany type.params.length
      let host ← present f.host
      onSession (modify (·.observe (.hostCall f.name params)))
      finishHost function f.name
        (← onSession (runHost fuel setting.context (host params)))
    | .wasm =>
      match (← store).module f.module with
      | .error cause => bug (.functionModule f.name cause)
      | .ok _ => pure ()
      let type ← present f.type
      let params ← popMany type.params.length
      let arity := type.results.length
      let outer := (← get).locals
      modify fun r => { r with locals := (params ++ f.locals.map Val.zero).toArray }
      pushMark (.activation arity)
      pushMark (.label arity)
      match ← execSequence fuel setting f.module f.body with
      | .branch (_ + 1) => bug (.branchPast f.name)
      | _ => pure ()
      rearrange (Stack.leave f.name arity)
      modify fun r => { r with locals := outer }
    | .reserved code => bug (.functionKind code)
    exit setting
termination_by structural fuel

/-- Runs a host program under a context.  A command that fails gives its error to the
program; one that crashes stops it. -/
def runHost (fuel : Nat) (context : ContextRef) (program : HostProgram) :
    Operation HostEnd :=
  match fuel with
  | 0 => throw .exhausted
  | fuel + 1 =>
    match program with
    | .done results => pure (.done results)
    | .fail error => pure (.fail error)
    | .stop cause => pure (.stop cause)
    | .perform command next => fun s =>
      match perform fuel context command s with
      | .ok response s => runHost fuel context (next response) s
      | .error .exhausted s => .error .exhausted s
      | .error .crash s => .ok (.stop .crash) s
      | .error error s => runHost fuel context (next (.failed error)) s
termination_by structural fuel

/-- Carries out a command; a call without a context of its own runs under the given
one. -/
def perform (fuel : Nat) (inherited : ContextRef) (command : Command) :
    Operation Response :=
  match fuel with
  | 0 => throw .exhausted
  | fuel + 1 =>
    match command with
    | .instantiate m name externs choice => do
      let context ← Operation.openContext inherited choice
      let position := (← get).store.modules.size
      let (inst, start) ← Operation.prepare m name externs
      match start with
      | some function => runStart name (invoke fuel context function [])
      | none => pure ()
      .module <$> Operation.added position inst
    | .invoke function args choice => do
      let context ← Operation.openContext inherited choice
      .results <$> invoke fuel context function args
    | .call module name args choice => do
      let val ← Operation.findExport module name .func
      let context ← Operation.openContext inherited choice
      .results <$> invoke fuel context val.addr args
    | command => Operation.answer command
termination_by structural fuel

/-- Invokes a function with the given arguments and gives its results. -/
def invoke (fuel : Nat) (context : ContextRef) (function : UInt32) (args : List Val) :
    Operation (List Val) :=
  match fuel with
  | 0 => throw .exhausted
  | fuel + 1 => do
    let config ← Operation.present (← get).store.engine
    let f ← Operation.read (·.function function)
    let type ← Operation.present f.type
    match checkArguments type args with
    | .error cause => throw (.trap (.arguments cause) [f.name])
    | .ok () => pure ()
    let setting : Setting := { config, context }
    toOperation setting args do
      call fuel setting function
      let type ← typeOf function
      popMany type.results.length
termination_by structural fuel

end

end Engine

namespace Session

/-- Carries out a command and gives its response, a failure included. -/
def step (fuel : Nat) (s : Session) (command : Command) : Response × Session :=
  match Engine.perform fuel .background command s with
  | .ok response s => (response, s)
  | .error error s => (.failed error, s)

end Session
end WebAssembly
