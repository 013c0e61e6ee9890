import WebAssembly.Engine.Interpreter

/-!
# Between structured control

Every function of the interpreter that depends on a bound first does something that does
not, and then follows up on what it found: an instruction asks for a block, an exit or a
call; a call comes to a host program or to a body; a command is answered or asks for one
invocation; an invocation is admitted.  The equations here cut the interpreter at these
points, so that an argument about control has to look at a handful of cases.
-/

namespace WebAssembly

/-- What an instruction asks for once it has taken its own operands. -/
inductive Transfer
  | next
  | enter (isLoop : Bool) (params results : Nat) (body : List Instr)
  | branch (label : UInt32)
  | ret
  | call (function : UInt32)

/-- What a call comes to once it has taken its arguments. -/
inductive Summons
  | host (name : String) (program : HostProgram)
  | body (f : FuncInst) (arity : Nat) (params : List Val)

abbrev SessionResult (α : Type) := EStateM.Result Error Session α

/-- What an invocation is made for: its results, or the instance that was added at a
position. -/
inductive Purpose
  | results
  | start (name : String) (position : Nat) (inst : ModuleInst)

/-- What a command comes to: a response, or an invocation that leads to one. -/
inductive Request
  | answer (response : Response)
  | invoke (context : ContextRef) (function : UInt32) (args : List Val)
    (purpose : Purpose)

namespace Exec

/-- Executes an instruction up to the block, the exit or the call that it asks for. -/
def transfer (module : UInt32) : Instr → Exec Transfer
  | .block type body =>
    let type := blockSignature type
    pure (.enter false type.params.length type.results.length body)
  | .loop type body =>
    let type := blockSignature type
    pure (.enter true type.params.length type.results.length body)
  | .ifElse type whenTrue whenFalse => do
    let type := blockSignature type
    let condition ← popU32
    pure (.enter false type.params.length type.results.length
      (if condition ≠ 0 then whenTrue else whenFalse))
  | .br label => pure (.branch label)
  | .brIf label => do
    let condition ← popU32
    pure (if condition ≠ 0 then .branch label else .next)
  | .brTable labels default => do
    let index ← popU32
    pure (.branch ((Index.lookup labels index).getD default))
  | .ret => pure .ret
  | .call index => do
    let function ← functionAt (← currentModule module) index
    pure (.call function)
  | .callIndirect type => do
    let function ← indirectTarget (← currentModule module) type
    pure (.call function)
  | instr => do
    plain module instr
    pure .next

/-- Counts and records an instruction and executes it up to what it asks for. -/
def dispatch (setting : Setting) (module : UInt32) (instr : Instr) : Exec Transfer := do
  countStep setting
  record setting (.dispatched instr)
  transfer module instr

/-- Begins a call and takes its arguments. -/
def summon (setting : Setting) (function : UInt32) : Exec Summons := do
  let f ← present (← store).functions[function.toNat]?
  enter setting f.name
  match f.kind with
  | .host =>
    let type ← present f.type
    let params ← popMany type.params.length
    let host ← present f.host
    onSession (modify (·.observe (.hostCall f.name params)))
    pure (.host f.name (host params))
  | .wasm =>
    match (← store).module f.module with
    | .error cause => bug (.functionModule f.name cause)
    | .ok _ => pure ()
    let type ← present f.type
    let params ← popMany type.params.length
    pure (.body f type.results.length params)
  | .reserved code => bug (.functionKind code)

/-- Ends a call of a host function whose program has ended. -/
def finishCall (setting : Setting) (function : UInt32) (name : String)
    (hostEnd : HostEnd) : Exec Unit := do
  finishHost function name hostEnd
  exit setting

/-- Begins a structured instruction: its parameters are put above a label. -/
def openBlock (params arity : Nat) : Exec Unit := do
  let args ← popMany params
  pushMark (.label arity)
  pushAll args

/-- Ends a structured instruction whose body has run off its end. -/
def fallThrough (results : Nat) : Exec Signal := do
  let values ← popMany results
  rearrange Stack.popLabel
  pushAll values
  pure .next

/-- Lets a loop begin again. -/
def restart (setting : Setting) : Exec Unit := do
  checkInterrupt setting
  record setting .restarted

/-- Follows up on how the body of a structured instruction ended. -/
def leaveBlock (setting : Setting) (isLoop : Bool) (results : Nat)
    (again : Exec Signal) : Signal → Exec Signal
  | .next => fallThrough results
  | .ret => pure .ret
  | .branch (depth + 1) => pure (.branch depth)
  | .branch 0 =>
    if isLoop then do
      restart setting
      again
    else pure .next

/-- Goes on with what follows an instruction that has not left. -/
def proceed (following : Exec Signal) : Signal → Exec Signal
  | .next => following
  | signal => pure signal

/-- Ends the activation of a function whose body has ended. -/
def leaveBody (function : String) (arity : Nat) (outer : Array Val)
    (signal : Signal) : Exec Unit := do
  match signal with
  | .branch (_ + 1) => bug (.branchPast function)
  | _ => pure ()
  rearrange (Stack.leave function arity)
  modify fun r => { r with locals := outer }

/-- Takes the results of a function that was called. -/
def collect (function : UInt32) : Exec (List Val) := do
  let type ← typeOf function
  popMany type.results.length

end Exec

namespace Operation

def conclude : Purpose → SessionResult (List Val) → SessionResult Response
  | .results, .ok values s => .ok (.results values) s
  | .results, .error error s => .error error s
  | .start _ position inst, .ok _ s =>
    (.module <$> added position inst : Operation Response) s
  | .start _ _ _, .error .exhausted s => .error .exhausted s
  | .start _ _ _, .error .crash s => .error .crash s
  | .start name _ _, .error error s => .error (.instantiation name (.start error)) s

/-- Goes on with a host program whose command has ended. -/
def resume (run : HostProgram → Operation HostEnd) (next : Response → HostProgram) :
    SessionResult Response → SessionResult HostEnd
  | .ok response s => run (next response) s
  | .error .exhausted s => .error .exhausted s
  | .error .crash s => .ok (.stop .crash) s
  | .error error s => run (next (.failed error)) s

/-- Carries out a command up to the invocation that it asks for. -/
def request (inherited : ContextRef) : Command → Operation Request
  | .instantiate m name externs choice => do
    let context ← openContext inherited choice
    let position := (← get).store.modules.size
    let (inst, start) ← prepare m name externs
    match start with
    | some function => pure (.invoke context function [] (.start name position inst))
    | none => .answer <$> .module <$> added position inst
  | .invoke function args choice => do
    let context ← openContext inherited choice
    pure (.invoke context function args .results)
  | .call module name args choice => do
    let val ← findExport module name .func
    let context ← openContext inherited choice
    pure (.invoke context val.addr args .results)
  | command => .answer <$> answer command

/-- Checks that a function may be invoked with the given arguments, and gives the engine
that runs it. -/
def accept (function : UInt32) (args : List Val) : Operation EngineConfig := do
  let config ← present (← get).store.engine
  let f ← read (·.function function)
  let type ← present f.type
  match checkArguments type args with
  | .error cause => throw (.trap (.arguments cause) [f.name])
  | .ok () => pure ()
  pure config

end Operation

namespace Engine

open Exec

variable {fuel : Nat} {setting : Setting} {module function : UInt32}

/-- Follows up on what an instruction asks for. -/
def follow (fuel : Nat) (setting : Setting) (module : UInt32) : Transfer → Exec Signal
  | .next => pure .next
  | .enter isLoop params results body =>
    execBlock fuel setting module isLoop params results body
  | .branch label => branch label
  | .ret => do
    rearrange Stack.ret
    pure .ret
  | .call function => do
    call fuel setting function
    pure .next

theorem exec_succ (instr : Instr) :
    exec (fuel + 1) setting module instr = dispatch setting module instr >>=
      follow fuel setting module := by
  rw [exec.eq_def, dispatch, bind_assoc]
  refine bind_congr fun _ => ?_
  rw [bind_assoc]
  refine bind_congr fun _ => ?_
  cases instr with
  | block | loop | br | ret => rfl
  | ifElse | brTable => rw [transfer, bind_assoc]; rfl
  | brIf label =>
      rw [transfer, bind_assoc]
      refine bind_congr fun condition => ?_
      split <;> rfl
  | call | callIndirect => simp only [transfer, bind_assoc, pure_bind, follow]
  | _ => simp only [transfer, bind_assoc, pure_bind, follow]

theorem execSequence_cons (instr : Instr) (rest : List Instr) :
    execSequence (fuel + 1) setting module (instr :: rest) =
      exec fuel setting module instr >>=
        proceed (execSequence fuel setting module rest) := by
  rw [execSequence.eq_def]
  refine bind_congr fun signal => ?_
  cases signal <;> rfl

theorem execBlock_succ (isLoop : Bool) (params results : Nat) (body : List Instr) :
    execBlock (fuel + 1) setting module isLoop params results body =
      openBlock params (if isLoop then params else results) >>= fun _ =>
        execSequence fuel setting module body >>=
          leaveBlock setting isLoop results (execBlock fuel setting module isLoop params
            results body) := by
  rw [execBlock.eq_def, openBlock]
  simp only [bind_assoc]
  refine bind_congr fun args => bind_congr fun _ => bind_congr fun _ =>
    bind_congr fun signal => ?_
  cases signal with
  | next | ret => rfl
  | branch depth =>
      cases depth with
      | zero => simp only [leaveBlock, restart, bind_assoc]
      | succ => rfl

/-- Runs a body in an activation of its own. -/
def runBody (fuel : Nat) (setting : Setting) (f : FuncInst) (arity : Nat)
    (params : List Val) : Exec Unit := do
  let outer := (← get).locals
  modify fun r => { r with locals := (params ++ f.locals.map Val.zero).toArray }
  pushMark (.activation arity)
  pushMark (.label arity)
  leaveBody f.name arity outer (← execSequence fuel setting f.module f.body)

/-- Follows up on what a call comes to. -/
def serve (fuel : Nat) (setting : Setting) (function : UInt32) : Summons → Exec Unit
  | .host name program => do
    finishCall setting function name
      (← onSession (runHost fuel setting.context program))
  | .body f arity params => do
    runBody fuel setting f arity params
    exit setting

theorem call_succ :
    call (fuel + 1) setting function = summon setting function >>=
      serve fuel setting function := by
  rw [call.eq_def, summon]
  simp only [bind_assoc]
  refine bind_congr fun _ => bind_congr fun f => bind_congr fun _ => ?_
  cases f.kind with
  | host => simp only [bind_assoc, pure_bind, serve, finishCall]
  | wasm =>
      simp only [bind_assoc]
      refine bind_congr fun store => ?_
      cases store.module f.module with
      | error => rfl
      | ok =>
          simp only [bind_assoc, pure_bind, serve, runBody, leaveBody]
          refine bind_congr fun _ => bind_congr fun _ =>
            bind_congr fun _ => bind_congr fun _ =>
            bind_congr fun _ => bind_congr fun _ => bind_congr fun signal => ?_
          cases signal with
          | next | ret => simp only [bind_assoc]
          | branch depth => cases depth <;> simp only [bind_assoc]
  | reserved code => rfl

def respond (fuel : Nat) : Request → Operation Response
  | .answer response => pure response
  | .invoke context function args purpose => fun s =>
    Operation.conclude purpose (invoke fuel context function args s)

theorem map_results_eq_conclude (operation : Operation (List Val)) (s : Session) :
    (Response.results <$> operation) s = Operation.conclude .results (operation s) := by
  simp only [Functor.map, EStateM.map]
  cases operation s <;> rfl

theorem runStart_bind_eq_conclude
    (name : String) (position : Nat) (inst : ModuleInst)
    (operation : Operation (List Val)) (s : Session) :
    (runStart name operation >>= fun _ =>
        Response.module <$> Operation.added position inst) s =
      Operation.conclude (.start name position inst) (operation s) := by
  simp only [Bind.bind, EStateM.bind, runStart]
  cases operation s with
  | ok values s' => rfl
  | error e s' => cases e <;> rfl

theorem perform_succ (inherited : ContextRef) (command : Command) :
    perform (fuel + 1) inherited command = Operation.request inherited command >>=
      respond fuel := by
  rw [perform.eq_def]
  cases command with
  | instantiate m name externs choice =>
      simp only [Operation.request, bind_assoc]
      refine bind_congr fun context => bind_congr fun before =>
        bind_congr fun prepared => ?_
      obtain ⟨inst, start⟩ := prepared
      cases start with
      | none => simp only [respond, bind_map_left, bind_pure_comp]
      | some function =>
          funext s
          exact runStart_bind_eq_conclude name before.store.modules.size inst
            (invoke fuel context function []) s
  | invoke function args choice =>
      simp only [Operation.request, bind_assoc, pure_bind]
      refine bind_congr fun context => ?_
      funext s
      exact map_results_eq_conclude _ s
  | call module name args choice =>
      simp only [Operation.request, bind_assoc, pure_bind]
      refine bind_congr fun val => bind_congr fun context => ?_
      funext s
      exact map_results_eq_conclude _ s
  | _ => simp only [Operation.request, respond, bind_map_left, bind_pure]

theorem invoke_succ (context : ContextRef) (args : List Val) :
    invoke (fuel + 1) context function args =
      Operation.accept function args >>= fun config =>
        toOperation { config, context } args
          (call fuel { config, context } function >>= fun _ => collect function) := by
  rw [invoke.eq_def, Operation.accept]
  simp only [bind_assoc]
  refine bind_congr fun s => bind_congr fun config => bind_congr fun f =>
    bind_congr fun type => ?_
  cases checkArguments type args with
  | error cause => rfl
  | ok => simp only [pure_bind, collect]

end Engine
end WebAssembly
