import WebAssembly.Proofs.Dispatch

/-!
# A reference evaluator

An evaluator in which a piece of code sees nothing but its own operands.  Every block,
loop, arm and body is run on a list of operands of its own, on which there are no labels
and no activations, and its end says where control goes and which operands it carries
there.  An enclosing structured instruction reads the end of its body; no stack is ever
searched or cut.

Instructions that neither transfer control nor call, the checks of the limits and the
commands of host functions are shared with the interpreter.
-/

namespace WebAssembly

/-- The state of a run but for its stack. -/
structure Machine where
  session : Session
  locals : Array Val := #[]
  active : Array String := #[]
  steps : UInt64 := 0
  trace : List (Moment × Session) := []

/-- The run that a machine and a stack make up. -/
def Machine.on (m : Machine) (stack : Stack) : Run where
  session := m.session
  stack := stack
  locals := m.locals
  active := m.active
  steps := m.steps
  trace := m.trace

def Run.machine (r : Run) : Machine where
  session := r.session
  locals := r.locals
  active := r.active
  steps := r.steps
  trace := r.trace

/-- The operands on a stack, in the order in which they were pushed. -/
def Stack.operands : Stack → List Val
  | [] => []
  | .value v :: rest => operands rest ++ [v]
  | _ :: rest => operands rest

/-- How a step ends that has only its own operands. -/
inductive Outcome (α : Type)
  | done (a : α) (operands : List Val) (m : Machine)
  | halt (cause : Abort) (m : Machine)

/-- Carries out a step on operands of its own. -/
def Exec.alone {α : Type} (x : Exec α) (m : Machine)
    (operands : List Val) : Outcome α :=
  match x (m.on (Stack.pushAll [] operands)) with
  | .ok a r => .done a r.stack.operands r.machine
  | .error cause r => .halt cause r.machine

/-- The last `count` operands, after the ones before them. -/
def topmost (count : Nat) (operands : List Val) : Option (List Val × List Val) :=
  if count ≤ operands.length then some (operands.splitAt (operands.length - count))
  else none

/-- How code ends: by running off its end, by leaving for a label with the operands that
it carries there, by returning, or by halting the run. -/
inductive Ending
  | normal (operands : List Val)
  | branch (depth : Nat) (carried : List Val)
  | ret (results : List Val)
  | halt (cause : Abort)

/-- What is fixed for the code of one structured instruction or one body. -/
structure Scope where
  setting : Setting
  /-- The module instance of the function. -/
  module : UInt32
  /-- The numbers of operands that are carried to the labels in scope, innermost
  first. -/
  labels : List Nat
  /-- The number of results of the function. -/
  results : Nat

namespace Scope

def ofBody (setting : Setting) (f : FuncInst) (arity : Nat) : Scope where
  setting := setting
  module := f.module
  labels := [arity]
  results := arity

def inside (scope : Scope) (arity : Nat) : Scope :=
  { scope with labels := arity :: scope.labels }

def branch (scope : Scope) (label : UInt32) (operands : List Val) : Ending :=
  match scope.labels[label.toNat]? with
  | none => .halt (.bug (.labelOutside label))
  | some arity =>
    match topmost arity operands with
    | none => .halt (.bug .noValue)
    | some (_, carried) => .branch label.toNat carried

/-- Returns from the function. -/
def ret (scope : Scope) (operands : List Val) : Ending :=
  match topmost scope.results operands with
  | none => .halt (.bug .noValue)
  | some (_, results) => .ret results

end Scope

/-! ## How a part ends, and how the whole does then -/

namespace Ending

/-- Goes on with what follows, unless the code has left. -/
def andThen (next : Machine → List Val → Ending × Machine) :
    Ending × Machine → Ending × Machine
  | (.normal operands, m) => next m operands
  | (ending, m) => (ending, m)

/-- How a structured instruction ends whose body has run off its end, where nothing but
its results may be left. -/
def fallThrough (results : Nat) (below operands : List Val) : Ending :=
  match topmost results operands with
  | none => .halt (.bug .noValue)
  | some ([], values) => .normal (below ++ values)
  | some (_ :: _, _) => .halt (.bug .noLabel)

/-- How a structured instruction ends whose body has ended.  An exit to its own label
gives the results of a block and the next parameters of a loop, which is then evaluated
again; an exit to a label further out goes on. -/
def outOfBlock (setting : Setting) (isLoop : Bool) (results : Nat) (below : List Val)
    (again : Machine → List Val → Ending × Machine) :
    Ending × Machine → Ending × Machine
  | (.normal operands, m) => (.fallThrough results below operands, m)
  | (.branch 0 carried, m) =>
    if isLoop then
      match (Exec.restart setting).alone m (below ++ carried) with
      | .done () operands m => again m operands
      | .halt cause m => (.halt cause, m)
    else (.normal (below ++ carried), m)
  | (.branch (depth + 1) carried, m) => (.branch depth carried, m)
  | (.ret results, m) => (.ret results, m)
  | (.halt cause, m) => (.halt cause, m)

/-- The results of a function whose body has ended: by running off its end, by leaving
for its outermost label or by returning. -/
def results (function : String) (arity : Nat) : Ending → Except Abort (List Val)
  | .normal operands =>
    match topmost arity operands with
    | none => .error (.bug .noValue)
    | some (_, results) => .ok results
  | .branch 0 carried => .ok carried
  | .branch (_ + 1) _ => .error (.bug (.branchPast function))
  | .ret results => .ok results
  | .halt cause => .error cause

/-- How a call ends whose body has ended: the locals of the caller are back, and the
results are above its operands. -/
def outOfBody (setting : Setting) (function : String) (arity : Nat) (locals : Array Val)
    (operands : List Val) : Ending × Machine → Outcome Unit
  | (ending, m) =>
    match ending.results function arity with
    | .ok results => (Exec.exit setting).alone { m with locals } (operands ++ results)
    | .error cause => .halt cause m

end Ending

namespace Outcome

/-- How a call instruction ends. -/
def ending : Outcome Unit → Ending × Machine
  | .done () operands m => (.normal operands, m)
  | .halt cause m => (.halt cause, m)

/-- How a call ends whose host program has ended. -/
def ofHost (setting : Setting) (function : UInt32) (name : String) (m : Machine)
    (operands : List Val) : SessionResult HostEnd → Outcome Unit
  | .ok hostEnd session =>
    (Exec.finishCall setting function name hostEnd).alone { m with session } operands
  | .error error session => .halt (Exec.abortOf error) { m with session }

/-- What a caller sees of an invocation. -/
def report {α : Type} (setting : Setting) : Outcome α → SessionResult α
  | .done a _ m => .ok a m.session
  | .halt (.trap cause) m =>
    .error (.trap cause m.active.toList.reverse)
      (if setting.config.logging then
        m.session.observe (.log (.trapped cause m.active.toList.reverse))
       else m.session)
  | .halt (.bug cause) m => .error (.bug cause) m.session
  | .halt .exhausted m => .error .exhausted m.session

/-- What a caller sees of the invocation of a function that was called. -/
def collected (setting : Setting) (function : UInt32) :
    Outcome Unit → SessionResult (List Val)
  | .done () operands m => ((Exec.collect function).alone m operands).report setting
  | .halt cause m => report setting (.halt cause m)

end Outcome

/-! ## The evaluator -/

namespace Reference

open Exec

mutual

def instruction (fuel : Nat) (scope : Scope) (instr : Instr) (m : Machine)
    (operands : List Val) : Ending × Machine :=
  match fuel with
  | 0 => (.halt .exhausted, m)
  | fuel + 1 =>
    match (dispatch scope.setting scope.module instr).alone m operands with
    | .halt cause m => (.halt cause, m)
    | .done .next operands m => (.normal operands, m)
    | .done (.enter isLoop params results body) operands m =>
      block fuel scope isLoop params results body m operands
    | .done (.branch label) operands m => (scope.branch label operands, m)
    | .done .ret operands m => (scope.ret operands, m)
    | .done (.call function) operands m =>
      (call fuel scope.setting function m operands).ending
termination_by structural fuel

/-- Evaluates instructions until one of them does not end normally. -/
def sequence (fuel : Nat) (scope : Scope) (body : List Instr) (m : Machine)
    (operands : List Val) : Ending × Machine :=
  match fuel with
  | 0 => (.halt .exhausted, m)
  | fuel + 1 =>
    match body with
    | [] => (.normal operands, m)
    | instr :: rest =>
      Ending.andThen (sequence fuel scope rest)
        (instruction fuel scope instr m operands)
termination_by structural fuel

/-- Evaluates a structured instruction, whose body is run on its parameters alone. -/
def block (fuel : Nat) (scope : Scope) (isLoop : Bool) (params results : Nat)
    (body : List Instr) (m : Machine) (operands : List Val) : Ending × Machine :=
  match fuel with
  | 0 => (.halt .exhausted, m)
  | fuel + 1 =>
    match topmost params operands with
    | none => (.halt (.bug .noValue), m)
    | some (below, args) =>
      Ending.outOfBlock scope.setting isLoop results below
        (block fuel scope isLoop params results body)
        (sequence fuel (scope.inside (if isLoop then params else results)) body m args)
termination_by structural fuel

/-- Calls a function on the topmost operands.  Its body begins without any. -/
def call (fuel : Nat) (setting : Setting) (function : UInt32) (m : Machine)
    (operands : List Val) : Outcome Unit :=
  match fuel with
  | 0 => .halt .exhausted m
  | fuel + 1 =>
    match (summon setting function).alone m operands with
    | .halt cause m => .halt cause m
    | .done (.host name program) operands m =>
      .ofHost setting function name m operands
        (host fuel setting.context program m.session)
    | .done (.body f arity params) operands m =>
      Ending.outOfBody setting f.name arity m.locals operands
        (sequence fuel (.ofBody setting f arity) f.body
          { m with locals := (params ++ f.locals.map Val.zero).toArray } [])
termination_by structural fuel

def host (fuel : Nat) (context : ContextRef) (program : HostProgram) :
    Operation HostEnd :=
  match fuel with
  | 0 => throw .exhausted
  | fuel + 1 =>
    match program with
    | .done results => pure (.done results)
    | .fail error => pure (.fail error)
    | .stop cause => pure (.stop cause)
    | .perform command next =>
      fun s => Operation.resume (host fuel context)
        next (perform fuel context command s)
termination_by structural fuel

def perform (fuel : Nat) (inherited : ContextRef) (command : Command) :
    Operation Response :=
  match fuel with
  | 0 => throw .exhausted
  | fuel + 1 => do
    match ← Operation.request inherited command with
    | .answer response => pure response
    | .invoke context function args purpose =>
      fun s => Operation.conclude purpose (invoke fuel context function args s)
termination_by structural fuel

def invoke (fuel : Nat) (context : ContextRef) (function : UInt32) (args : List Val) :
    Operation (List Val) :=
  match fuel with
  | 0 => throw .exhausted
  | fuel + 1 => do
    let config ← Operation.accept function args
    let setting : Setting := { config, context }
    fun session => (call fuel setting function { session } args).collected
      setting function
termination_by structural fuel

end

end Reference
end WebAssembly
