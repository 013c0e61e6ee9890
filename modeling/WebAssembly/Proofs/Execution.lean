import WebAssembly.Proofs.Dispatch
import WebAssembly.Proofs.Outcome

/-!
# What an invocation executes

An invocation executes instructions of the bodies that it comes to, one after the other.
`Reaches` says which instruction is executed in which state of the run.  What a host
function invokes is an invocation of its own and does not count.  Inside one invocation
nothing catches an abort, so the instruction that aborts ends it.
-/

namespace WebAssembly

def Run.activate (r : Run) (f : FuncInst) (arity : Nat) (params : List Val) : Run :=
  { r with
    locals := (params ++ f.locals.map Val.zero).toArray
    stack := .label arity :: .activation arity :: r.stack }

namespace Engine

open Exec

/-- The instruction is counted within the budget and recorded; the first run has become
the second one. -/
def Dispatches (setting : Setting) (instr : Instr) (r r' : Run) : Prop :=
  (countStep setting >>= fun _ => record setting (.dispatched instr)) r = .ok () r'

/-- A piece of code that is executed as a whole. -/
inductive Task
  | single (module : UInt32) (instr : Instr)
  | sequence (module : UInt32) (body : List Instr)
  | block (module : UInt32) (isLoop : Bool) (params results : Nat) (body : List Instr)
  | call (function : UInt32)

def Task.exec (fuel : Nat) (setting : Setting) : Task → Exec Signal
  | .single module instr => Engine.exec fuel setting module instr
  | .sequence module body => execSequence fuel setting module body
  | .block module isLoop params results body =>
    execBlock fuel setting module isLoop params results body
  | .call function => do
    Engine.call fuel setting function
    pure .next

/-- An instruction of a module instance, and the run in which it is executed once it has
been dispatched. -/
structure Point where
  module : UInt32
  instr : Instr
  run : Run

/-- The execution of a piece of code comes to a point. -/
inductive Reaches (setting : Setting) (point : Point) : Nat → Task → Run → Prop
  | here {fuel r} (h : Dispatches setting point.instr r point.run) :
    Reaches setting point (fuel + 1) (.single point.module point.instr) r
  | enter {fuel module instr isLoop params results body r r'}
    (h : dispatch setting module instr r = .ok (.enter isLoop params results body) r')
    (hblock : Reaches setting point fuel
      (.block module isLoop params results body) r') :
    Reaches setting point (fuel + 1) (.single module instr) r
  | call {fuel module instr function r r'} (h : dispatch setting module instr r =
    .ok (.call function) r')
    (hcall : Reaches setting point fuel (.call function) r') :
    Reaches setting point (fuel + 1) (.single module instr) r
  | first {fuel module instr rest r} (hinstr : Reaches setting point fuel
    (.single module instr) r) :
    Reaches setting point (fuel + 1) (.sequence module (instr :: rest)) r
  | later {fuel module instr rest r r'} (h : exec fuel setting module instr r =
    .ok .next r')
    (hrest : Reaches setting point fuel (.sequence module rest) r') :
    Reaches setting point (fuel + 1) (.sequence module (instr :: rest)) r
  | inside {fuel module isLoop params results body r r'}
    (h : openBlock params (if isLoop then params else results) r = .ok () r')
    (hbody : Reaches setting point fuel (.sequence module body) r') :
    Reaches setting point (fuel + 1) (.block module isLoop params results body) r
  | again {fuel module params results body r r₁ r₂ r₃}
    (h : openBlock params params r = .ok () r₁)
    (hround : execSequence fuel setting module body r₁ = .ok (.branch 0) r₂)
    (hrestart : restart setting r₂ = .ok () r₃)
    (hblock : Reaches setting point fuel (.block module true params results body) r₃) :
    Reaches setting point (fuel + 1) (.block module true params results body) r
  | body {fuel function f arity params r r'} (h : summon setting function r =
    .ok (.body f arity params) r')
    (hbody : Reaches setting point fuel (.sequence f.module f.body)
      (r'.activate f arity params)) :
    Reaches setting point (fuel + 1) (.call function) r

/-- The invocation of a function with the given arguments executes the instruction at
the point. -/
def Executes (fuel : Nat) (context : ContextRef) (function : UInt32) (args : List Val)
    (s : Session) (point : Point) : Prop :=
  ∃ config, Operation.accept function args s = .ok config s ∧
    Reaches { config, context } point fuel (.call function)
      { session := s, stack := Stack.pushAll [] args }

variable {fuel : Nat} {setting : Setting} {module : UInt32} {instr : Instr} {r r' : Run}

/-- Counting and recording leave the run as it is but for its counter and its trace. -/
theorem Dispatches.eq
    (h : Dispatches setting instr r r') :
    ∃ steps trace, r' = { r with steps, trace } := by
  have hends : Ends (countStep setting >>= fun _ =>
      record setting (.dispatched instr)) r
      (fun _ r' => ∃ steps trace, r' = { r with steps, trace }) fun _ _ => True := by
    refine Ends.bind (P := fun _ r' => ∃ steps, r' = { r with steps }) ?_ ?_
    · refine Ends.ite (fun _ => ?_) fun _ => ⟨r.steps, rfl⟩
      exact .modify_bind (.get_bind (.ite (fun _ => True.intro) fun _ =>
        ⟨r.steps + 1, rfl⟩))
    · rintro _ _ ⟨steps, rfl⟩
      unfold Ends record
      by_cases hwatched : setting.watched
      · simp only [hwatched, if_true]
        exact ⟨_, _, rfl⟩
      · simp only [hwatched]
        exact ⟨_, _, rfl⟩
  exact hends.onOk h

theorem Dispatches.session_eq
    (h : Dispatches setting instr r r') : r'.session = r.session := by
  obtain ⟨steps, trace, rfl⟩ := h.eq
  rfl

theorem Dispatches.stack_eq
    (h : Dispatches setting instr r r') : r'.stack = r.stack := by
  obtain ⟨steps, trace, rfl⟩ := h.eq
  rfl

theorem Dispatches.exec_eq
    (h : Dispatches setting instr r r') (fuel : Nat) (module : UInt32) :
    exec (fuel + 1) setting module instr r =
      (transfer module instr >>= follow fuel setting module) r' := by
  rw [exec_succ, dispatch, ← bind_assoc, bind_assoc]
  exact bind_eq_of_eq_ok h

theorem Dispatches.exec_of_next
    {r'' : Run} (h : Dispatches setting instr r r')
    (hnext : transfer module instr r' = .ok .next r'') (fuel : Nat) :
    exec (fuel + 1) setting module instr r = .ok .next r'' :=
  (h.exec_eq fuel module).trans (bind_eq_of_eq_ok hnext)

theorem Dispatches.exec_of_error
    {r'' : Run} {abort : Abort} (h : Dispatches setting instr r r')
    (herror : transfer module instr r' = .error abort r'') (fuel : Nat) :
    exec (fuel + 1) setting module instr r = .error abort r'' :=
  (h.exec_eq fuel module).trans (bind_eq_of_eq_error herror)

theorem runBody_eq (f : FuncInst) (arity : Nat) (params : List Val) :
    runBody fuel setting f arity params r =
      (execSequence fuel setting f.module f.body >>= leaveBody f.name arity r.locals)
        (r.activate f arity params) :=
  rfl

theorem call_eq_error
    {function : UInt32} {abort : Abort}
    (h : (Task.call function).exec fuel setting r = .error abort r') :
    call fuel setting function r = .error abort r' := by
  cases hcall : call fuel setting function r with
  | ok _ r'' =>
      rw [Task.exec, bind_eq_of_eq_ok hcall] at h
      cases h
  | error abort' r'' =>
      rw [Task.exec, bind_eq_of_eq_error hcall] at h
      cases h
      rfl

/-- An abort at a point is the abort of everything that is under way there. -/
theorem Reaches.exec_eq_error
    {point : Point} {task : Task} {abort : Abort}
    (h : Reaches setting point fuel task r)
    (habort : transfer point.module point.instr point.run = .error abort r') :
    task.exec fuel setting r = .error abort r' := by
  induction h with
  | here h => exact h.exec_of_error habort _
  | enter h _ ih =>
      rw [Task.exec, exec_succ]
      exact (bind_eq_of_eq_ok h).trans ih
  | call h _ ih =>
      rw [Task.exec, exec_succ]
      exact (bind_eq_of_eq_ok h).trans ih
  | first _ ih =>
      rw [Task.exec, execSequence_cons]
      exact bind_eq_of_eq_error ih
  | later h _ ih =>
      rw [Task.exec, execSequence_cons]
      exact (bind_eq_of_eq_ok h).trans ih
  | inside h _ ih =>
      rw [Task.exec, execBlock_succ]
      exact (bind_eq_of_eq_ok h).trans (bind_eq_of_eq_error ih)
  | again h hround hrestart _ ih =>
      rw [Task.exec, execBlock_succ]
      refine (bind_eq_of_eq_ok h).trans ((bind_eq_of_eq_ok hround).trans ?_)
      exact (bind_eq_of_eq_ok hrestart).trans ih
  | body h _ ih =>
      rw [Task.exec, call_succ, bind_assoc]
      refine (bind_eq_of_eq_ok h).trans (bind_eq_of_eq_error (bind_eq_of_eq_error ?_))
      rw [runBody_eq]
      exact bind_eq_of_eq_error ih

/-- A bug at a point that an invocation executes is the error of the invocation. -/
theorem Executes.invoke_eq_error
    {context : ContextRef} {function : UInt32} {args : List Val} {s : Session}
    {point : Point} {cause : Bug} (h : Executes fuel context function args s point)
    (hbug : transfer point.module point.instr point.run = .error (.bug cause) r') :
    invoke (fuel + 1) context function args s = .error (.bug cause) r'.session := by
  obtain ⟨config, haccept, hreaches⟩ := h
  have hcall := call_eq_error (hreaches.exec_eq_error hbug)
  rw [invoke_succ, bind_eq_of_eq_ok haccept, toOperation, bind_eq_of_eq_error hcall]

end Engine
end WebAssembly
