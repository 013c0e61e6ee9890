import WebAssembly.Proofs.Region

/-!
# Chronicles

The interpreter, told step by step.  The same code is executed by the same steps, and
beside the run a list is kept of what was done and what was attempted, each with the run
at that time and the position of the instruction in the body of its function.  Leaving
the list away gives the interpreter back.
-/

namespace WebAssembly

/-! ## Positions in a body -/

namespace Instr

mutual

/-- The instruction and those inside it, in the order of the text. -/
def occurrences : Instr → List Instr
  | .block type body => .block type body :: occurrencesIn body
  | .loop type body => .loop type body :: occurrencesIn body
  | .ifElse type whenTrue whenFalse =>
    .ifElse type whenTrue whenFalse ::
      (occurrencesIn whenTrue ++ occurrencesIn whenFalse)
  | instr => [instr]

/-- All instructions of a body, in the order of the text. -/
def occurrencesIn : List Instr → List Instr
  | [] => []
  | instr :: rest => occurrences instr ++ occurrencesIn rest

end

def extent (instr : Instr) : Nat :=
  (occurrences instr).length

def extentOf (body : List Instr) : Nat :=
  (occurrencesIn body).length

theorem extentOf_cons (instr : Instr) (rest : List Instr) :
    extentOf (instr :: rest) = extent instr + extentOf rest := by
  rw [extentOf, occurrencesIn, List.length_append, extent, extentOf]

theorem exists_occurrences (instr : Instr) :
    ∃ inner, occurrences instr = instr :: inner := by
  cases instr <;> exact ⟨_, rfl⟩

theorem extent_pos (instr : Instr) : 0 < extent instr := by
  obtain ⟨inner, h⟩ := exists_occurrences instr
  rw [extent, h, List.length_cons]
  exact Nat.succ_pos _

end Instr

/-! ## What is told -/

/-- Something that is done or attempted in a run. -/
inductive Incident
  /-- A function is about to be entered. -/
  | calling
  | entered (f : FuncInst)
  /-- The program of a host function has ended. -/
  | answered
  | left
  | dispatched (instr : Instr)
  /-- A loop is about to be restarted. -/
  | looping
  | restarted

/-- An incident with the run at that time.  The position is that of the next instruction
of the innermost body. -/
structure Scene where
  incident : Incident
  position : Nat
  run : Run

/-- A run with what has happened in it, newest first. -/
structure Telling where
  run : Run
  scenes : List Scene

def Telling.tell (t : Telling) (position : Nat) (incident : Incident) : Telling :=
  { t with scenes := ⟨incident, position, t.run⟩ :: t.scenes }

def Telling.goOn (t : Telling) (r : Run) : Telling :=
  { t with run := r }

abbrev Told (α : Type) := EStateM Abort Telling α

namespace Told

variable {α β : Type}

/-- A step about which nothing is told. -/
def silent (x : Exec α) : Told α := fun t =>
  match x t.run with
  | .ok a r => .ok a (t.goOn r)
  | .error cause r => .error cause (t.goOn r)

def tell (position : Nat) (incident : Incident) : Told Unit :=
  modify (·.tell position incident)

end Told

namespace Exec

/-- Executes an instruction up to what it asks for.  A second result says how far behind
the instruction the code lies that it enters. -/
def steer (module : UInt32) : Instr → Exec (Transfer × Nat)
  | .ifElse type whenTrue whenFalse => do
    let type := blockSignature type
    let condition ← popU32
    pure (if condition ≠ 0 then
      (.enter false type.params.length type.results.length whenTrue, 1)
      else (.enter false type.params.length type.results.length whenFalse,
        1 + Instr.extentOf whenTrue))
  | instr => do
    let transfer ← transfer module instr
    pure (transfer, 1)

theorem steer_eq
    (module : UInt32) (instr : Instr)
    (h : ∀ type whenTrue whenFalse, instr ≠ .ifElse type whenTrue whenFalse) :
    steer module instr = transfer module instr >>= fun transfer =>
      pure (transfer, 1) := by
  cases instr with
  | ifElse type whenTrue whenFalse => exact absurd rfl (h type whenTrue whenFalse)
  | _ => rfl

/-- The position aside, nothing but the instruction itself is executed. -/
theorem steer_bind
    {α : Type} (module : UInt32) (instr : Instr) (f : Transfer → Exec α) :
    (steer module instr >>= fun aim => f aim.1) = transfer module instr >>= f := by
  cases instr with
  | ifElse type whenTrue whenFalse =>
    simp only [steer, transfer, bind_assoc, pure_bind]
    refine bind_congr fun condition => ?_
    split <;> rfl
  | _ => rw [steer_eq _ _ (by rintro _ _ _ ⟨⟩), bind_assoc]; rfl

def funcInst (function : UInt32) : Exec FuncInst := do
  present (← store).functions[function.toNat]?

/-- Puts a body into an activation of its own and gives the locals outside. -/
def activate (f : FuncInst) (arity : Nat) (params : List Val) : Exec (Array Val) := do
  let outer := (← get).locals
  modify fun r => { r with locals := (params ++ f.locals.map Val.zero).toArray }
  pushMark (.activation arity)
  pushMark (.label arity)
  pure outer

end Exec

/-! ## The interpreter that tells -/

namespace Engine

open Exec Told

/-- Counts an instruction and executes it up to what it asks for. -/
def tellDispatch (setting : Setting) (module : UInt32) (position : Nat)
    (instr : Instr) : Told (Transfer × Nat) := do
  silent (countStep setting)
  tell position (.dispatched instr)
  silent (record setting (.dispatched instr))
  silent (steer module instr)

/-- Lets a loop begin again at a position. -/
def tellRestart (setting : Setting) (position : Nat) : Told Unit := do
  tell position .looping
  silent (restart setting)
  tell position .restarted

/-- Begins a call and takes its arguments. -/
def tellSummon (setting : Setting) (position : Nat) (function : UInt32) :
    Told Summons := do
  let f ← silent (funcInst function)
  tell position .calling
  silent (enter setting f.name)
  tell position (.entered f)
  let received ← silent (receive f)
  silent (announce received.2)
  pure received.1

/-- Ends a call. -/
def tellLeave (setting : Setting) (position : Nat) : Told Unit := do
  silent (exit setting)
  tell position .left

mutual

def tellInstr (fuel : Nat) (setting : Setting) (module : UInt32) (position : Nat)
    (instr : Instr) : Told Signal :=
  match fuel with
  | 0 => throw .exhausted
  | fuel + 1 => do
    let aim ← tellDispatch setting module position instr
    match aim.1 with
    | .next => pure .next
    | .enter isLoop params results body =>
      tellBlock fuel setting module (position + aim.2) isLoop params results body
    | .branch label => silent (branch label)
    | .ret => do
      silent (rearrange Stack.ret)
      pure .ret
    | .call function => do
      tellCall fuel setting (position + 1) function
      pure .next
termination_by structural fuel

def tellSequence (fuel : Nat) (setting : Setting) (module : UInt32) (position : Nat)
    (body : List Instr) : Told Signal :=
  match fuel with
  | 0 => throw .exhausted
  | fuel + 1 =>
    match body with
    | [] => pure .next
    | instr :: rest => do
      match ← tellInstr fuel setting module position instr with
      | .next => tellSequence fuel setting module (position + instr.extent) rest
      | signal => pure signal
termination_by structural fuel

/-- Executes the body of a structured instruction, which begins at a position. -/
def tellBlock (fuel : Nat) (setting : Setting) (module : UInt32) (position : Nat)
    (isLoop : Bool) (params results : Nat) (body : List Instr) : Told Signal :=
  match fuel with
  | 0 => throw .exhausted
  | fuel + 1 => do
    silent (openBlock params (if isLoop then params else results))
    match ← tellSequence fuel setting module position body with
    | .next => silent (fallThrough results)
    | .ret => pure .ret
    | .branch (depth + 1) => pure (.branch depth)
    | .branch 0 =>
      if isLoop then
        tellRestart setting position
        tellBlock fuel setting module position isLoop params results body
      else pure .next
termination_by structural fuel

def tellCall (fuel : Nat) (setting : Setting) (position : Nat)
    (function : UInt32) : Told Unit :=
  match fuel with
  | 0 => throw .exhausted
  | fuel + 1 => do
    match ← tellSummon setting position function with
    | .host name program =>
      let hostEnd ← silent (onSession (runHost fuel setting.context program))
      tell position .answered
      silent (finishHost function name hostEnd)
      tellLeave setting position
    | .body f arity params =>
      let outer ← silent (activate f arity params)
      let signal ← tellSequence fuel setting f.module 0 f.body
      silent (leaveBody f.name arity outer signal)
      tellLeave setting position
termination_by structural fuel

end

end Engine

/-! ## The telling is left away -/

namespace Told

variable {α β : Type}

/-- What is left of an outcome without the scenes. -/
def forget : EStateM.Result Abort Telling α → EStateM.Result Abort Run α
  | .ok a t => .ok a t.run
  | .error cause t => .error cause t.run

/-- Without the scenes the first step is the second one. -/
def Follows (x : Told α) (y : Exec α) : Prop :=
  ∀ t, forget (x t) = y t.run

namespace Follows

variable {x : Told α} {y : Exec α} {f : α → Told β} {g : α → Exec β}

theorem bind
    (hx : Follows x y) (hf : ∀ a, Follows (f a) (g a)) :
    Follows (x >>= f) (y >>= g) := by
  intro t
  have hfirst := hx t
  cases h : x t with
  | ok a t' =>
    rw [h] at hfirst
    rw [bind_eq_of_eq_ok h, bind_eq_of_eq_ok hfirst.symm]
    exact hf a t'
  | error cause t' =>
    rw [h] at hfirst
    rw [bind_eq_of_eq_error h, bind_eq_of_eq_error hfirst.symm]
    rfl

theorem silent (y : Exec α) : Follows (silent y) y := by
  intro t
  rw [Told.silent]
  cases y t.run <;> rfl

theorem pure (a : α) : Follows (Pure.pure a) (Pure.pure a) :=
  fun _ => rfl

theorem throw (cause : Abort) :
    Follows (MonadExcept.throw cause : Told α) (MonadExcept.throw cause) :=
  fun _ => rfl

/-- Telling is nothing that the run knows of. -/
theorem tell_bind
    {f : Unit → Told β} {z : Exec β} (hf : Follows (f ()) z) (position : Nat)
    (incident : Incident) :
    Follows (tell position incident >>= f) z :=
  fun t => hf (t.tell position incident)

theorem bind_tell
    {x : Told Unit} {y : Exec Unit} (h : Follows x y) (position : Nat)
    (incident : Incident) :
    Follows (x >>= fun _ => tell position incident) y := by
  intro t
  rw [← h t]
  cases hx : x t with
  | ok a t' => rw [bind_eq_of_eq_ok hx]; rfl
  | error cause t' => rw [bind_eq_of_eq_error hx]

end Follows
end Told

namespace Engine

open Exec Told

theorem follows_dispatch
    {α : Type} {setting : Setting} {module : UInt32} {position : Nat} {instr : Instr}
    {f : Transfer × Nat → Told α} {g : Transfer → Exec α}
    (hf : ∀ aim, Follows (f aim) (g aim.1)) :
    Follows (tellDispatch setting module position instr >>= f)
      (dispatch setting module instr >>= g) := by
  simp only [tellDispatch, dispatch, bind_assoc, ← steer_bind]
  refine (Follows.silent _).bind fun _ => Follows.tell_bind ?_ _ _
  exact (Follows.silent _).bind fun _ => (Follows.silent _).bind hf

theorem follows_restart (setting : Setting) (position : Nat) :
    Follows (tellRestart setting position) (restart setting) :=
  Follows.tell_bind ((Follows.silent _).bind_tell _ _) _ _

theorem follows_summon (setting : Setting) (position : Nat) (function : UInt32) :
    Follows (tellSummon setting position function) (summon setting function) := by
  have hsummon : summon setting function =
      funcInst function >>= fun f => enter setting f.name >>= fun _ =>
        receive f >>= fun received =>
        announce received.2 >>= fun _ => pure received.1 := by
    simp only [summon_eq, funcInst, bind_assoc]
  rw [hsummon]
  refine (Follows.silent _).bind fun f =>
    Follows.tell_bind ((Follows.silent _).bind fun _ => ?_) _ _
  refine Follows.tell_bind ((Follows.silent _).bind fun received =>
    (Follows.silent _).bind fun _ => ?_) _ _
  exact .pure _

theorem follows_leave (setting : Setting) (position : Nat) :
    Follows (tellLeave setting position) (exit setting) :=
  (Follows.silent _).bind_tell _ _

/-- Within the bound the interpreter and the one that tells do the same. -/
structure Tells (fuel : Nat) : Prop where
  instruction : ∀ setting module position instr,
    Follows (tellInstr fuel setting module position instr)
      (exec fuel setting module instr)
  sequence : ∀ setting module position body,
    Follows (tellSequence fuel setting module position body)
      (execSequence fuel setting module body)
  block : ∀ setting module position isLoop params results body,
    Follows (tellBlock fuel setting module position isLoop params results body)
      (execBlock fuel setting module isLoop params results body)
  call : ∀ setting position function,
    Follows (tellCall fuel setting position function) (call fuel setting function)

namespace Tells

variable {fuel : Nat} (ih : Tells fuel) (setting : Setting) (module : UInt32)
  (position : Nat)
include ih

theorem instruction_succ (instr : Instr) :
    Follows (tellInstr (fuel + 1) setting module position instr)
      (exec (fuel + 1) setting module instr) := by
  rw [exec_succ, tellInstr]
  refine follows_dispatch fun aim => ?_
  obtain ⟨transfer, offset⟩ := aim
  cases transfer with
  | next => exact .pure _
  | enter isLoop params results body =>
      exact ih.block setting module _ isLoop params results body
  | branch label => exact .silent _
  | ret => exact (Follows.silent _).bind fun _ => .pure _
  | call function => exact (ih.call setting _ function).bind fun _ => .pure _

theorem sequence_succ (body : List Instr) :
    Follows (tellSequence (fuel + 1) setting module position body)
      (execSequence (fuel + 1) setting module body) := by
  cases body with
  | nil => exact .pure _
  | cons instr rest =>
    rw [execSequence_cons, tellSequence]
    refine (ih.instruction setting module position instr).bind fun signal => ?_
    cases signal with
    | next => exact ih.sequence setting module _ rest
    | branch | ret => exact .pure _

theorem block_succ (isLoop : Bool) (params results : Nat) (body : List Instr) :
    Follows (tellBlock (fuel + 1) setting module position isLoop params results body)
      (execBlock (fuel + 1) setting module isLoop params results body) := by
  rw [execBlock_succ, tellBlock]
  refine (Follows.silent _).bind fun _ =>
    (ih.sequence setting module position body).bind fun signal => ?_
  cases signal with
  | next => exact .silent _
  | ret => exact .pure _
  | branch depth =>
    cases depth with
    | succ => exact .pure _
    | zero =>
      cases isLoop with
      | false => exact .pure _
      | true =>
        exact (follows_restart setting position).bind fun _ =>
          ih.block setting module position true params results body

theorem call_succ (function : UInt32) :
    Follows (tellCall (fuel + 1) setting position function)
      (Engine.call (fuel + 1) setting function) := by
  rw [Engine.call_succ, tellCall]
  refine (follows_summon setting position function).bind fun summons => ?_
  cases summons with
  | host name program =>
    refine (Follows.silent _).bind fun hostEnd => Follows.tell_bind ?_ _ _
    exact (Follows.silent _).bind fun _ => follows_leave setting position
  | body f arity params =>
    have hbody : serve fuel setting function (.body f arity params) =
        activate f arity params >>= fun outer =>
          execSequence fuel setting f.module f.body >>= fun signal =>
          leaveBody f.name arity outer signal >>= fun _ => exit setting := by
      simp only [serve, runBody, activate, bind_assoc, pure_bind]
    rw [hbody]
    refine (Follows.silent _).bind fun outer =>
      (ih.sequence setting f.module 0 f.body).bind fun signal => ?_
    exact (Follows.silent _).bind fun _ => follows_leave setting position

end Tells

/-- The interpreter that tells is the interpreter. -/
theorem tells (fuel : Nat) : Tells fuel := by
  induction fuel with
  | zero =>
    exact ⟨fun _ _ _ _ => .throw _, fun _ _ _ _ => .throw _,
      fun _ _ _ _ _ _ _ => .throw _, fun _ _ _ => .throw _⟩
  | succ fuel ih =>
    exact {
      instruction := ih.instruction_succ
      sequence := ih.sequence_succ
      block := ih.block_succ
      call := ih.call_succ }

end Engine

/-! ## Invocations -/

def Telling.start (s : Session) (args : List Val) : Telling where
  run := { session := s, stack := Stack.pushAll [] args }
  scenes := []

def Told.final {α : Type} : EStateM.Result Abort Telling α → Telling
  | .ok _ t => t
  | .error _ t => t

/-- The error of an invocation that was aborted while the named functions were
active. -/
def Abort.report (backtrace : List String) : Abort → Error
  | .trap cause => .trap cause backtrace
  | .bug cause => .bug cause
  | .exhausted => .exhausted

namespace Engine

open Exec Told

/-- What happens in an invocation once it is accepted, newest first. -/
def chronicle (fuel : Nat) (setting : Setting) (function : UInt32) (args : List Val)
    (s : Session) : List Scene :=
  (final (tellCall fuel setting 0 function (.start s args))).scenes

variable {fuel : Nat} {context : ContextRef} {function : UInt32} {args : List Val}
  {s : Session} {config : EngineConfig} {t : Telling}

theorem ends_collect (function : UInt32) (r : Run) :
    Ends (collect function) r (fun _ _ => True) fun cause _ => ∃ bug,
      cause = .bug bug := by
  have hpresent {α : Type} (entry : Option α) (r : Run) :
      Ends (present entry) r (fun _ _ => True) fun cause _ => ∃ bug,
        cause = .bug bug := by
    cases entry with
    | none => exact ⟨_, rfl⟩
    | some => trivial
  refine Ends.bind (P := fun _ _ => True) ?_ fun type r₁ _ => ?_
  · exact Ends.bind_of_eq_ok rfl (Ends.bind (hpresent _ r) fun f r₁ _ => hpresent _ r₁)
  · unfold Ends popMany take
    cases Stack.popMany type.results.length r₁.stack with
    | ok => trivial
    | error cause => exact ⟨cause, rfl⟩

section

variable (haccept : Operation.accept function args s = .ok config s)
include haccept

theorem invoke_eq_toOperation :
    invoke (fuel + 1) context function args s =
      toOperation { config, context } args
        (call fuel { config, context } function >>= fun _ => collect function) s := by
  rw [invoke_succ]
  exact bind_eq_of_eq_ok haccept

/-- An invocation whose call is aborted reports the cause and the functions that are
active then. -/
theorem invoke_of_error
    {cause : Abort} (htold : tellCall fuel { config, context } 0 function
      (.start s args) = .error cause t) :
    ∃ u : Session, u.store = t.run.session.store ∧
      invoke (fuel + 1) context function args s =
        .error (cause.report t.run.backtrace) u := by
  have hcall := (tells fuel).call { config, context } 0 function (.start s args)
  rw [htold] at hcall
  have hrun : (call fuel { config, context } function >>= fun _ => collect function)
        (Telling.start s args).run =
      .error cause t.run :=
    bind_eq_of_eq_error hcall.symm
  rw [invoke_eq_toOperation haccept, toOperation]
  simp only [Telling.start] at hrun
  rw [hrun]
  cases cause with
  | trap cause => exact ⟨_, by split <;> rfl, rfl⟩
  | bug cause => exact ⟨_, rfl, rfl⟩
  | exhausted => exact ⟨_, rfl, rfl⟩

/-- An invocation whose call ends gives results, unless they are missing. -/
theorem invoke_of_ok
    (htold : tellCall fuel { config, context } 0 function (.start s args) = .ok () t) :
    (∃ values u, invoke (fuel + 1) context function args s = .ok values u) ∨
      ∃ bug u, invoke (fuel + 1) context function args s = .error (.bug bug) u := by
  have hcall := (tells fuel).call { config, context } 0 function (.start s args)
  rw [htold] at hcall
  have hrun : (call fuel { config, context } function >>= fun _ => collect function)
        (Telling.start s args).run =
      collect function t.run :=
    bind_eq_of_eq_ok hcall.symm
  have hcollect := ends_collect function t.run
  rw [invoke_eq_toOperation haccept, toOperation]
  simp only [Telling.start] at hrun
  rw [hrun]
  cases hresult : collect function t.run with
  | ok values r => exact .inl ⟨values, r.session, rfl⟩
  | error cause r =>
    obtain ⟨bug, rfl⟩ := hcollect.onError hresult
    exact .inr ⟨bug, r.session, rfl⟩

/-- An error that is no bug is reported by the call. -/
theorem exists_told_of_error
    {error : Error} {u : Session}
    (hinvoke : invoke (fuel + 1) context function args s = .error error u)
    (hbug : ∀ bug, error ≠ .bug bug) :
    ∃ cause t, tellCall fuel { config, context } 0 function (.start s args) =
        .error cause t ∧
      error = cause.report t.run.backtrace := by
  cases htold : tellCall fuel { config, context } 0 function (.start s args) with
  | ok a t =>
    obtain ⟨values, u', hok⟩ | ⟨bug, u', herror⟩ := invoke_of_ok haccept htold
    · cases hinvoke.symm.trans hok
    · exact absurd (EStateM.Result.error.inj (hinvoke.symm.trans herror)).1 (hbug bug)
  | error cause t =>
    obtain ⟨u', -, herror⟩ := invoke_of_error haccept htold
    exact ⟨cause, t, rfl, (EStateM.Result.error.inj (hinvoke.symm.trans herror)).1⟩

theorem exists_told_of_trap
    {cause : TrapCause} {names : List String} {u : Session}
    (hinvoke : invoke (fuel + 1) context function args s =
      .error (.trap cause names) u) :
    ∃ t, tellCall fuel { config, context } 0 function (.start s args) =
        .error (.trap cause) t ∧
      names = t.run.backtrace := by
  obtain ⟨abort, t, htold, hreport⟩ := exists_told_of_error haccept hinvoke
      fun _ => Error.noConfusion
  cases abort with
  | trap cause' =>
    obtain ⟨rfl, rfl⟩ := Error.trap.inj hreport
    exact ⟨t, htold, rfl⟩
  | bug | exhausted => cases hreport

end

end Engine
end WebAssembly
