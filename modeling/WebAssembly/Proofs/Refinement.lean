import WebAssembly.Config
import WebAssembly.Proofs.Locality
import WebAssembly.Proofs.Stability

/-!
# The interpreter refines the reference evaluator

The interpreter keeps the operands of all active code on one stack, with a label for
each structured instruction and an activation for each call.  An exit cuts the stack
down to its target at once and then counts the structured instructions that are still to
be left.  The reference evaluator has neither.  They are related by what lies below the
operands of the current code: the labels in its scope, nearest first, and the activation
of its function.
-/

namespace WebAssembly

/-! ## What lies below the operands of a piece of code -/

namespace Stack

/-- The stack begins with a mark; the labels that can be found on it are those in scope,
and the activation is that of the function. -/
structure Frames (labels : List Nat) (results : Nat) (base : Stack) : Prop where
  barrier : base.IsBarrier
  label : ∀ (depth arity : Nat), labels[depth]? = some arity →
    ∃ below, ∀ target, findLabel target depth base = .ok (arity, below)
  outside : ∀ depth : Nat, labels[depth]? = none →
    ∀ target, findLabel target depth base = .error (.labelOutside target)
  activation : ∃ below, findActivation base = some (results, below)

/-- The marks of a call are what the body of a function finds below it. -/
theorem frames_call (arity : Nat) (rest : Stack) :
    Frames [arity] arity (.label arity :: .activation arity :: rest) where
  barrier := isBarrier_label arity _
  label := by
    intro depth arity' h
    cases depth with
    | zero =>
        obtain rfl : arity = arity' := Option.some.inj h
        exact ⟨_, fun _ => rfl⟩
    | succ depth => cases h
  outside := by
    intro depth h target
    cases depth with
    | zero => cases h
    | succ depth => rfl
  activation := ⟨rest, rfl⟩

/-- A structured instruction adds its label above the operands that it does not take. -/
theorem Frames.inside
    {labels : List Nat} {results : Nat} {base : Stack} (h : base.Frames labels results)
    (arity : Nat) (below : List Val) :
    Frames (arity :: labels) results (.label arity :: base.pushAll below) where
  barrier := isBarrier_label arity _
  label := by
    intro depth arity' hlabel
    cases depth with
    | zero =>
        obtain rfl : arity = arity' := Option.some.inj hlabel
        exact ⟨_, fun _ => rfl⟩
    | succ depth =>
        obtain ⟨rest, hrest⟩ := h.label depth arity' hlabel
        refine ⟨rest, ?_⟩
        intro target
        rw [findLabel, findLabel_pushAll]
        exact hrest target
  outside := by
    intro depth hlabel target
    cases depth with
    | zero => cases hlabel
    | succ depth =>
        rw [findLabel, findLabel_pushAll]
        exact h.outside depth hlabel target
  activation := by
    obtain ⟨rest, hrest⟩ := h.activation
    refine ⟨rest, ?_⟩
    rw [findActivation, findActivation_pushAll]
    · exact hrest
    · intro arity' h'
      cases h'

end Stack

/-- The result is the ending of code whose operands begin above the given stack.  An
exit has already cut the stack down to the label or the activation that it goes to. -/
def Ending.Matches (base : Stack) :
    Ending × Machine → EStateM.Result Abort Run Signal → Prop
  | (.normal operands, m), result => result = .ok .next (m.on (base.pushAll operands))
  | (.branch depth carried, m), result =>
    ∃ below, (∀ target, base.findLabel target depth = .ok (carried.length, below)) ∧
      result = .ok (.branch depth) (m.on (below.pushAll carried))
  | (.ret results, m), result =>
    ∃ below, base.findActivation = some (results.length, below) ∧
      result = .ok .ret (m.on
        (Stack.pushAll (.activation results.length :: below) results))
  | (.halt cause, m), result => ∃ stack, result = .error cause (m.on stack)

namespace Exec

variable (m : Machine) {stack stack' : Stack} {cause : Bug}

theorem popMany_eq_ok
    {base : Stack} (hbase : base.IsBarrier) {count : Nat}
    {operands below values : List Val}
    (h : topmost count operands = some (below, values)) :
    popMany count (m.on (base.pushAll operands)) =
      .ok values (m.on (base.pushAll below)) := by
  simp only [popMany, take, Machine.stack_on, Stack.popMany_eq hbase, h]
  rfl

theorem popMany_eq_error
    {base : Stack} (hbase : base.IsBarrier) {count : Nat} {operands : List Val}
    (h : topmost count operands = none) :
    popMany count (m.on (base.pushAll operands)) = .error (.bug .noValue)
      (m.on (base.pushAll operands)) := by
  simp only [popMany, take, Machine.stack_on, Stack.popMany_eq hbase, h]

theorem rearrange_eq_ok
    {change : Stack → Except Bug Stack} (h : change stack = .ok stack') :
    rearrange change (m.on stack) = .ok () (m.on stack') := by
  simp only [rearrange, Machine.stack_on, h]
  rfl

theorem rearrange_eq_error
    {change : Stack → Except Bug Stack} (h : change stack = .error cause) :
    rearrange change (m.on stack) = .error (.bug cause) (m.on stack) := by
  simp only [rearrange, Machine.stack_on, h]

end Exec

/-! ## Exits -/

namespace Stack.Frames

variable {scope : Scope} {base : Stack} (h : base.Frames scope.labels scope.results)
include h

theorem matches_branch (label : UInt32) (m : Machine) (operands : List Val) :
    Ending.Matches base (scope.branch label operands, m)
      (Exec.branch label (m.on (base.pushAll operands))) := by
  have hpop := fun arity => popMany_eq h.barrier arity operands
  cases hlabel : scope.labels[label.toNat]? with
  | none =>
      have hbranch : Stack.branch label (base.pushAll operands) =
          .error (.labelOutside label) := by
        simp only [Stack.branch, findLabel_pushAll, h.outside label.toNat hlabel label]
      simp only [Scope.branch, hlabel]
      exact ⟨_, bind_eq_of_eq_error (Exec.rearrange_eq_error m hbranch)⟩
  | some arity =>
      obtain ⟨below, hfind⟩ := h.label label.toNat arity hlabel
      cases htop : topmost arity operands with
      | none =>
          have hbranch : Stack.branch label (base.pushAll operands) =
              .error .noValue := by
            simp only [Stack.branch, findLabel_pushAll, hfind, hpop, htop]
          simp only [Scope.branch, hlabel, htop]
          exact ⟨_, bind_eq_of_eq_error (Exec.rearrange_eq_error m hbranch)⟩
      | some parts =>
          obtain ⟨others, carried⟩ := parts
          have hbranch : Stack.branch label (base.pushAll operands) =
              .ok (below.pushAll carried) := by
            simp only [Stack.branch, findLabel_pushAll, hfind, hpop, htop]
          obtain ⟨rfl, -⟩ := topmost_eq_some htop
          simp only [Scope.branch, hlabel, htop]
          exact ⟨below, hfind, bind_eq_of_eq_ok (Exec.rearrange_eq_ok m hbranch)⟩

theorem matches_ret (m : Machine) (operands : List Val) :
    Ending.Matches base (scope.ret operands, m)
      ((do Exec.rearrange Stack.ret; pure .ret : Exec Signal)
        (m.on (base.pushAll operands))) := by
  obtain ⟨below, hfind⟩ := h.activation
  have hpop := popMany_eq h.barrier scope.results operands
  cases htop : topmost scope.results operands with
  | none =>
      have hret : Stack.ret (base.pushAll operands) = .error .noValue := by
        simp only [Stack.ret, findActivation_pushAll, hfind, hpop, htop]
      simp only [Scope.ret, htop]
      exact ⟨_, bind_eq_of_eq_error (Exec.rearrange_eq_error m hret)⟩
  | some parts =>
      obtain ⟨others, results⟩ := parts
      obtain ⟨hlength, -⟩ := topmost_eq_some htop
      have hret : Stack.ret (base.pushAll operands) =
          .ok (Stack.pushAll (.activation results.length :: below) results) := by
        simp only [Stack.ret, findActivation_pushAll, hfind, hpop, htop, hlength]
      rw [← hlength] at hfind
      simp only [Scope.ret, htop]
      exact ⟨below, hfind, bind_eq_of_eq_ok (Exec.rearrange_eq_ok m hret)⟩

end Stack.Frames

/-! ## The ends of blocks and bodies -/

theorem Stack.leave_eq_ok
    (function : String) {stack below : Stack} {arity : Nat}
    (h : findActivation stack = some (arity, below)) (values : List Val) :
    leave function values.length (stack.pushAll values) =
      .ok (below.pushAll values) := by
  simp only [leave, popMany_pushAll, h]

theorem Stack.popLabel_pushAll (base : Stack) (v : Val) (rest : List Val) :
    popLabel (base.pushAll (v :: rest)) = .error .noLabel := by
  obtain hnil | ⟨values, w, hvalues⟩ := (v :: rest).eq_nil_or_concat'
  · cases hnil
  · rw [hvalues, pushAll_concat]
    rfl

namespace Exec

theorem matches_fallThrough (base : Stack) (m : Machine) (results arity : Nat)
    (below operands : List Val) :
    Ending.Matches base (.fallThrough results below operands, m)
      (fallThrough results
        (m.on (Stack.pushAll (.label arity :: base.pushAll below) operands))) := by
  have hbarrier := Stack.isBarrier_label arity (base.pushAll below)
  rw [Ending.fallThrough, fallThrough]
  cases htop : topmost results operands with
  | none => exact ⟨_, bind_eq_of_eq_error (popMany_eq_error m hbarrier htop)⟩
  | some parts =>
      obtain ⟨others, values⟩ := parts
      rw [bind_eq_of_eq_ok (popMany_eq_ok m hbarrier htop)]
      cases others with
      | nil =>
          rw [Ending.Matches, Stack.pushAll_append]
          rfl
      | cons v rest =>
          exact ⟨_, bind_eq_of_eq_error
            (rearrange_eq_error m (Stack.popLabel_pushAll _ v rest))⟩

end Exec

namespace Ending.Matches

variable {base : Stack} {p : Ending × Machine} {x : Exec Signal} {r : Run}

theorem andThen
    (h : Matches base p (x r)) {next : Machine → List Val → Ending × Machine}
    {following : Exec Signal}
    (hnext : ∀ m operands,
      Matches base (next m operands) (following (m.on (base.pushAll operands)))) :
    Matches base (Ending.andThen next p) ((x >>= Exec.proceed following) r) := by
  obtain ⟨ending, m⟩ := p
  cases ending with
  | normal operands =>
      rw [bind_eq_of_eq_ok h]
      exact hnext m operands
  | branch depth carried =>
      obtain ⟨below, hfind, hx⟩ := h
      exact ⟨below, hfind, bind_eq_of_eq_ok hx⟩
  | ret results =>
      obtain ⟨below, hfind, hx⟩ := h
      exact ⟨below, hfind, bind_eq_of_eq_ok hx⟩
  | halt cause =>
      obtain ⟨stack, hx⟩ := h
      exact ⟨stack, bind_eq_of_eq_error hx⟩

/-- An exit to a label further out has already been carried out when the instructions in
between are left: they only count it down. -/
theorem outOfBlock
    {arity : Nat} {below : List Val}
    (h : Matches (.label arity :: base.pushAll below) p (x r)) (hbase : base.IsBarrier)
    {next : Machine → List Val → Ending × Machine} {again : Exec Signal}
    (hagain : ∀ m operands,
      Matches base (next m operands) (again (m.on (base.pushAll operands)))) (setting :
        Setting) (isLoop : Bool) (results : Nat) :
    Matches base (Ending.outOfBlock setting isLoop results below next p)
      ((x >>= Exec.leaveBlock setting isLoop results again) r) := by
  obtain ⟨ending, m⟩ := p
  cases ending with
  | normal operands =>
      rw [bind_eq_of_eq_ok h]
      exact Exec.matches_fallThrough base m results arity below operands
  | branch depth carried =>
      obtain ⟨target, hfind, hx⟩ := h
      rw [bind_eq_of_eq_ok hx]
      cases depth with
      | zero =>
          -- The exit has taken the label away, so the carried operands lie right above
          -- those below the block.
          obtain ⟨-, rfl⟩ := Prod.mk.inj (Except.ok.inj (hfind 0))
          rw [← Stack.pushAll_append]
          by_cases hloop : isLoop
          · have hrestart := (Exec.local_restart setting).matches_alone m
                (below ++ carried) hbase
            simp only [Exec.leaveBlock, Ending.outOfBlock, if_pos hloop]
            cases hout : (Exec.restart setting).alone m (below ++ carried) with
            | halt cause m' =>
                rw [hout] at hrestart
                exact hrestart.bind_eq_error
            | done a operands m' =>
                rw [hout] at hrestart
                rw [hrestart.bind_eq]
                exact hagain m' operands
          · simp only [Exec.leaveBlock, Ending.outOfBlock, if_neg hloop]
            rfl
      | succ depth =>
          refine ⟨target, ?_, rfl⟩
          intro label
          rw [← hfind label, Stack.findLabel, Stack.findLabel_pushAll]
  | ret values =>
      obtain ⟨target, hfind, hx⟩ := h
      rw [bind_eq_of_eq_ok hx]
      refine ⟨target, ?_, rfl⟩
      rw [← hfind, ← Stack.findActivation_pushAll base below]
      rfl
  | halt cause =>
      obtain ⟨stack, hx⟩ := h
      exact ⟨stack, bind_eq_of_eq_error hx⟩

/-- A body gives its results to its caller, however it ended. -/
theorem leaveBody
    {function : String} {arity : Nat} {outer : Array Val} {ending : Ending}
    {m : Machine} (h : Matches (.label arity :: .activation arity :: base)
      (ending, m) (x r)) :
    match ending.results function arity with
    | .ok results => (x >>= Exec.leaveBody function arity outer) r =
        .ok () (Machine.on { m with locals := outer } (base.pushAll results))
    | .error cause =>
        ∃ stack, (x >>= Exec.leaveBody function arity outer) r =
          .error cause (m.on stack) := by
  cases ending with
  | normal operands =>
      rw [bind_eq_of_eq_ok h, Ending.results]
      cases htop : topmost arity operands with
      | none =>
          have hleave : Stack.leave function arity
              (Stack.pushAll (.label arity :: .activation arity :: base) operands) =
                .error .noValue := by
            simp only [Stack.leave, Stack.popMany_eq (Stack.isBarrier_label arity _),
              htop]
          exact ⟨_, bind_eq_of_eq_error (Exec.rearrange_eq_error m hleave)⟩
      | some parts =>
          obtain ⟨others, results⟩ := parts
          obtain ⟨rfl, rfl⟩ := topmost_eq_some htop
          have hfind : Stack.findActivation
              (Stack.pushAll (.label results.length :: .activation results.length ::
                  base) others) =
                some (results.length, base) := by
            rw [Stack.findActivation_pushAll]
            rfl
          rw [Stack.pushAll_append]
          exact bind_eq_of_eq_ok
            (Exec.rearrange_eq_ok m (Stack.leave_eq_ok function hfind results))
  | branch depth carried =>
      obtain ⟨below, hfind, hx⟩ := h
      rw [bind_eq_of_eq_ok hx]
      cases depth with
      | zero =>
          -- Here the label is gone but not the activation, on which the search for it
          -- still ends.
          obtain ⟨rfl, rfl⟩ := Prod.mk.inj (Except.ok.inj (hfind 0))
          exact bind_eq_of_eq_ok
            (Exec.rearrange_eq_ok m (Stack.leave_eq_ok function rfl carried))
      | succ depth => exact ⟨_, rfl⟩
  | ret results =>
      obtain ⟨below, hfind, hx⟩ := h
      obtain ⟨rfl, rfl⟩ := Prod.mk.inj (Option.some.inj hfind)
      rw [bind_eq_of_eq_ok hx]
      exact bind_eq_of_eq_ok
        (Exec.rearrange_eq_ok m (Stack.leave_eq_ok function rfl results))
  | halt cause =>
      obtain ⟨stack, hx⟩ := h
      exact ⟨stack, bind_eq_of_eq_error hx⟩

theorem outOfBody
    {arity : Nat} {operands : List Val} (hbase : base.IsBarrier)
    (h : Matches (.label arity :: .activation arity :: base.pushAll operands) p (x r))
    (setting : Setting) (function : String) (locals : Array Val) :
    (Ending.outOfBody setting function arity locals operands p).Matches base
      ((x >>= Exec.leaveBody function arity locals >>= fun _ =>
        Exec.exit setting) r) := by
  obtain ⟨ending, m⟩ := p
  have hleave := @leaveBody _ _ _ function _ locals _ _ h
  rw [Ending.outOfBody]
  cases hresults : ending.results function arity with
  | error cause =>
      rw [hresults] at hleave
      obtain ⟨stack, hleave⟩ := hleave
      exact ⟨stack, bind_eq_of_eq_error hleave⟩
  | ok results =>
      rw [hresults] at hleave
      rw [bind_eq_of_eq_ok hleave, ← Stack.pushAll_append]
      exact (Exec.local_exit setting).matches_alone { m with locals }
        (operands ++ results) hbase

end Ending.Matches

/-! ## Calls and invocations -/

namespace Outcome.Matches

variable {base : Stack} {o : Outcome Unit} {x : Exec Unit}

theorem ending
    {r : Run} (h : o.Matches base (x r)) :
    Ending.Matches base o.ending ((do x; pure .next : Exec Signal) r) := by
  cases o with
  | halt cause m => exact h.bind_eq_error
  | done a operands m => exact h.bind_eq

theorem ofHost
    (hbase : base.IsBarrier) (setting : Setting) (function : UInt32) (name : String)
    (m : Machine) (operands : List Val) (operation : Operation HostEnd) :
    (Outcome.ofHost setting function name m operands (operation m.session)).Matches base
      ((Exec.onSession operation >>= Exec.finishCall setting function name)
        (m.on (base.pushAll operands))) := by
  cases hout : operation m.session with
  | ok hostEnd session =>
      rw [bind_eq_of_eq_ok (Exec.onSession_eq_ok hout _)]
      exact (Exec.local_finishCall setting function name hostEnd).matches_alone
        { m with session } operands hbase
  | error error session =>
      exact ⟨_, bind_eq_of_eq_error (Exec.onSession_eq_error hout _)⟩

/-- What a caller sees of a body depends on the outcome of the body alone. -/
theorem report
    {α : Type} {o : Outcome α} {body : Exec α} {args : List Val} {session : Session}
    (h : o.Matches [] (body (Machine.on { session } (Stack.pushAll [] args))))
    (setting : Setting) :
    Exec.toOperation setting args body session = o.report setting := by
  cases o with
  | done a operands m =>
      have hbody : body { session, stack := Stack.pushAll [] args } =
        .ok a (m.on (Stack.pushAll [] operands)) := h
      rw [Exec.toOperation, hbody]
      rfl
  | halt cause m =>
      obtain ⟨stack, h⟩ := h
      have hbody : body { session, stack := Stack.pushAll [] args } =
        .error cause (m.on stack) := h
      rw [Exec.toOperation, hbody]
      cases cause <;> rfl

theorem collected
    {args : List Val} {session : Session}
    (h : o.Matches [] (x (Machine.on { session } (Stack.pushAll [] args))))
    (setting : Setting) (function : UInt32) :
    Exec.toOperation setting args (x >>= fun _ => Exec.collect function) session =
      o.collected setting function := by
  cases o with
  | halt cause m => exact report (o := .halt cause m) h.bind_eq_error setting
  | done a operands m =>
      have hcollect := (Exec.local_collect function).matches_alone m operands
        Stack.isBarrier_nil
      have hbody : (x >>= fun _ => Exec.collect function)
            (Machine.on { session } (Stack.pushAll [] args)) =
          Exec.collect function (m.on (Stack.pushAll [] operands)) :=
        h.bind_eq
      rw [← hbody] at hcollect
      exact report hcollect setting

end Outcome.Matches

/-! ## The interpreter and the evaluator agree -/

namespace Engine

open Exec

/-- At the given bound, each part of the interpreter does what its counterpart in the
reference evaluator does. -/
structure Agrees (fuel : Nat) : Prop where
  instruction : ∀ (scope : Scope) (instr : Instr) (m : Machine) (operands : List Val)
      (base : Stack),
    base.Frames scope.labels scope.results →
      Ending.Matches base (Reference.instruction fuel scope instr m operands)
        (exec fuel scope.setting scope.module instr (m.on (base.pushAll operands)))
  sequence : ∀ (scope : Scope) (body : List Instr) (m : Machine) (operands : List Val)
      (base : Stack),
    base.Frames scope.labels scope.results →
      Ending.Matches base (Reference.sequence fuel scope body m operands)
        (execSequence fuel scope.setting scope.module body
          (m.on (base.pushAll operands)))
  block : ∀ (scope : Scope) (isLoop : Bool) (params results : Nat) (body : List Instr)
    (m : Machine)
      (operands : List Val) (base : Stack), base.Frames scope.labels scope.results →
    Ending.Matches base (Reference.block fuel scope isLoop params results
      body m operands)
      (execBlock fuel scope.setting scope.module isLoop params results body
        (m.on (base.pushAll operands)))
  call : ∀ (setting : Setting) (function : UInt32) (m : Machine) (operands : List Val)
      (base : Stack),
    base.IsBarrier →
      (Reference.call fuel setting function m operands).Matches base
        (call fuel setting function (m.on (base.pushAll operands)))
  host : ∀ context program, runHost fuel context program =
    Reference.host fuel context program
  perform : ∀ inherited command,
    perform fuel inherited command = Reference.perform fuel inherited command
  invoke : ∀ context function args,
    invoke fuel context function args = Reference.invoke fuel context function args

theorem agrees_zero : Agrees 0 where
  instruction := fun _ _ _ _ _ _ => ⟨_, rfl⟩
  sequence := fun _ _ _ _ _ _ => ⟨_, rfl⟩
  block := fun _ _ _ _ _ _ _ _ _ => ⟨_, rfl⟩
  call := fun _ _ _ _ _ _ => ⟨_, rfl⟩
  host := fun _ _ => rfl
  perform := fun _ _ => rfl
  invoke := fun _ _ _ => rfl

namespace Agrees

variable {fuel : Nat} (h : Agrees fuel)
include h

theorem instruction_succ
    (scope : Scope) (instr : Instr) (m : Machine) (operands : List Val) (base : Stack)
    (hbase : base.Frames scope.labels scope.results) :
    Ending.Matches base (Reference.instruction (fuel + 1) scope instr m operands)
      (exec (fuel + 1) scope.setting scope.module instr
        (m.on (base.pushAll operands))) := by
  have hdispatch := (local_dispatch scope.setting scope.module instr).matches_alone m
    operands hbase.barrier
  rw [exec_succ, Reference.instruction]
  cases hout : (dispatch scope.setting scope.module instr).alone m operands with
  | halt cause m' =>
      rw [hout] at hdispatch
      exact hdispatch.bind_eq_error
  | done transfer operands' m' =>
      rw [hout] at hdispatch
      rw [hdispatch.bind_eq]
      cases transfer with
      | next => rfl
      | enter isLoop params results body =>
          exact h.block scope isLoop params results body m' operands' base hbase
      | branch label => exact hbase.matches_branch label m' operands'
      | ret => exact hbase.matches_ret m' operands'
      | call function =>
          have hcall := h.call scope.setting function m' operands' base hbase.barrier
          exact hcall.ending

theorem sequence_succ
    (scope : Scope) (body : List Instr) (m : Machine) (operands : List Val)
    (base : Stack) (hbase : base.Frames scope.labels scope.results) :
    Ending.Matches base (Reference.sequence (fuel + 1) scope body m operands)
      (execSequence (fuel + 1) scope.setting scope.module body
        (m.on (base.pushAll operands))) := by
  cases body with
  | nil => rfl
  | cons instr rest =>
      have hinstr := h.instruction scope instr m operands base hbase
      rw [execSequence_cons]
      exact hinstr.andThen fun m' operands' =>
        h.sequence scope rest m' operands' base hbase

theorem block_succ
    (scope : Scope) (isLoop : Bool) (params results : Nat) (body : List Instr)
    (m : Machine) (operands : List Val) (base : Stack)
    (hbase : base.Frames scope.labels scope.results) :
    Ending.Matches base (Reference.block (fuel + 1) scope isLoop params results
      body m operands)
      (execBlock (fuel + 1) scope.setting scope.module isLoop params results body
        (m.on (base.pushAll operands))) := by
  rw [Reference.block, execBlock_succ]
  generalize (if isLoop = true then params else results) = arity
  cases htop : topmost params operands with
  | none =>
      have hopen : openBlock params arity (m.on (base.pushAll operands)) = _ :=
        bind_eq_of_eq_error (popMany_eq_error m hbase.barrier htop)
      exact ⟨_, bind_eq_of_eq_error hopen⟩
  | some parts =>
      obtain ⟨below, args⟩ := parts
      have hopen : openBlock params arity (m.on (base.pushAll operands)) =
          .ok () (m.on (Stack.pushAll (.label arity :: base.pushAll below) args)) :=
        bind_eq_of_eq_ok (popMany_eq_ok m hbase.barrier htop)
      have hbody := h.sequence (scope.inside arity) body m args _
        (hbase.inside arity below)
      rw [bind_eq_of_eq_ok hopen]
      exact hbody.outOfBlock hbase.barrier
        (fun m' operands' =>
          h.block scope isLoop params results body m' operands' base hbase)
        scope.setting isLoop results

theorem call_succ
    (setting : Setting) (function : UInt32) (m : Machine) (operands : List Val)
    (base : Stack) (hbase : base.IsBarrier) :
    (Reference.call (fuel + 1) setting function m operands).Matches base
      (Engine.call (fuel + 1) setting function (m.on (base.pushAll operands))) := by
  have hsummon := (local_summon setting function).matches_alone m operands hbase
  rw [Engine.call_succ, Reference.call]
  cases hout : (summon setting function).alone m operands with
  | halt cause m' =>
      rw [hout] at hsummon
      exact hsummon.bind_eq_error
  | done summons operands' m' =>
      rw [hout] at hsummon
      rw [hsummon.bind_eq]
      cases summons with
      | host name program =>
          rw [serve, h.host]
          exact .ofHost hbase setting function name m' operands' _
      | body f arity params =>
          have hbody := h.sequence (.ofBody setting f arity) f.body
            { m' with locals := (params ++ f.locals.map Val.zero).toArray } [] _
            (Stack.frames_call arity (base.pushAll operands'))
          exact hbody.outOfBody hbase setting f.name m'.locals

theorem host_succ (context : ContextRef) (program : HostProgram) :
    runHost (fuel + 1) context program = Reference.host (fuel + 1) context program := by
  rw [runHost.eq_def, Reference.host.eq_def]
  cases program with
  | done | fail | stop => rfl
  | perform command next =>
      simp only [h.perform, h.host]
      rfl

theorem perform_succ (inherited : ContextRef) (command : Command) :
    Engine.perform (fuel + 1) inherited command = Reference.perform (fuel + 1) inherited
      command := by
  rw [Engine.perform_succ, Reference.perform]
  refine bind_congr fun request => ?_
  cases request with
  | answer response => rfl
  | invoke context function args purpose => rw [respond, h.invoke]

theorem invoke_succ (context : ContextRef) (function : UInt32) (args : List Val) :
    Engine.invoke (fuel + 1) context function args = Reference.invoke (fuel + 1) context
      function args := by
  rw [Engine.invoke_succ, Reference.invoke]
  refine bind_congr fun config => ?_
  funext session
  have hcall := h.call { config, context } function { session } args
    [] Stack.isBarrier_nil
  exact hcall.collected { config, context } function

end Agrees

/-- At every bound the interpreter and the reference evaluator agree. -/
theorem agrees (fuel : Nat) : Agrees fuel := by
  induction fuel with
  | zero => exact agrees_zero
  | succ fuel ih =>
      exact {
        instruction := ih.instruction_succ
        sequence := ih.sequence_succ
        block := ih.block_succ
        call := ih.call_succ
        host := ih.host_succ
        perform := ih.perform_succ
        invoke := ih.invoke_succ }

/-- The interpreter refines the reference evaluator.  Within every bound an invocation
on the one stack of operands, labels and activations has the results, the trap and the
session that it has where each piece of code runs on its own operands, or neither of
them has ended; and once one of them has ended, both have ended in this way within every
larger bound. -/
theorem invoke_refines_reference
    (context : ContextRef) (function : UInt32) (args : List Val) (s : Session)
    (fuel : Nat) :
    invoke fuel context function args s =
        Reference.invoke fuel context function args s ∧
      ∀ larger, fuel ≤ larger →
        SessionResult.Persists (Reference.invoke fuel context function args s)
          (invoke larger context function args s) := by
  constructor
  · rw [(agrees fuel).invoke]
  · intro larger hle
    rw [(agrees larger).invoke]
    exact Reference.persists_invoke context function args s hle

end Engine

/-- A module whose function adds up the numbers from its argument down to one.  The sum
is carried by a loop from one iteration to the next, and out of the block around it by
an exit of depth one. -/
def Module.summation : Module where
  types := [some ⟨[.i32], [.i32]⟩]
  functions := [0]
  code := [some ⟨[], [.const .i32 0, .block (some ⟨[.i32], [.i32]⟩)
    [.loop (some ⟨[.i32], [.i32]⟩)
      [.localGet 0, .binary (.int .w32 .add), .localGet 0, .const .i32 1,
        .binary (.int .w32 .sub), .localTee 0, .brTable [1] 0]]]⟩]

def Session.summation : Session :=
  (({ store := ({ features := .multiValue } : Config).newStore false } : Session).step 9
    (.instantiate (some .summation) "summation" [] .background)).2

/-- The numbers from four down to one are added up within twenty units, and the sum
stays what it is. -/
theorem Engine.summation_refines_reference :
    ∃ s', Reference.invoke 20 .background 0 [.ofU32 4] .summation = .ok [.ofU32 10] s' ∧
      ∀ larger, 20 ≤ larger → invoke larger .background 0 [.ofU32 4] .summation =
        .ok [.ofU32 10] s' := by
  have hruns : (match Reference.invoke 20 .background 0 [.ofU32 4] .summation with
      | .ok values _ => values == [.ofU32 10]
      | .error _ _ => false) = true := by decide +kernel
  generalize Session.summation = s, 20 = fuel at *
  have hrefines := invoke_refines_reference .background 0 [.ofU32 4] s fuel
  cases hresult : Reference.invoke fuel .background 0 [.ofU32 4] s with
  | error error s' =>
      rw [hresult] at hruns
      cases hruns
  | ok values s' =>
      rw [hresult] at hruns hrefines
      obtain rfl : values = [.ofU32 10] := eq_of_beq hruns
      refine ⟨s', rfl, ?_⟩
      intro larger hle
      obtain ⟨_, hexhausted⟩ | hlarger := hrefines.2 larger hle
      · cases hexhausted
      · exact hlarger

end WebAssembly
