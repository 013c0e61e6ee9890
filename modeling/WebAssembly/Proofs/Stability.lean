import WebAssembly.Proofs.Reference

/-!
# A larger bound changes no finished evaluation

The bound on the length of an evaluation only decides whether it is finished.  Where the
reference evaluator is not exhausted, it gives the same at every larger bound, and so an
evaluation has at most one result.
-/

namespace WebAssembly

/-! ## Results that a larger bound keeps -/

/-- The code has not ended within its bound, or it ends in the same way within a larger
one. -/
def Ending.Persists (p q : Ending × Machine) : Prop :=
  p.1 = .halt .exhausted ∨ q = p

/-- The step has not ended within its bound, or it ends in the same way within a larger
one. -/
def Outcome.Persists {α : Type} (o o' : Outcome α) : Prop :=
  (∃ m, o = .halt .exhausted m) ∨ o' = o

namespace SessionResult

variable {α β : Type}

/-- The bound was reached. -/
def IsExhausted (result : SessionResult α) : Prop :=
  ∃ s, result = .error .exhausted s

/-- The operation has not ended within its bound, or it ends in the same way within a
larger one. -/
def Persists (result result' : SessionResult α) : Prop :=
  result.IsExhausted ∨ result' = result

theorem Persists.trans
    {first second third : SessionResult α} (h : first.Persists second)
    (h' : second.Persists third) :
    first.Persists third := by
  obtain h | rfl := h
  · exact .inl h
  · exact h'

theorem persists_bind
    {operation : Operation α} {f g : α → Operation β}
    (h : ∀ a s, Persists (f a s) (g a s)) (s : Session) :
    Persists ((operation >>= f) s) ((operation >>= g) s) := by
  simp only [Bind.bind, EStateM.bind]
  cases operation s with
  | ok a s' => exact h a s'
  | error error s' => exact .inr rfl

theorem Persists.conclude
    {result result' : SessionResult (List Val)} (h : result.Persists result')
    (purpose : Purpose) :
    Persists (Operation.conclude purpose result)
      (Operation.conclude purpose result') := by
  obtain ⟨s, rfl⟩ | rfl := h
  · refine .inl ⟨s, ?_⟩
    cases purpose <;> rfl
  · exact .inr rfl

theorem Persists.resume
    {result result' : SessionResult Response} (h : result.Persists result')
    {run run' : HostProgram → Operation HostEnd}
    (hrun : ∀ program s, Persists (run program s) (run' program s))
    (next : Response → HostProgram) :
    Persists (Operation.resume run next result)
      (Operation.resume run' next result') := by
  obtain ⟨s, rfl⟩ | rfl := h
  · exact .inl ⟨s, rfl⟩
  · cases result' with
    | ok response s => exact hrun (next response) s
    | error error s =>
        cases error with
        | exhausted => exact .inl ⟨s, rfl⟩
        | crash => exact .inr rfl
        | _ => exact hrun (next (.failed _)) s

end SessionResult

/-! ## What the evaluator is built from -/

namespace Ending.Persists

variable {p q : Ending × Machine} (h : Persists p q)
  {again again' : Machine → List Val → Ending × Machine}
include h

theorem andThen
    (hagain : ∀ m operands, Persists (again m operands) (again' m operands)) :
    Persists (Ending.andThen again p) (Ending.andThen again' q) := by
  obtain ⟨ending, m⟩ := p
  obtain rfl | rfl := h
  · exact .inl rfl
  · cases ending with
    | normal operands => exact hagain m operands
    | branch | ret | halt => exact .inr rfl

/-- A structured instruction waits for its body and, if it is a loop, for its next
iteration. -/
theorem outOfBlock
    (hagain : ∀ m operands, Persists (again m operands) (again' m operands))
    (setting : Setting) (isLoop : Bool) (results : Nat) (below : List Val) :
    Persists (Ending.outOfBlock setting isLoop results below again p)
      (Ending.outOfBlock setting isLoop results below again' q) := by
  obtain ⟨ending, m⟩ := p
  obtain rfl | rfl := h
  · exact .inl rfl
  · cases ending with
    | normal | ret | halt => exact .inr rfl
    | branch depth carried =>
        cases depth with
        | succ depth => exact .inr rfl
        | zero =>
            by_cases hloop : isLoop
            · simp only [Ending.outOfBlock, if_pos hloop]
              cases (Exec.restart setting).alone m (below ++ carried) with
              | done a operands m' => exact hagain m' operands
              | halt cause m' => exact .inr rfl
            · simp only [Ending.outOfBlock, if_neg hloop]
              exact .inr rfl

theorem outOfBody (setting : Setting) (function : String) (arity : Nat)
    (locals : Array Val) (operands : List Val) :
    Outcome.Persists (Ending.outOfBody setting function arity locals operands p)
      (Ending.outOfBody setting function arity locals operands q) := by
  obtain ⟨ending, m⟩ := p
  obtain rfl | rfl := h
  · exact .inl ⟨m, rfl⟩
  · exact .inr rfl

end Ending.Persists

namespace Outcome

theorem Persists.ending
    {o o' : Outcome Unit} (h : o.Persists o') : Ending.Persists o.ending o'.ending := by
  obtain ⟨m, rfl⟩ | rfl := h
  · exact .inl rfl
  · exact .inr rfl

theorem persists_ofHost
    {result result' : SessionResult HostEnd} (h : result.Persists result')
    (setting : Setting) (function : UInt32) (name : String) (m : Machine)
    (operands : List Val) :
    Persists (ofHost setting function name m operands result)
      (ofHost setting function name m operands result') := by
  obtain ⟨s, rfl⟩ | rfl := h
  · exact .inl ⟨{ m with session := s }, rfl⟩
  · exact .inr rfl

theorem Persists.collected
    {o o' : Outcome Unit} (h : o.Persists o') (setting : Setting) (function : UInt32) :
    (o.collected setting function).Persists (o'.collected setting function) := by
  obtain ⟨m, rfl⟩ | rfl := h
  · exact .inl ⟨m.session, rfl⟩
  · exact .inr rfl

end Outcome

/-! ## The evaluator -/

namespace Reference

open Exec

/-- One more unit of the bound changes nothing that was finished. -/
structure Stable (fuel : Nat) : Prop where
  instruction : ∀ scope instr m operands,
    Ending.Persists (instruction fuel scope instr m operands)
      (instruction (fuel + 1) scope instr m operands)
  sequence : ∀ scope body m operands,
    Ending.Persists (sequence fuel scope body m operands)
      (sequence (fuel + 1) scope body m operands)
  block : ∀ scope isLoop params results body m operands,
    Ending.Persists (block fuel scope isLoop params results body m operands)
      (block (fuel + 1) scope isLoop params results body m operands)
  call : ∀ setting function m operands,
    Outcome.Persists (call fuel setting function m operands)
      (call (fuel + 1) setting function m operands)
  host : ∀ context program s,
    SessionResult.Persists (host fuel context program s)
      (host (fuel + 1) context program s)
  perform : ∀ inherited command s,
    SessionResult.Persists (perform fuel inherited command s)
      (perform (fuel + 1) inherited command s)
  invoke : ∀ context function args s,
    SessionResult.Persists (invoke fuel context function args s)
      (invoke (fuel + 1) context function args s)

theorem stable_zero : Stable 0 where
  instruction := fun _ _ _ _ => .inl rfl
  sequence := fun _ _ _ _ => .inl rfl
  block := fun _ _ _ _ _ _ _ => .inl rfl
  call := fun _ _ m _ => .inl ⟨m, rfl⟩
  host := fun _ _ s => .inl ⟨s, rfl⟩
  perform := fun _ _ s => .inl ⟨s, rfl⟩
  invoke := fun _ _ _ s => .inl ⟨s, rfl⟩

namespace Stable

variable {fuel : Nat} (h : Stable fuel)
include h

theorem instruction_succ (scope : Scope) (instr : Instr) (m : Machine)
    (operands : List Val) :
    Ending.Persists (Reference.instruction (fuel + 1) scope instr m operands)
      (Reference.instruction (fuel + 1 + 1) scope instr m operands) := by
  rw [Reference.instruction, Reference.instruction]
  cases (dispatch scope.setting scope.module instr).alone m operands with
  | halt cause m' => exact .inr rfl
  | done transfer operands' m' =>
      cases transfer with
      | next | branch | ret => exact .inr rfl
      | enter isLoop params results body =>
          exact h.block scope isLoop params results body m' operands'
      | call function => exact (h.call scope.setting function m' operands').ending

theorem sequence_succ (scope : Scope) (body : List Instr) (m : Machine)
    (operands : List Val) :
    Ending.Persists (Reference.sequence (fuel + 1) scope body m operands)
      (Reference.sequence (fuel + 1 + 1) scope body m operands) := by
  cases body with
  | nil => exact .inr rfl
  | cons instr rest =>
      exact (h.instruction scope instr m operands).andThen (h.sequence scope rest)

theorem block_succ (scope : Scope) (isLoop : Bool) (params results : Nat)
    (body : List Instr) (m : Machine) (operands : List Val) :
    Ending.Persists (Reference.block (fuel + 1) scope isLoop params results
      body m operands)
      (Reference.block (fuel + 1 + 1) scope isLoop params results body m operands) := by
  rw [Reference.block, Reference.block]
  cases topmost params operands with
  | none => exact .inr rfl
  | some parts =>
      exact (h.sequence _ body m parts.2).outOfBlock
        (h.block scope isLoop params results body) scope.setting isLoop
        results parts.1

theorem call_succ (setting : Setting) (function : UInt32) (m : Machine)
    (operands : List Val) :
    Outcome.Persists (Reference.call (fuel + 1) setting function m operands)
      (Reference.call (fuel + 1 + 1) setting function m operands) := by
  rw [Reference.call, Reference.call]
  cases (summon setting function).alone m operands with
  | halt cause m' => exact .inr rfl
  | done summons operands' m' =>
      cases summons with
      | host name program =>
          exact Outcome.persists_ofHost (h.host setting.context program m'.session)
            setting function name m' operands'
      | body f arity params =>
          exact (h.sequence _ f.body _ []).outOfBody setting f.name arity
            m'.locals operands'

theorem host_succ (context : ContextRef) (program : HostProgram) (s : Session) :
    SessionResult.Persists (Reference.host (fuel + 1) context program s)
      (Reference.host (fuel + 1 + 1) context program s) := by
  cases program with
  | done | fail | stop => exact .inr rfl
  | perform command next =>
      exact (h.perform context command s).resume (h.host context) next

theorem perform_succ (inherited : ContextRef) (command : Command) (s : Session) :
    SessionResult.Persists (Reference.perform (fuel + 1) inherited command s)
      (Reference.perform (fuel + 1 + 1) inherited command s) := by
  refine SessionResult.persists_bind ?_ s
  intro request s'
  cases request with
  | answer response => exact .inr rfl
  | invoke context function args purpose =>
      exact (h.invoke context function args s').conclude purpose

theorem invoke_succ (context : ContextRef) (function : UInt32) (args : List Val)
    (s : Session) :
    SessionResult.Persists (Reference.invoke (fuel + 1) context function args s)
      (Reference.invoke (fuel + 1 + 1) context function args s) := by
  refine SessionResult.persists_bind ?_ s
  intro config session
  exact (h.call { config, context } function { session } args).collected
    { config, context } function

end Stable

theorem stable (fuel : Nat) : Stable fuel := by
  induction fuel with
  | zero => exact stable_zero
  | succ fuel ih =>
      exact {
        instruction := ih.instruction_succ
        sequence := ih.sequence_succ
        block := ih.block_succ
        call := ih.call_succ
        host := ih.host_succ
        perform := ih.perform_succ
        invoke := ih.invoke_succ }

/-- An invocation that has ended within a bound ends in the same way within every larger
one. -/
theorem persists_invoke
    (context : ContextRef) (function : UInt32) (args : List Val) (s : Session)
    {fuel larger : Nat} (hle : fuel ≤ larger) :
    SessionResult.Persists (invoke fuel context function args s)
      (invoke larger context function args s) := by
  induction hle with
  | refl => exact .inr rfl
  | step _ ih => exact ih.trans ((stable _).invoke context function args s)

end Reference
end WebAssembly
