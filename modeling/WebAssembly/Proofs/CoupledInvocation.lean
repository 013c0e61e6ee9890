import WebAssembly.Proofs.Lockstep

/-!
# Coupled invocations

What a caller sees of two runs that follow each other: the same results, or the same
error with the same backtrace.  Host programs belong to the runs; those that keep to
commands which do the same in both runs may be admitted.
-/

namespace WebAssembly

/-! ## Host programs that keep to some commands -/

/-- The program performs only such commands, and so do the host functions that it adds
to the store. -/
inductive HostProgram.Within (allowed : Command → Prop) : HostProgram → Prop
  | done {results} : HostProgram.Within allowed (.done results)
  | fail {error} : HostProgram.Within allowed (.fail error)
  | stop {cause} : HostProgram.Within allowed (.stop cause)
  | perform {command next} (hcommand : allowed command)
    (hadded : ∀ name type host, command = .allocFunction name type (some host) →
      ∀ params, HostProgram.Within allowed (host params))
    (hnext : ∀ response, HostProgram.Within allowed (next response)) :
    HostProgram.Within allowed (.perform command next)

namespace SessionResult

variable {α : Type} {Sessions : Session → Session → Prop}

theorem alike_ok
    {s s' : Session} (h : Sessions s s') (a : α) :
    Alike Sessions (.ok a s) (.ok a s') :=
  ⟨s, s', h, .inl ⟨a, rfl, rfl⟩⟩

theorem alike_error
    {s s' : Session} (h : Sessions s s') (error : Error) :
    Alike Sessions (.error error s : SessionResult α) (.error error s') :=
  ⟨s, s', h, .inr ⟨error, rfl, rfl⟩⟩

theorem Alike.mono
    {Sessions' : Session → Session → Prop} {result result' : SessionResult α}
    (h : Alike Sessions result result')
    (hmono : ∀ s s', Sessions s s' → Sessions' s s') :
    Alike Sessions' result result' := by
  obtain ⟨s, s', hsessions, hresult⟩ := h
  exact ⟨s, s', hmono s s' hsessions, hresult⟩

/-- A host program goes on in the same way after a command that has ended in the same
way. -/
theorem Alike.resume
    {result result' : SessionResult Response} (h : Alike Sessions result result')
    {run run' : HostProgram → Operation HostEnd} {next : Response → HostProgram}
    (hrun : ∀ response s s', Sessions s s' →
      Alike Sessions (run (next response) s) (run' (next response) s')) :
    Alike Sessions (Operation.resume run next result)
      (Operation.resume run' next result') := by
  obtain ⟨s, s', hsessions, ⟨response, rfl, rfl⟩ | ⟨error, rfl, rfl⟩⟩ := h
  · exact hrun response s s' hsessions
  · cases error with
    | exhausted => exact alike_error hsessions _
    | crash => exact alike_ok hsessions _
    | _ => exact hrun (.failed _) s s' hsessions

end SessionResult

namespace Coupling

variable {c : Coupling}

/-- A host program is admitted if each of its commands does the same in both runs. -/
theorem admits_of_within
    {allowed : Command → Prop}
    (hcommands : ∀ command, allowed command →
      (∀ name type host, command = .allocFunction name type (some host) → ∀ params,
        (host params).Within allowed) →
        ∀ fuel s s', c.Sessions s s' →
          SessionResult.Alike c.Sessions
            (Reference.perform fuel c.first.context command s)
            (Reference.perform fuel c.second.context command s'))
    {program : HostProgram} (hprogram : program.Within allowed) : c.Admits program := by
  induction hprogram with
  | done | fail | stop =>
      intro fuel s s' hsessions
      cases fuel with
      | zero => exact SessionResult.alike_error hsessions _
      | succ fuel => exact SessionResult.alike_ok hsessions _
  | perform hcommand hadded hnext _ ih =>
      intro fuel s s' hsessions
      cases fuel with
      | zero => exact SessionResult.alike_error hsessions _
      | succ fuel =>
          have hperform := hcommands _ hcommand hadded fuel s s' hsessions
          exact hperform.resume fun response => ih response fuel

/-! ## What a caller sees -/

/-- Both runs stay related when they log a trap, each as its own engine is told to. -/
def Logs (c : Coupling) : Prop :=
  ∀ {s s'} event, c.Sessions s s' →
    c.Sessions (if c.first.config.logging then s.observe event else s)
      (if c.second.config.logging then s'.observe event else s')

/-- If the operation traps, then for a cause that is common to both runs. -/
def Reports (c : Coupling) {α : Type} (result : SessionResult α) : Prop :=
  ∀ cause backtrace t, result = .error (.trap cause backtrace) t →
    c.Common (.trap cause)

theorem Alike.reports
    {α : Type} {P : α → Array String → Prop} {o o' : Outcome α}
    (halike : c.Alike P o o') :
    c.Reports (o.report c.first) := by
  intro cause backtrace t hreport
  cases halike with
  | done => cases hreport
  | @halt cause' _ _ hcommon _ =>
      cases cause' with
      | trap cause' =>
          obtain ⟨htrap, -⟩ := EStateM.Result.error.inj hreport
          obtain ⟨rfl, -⟩ := Error.trap.inj htrap
          exact hcommon
      | bug cause' => cases hreport
      | exhausted => cases hreport

theorem Alike.report
    {α : Type} {P : α → Array String → Prop} {o o' : Outcome α}
    (halike : c.Alike P o o') (hlogs : c.Logs) :
    SessionResult.Alike c.Sessions (o.report c.first) (o'.report c.second) := by
  cases halike with
  | done hrelated _ => exact SessionResult.alike_ok hrelated.sessions _
  | @halt cause m m' _ hhalted =>
      obtain ⟨steps, steps', hrelated⟩ := hhalted
      have hactive : m'.active = m.active := hrelated.active
      cases cause with
      | trap cause =>
          simp only [Outcome.report, hactive]
          exact SessionResult.alike_error (hlogs _ hrelated.sessions) _
      | bug cause => exact SessionResult.alike_error hrelated.sessions _
      | exhausted => exact SessionResult.alike_error hrelated.sessions _

/-- Two calls that follow each other are seen as the same, or the first one was cut
short. -/
theorem Follows.collected
    (h : c.IsValid) (hlogs : c.Logs) {active : Array String} {o o' : Outcome Unit}
    (hfollows : c.Follows active o.ending o'.ending) {function : UInt32}
    (hfunction : c.region (.function function)) :
    (∃ cause m, o = .halt cause m ∧ c.Cut cause m o'.machine.trace) ∨
      c.Reports (o.collected c.first function) ∧
        SessionResult.Alike c.Sessions (o.collected c.first function)
          (o'.collected c.second function) := by
  obtain hcut | halike := hfollows.outcome
  · exact .inl hcut
  · right
    cases halike with
    | halt hcommon hhalted =>
        have hhalt : c.Alike (fun (_ : List Val) _ => True) (.halt _ _) (.halt _ _) :=
          .halt hcommon hhalted
        exact ⟨hhalt.reports, hhalt.report hlogs⟩
    | @done a operands m m' hrelated _ =>
        have hcollect : c.Alike (fun _ names => True ∧ names = m.active)
            ((Exec.collect function).alone m operands)
              ((Exec.collect function).alone m' operands) := by
          apply h.alike_of_shared _ hrelated
          intro s s' W _ hshare
          exact Exec.shared_collect hshare hfunction
        exact ⟨hcollect.reports, hcollect.report hlogs⟩

end Coupling

theorem Outcome.collected_trap (setting : Setting) (function : UInt32)
    (cause : TrapCause) (m : Machine) :
    ∃ t, collected setting function (.halt (.trap cause) m) =
        .error (.trap cause m.active.toList.reverse) t ∧
      t.store = m.session.store := by
  refine ⟨_, rfl, ?_⟩
  split
  · rfl
  · rfl

/-! ## Sessions of two runs -/

def Store.withEngine (s : Store) (config : EngineConfig) : Store :=
  { s with engine := some config }

def Session.withEngine (s : Session) (config : EngineConfig) : Session :=
  s.withStore (s.store.withEngine config)

/-- The sessions have opened the same contexts, and the same ones are done. -/
structure Session.SameContexts (s s' : Session) : Prop where
  contexts : s'.contexts = s.contexts
  latest : s'.latest = s.latest

namespace Session.SameContexts

variable {s s' : Session} (h : s.SameContexts s')
include h

theorem doneReason (context : ContextRef) :
    s'.doneReason context = s.doneReason context := by
  cases context with
  | background => rfl
  | opened index => rw [Session.doneReason, Session.doneReason, h.contexts]

theorem cancel : s.cancel.SameContexts s'.cancel := by
  cases hlatest : s.latest with
  | none =>
      rw [Session.cancel, Session.cancel, h.latest, hlatest]
      exact h
  | some index =>
      have hcontexts := congrArg (·.modify index fun done =>
        some (done.getD .canceled)) h.contexts
      rw [Session.cancel, Session.cancel, h.latest, hlatest]
      exact ⟨hcontexts, rfl⟩

end Session.SameContexts

theorem Session.store_cancel (s : Session) : s.cancel.store = s.store := by
  unfold cancel
  split
  · rfl
  · rfl

/-! ## Invocations -/

/-- Why a function is not invoked with the given arguments, if it is not. -/
def Store.refusal (s : Store) (function : UInt32) (args : List Val) : Option Error :=
  match s.function function with
  | .error cause => some (.access cause)
  | .ok f =>
    match f.type with
    | none => some .crash
    | some type =>
      match checkArguments type args with
      | .error cause => some (.trap (.arguments cause) [f.name])
      | .ok () => none

theorem Store.refusal_congr
    {s s' : Store} {function : UInt32}
    (hfunction : s'.functions[function.toNat]? = s.functions[function.toNat]?)
    (args : List Val) :
    s'.refusal function args = s.refusal function args := by
  have hread : s'.function function = s.function function := Exec.lookup_congr hfunction
  unfold refusal
  rw [hread]

theorem Operation.accept_eq
    {s : Session} {config : EngineConfig} (hengine : s.store.engine = some config)
    (function : UInt32) (args : List Val) :
    accept function args s =
      match s.store.refusal function args with
      | some error => .error error s
      | none => .ok config s := by
  unfold accept Store.refusal
  have hget : (get : Operation Session) s = .ok s s := rfl
  have hpresent : present s.store.engine s = .ok config s := by
    rw [hengine]
    rfl
  rw [bind_eq_of_eq_ok hget, bind_eq_of_eq_ok hpresent]
  cases hread : s.store.function function with
  | error cause =>
      have hfail : read (·.function function) s = .error (.access cause) s := by
        simp only [read, hread]
      rw [bind_eq_of_eq_error hfail]
  | ok f =>
      have hfind : read (·.function function) s = .ok f s := by simp only [read, hread]
      rw [bind_eq_of_eq_ok hfind]
      cases htype : f.type with
      | none =>
          simp only [htype]
          rfl
      | some type =>
          have hknown : present (some type) s = .ok type s := rfl
          simp only [bind_eq_of_eq_ok hknown, htype]
          cases checkArguments type args with
          | error cause => rfl
          | ok => rfl

/-- An invocation in a session whose engine is known. -/
theorem Reference.invoke_succ_eq
    {s : Session} {config : EngineConfig} (hengine : s.store.engine = some config)
    (fuel : Nat) (context : ContextRef) (function : UInt32) (args : List Val) :
    invoke (fuel + 1) context function args s =
      match s.store.refusal function args with
      | some error => .error error s
      | none =>
        (call fuel { config, context } function { session := s } args).collected
          { config, context } function := by
  have haccept := Operation.accept_eq hengine function args
  rw [invoke]
  cases hrefusal : s.store.refusal function args with
  | some error =>
      rw [hrefusal] at haccept
      exact bind_eq_of_eq_error haccept
  | none =>
      rw [hrefusal] at haccept
      exact bind_eq_of_eq_ok haccept

namespace Coupling

variable {c : Coupling}

/-- The whole runs of a function in two related sessions, from their beginning. -/
theorem IsValid.invoke
    (h : c.IsValid) (hlogs : c.Logs) {s s' : Session} (hsessions : c.Sessions s s')
    (hclocks : c.Clocks ⟨0, []⟩ ⟨0, []⟩) {function : UInt32}
    (hfunction : c.region (.function function)) (args : List Val) (fuel : Nat) :
    (∃ cause m, Reference.call fuel c.first function { session := s } args =
        .halt cause m ∧
      c.Cut cause m (Reference.call fuel c.second function { session := s' }
        args).machine.trace) ∨
      c.Reports ((Reference.call fuel c.first function { session := s } args).collected
          c.first function) ∧
        SessionResult.Alike c.Sessions
          ((Reference.call fuel c.first function { session := s } args).collected
            c.first function)
          ((Reference.call fuel c.second function { session := s' } args).collected
            c.second function) := by
  have hrelated : c.Related { session := s } { session := s' } :=
    { sessions := hsessions
      locals := rfl
      active := rfl
      clocks := hclocks }
  exact ((h.holds fuel).call function _ _ args hfunction hrelated).collected h
    hlogs hfunction

end Coupling
end WebAssembly
