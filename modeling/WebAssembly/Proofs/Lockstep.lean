import WebAssembly.Proofs.Coupling
import WebAssembly.Proofs.Refinement

/-!
# Coupled evaluations

Where single steps are coupled, so are whole evaluations: they end in the same way, or
halt for a common cause, or the first one is cut short.  Each construct has a law of its
own for the ends of its parts, and one induction on the bound puts them together.  A run
beside itself is the simplest instance; it shows what every run keeps.
-/

namespace WebAssembly

/-! ## How a body ends -/

/-- The code of a body leaves for no label but the outermost one, and carries the
results of the function with it where it leaves. -/
def Ending.EndsBody (arity : Nat) : Ending → Prop
  | .branch depth carried => depth = 0 ∧ carried.length = arity
  | .ret results => results.length = arity
  | .normal _ | .halt _ => True

namespace Reference

theorem endsBody_sequence (fuel : Nat) (setting : Setting) (f : FuncInst) (arity : Nat)
    (m : Machine) :
    (sequence fuel (.ofBody setting f arity) f.body m []).1.EndsBody arity := by
  have hframes := Stack.frames_call arity []
  have hmatches := (Engine.agrees fuel).sequence (.ofBody setting f arity) f.body m
    [] _ hframes
  cases hend : sequence fuel (.ofBody setting f arity) f.body m [] with
  | mk ending m' =>
      rw [hend] at hmatches
      cases ending with
      | normal | halt => trivial
      | branch depth carried =>
          obtain ⟨below, hfind, -⟩ := hmatches
          cases depth with
          | zero => exact ⟨rfl, ((Prod.mk.inj (Except.ok.inj (hfind 0))).1).symm⟩
          | succ depth => cases (hframes.outside (depth + 1) rfl 0).symm.trans (hfind 0)
      | ret results =>
          obtain ⟨below, hfind, -⟩ := hmatches
          exact ((Prod.mk.inj (Option.some.inj hfind)).1).symm

end Reference

/-- How a body can fail to give results once it has ended. -/
theorem Ending.EndsBody.results_eq_error
    {arity : Nat} {ending : Ending} (h : ending.EndsBody arity) {function : String}
    {cause : Abort} (herror : ending.results function arity = .error cause) :
    ending = .halt cause ∨ cause = .bug .noValue := by
  cases ending with
  | normal operands =>
      cases htop : topmost arity operands with
      | none =>
          simp only [results, htop] at herror
          exact .inr (Except.error.inj herror).symm
      | some parts =>
          simp only [results, htop] at herror
          cases herror
  | branch depth carried =>
      obtain ⟨rfl, -⟩ := h
      cases herror
  | ret results => cases herror
  | halt cause' => exact .inl (congrArg halt (Except.error.inj herror))

theorem Ending.EndsBody.length_results
    {arity : Nat} {ending : Ending} (h : ending.EndsBody arity) {function : String}
    {values : List Val} (hok : ending.results function arity = .ok values) :
    values.length = arity := by
  cases ending with
  | normal operands =>
      cases htop : topmost arity operands with
      | none =>
          simp only [results, htop] at hok
          cases hok
      | some parts =>
          simp only [results, htop] at hok
          rw [← Except.ok.inj hok]
          exact (topmost_eq_some htop).1
  | branch depth carried =>
      obtain ⟨rfl, hlength⟩ := h
      rw [← Except.ok.inj hok]
      exact hlength
  | ret results =>
      rw [← Except.ok.inj hok]
      exact h
  | halt cause => cases hok

/-! ## Steps on their own operands -/

def Outcome.machine {α : Type} : Outcome α → Machine
  | .done _ _ m | .halt _ m => m

theorem Setting.suffix_note (setting : Setting) (moment : Moment) (s : Session)
    (trace : List (Moment × Session)) :
    trace <:+ setting.note moment s trace := by
  unfold note
  split
  · exact List.suffix_cons _ _
  · exact List.suffix_rfl

theorem Exec.restart_alone (setting : Setting) (m : Machine) (operands : List Val) :
    (restart setting).alone m operands =
      match setting.interruption m.session with
      | some reason => .halt (.trap (.contextDone reason)) m
      | none => .done () operands (m.noted setting .restarted) := by
  have hcheck := checkInterrupt_on setting m (Stack.pushAll [] operands)
  cases hreason : setting.interruption m.session with
  | some reason =>
      rw [hreason] at hcheck
      rw [alone, restart, bind_eq_of_eq_error hcheck]
      rfl
  | none =>
      rw [hreason] at hcheck
      rw [alone, restart, bind_eq_of_eq_ok hcheck, record_on]
      simp only [Machine.stack_on, Machine.machine_on, Stack.operands_pushAll]
      rfl

theorem Exec.exit_alone (setting : Setting) (m : Machine) (operands : List Val) :
    (exit setting).alone m operands =
      .done () operands (Machine.noted { m with
        active := m.active.pop } setting .left) := by
  have hexit : exit setting (m.on (Stack.pushAll [] operands)) =
      record setting .left (Machine.on { m with
        active := m.active.pop } (Stack.pushAll [] operands)) := rfl
  rw [alone, hexit, record_on]
  simp only [Machine.stack_on, Machine.machine_on, Stack.operands_pushAll]
  rfl

theorem Exec.dispatch_alone (setting : Setting) (module : UInt32) (instr : Instr)
    (m : Machine) (operands : List Val) :
    (dispatch setting module instr).alone m operands =
      if setting.Spent (setting.tick m.steps) then
        .halt (.trap .stepBudget) (m.ticked setting)
      else (transfer module instr).alone ((m.ticked setting).noted setting
        (.dispatched instr)) operands := by
  have hcount := countStep_on setting m (Stack.pushAll [] operands)
  by_cases hspent : setting.Spent (setting.tick m.steps)
  · rw [if_pos hspent] at hcount ⊢
    rw [alone, dispatch, bind_eq_of_eq_error hcount]
    rfl
  · rw [if_neg hspent] at hcount ⊢
    rw [alone, dispatch, bind_eq_of_eq_ok hcount, bind_eq_of_eq_ok (record_on ..)]
    rfl

namespace Coupling

variable {c : Coupling} {α : Type} {active : Array String}

/-- Both steps were done with the same value and the same operands, or halted for a
common cause. -/
inductive Alike (c : Coupling) (P : α → Array String → Prop) :
    Outcome α → Outcome α → Prop
  | done {a operands m m'} :
    c.Related m m' → P a m.active → Alike c P (.done a operands m) (.done a operands m')
  | halt {cause m m'} : c.Common cause → c.Halted m m' →
    Alike c P (.halt cause m) (.halt cause m')

theorem Pairs.alone
    {P : α → Array String → Prop} {x y : Exec α} (hx : c.Pairs active P x y)
    {m m' : Machine} (hrelated : c.Related m m') (hactive : m.active = active)
    (operands : List Val) :
    (∃ cause n, x.alone m operands = .halt cause n ∧ ∀ trace, c.Cut cause n trace) ∨
      c.Alike P (x.alone m operands) (y.alone m' operands) := by
  unfold Exec.alone
  obtain ⟨a, n, n', stack', hrelated', ha, hx, hy⟩ | ⟨cause, n, n', stack', hcommon,
      hhalted, hx, hy⟩ |
    ⟨cause, n, stack', hcut, hx⟩ := hx m m' (Stack.pushAll [] operands) hrelated hactive
  · rw [hx, hy]
    exact .inr (.done hrelated' ha)
  · rw [hx, hy]
    exact .inr (.halt hcommon hhalted)
  · rw [hx]
    exact .inl ⟨cause, n, rfl, hcut⟩

namespace IsSteady

variable (h : c.IsSteady)
include h

theorem alike_of_shared
    {P : α → Prop} {x : Exec α}
    (hx : ∀ s s' W, c.Sessions s s' → Sharing c.region s.store W → Exec.Shared W P x)
    {m m' : Machine} (hrelated : c.Related m m') (operands : List Val) :
    c.Alike (fun a names => P a ∧ names = m.active) (x.alone m operands)
      (x.alone m' operands) := by
  unfold Exec.alone
  obtain ⟨n, n', stack', hrelated', hactive, ⟨a, ha, hok, hok'⟩ | ⟨cause, hcommon,
      herror, herror'⟩⟩ :=
    h.shared_step hx hrelated (Stack.pushAll [] operands)
  · rw [hok, hok']
    exact .done hrelated' ⟨ha, hactive⟩
  · rw [herror, herror']
    exact .halt hcommon hrelated'.halted

/-- An instruction keeps the trace once it was recorded. -/
theorem trace_transfer
    {module : UInt32} (hmodule : c.region (.module module)) (instr : Instr)
    {m m' : Machine} (hrelated : c.Related m m') (n' : Machine)
    (hsession : n'.session = m'.session) (operands : List Val) :
    ((Exec.transfer module instr).alone n' operands).machine.trace = n'.trace := by
  obtain ⟨W, hshare, hW, -⟩ := h.sharing hrelated.sessions
  rw [← hsession] at hW
  have hstep := Exec.shared_transfer hshare hmodule instr { m with
    locals := n'.locals } n' (Stack.pushAll [] operands)
    hW rfl
  unfold Exec.alone
  obtain ⟨_, _, _, _, -, ⟨a, -, -, hok⟩ | ⟨cause, -, -, herror⟩⟩ := hstep
  · rw [hok]
    rfl
  · rw [herror]
    rfl

theorem dispatch
    {module : UInt32} (hmodule : c.region (.module module)) (instr : Instr)
    {m m' : Machine} (hrelated : c.Related m m') (operands : List Val) :
    (∃ cause n, (Exec.dispatch c.first module instr).alone m operands = .halt cause n ∧
      c.Cut cause n ((Exec.dispatch c.second module instr).alone m'
        operands).machine.trace) ∨
      c.Alike (fun transfer names => transfer.Within c.region ∧ names = m.active)
        ((Exec.dispatch c.first module instr).alone m operands)
        ((Exec.dispatch c.second module instr).alone m' operands) := by
  rw [Exec.dispatch_alone, Exec.dispatch_alone]
  by_cases hfirst : c.first.Spent (c.first.tick m.steps)
  · rw [if_pos hfirst]
    obtain ⟨hsecond, hcommon⟩ | ⟨hsecond, hcut⟩ := h.spent instr hrelated hfirst
    · rw [if_pos hsecond]
      exact .inr (.halt hcommon ⟨m.steps, m'.steps, hrelated⟩)
    · rw [if_neg hsecond]
      have htrace := h.trace_transfer hmodule instr hrelated
        ((m'.ticked c.second).noted c.second (.dispatched instr)) rfl operands
      refine .inl ⟨_, _, rfl, ?_⟩
      rw [htrace]
      exact hcut
  · obtain ⟨hsecond, hclocks⟩ := h.count instr hrelated hfirst
    rw [if_neg hfirst, if_neg hsecond]
    have hrelated' : c.Related ((m.ticked c.first).noted c.first (.dispatched instr))
        ((m'.ticked c.second).noted c.second (.dispatched instr)) :=
      { sessions := hrelated.sessions
        locals := hrelated.locals
        active := hrelated.active
        clocks := hclocks }
    refine .inr (h.alike_of_shared ?_ hrelated' operands)
    intro s s' W _ hshare
    exact Exec.shared_transfer hshare hmodule instr

end IsSteady

/-! ## How code ends in both runs -/

/-- Both pieces of code have ended in the same way, with the given functions active; or
they halted for a common cause; or the first one was cut short. -/
inductive Follows (c : Coupling) (active : Array String) :
    Ending × Machine → Ending × Machine → Prop
  | same {ending m m'} :
      (∀ cause, ending ≠ .halt cause) → c.Related m m' → m.active = active →
    Follows c active (ending, m) (ending, m')
  | halt {cause m m'} : c.Common cause → c.Halted m m' →
    Follows c active (.halt cause, m) (.halt cause, m')
  | cut {cause m} {q : Ending × Machine} : c.Cut cause m q.2.trace →
    Follows c active (.halt cause, m) q

end Coupling

/-- If the code halts, then for an ordinary cause. -/
def Ending.IsOrdinary : Ending → Prop
  | .halt cause => cause.IsOrdinary
  | _ => True

theorem Scope.isOrdinary_branch (scope : Scope) (label : UInt32) (operands : List Val) :
    (scope.branch label operands).IsOrdinary := by
  unfold branch
  split
  · trivial
  · split
    · trivial
    · trivial

theorem Scope.isOrdinary_ret (scope : Scope) (operands : List Val) :
    (scope.ret operands).IsOrdinary := by
  unfold ret
  split
  · trivial
  · trivial

theorem Ending.isOrdinary_fallThrough (results : Nat) (below operands : List Val) :
    (fallThrough results below operands).IsOrdinary := by
  unfold fallThrough
  split
  · trivial
  · trivial
  · trivial

namespace Ending

/-- A structured instruction that goes on only adds to the trace of its body. -/
theorem trace_outOfBlock
    (setting : Setting) (isLoop : Bool) (results : Nat) (below : List Val)
    {again : Machine → List Val → Ending × Machine}
    (hagain : ∀ m operands, m.trace <:+ (again m operands).2.trace)
    (p : Ending × Machine) :
    p.2.trace <:+ (outOfBlock setting isLoop results below again p).2.trace := by
  obtain ⟨ending, m⟩ := p
  cases ending with
  | normal | ret | halt => exact List.suffix_rfl
  | branch depth carried =>
      cases depth with
      | succ depth => exact List.suffix_rfl
      | zero =>
          by_cases hloop : isLoop
          · simp only [outOfBlock, if_pos hloop, Exec.restart_alone]
            cases setting.interruption m.session with
            | some reason => exact List.suffix_rfl
            | none =>
                have hnext := hagain (m.noted setting .restarted) (below ++ carried)
                exact (setting.suffix_note .restarted m.session m.trace).trans hnext
          · simp only [outOfBlock, if_neg hloop]
            exact List.suffix_rfl

/-- A call that goes on only adds to the trace of its body. -/
theorem trace_outOfBody (setting : Setting) (function : String) (arity : Nat)
    (locals : Array Val) (operands : List Val) (p : Ending × Machine) :
    p.2.trace <:+ (outOfBody setting function arity locals operands
      p).ending.2.trace := by
  obtain ⟨ending, m⟩ := p
  rw [outOfBody]
  cases ending.results function arity with
  | error cause => exact List.suffix_rfl
  | ok results =>
      simp only [Exec.exit_alone]
      exact setting.suffix_note .left m.session m.trace

end Ending

namespace Coupling

variable {c : Coupling} (h : c.IsValid) {active : Array String}
include h

theorem IsValid.follows_of_isOrdinary
    {ending : Ending} (hending : ending.IsOrdinary) {m m' : Machine}
    (hrelated : c.Related m m') (hactive : m.active = active) :
    c.Follows active (ending, m) (ending, m') := by
  cases ending with
  | halt cause => exact .halt (h.ordinary hending) hrelated.halted
  | normal | branch | ret => exact .same (fun _ => Ending.noConfusion) hrelated hactive

omit h in
/-- The end of a step without a value of its own. -/
theorem Alike.follows
    {o o' : Outcome Unit} (halike : c.Alike (Stays active) o o') :
    c.Follows active o.ending o'.ending := by
  cases halike with
  | done hrelated hactive => exact .same (fun _ => Ending.noConfusion) hrelated hactive
  | halt hcommon hhalted => exact .halt hcommon hhalted

omit h in
theorem Follows.outcome
    {o o' : Outcome Unit} (hends : c.Follows active o.ending o'.ending) :
    (∃ cause m, o = .halt cause m ∧ c.Cut cause m o'.machine.trace) ∨
      c.Alike (Stays active) o o' := by
  have htrace : o'.ending.2.trace = o'.machine.trace := by
    cases o' with
    | done | halt => rfl
  generalize hp : o.ending = p, hq : o'.ending = q at hends htrace
  cases hends with
  | cut hcut =>
      cases o with
      | done => cases hp
      | halt cause m =>
          cases hp
          exact .inl ⟨_, _, rfl, htrace ▸ hcut⟩
  | halt hcommon hhalted =>
      cases o with
      | done => cases hp
      | halt cause m =>
          cases o' with
          | done => cases hq
          | halt cause' m' =>
              cases hp
              cases hq
              exact .inr (.halt hcommon hhalted)
  | same hending hrelated hactive =>
      cases o with
      | halt cause m =>
          cases hp
          exact absurd rfl (hending cause)
      | done a operands m =>
          cases o' with
          | halt cause m' =>
              cases hp
              cases hq
          | done a' operands' m' =>
              cases hp
              cases hq
              exact .inr (.done hrelated hactive)

namespace Follows

variable {p q : Ending × Machine} (hends : c.Follows active p q)
include hends

theorem andThen
    {next next' : Machine → List Val → Ending × Machine}
    (hnext : ∀ m m' operands, c.Related m m' → m.active = active →
      c.Follows active (next m operands) (next' m' operands))
    (hgrows : Reference.Grows c.second → ∀ m operands,
      m.trace <:+ (next' m operands).2.trace) :
    c.Follows active (Ending.andThen next p) (Ending.andThen next' q) := by
  cases hends with
  | halt hcommon hhalted => exact .halt hcommon hhalted
  | @same ending m m' hending hrelated hactive =>
      cases ending with
      | normal operands => exact hnext m m' operands hrelated hactive
      | branch | ret => exact .same hending hrelated hactive
      | halt cause => exact absurd rfl (hending cause)
  | cut hcut =>
      obtain ⟨ending, m'⟩ := q
      cases ending with
      | normal operands => exact .cut (h.later hcut (hgrows (h.grows hcut) m' operands))
      | branch | ret | halt => exact .cut hcut

theorem outOfBlock
    {again again' : Machine → List Val → Ending × Machine}
    (hagain : ∀ m m' operands, c.Related m m' → m.active = active →
      c.Follows active (again m operands) (again' m' operands))
    (hgrows : Reference.Grows c.second → ∀ m operands,
      m.trace <:+ (again' m operands).2.trace) (isLoop : Bool)
    (results : Nat) (below : List Val) :
    c.Follows active (Ending.outOfBlock c.first isLoop results below again p)
      (Ending.outOfBlock c.second isLoop results below again' q) := by
  cases hends with
  | halt hcommon hhalted => exact .halt hcommon hhalted
  | cut hcut =>
      have htrace := Ending.trace_outOfBlock c.second isLoop results below
        (hgrows (h.grows hcut)) q
      exact .cut (h.later hcut htrace)
  | @same ending m m' hending hrelated hactive =>
      cases ending with
      | halt cause => exact absurd rfl (hending cause)
      | ret => exact .same hending hrelated hactive
      | normal operands =>
          exact h.follows_of_isOrdinary (Ending.isOrdinary_fallThrough results below
            operands) hrelated hactive
      | branch depth carried =>
          cases depth with
          | succ depth => exact .same (fun _ => Ending.noConfusion) hrelated hactive
          | zero =>
              by_cases hloop : isLoop
              · simp only [Ending.outOfBlock, if_pos hloop]
                obtain ⟨cause, n, hhalt, hcut⟩ | halike :=
                  h.pairs_restart.alone hrelated hactive (below ++ carried)
                · rw [hhalt]
                  exact .cut (hcut _)
                · generalize (Exec.restart c.first).alone m (below ++ carried) =
                    o at halike
                  generalize (Exec.restart c.second).alone m' (below ++ carried) =
                    o' at halike
                  cases halike with
                  | done hrelated' hactive' => exact hagain _ _ _ hrelated' hactive'
                  | halt hcommon hhalted => exact .halt hcommon hhalted
              · simp only [Ending.outOfBlock, if_neg hloop]
                exact .same (fun _ => Ending.noConfusion) hrelated hactive

end Follows

/-- The results of a body are put above the operands of the caller in both runs. -/
theorem Follows.outOfBody
    {p q : Ending × Machine} {inner : Array String} (hends : c.Follows inner p q)
    {name : String} (hinner : inner = active.push name) {arity : Nat}
    (hbody : p.1.EndsBody arity) (locals : Array Val) (operands : List Val) :
    c.Follows active (Ending.outOfBody c.first name arity locals operands p).ending
      (Ending.outOfBody c.second name arity locals operands q).ending := by
  subst hinner
  cases hends with
  | halt hcommon hhalted => exact .halt hcommon hhalted
  | cut hcut =>
      exact .cut (h.later hcut (Ending.trace_outOfBody c.second name arity locals
        operands q))
  | @same ending m m' hending hrelated hactive =>
      rw [Ending.outOfBody, Ending.outOfBody]
      cases hresults : ending.results name arity with
      | error cause =>
          have hcause : cause = .bug .noValue :=
            (hbody.results_eq_error hresults).resolve_left (hending cause)
          rw [hcause]
          exact .halt (h.ordinary trivial) hrelated.halted
      | ok results =>
          have hrelated' : c.Related { m with locals } { m' with locals } :=
            { sessions := hrelated.sessions
              locals := rfl
              active := hrelated.active
              clocks := hrelated.clocks }
          obtain ⟨cause, n, hhalt, hcut⟩ | halike :=
            (h.pairs_exit name).alone hrelated' hactive (operands ++ results)
          · simp only [hhalt]
            exact .cut (hcut _)
          · exact halike.follows

theorem IsValid.follows_ofHost
    {m m' : Machine} (hrelated : c.Related m m') {name : String}
    (hactive : m.active = active.push name) {result result' : SessionResult HostEnd}
    (hresult : result.Alike c.Sessions result') {function : UInt32}
    (hfunction : c.region (.function function)) (operands : List Val) :
    c.Follows active (Outcome.ofHost c.first function name m operands result).ending
      (Outcome.ofHost c.second function name m' operands result').ending := by
  obtain ⟨s, s', hsessions, ⟨hostEnd, rfl, rfl⟩ | ⟨error, rfl, rfl⟩⟩ := hresult
  all_goals
    have hrelated' : c.Related { m with session := s } { m' with session := s' } :=
      { sessions := hsessions
        locals := hrelated.locals
        active := hrelated.active
        clocks := hrelated.clocks }
  · obtain ⟨cause, n, hhalt, hcut⟩ | halike :=
      (h.pairs_finishCall hfunction name hostEnd).alone hrelated' hactive operands
    · rw [Outcome.ofHost, hhalt]
      exact .cut (hcut _)
    · exact halike.follows
  · refine .halt ?_ hrelated'.halted
    cases error with
    | exhausted => exact h.exhausted
    | _ => exact h.ordinary trivial

end Coupling

/-! ## Whole evaluations -/

def Scope.under (scope : Scope) (setting : Setting) : Scope :=
  { scope with setting }

namespace Coupling

variable {c : Coupling}

/-- At the given bound, evaluations in the two runs follow each other. -/
structure Holds (c : Coupling) (fuel : Nat) : Prop where
  instruction : ∀ (scope : Scope) instr m m' operands, c.region (.module scope.module) →
    c.Related m m' →
    c.Follows m.active (Reference.instruction fuel (scope.under c.first)
      instr m operands)
      (Reference.instruction fuel (scope.under c.second) instr m' operands)
  sequence : ∀ (scope : Scope) body m m' operands, c.region (.module scope.module) →
    c.Related m m' →
    c.Follows m.active (Reference.sequence fuel (scope.under c.first) body m operands)
      (Reference.sequence fuel (scope.under c.second) body m' operands)
  block : ∀ (scope : Scope) isLoop params results body m m' operands,
    c.region (.module scope.module) →
    c.Related m m' →
      c.Follows m.active (Reference.block fuel (scope.under c.first) isLoop params
        results body m operands)
        (Reference.block fuel (scope.under c.second) isLoop params results body
          m' operands)
  call : ∀ function m m' operands, c.region (.function function) → c.Related m m' →
    c.Follows m.active (Reference.call fuel c.first function m operands).ending
      (Reference.call fuel c.second function m' operands).ending

namespace IsValid

variable (h : c.IsValid)
include h

theorem holds_zero : c.Holds 0 where
  instruction := fun _ _ _ _ _ _ hrelated => .halt h.exhausted hrelated.halted
  sequence := fun _ _ _ _ _ _ hrelated => .halt h.exhausted hrelated.halted
  block := fun _ _ _ _ _ _ _ _ _ hrelated => .halt h.exhausted hrelated.halted
  call := fun _ _ _ _ _ hrelated => .halt h.exhausted hrelated.halted

variable {fuel : Nat} (ih : c.Holds fuel)
include ih

theorem instruction_succ
    (scope : Scope) (instr : Instr) (m m' : Machine) (operands : List Val)
    (hmodule : c.region (.module scope.module)) (hrelated : c.Related m m') :
    c.Follows m.active (Reference.instruction (fuel + 1) (scope.under c.first)
      instr m operands)
      (Reference.instruction (fuel + 1) (scope.under c.second) instr m' operands) := by
  rw [Reference.instruction, Reference.instruction]
  have hdispatch := h.dispatch hmodule instr hrelated operands
  simp only [Scope.under]
  generalize (Exec.dispatch c.first scope.module instr).alone m operands =
    o at hdispatch
  generalize (Exec.dispatch c.second scope.module instr).alone m' operands =
    o' at hdispatch
  obtain ⟨cause, n, rfl, hcut⟩ | halike := hdispatch
  · refine .cut (h.later hcut ?_)
    cases o' with
    | halt => exact List.suffix_rfl
    | done transfer operands' n' =>
        cases transfer with
        | next | branch | ret => exact List.suffix_rfl
        | enter isLoop params results body =>
            exact (h.grows hcut).block _ _ _ _ _ _ _ _ rfl
        | call function => exact (h.grows hcut).call _ _ _ _
  · cases halike with
    | halt hcommon hhalted => exact .halt hcommon hhalted
    | @done transfer operands' n n' hrelated' hwithin =>
        obtain ⟨hwithin, hactive⟩ := hwithin
        cases transfer with
        | next => exact .same (fun _ => Ending.noConfusion) hrelated' hactive
        | enter isLoop params results body =>
            rw [← hactive]
            exact ih.block scope isLoop params results body n n' operands'
              hmodule hrelated'
        | branch label =>
            exact h.follows_of_isOrdinary (scope.isOrdinary_branch label operands')
              hrelated' hactive
        | ret =>
            exact h.follows_of_isOrdinary (scope.isOrdinary_ret operands')
              hrelated' hactive
        | call function =>
            rw [← hactive]
            exact ih.call function n n' operands' hwithin hrelated'

theorem sequence_succ
    (scope : Scope) (body : List Instr) (m m' : Machine) (operands : List Val)
    (hmodule : c.region (.module scope.module)) (hrelated : c.Related m m') :
    c.Follows m.active (Reference.sequence (fuel + 1) (scope.under c.first)
      body m operands)
      (Reference.sequence (fuel + 1) (scope.under c.second) body m' operands) := by
  cases body with
  | nil => exact .same (fun _ => Ending.noConfusion) hrelated rfl
  | cons instr rest =>
      apply (ih.instruction scope instr m m' operands hmodule hrelated).andThen h
      · intro n n' operands' hrelated' hactive
        rw [← hactive]
        exact ih.sequence scope rest n n' operands' hmodule hrelated'
      · intro hgrows n operands'
        exact hgrows.sequence _ _ _ _ _ rfl

theorem block_succ
    (scope : Scope) (isLoop : Bool) (params results : Nat) (body : List Instr)
    (m m' : Machine) (operands : List Val) (hmodule : c.region (.module scope.module))
    (hrelated : c.Related m m') :
    c.Follows m.active (Reference.block (fuel + 1) (scope.under c.first) isLoop params
      results body m operands)
      (Reference.block (fuel + 1) (scope.under c.second) isLoop params results body m'
        operands) := by
  rw [Reference.block, Reference.block]
  cases topmost params operands with
  | none => exact .halt (h.ordinary trivial) hrelated.halted
  | some parts =>
      apply (ih.sequence (scope.inside _) body m m' parts.2 hmodule hrelated).outOfBlock
        h
      · intro n n' operands' hrelated' hactive
        rw [← hactive]
        exact ih.block scope isLoop params results body n n' operands' hmodule hrelated'
      · intro hgrows n operands'
        exact hgrows.block _ _ _ _ _ _ _ _ rfl

theorem call_succ
    (function : UInt32) (m m' : Machine) (operands : List Val)
    (hfunction : c.region (.function function)) (hrelated : c.Related m m') :
    c.Follows m.active (Reference.call (fuel + 1) c.first function m operands).ending
      (Reference.call (fuel + 1) c.second function m' operands).ending := by
  rw [Reference.call, Reference.call]
  have hsummon := (h.pairs_summon hfunction).alone hrelated rfl operands
  generalize (Exec.summon c.first function).alone m operands = o at hsummon
  generalize (Exec.summon c.second function).alone m' operands = o' at hsummon
  obtain ⟨cause, n, rfl, hcut⟩ | halike := hsummon
  · exact .cut (hcut _)
  · cases halike with
    | halt hcommon hhalted => exact .halt hcommon hhalted
    | @done summons operands' n n' hrelated' hserves =>
        obtain ⟨hserves, hactive⟩ := hserves
        cases summons with
        | host name program =>
            exact h.follows_ofHost hrelated' hactive
              (h.admits hserves fuel _ _ hrelated'.sessions) hfunction operands'
        | body f arity params =>
            simp only [hrelated'.locals]
            have hstart : c.Related { n with
                locals := (params ++ f.locals.map Val.zero).toArray }
                { n' with locals := (params ++ f.locals.map Val.zero).toArray } :=
              { sessions := hrelated'.sessions
                locals := rfl
                active := hrelated'.active
                clocks := hrelated'.clocks }
            have hbody := ih.sequence (.ofBody c.first f arity) f.body _ _
              [] hserves hstart
            exact hbody.outOfBody h hactive (Reference.endsBody_sequence fuel c.first f
              arity _) n.locals operands'

end IsValid

/-- Evaluations in the two runs follow each other. -/
theorem IsValid.holds
    (h : c.IsValid) (fuel : Nat) : c.Holds fuel := by
  induction fuel with
  | zero => exact h.holds_zero
  | succ fuel ih =>
      exact {
        instruction := h.instruction_succ ih
        sequence := h.sequence_succ ih
        block := h.block_succ ih
        call := h.call_succ ih }

end Coupling

/-! ## A run beside itself -/

/-- Two runs in the same session, under the same limits and the same context.  No cause
is common that says that a body was left for a label outside it, or that an activation
is missing. -/
def Coupling.beside (first second : Setting)
    (Clocks : Clock → Clock → Prop) : Coupling where
  region := Region.all
  first := first
  second := second
  Sessions := Eq
  Clocks := Clocks
  Common := fun cause => ∀ name, cause ≠ .bug (.branchPast name) ∧
    cause ≠ .bug (.activationMissing name)
  Cut := fun _ _ _ => False

/-- The clocks of the two runs agree on the counter and are kept by what is counted and
recorded. -/
structure Clock.Keeps (first second : Setting)
    (Clocks : Clock → Clock → Prop) : Prop where
  steps : ∀ {clock clock'}, Clocks clock clock' → clock'.steps = clock.steps
  record : ∀ {clock clock'} moment s, Clocks clock clock' →
    Clocks ⟨clock.steps, first.note moment s clock.trace⟩ ⟨clock'.steps,
      second.note moment s clock'.trace⟩
  count : ∀ {clock clock'} moment s, Clocks clock clock' →
    ¬first.Spent (first.tick clock.steps) →
    Clocks ⟨first.tick clock.steps, first.note moment s clock.trace⟩
      ⟨second.tick clock'.steps, second.note moment s clock'.trace⟩

namespace Coupling

theorem isValid_beside
    {first second : Setting} {Clocks : Clock → Clock → Prop}
    (hconfig : second.config = first.config) (hcontext : second.context = first.context)
    (hclocks : Clock.Keeps first second Clocks) :
    (beside first second Clocks).IsValid := by
  have htick : ∀ steps, second.tick steps = first.tick steps := by
    intro steps
    unfold Setting.tick
    rw [hconfig]
  have hspent : ∀ steps, second.Spent steps ↔ first.Spent steps := by
    intro steps
    unfold Setting.Spent
    rw [hconfig]
  have hinterruption : ∀ s, second.interruption s = first.interruption s := by
    intro s
    unfold Setting.interruption
    rw [hconfig, hcontext]
  have hlevel : ∀ {m m' : Machine}, (beside first second Clocks).Related m m' →
      (second.Spent (second.tick m'.steps) ↔ first.Spent (first.tick m.steps)) := by
    intro m m' hrelated
    have hsteps : m'.steps = m.steps := hclocks.steps hrelated.clocks
    rw [hspent, htick, hsteps]
  exact {
    sharing := by
      rintro s _ rfl
      refine ⟨s.store.Refilled s.store, sharing_refilled rfl rfl rfl,
        ⟨s.store.memories, s.store.globals, rfl, rfl⟩, ?_⟩
      rintro _ _ ⟨memories, globals, rfl, rfl⟩
      rfl
    observe := by
      rintro s _ event rfl
      rfl
    admits := by
      intro program _ fuel s s' hsessions
      obtain rfl : s = s' := hsessions
      have hsame := SessionResult.alike_refl
        (Reference.host fuel first.context program s)
      unfold beside
      rw [hcontext]
      exact hsame
    ordinary := by
      intro cause hcause name
      constructor
      · rintro rfl
        exact hcause
      · rintro rfl
        exact hcause
    exhausted := fun _ => ⟨Abort.noConfusion, Abort.noConfusion⟩
    ceiling := by
      intro depth
      refine Trips.of_iff (iff_of_eq ?_) fun _ => ⟨Abort.noConfusion, Abort.noConfusion⟩
      exact congrArg (fun config : EngineConfig => config.ceiling ≤ depth) hconfig
    interrupt := by
      rintro s _ reason rfl
      refine Trips.of_iff (iff_of_eq ?_) fun _ => ⟨Abort.noConfusion, Abort.noConfusion⟩
      exact congrArg (· = some reason) (hinterruption s)
    record := by
      intro m m' moment _ hrelated
      have hnote := hclocks.record moment m.session hrelated.clocks
      obtain ⟨hsession, -, -, -⟩ := hrelated
      unfold beside Machine.noted at *
      rw [← hsession]
      exact hnote
    count := by
      intro m m' instr hrelated hroom
      have hnote := hclocks.count (.dispatched instr) m.session hrelated.clocks hroom
      refine ⟨(hlevel hrelated).not.mpr hroom, ?_⟩
      obtain ⟨hsession, -, -, -⟩ := hrelated
      unfold beside Machine.noted at *
      rw [Machine.ticked, Machine.ticked, ← hsession]
      exact hnote
    spent := by
      intro m m' instr hrelated hfull
      exact .inl ⟨(hlevel hrelated).mpr hfull, fun _ =>
        ⟨Abort.noConfusion, Abort.noConfusion⟩⟩
    later := fun hcut => hcut.elim
    grows := fun hcut => hcut.elim }

end Coupling

/-! ## What every run keeps -/

/-- The condition on clocks is kept by what is counted and recorded under the
setting. -/
structure Setting.Keeps (setting : Setting) (I : Clock → Prop) : Prop where
  record : ∀ {clock} moment s, I clock →
    I ⟨clock.steps, setting.note moment s clock.trace⟩
  count : ∀ {clock} moment s, I clock → ¬setting.Spent (setting.tick clock.steps) →
    I ⟨setting.tick clock.steps, setting.note moment s clock.trace⟩

/-- Where code has ended, the condition holds of the clock, and the given functions are
active.  Where it has halted, the condition holds of the trace, and the cause is not one
of those that no body leads to. -/
def Ending.Keeps (I : Clock → Prop) (active : Array String) : Ending × Machine → Prop
  | (.halt cause, m) =>
    (∀ name, cause ≠ .bug (.branchPast name) ∧ cause ≠ .bug (.activationMissing name)) ∧
      ∃ steps, I ⟨steps, m.trace⟩
  | (_, m) => m.active = active ∧ I m.clock

namespace Coupling

/-- A run beside itself. -/
def solo (setting : Setting) (I : Clock → Prop) : Coupling :=
  beside setting setting fun clock clock' => clock' = clock ∧ I clock

variable {setting : Setting} {I : Clock → Prop}

theorem isValid_solo (hI : setting.Keeps I) : (solo setting I).IsValid := by
  apply isValid_beside rfl rfl
  exact {
    steps := fun h => congrArg Clock.steps h.1
    record := by
      rintro clock _ moment s ⟨rfl, hclock⟩
      exact ⟨rfl, hI.record moment s hclock⟩
    count := by
      rintro clock _ moment s ⟨rfl, hclock⟩ hroom
      exact ⟨rfl, hI.count moment s hclock hroom⟩ }

theorem related_solo {m : Machine} (hclock : I m.clock) :
    (solo setting I).Related m m where
  sessions := rfl
  locals := rfl
  active := rfl
  clocks := ⟨rfl, hclock⟩

theorem Follows.keeps
    {active : Array String} {p : Ending × Machine}
    (h : (solo setting I).Follows active p p) :
    Ending.Keeps I active p := by
  obtain ⟨ending, m⟩ := p
  cases h with
  | cut hcut => exact hcut.elim
  | halt hcommon hhalted =>
      obtain ⟨steps, steps', hrelated⟩ := hhalted
      exact ⟨hcommon, steps, hrelated.clocks.2⟩
  | same hending hrelated hactive =>
      cases ending with
      | halt cause => exact absurd rfl (hending cause)
      | normal | branch | ret => exact ⟨hactive, hrelated.clocks.2⟩

end Coupling

namespace Reference

variable {setting : Setting} {I : Clock → Prop} (hI : setting.Keeps I) (fuel : Nat)
include hI

theorem keeps_sequence
    {scope : Scope} (hscope : scope.setting = setting) (body : List Instr) {m : Machine}
    (hclock : I m.clock) (operands : List Val) :
    Ending.Keeps I m.active (sequence fuel scope body m operands) := by
  subst hscope
  have hholds := (Coupling.isValid_solo hI).holds fuel
  exact (hholds.sequence scope body m m operands trivial
    (Coupling.related_solo hclock)).keeps

theorem keeps_block
    {scope : Scope} (hscope : scope.setting = setting) (isLoop : Bool)
    (params results : Nat) (body : List Instr) {m : Machine} (hclock : I m.clock)
    (operands : List Val) :
    Ending.Keeps I m.active (block fuel scope isLoop params results body m
      operands) := by
  subst hscope
  have hholds := (Coupling.isValid_solo hI).holds fuel
  exact (hholds.block scope isLoop params results body m m operands trivial
    (Coupling.related_solo hclock)).keeps

theorem keeps_call
    (function : UInt32) {m : Machine} (hclock : I m.clock) (operands : List Val) :
    Ending.Keeps I m.active (call fuel setting function m operands).ending :=
  (((Coupling.isValid_solo hI).holds fuel).call function m m operands trivial
    (Coupling.related_solo hclock)).keeps

end Reference

theorem Setting.keeps_suffix (setting : Setting) (trace : List (Moment × Session)) :
    setting.Keeps fun clock => trace <:+ clock.trace where
  record := fun moment s h => h.trans (setting.suffix_note moment s _)
  count := fun moment s h _ => h.trans (setting.suffix_note moment s _)

theorem Ending.Keeps.trace
    {trace : List (Moment × Session)} {active : Array String} {p : Ending × Machine}
    (h : Keeps (fun clock => trace <:+ clock.trace) active p) :
    trace <:+ p.2.trace := by
  obtain ⟨ending, m⟩ := p
  cases ending with
  | halt cause =>
      obtain ⟨-, _, htrace⟩ := h
      exact htrace
  | normal | branch | ret => exact h.2

/-- The trace of an evaluation only becomes longer. -/
theorem Reference.grows (setting : Setting) : Grows setting where
  sequence := fun fuel _ body m operands hscope =>
    (keeps_sequence (setting.keeps_suffix m.trace) fuel hscope body List.suffix_rfl
      operands).trace
  block := fun fuel _ isLoop params results body m operands hscope =>
    (keeps_block (setting.keeps_suffix m.trace) fuel hscope isLoop params results body
      List.suffix_rfl operands).trace
  call := fun fuel function m operands =>
    (keeps_call (setting.keeps_suffix m.trace) fuel function List.suffix_rfl
      operands).trace

end WebAssembly
