import WebAssembly.Proofs.Region

/-!
# Two runs side by side

Two runs of the same code, in related sessions and under settings that need not be
equal, take the same steps as long as neither the sessions nor the limits tell them
apart.  A coupling says how the two runs are related, for which causes they may halt
together, and when the first one may be cut short while the second one goes on.  What a
coupling has to satisfy concerns single steps: what they look at, what they count and
record, and the checks that may halt them.
-/

namespace WebAssembly

/-! ## What the limits of a run do -/

/-- What a run has counted and recorded. -/
structure Clock where
  steps : UInt64
  trace : List (Moment × Session)

namespace Setting

variable (setting : Setting)

/-- The counter after one more instruction. -/
def tick (steps : UInt64) : UInt64 :=
  if setting.config.stepBudget > 0 then steps + 1 else steps

/-- The counter is above the budget. -/
def Spent (steps : UInt64) : Prop :=
  setting.config.stepBudget > 0 ∧ steps > setting.config.stepBudget

instance (steps : UInt64) : Decidable (setting.Spent steps) :=
  inferInstanceAs (Decidable (_ ∧ _))

def note (moment : Moment) (s : Session) (trace : List (Moment × Session)) :
    List (Moment × Session) :=
  if setting.watched then (moment, s) :: trace else trace

def interruption (s : Session) : Option DoneReason :=
  if setting.config.closeOnContextDone then s.doneReason setting.context else none

end Setting

namespace Machine

variable (m : Machine) (setting : Setting)

def clock : Clock where
  steps := m.steps
  trace := m.trace

/-- The machine after a moment was recorded. -/
def noted (moment : Moment) : Machine :=
  { m with trace := setting.note moment m.session m.trace }

/-- The machine after an instruction was counted. -/
def ticked : Machine :=
  { m with steps := setting.tick m.steps }

end Machine

namespace Exec

variable (setting : Setting) (m : Machine) (stack : Stack)

theorem record_on (moment : Moment) :
    record setting moment (m.on stack) =
      .ok () ((m.noted setting moment).on stack) := by
  unfold record Machine.noted Setting.note
  split
  · rfl
  · rfl

theorem countStep_on :
    countStep setting (m.on stack) =
      if setting.Spent (setting.tick m.steps) then
        .error (.trap .stepBudget) ((m.ticked setting).on stack)
      else .ok () ((m.ticked setting).on stack) := by
  unfold countStep
  by_cases hbudget : setting.config.stepBudget > 0
  · have htick : setting.tick m.steps = m.steps + 1 := if_pos hbudget
    have hcompare : (if m.steps + 1 > setting.config.stepBudget then trap .stepBudget
          else pure () : Exec Unit) =
        if setting.Spent (m.steps + 1) then trap .stepBudget else pure () := by
      refine if_congr ?_ rfl rfl
      exact ⟨fun h => ⟨hbudget, h⟩, fun h => h.2⟩
    rw [if_pos hbudget, Machine.ticked, htick]
    refine (congrFun hcompare _).trans ?_
    split
    · rfl
    · rfl
  · rw [if_neg hbudget, if_neg fun h => hbudget h.1, Machine.ticked, Setting.tick,
      if_neg hbudget]
    rfl

theorem checkInterrupt_on :
    checkInterrupt setting (m.on stack) =
      match setting.interruption m.session with
      | some reason => .error (.trap (.contextDone reason)) (m.on stack)
      | none => .ok () (m.on stack) := by
  unfold checkInterrupt Setting.interruption
  by_cases hwatch : setting.config.closeOnContextDone
  · rw [if_pos hwatch, if_pos hwatch]
    have hget : (get : Exec Run) (m.on stack) = .ok (m.on stack) (m.on stack) := rfl
    have hreason : (m.on stack).session.doneReason setting.context =
        m.session.doneReason setting.context := rfl
    rw [bind_eq_of_eq_ok hget]
    simp only [hreason]
    cases m.session.doneReason setting.context with
    | none => rfl
    | some reason => rfl
  · rw [if_neg hwatch, if_neg hwatch]
    rfl

def begin (name : String) : Exec Unit := do
  checkInterrupt setting
  modify fun r => { r with active := r.active.push name }
  record setting (.entered name)

theorem enter_on (name : String) :
    enter setting name (m.on stack) =
      if setting.config.ceiling ≤ m.active.size then
        .error (.trap .callStackOverflow) (m.on stack)
      else begin setting name (m.on stack) := by
  have hcheck : enter setting name (m.on stack) =
      (if (m.active.size : Int) ≥ setting.config.ceiling then
        trap .callStackOverflow >>= fun _ => begin setting name
        else begin setting name : Exec Unit) (m.on stack) := rfl
  rw [hcheck]
  by_cases hfull : setting.config.ceiling ≤ m.active.size
  · rw [if_pos hfull, if_pos hfull]
    rfl
  · rw [if_neg hfull, if_neg hfull]

end Exec

/-! ## Couplings -/

/-- How two runs of the same code are related. -/
structure Coupling where
  /-- The functions and module instances to which the code belongs. -/
  region : Region
  first : Setting
  second : Setting
  Sessions : Session → Session → Prop
  Clocks : Clock → Clock → Prop
  /-- The causes for which both runs halt together. -/
  Common : Abort → Prop
  /-- The first run was cut short in the given machine, and the second one has come to
  the given trace. -/
  Cut : Abort → Machine → List (Moment × Session) → Prop

/-- Under the setting, the trace of an evaluation only becomes longer. -/
structure Reference.Grows (setting : Setting) : Prop where
  sequence : ∀ fuel (scope : Scope) body m operands, scope.setting = setting →
    m.trace <:+ (sequence fuel scope body m operands).2.trace
  block : ∀ fuel (scope : Scope) isLoop params results body m operands,
    scope.setting = setting →
    m.trace <:+ (block fuel scope isLoop params results body m operands).2.trace
  call : ∀ fuel function m operands,
    m.trace <:+ (call fuel setting function m operands).ending.2.trace

/-- Both operations succeed with the same value or fail with the same error, in sessions
that are related. -/
def SessionResult.Alike {α : Type} (Sessions : Session → Session → Prop)
    (result result' : SessionResult α) : Prop :=
  ∃ s s', Sessions s s' ∧
    ((∃ a, result = .ok a s ∧ result' = .ok a s') ∨ ∃ error, result = .error error s ∧
      result' = .error error s')

theorem SessionResult.alike_refl {α : Type} (result : SessionResult α) :
    Alike Eq result result := by
  cases result with
  | ok a s => exact ⟨s, s, rfl, .inl ⟨a, rfl, rfl⟩⟩
  | error error s => exact ⟨s, s, rfl, .inr ⟨error, rfl, rfl⟩⟩

namespace Coupling

variable (c : Coupling)

/-- The two runs are in step. -/
structure Related (m m' : Machine) : Prop where
  sessions : c.Sessions m.session m'.session
  locals : m'.locals = m.locals
  active : m'.active = m.active
  clocks : c.Clocks m.clock m'.clock

/-- The two runs have halted in step, but for the counters. -/
def Halted (m m' : Machine) : Prop :=
  ∃ steps steps', c.Related { m with steps } { m' with steps := steps' }

/-- The host program does the same in both runs. -/
def Admits (program : HostProgram) : Prop :=
  ∀ fuel s s', c.Sessions s s' →
    SessionResult.Alike c.Sessions (Reference.host fuel c.first.context program s)
      (Reference.host fuel c.second.context program s')

/-- The program is the one that a host function runs on some arguments. -/
def Offers (program : HostProgram) : Prop :=
  ∃ s s' function f host params, c.Sessions s s' ∧ c.region (.function function) ∧
    s.store.functions[function.toNat]? = some f ∧ f.kind = .host ∧ f.host = some host ∧
    program = host params

/-- A check that halts the second run for the given cause halts the first one too; one
that halts only the first run cuts it short. -/
structure Trips (cause : Abort) (p q : Prop) : Prop where
  both : q → p
  common : q → c.Common cause
  cut : p → ¬q → ∀ m trace, c.Cut cause m trace

/-- What is asked of a coupling for single steps. -/
structure IsSteady : Prop where
  sharing : ∀ {s s'}, c.Sessions s s' → ∃ W, Sharing c.region s.store W ∧
    W s.store s'.store ∧
    ∀ t t', W t t' → c.Sessions (s.withStore t) (s'.withStore t')
  observe : ∀ {s s'} event, c.Sessions s s' →
    c.Sessions (s.observe event) (s'.observe event)
  admits : ∀ {program}, c.Offers program → c.Admits program
  ordinary : ∀ {cause}, cause.IsOrdinary → c.Common cause
  ceiling : ∀ depth : Nat,
    c.Trips (.trap .callStackOverflow) (c.first.config.ceiling ≤ depth)
      (c.second.config.ceiling ≤ depth)
  interrupt : ∀ {s s'} reason, c.Sessions s s' →
    c.Trips (.trap (.contextDone reason)) (c.first.interruption s = some reason)
      (c.second.interruption s' = some reason)
  record : ∀ {m m'} moment, (∀ instr, moment ≠ .dispatched instr) → c.Related m m' →
    c.Clocks (m.noted c.first moment).clock (m'.noted c.second moment).clock
  /-- The next instruction is counted in both runs. -/
  count : ∀ {m m'} instr, c.Related m m' → ¬c.first.Spent (c.first.tick m.steps) →
    ¬c.second.Spent (c.second.tick m'.steps) ∧
      c.Clocks ((m.ticked c.first).noted c.first (.dispatched instr)).clock
        ((m'.ticked c.second).noted c.second (.dispatched instr)).clock
  /-- The budget of the first run is spent, and so is that of the second one, or the
  first run is cut short. -/
  spent : ∀ {m m'} instr, c.Related m m' → c.first.Spent (c.first.tick m.steps) →
    c.second.Spent (c.second.tick m'.steps) ∧ c.Common (.trap .stepBudget) ∨
      ¬c.second.Spent (c.second.tick m'.steps) ∧
        c.Cut (.trap .stepBudget) (m.ticked c.first)
          (m'.noted c.second (.dispatched instr)).trace

/-- What is asked of a coupling for whole runs. -/
structure IsValid : Prop extends c.IsSteady where
  exhausted : c.Common .exhausted
  later : ∀ {cause m trace trace'}, c.Cut cause m trace → trace <:+ trace' →
    c.Cut cause m trace'
  grows : ∀ {cause m trace}, c.Cut cause m trace → Reference.Grows c.second

variable {c}

/-- A check that comes out the same in both runs. -/
theorem Trips.of_iff
    {cause : Abort} {p q : Prop} (hiff : q ↔ p) (hcommon : c.Common cause) :
    c.Trips cause p q where
  both := hiff.mp
  common := fun _ => hcommon
  cut := fun hp hq => absurd (hiff.mpr hp) hq

theorem Related.halted
    {m m' : Machine} (h : c.Related m m') : c.Halted m m' :=
  ⟨m.steps, m'.steps, h⟩

end Coupling

def Summons.name : Summons → String
  | .host name _ => name
  | .body f _ _ => f.name

/-! ## Single steps -/

namespace Coupling

variable {c : Coupling} {α β : Type} {active : Array String}

/-- From machines in step, with the given functions active, the two steps do the same,
or halt for a common cause, or the first run is cut short. -/
def Pairs (c : Coupling) (active : Array String) (P : α → Array String → Prop)
    (x y : Exec α) : Prop :=
  ∀ (m m' : Machine) (stack : Stack), c.Related m m' → m.active = active →
    (∃ a n n' stack', c.Related n n' ∧ P a n.active ∧
      x (m.on stack) = .ok a (n.on stack') ∧ y (m'.on stack) = .ok a (n'.on stack')) ∨
    (∃ cause n n' stack', c.Common cause ∧ c.Halted n n' ∧
      x (m.on stack) = .error cause (n.on stack') ∧
      y (m'.on stack) = .error cause (n'.on stack')) ∨
    ∃ cause n stack', (∀ trace, c.Cut cause n trace) ∧
      x (m.on stack) = .error cause (n.on stack')

/-- What is active stays so. -/
abbrev Stays (active : Array String) (_ : α) (names : Array String) : Prop :=
  names = active

/-- What a call comes to can be followed up in both runs. -/
def Serves (c : Coupling) : Summons → Prop
  | .host _ program => c.Offers program
  | .body f _ _ => c.region (.module f.module)

theorem Pairs.bind
    {P : α → Array String → Prop} {Q : β → Array String → Prop} {x y : Exec α}
    {f g : α → Exec β} (hx : c.Pairs active P x y)
    (hf : ∀ a names, P a names → c.Pairs names Q (f a) (g a)) :
    c.Pairs active Q (x >>= f) (y >>= g) := by
  intro m m' stack hrelated hactive
  obtain ⟨a, n, n', stack', hrelated', ha, hx, hy⟩ | ⟨cause, n, n', stack', hcommon,
      hhalted, hx, hy⟩ |
    ⟨cause, n, stack', hcut, hx⟩ := hx m m' stack hrelated hactive
  · rw [bind_eq_of_eq_ok hx, bind_eq_of_eq_ok hy]
    exact hf a n.active ha n n' stack' hrelated' rfl
  · exact .inr (.inl ⟨cause, n, n', stack', hcommon, hhalted, bind_eq_of_eq_error hx,
      bind_eq_of_eq_error hy⟩)
  · exact .inr (.inr ⟨cause, n, stack', hcut, bind_eq_of_eq_error hx⟩)

theorem pairs_pure
    {P : α → Array String → Prop} {a : α} (ha : P a active) :
    c.Pairs active P (pure a) (pure a) := by
  intro m m' stack hrelated hactive
  exact .inl ⟨a, m, m', stack, hrelated, hactive ▸ ha, rfl, rfl⟩

theorem pairs_modifyActive (change : Array String → Array String) :
    c.Pairs active (Stays (change active)) (modify fun r : Run => { r with
      active := change r.active })
      (modify fun r : Run => { r with active := change r.active }) := by
  intro m m' stack hrelated hactive
  have hrelated' : c.Related { m with active := change m.active } { m' with
    active := change m'.active } :=
    { sessions := hrelated.sessions
      locals := hrelated.locals
      active := congrArg change hrelated.active
      clocks := hrelated.clocks }
  exact .inl ⟨(), _, _, stack, hrelated', congrArg change hactive, rfl, rfl⟩

namespace IsSteady

variable (h : c.IsSteady)
include h

/-- What the sessions share makes both runs do the same. -/
theorem shared_step
    {P : α → Prop} {x : Exec α}
    (hx : ∀ s s' W, c.Sessions s s' → Sharing c.region s.store W → Exec.Shared W P x)
    {m m' : Machine} (hrelated : c.Related m m') (stack : Stack) :
    ∃ n n' stack', c.Related n n' ∧ n.active = m.active ∧
      ((∃ a, P a ∧ x (m.on stack) = .ok a (n.on stack') ∧
        x (m'.on stack) = .ok a (n'.on stack')) ∨
        ∃ cause, c.Common cause ∧ x (m.on stack) = .error cause (n.on stack') ∧
          x (m'.on stack) = .error cause (n'.on stack')) := by
  obtain ⟨W, hshare, hW, hclose⟩ := h.sharing hrelated.sessions
  obtain ⟨store, store', locals, stack', hW', hstep⟩ :=
    hx _ _ W hrelated.sessions hshare m m' stack hW hrelated.locals
  have hrelated' : c.Related (m.update store locals) (m'.update store' locals) :=
    { sessions := hclose _ _ hW'
      locals := rfl
      active := hrelated.active
      clocks := hrelated.clocks }
  refine ⟨_, _, stack', hrelated', rfl, ?_⟩
  obtain hok | ⟨cause, hcause, herror⟩ := hstep
  · exact .inl hok
  · exact .inr ⟨cause, h.ordinary hcause, herror⟩

theorem pairs_of_shared
    {P : α → Prop} {x : Exec α}
    (hx : ∀ s s' W, c.Sessions s s' → Sharing c.region s.store W → Exec.Shared W P x) :
    c.Pairs active (fun a names => P a ∧ names = active) x x := by
  rintro m m' stack hrelated rfl
  obtain ⟨n, n', stack', hrelated', hactive, ⟨a, ha, hok⟩ | ⟨cause, hcommon, herror⟩⟩ :=
    h.shared_step hx hrelated stack
  · exact .inl ⟨a, n, n', stack', hrelated', ⟨ha, hactive⟩, hok⟩
  · exact .inr (.inl ⟨cause, n, n', stack', hcommon, hrelated'.halted, herror⟩)

theorem pairs_record
    {moment : Moment} (hmoment : ∀ instr, moment ≠ .dispatched instr) :
    c.Pairs active (Stays active) (Exec.record c.first moment)
      (Exec.record c.second moment) := by
  intro m m' stack hrelated hactive
  have hrelated' : c.Related (m.noted c.first moment) (m'.noted c.second moment) :=
    { sessions := hrelated.sessions
      locals := hrelated.locals
      active := hrelated.active
      clocks := h.record moment hmoment hrelated }
  exact .inl ⟨(), _, _, stack, hrelated', hactive, Exec.record_on _ m stack moment,
    Exec.record_on _ m' stack moment⟩

theorem pairs_checkInterrupt :
    c.Pairs active (Stays active) (Exec.checkInterrupt c.first)
      (Exec.checkInterrupt c.second) := by
  intro m m' stack hrelated hactive
  have htrips := fun reason => h.interrupt reason hrelated.sessions
  rw [Exec.checkInterrupt_on, Exec.checkInterrupt_on]
  cases hsecond : c.second.interruption m'.session with
  | some reason =>
      rw [(htrips reason).both hsecond]
      exact .inr (.inl ⟨_, m, m', stack, (htrips reason).common hsecond,
        hrelated.halted, rfl, rfl⟩)
  | none =>
      cases hfirst : c.first.interruption m.session with
      | none => exact .inl ⟨(), m, m', stack, hrelated, hactive, rfl, rfl⟩
      | some reason =>
          have hpasses : ¬c.second.interruption m'.session = some reason := by
            rw [hsecond]
            intro hsome
            cases hsome
          have hcut := (htrips reason).cut hfirst hpasses
          exact .inr (.inr ⟨_, m, stack, hcut m, rfl⟩)

theorem pairs_restart :
    c.Pairs active (Stays active) (Exec.restart c.first) (Exec.restart c.second) := by
  apply h.pairs_checkInterrupt.bind
  rintro _ _ rfl
  exact h.pairs_record fun _ => Moment.noConfusion

theorem pairs_exit (name : String) :
    c.Pairs (active.push name) (Stays active) (Exec.exit c.first)
      (Exec.exit c.second) := by
  apply (pairs_modifyActive Array.pop).bind
  rintro _ _ rfl
  rw [Array.pop_push]
  exact h.pairs_record fun _ => Moment.noConfusion

theorem pairs_enter (name : String) :
    c.Pairs active (Stays (active.push name)) (Exec.enter c.first name)
      (Exec.enter c.second name) := by
  have hbegin : c.Pairs active (Stays (active.push name)) (Exec.begin c.first name)
      (Exec.begin c.second name) := by
    apply h.pairs_checkInterrupt.bind
    rintro _ _ rfl
    apply (pairs_modifyActive (·.push name)).bind
    rintro _ _ rfl
    exact h.pairs_record fun _ => Moment.noConfusion
  intro m m' stack hrelated hactive
  have htrips := h.ceiling m.active.size
  rw [Exec.enter_on, Exec.enter_on, hrelated.active]
  by_cases hsecond : c.second.config.ceiling ≤ m.active.size
  · rw [if_pos hsecond, if_pos (htrips.both hsecond)]
    exact .inr (.inl ⟨_, m, m', stack, htrips.common hsecond,
      hrelated.halted, rfl, rfl⟩)
  · rw [if_neg hsecond]
    by_cases hfirst : c.first.config.ceiling ≤ m.active.size
    · rw [if_pos hfirst]
      exact .inr (.inr ⟨_, m, stack, htrips.cut hfirst hsecond m, rfl⟩)
    · rw [if_neg hfirst]
      exact hbegin m m' stack hrelated hactive

theorem pairs_announce (events : List Event) :
    c.Pairs active (Stays active) (Exec.announce events) (Exec.announce events) := by
  intro m m' stack hrelated hactive
  have hobserve : ∀ s s', c.Sessions s s' →
      c.Sessions (events.foldl Session.observe s)
        (events.foldl Session.observe s') := by
    induction events with
    | nil => exact fun _ _ hsessions => hsessions
    | cons event rest ih =>
        exact fun s s' hsessions => ih _ _ (h.observe event hsessions)
  have hrelated' : c.Related { m with
      session := events.foldl Session.observe m.session }
      { m' with session := events.foldl Session.observe m'.session } :=
    { sessions := hobserve _ _ hrelated.sessions
      locals := hrelated.locals
      active := hrelated.active
      clocks := hrelated.clocks }
  exact .inl ⟨(), _, _, stack, hrelated', hactive, rfl, rfl⟩

/-- Both runs find the same function, which belongs to the region. -/
theorem pairs_find
    {function : UInt32} (hfunction : c.region (.function function)) :
    c.Pairs active
      (fun f names => (∃ s s', c.Sessions s s' ∧
        s.store.functions[function.toNat]? = some f) ∧ names = active)
      (Exec.store >>= fun s => Exec.present s.functions[function.toNat]?)
      (Exec.store >>= fun s => Exec.present s.functions[function.toNat]?) := by
  apply h.pairs_of_shared
  intro s s' W hsessions hshare
  apply Exec.Shared.read_bind (·.functions[function.toNat]?) Exec.present
  · intro t t' hW
    obtain ⟨ht, ht'⟩ := hshare.functions hW hfunction
    exact ht'.trans ht.symm
  · intro t t' hW
    rw [(hshare.functions hW hfunction).1]
    exact Exec.shared_present.mono fun f hf => ⟨s, s', hsessions, hf⟩

theorem pairs_summon
    {function : UInt32} (hfunction : c.region (.function function)) :
    c.Pairs active (fun summons names => c.Serves summons ∧
      names = active.push summons.name)
      (Exec.summon c.first function) (Exec.summon c.second function) := by
  rw [Exec.summon_eq, Exec.summon_eq, ← bind_assoc, ← bind_assoc]
  apply (h.pairs_find hfunction).bind
  rintro f names ⟨⟨s, s', hsessions, hf⟩, rfl⟩
  apply (h.pairs_enter f.name).bind
  rintro _ _ rfl
  have hreceive : c.Pairs (names.push f.name)
      (fun received names' => received.1.Of f ∧ names' = names.push f.name)
        (Exec.receive f) (Exec.receive f) := by
    apply h.pairs_of_shared
    intro t t' W _ hshare
    apply Exec.shared_receive hshare
    intro hkind
    obtain ⟨_, hbase, -⟩ := h.sharing hsessions
    exact hbase.closed.owner hfunction hf hkind
  apply hreceive.bind
  rintro ⟨summons, events⟩ _ ⟨hof, rfl⟩
  apply (h.pairs_announce events).bind
  rintro _ _ rfl
  apply pairs_pure
  cases summons with
  | host name program =>
      obtain ⟨rfl, hkind, host, params, hhost, rfl⟩ := hof
      exact ⟨⟨s, s', function, f, host, params, hsessions, hfunction, hf, hkind,
        hhost, rfl⟩, rfl⟩
  | body g arity params =>
      obtain ⟨hkind, rfl⟩ := hof
      obtain ⟨_, hbase, -⟩ := h.sharing hsessions
      exact ⟨hbase.closed.owner hfunction hf hkind, rfl⟩

theorem pairs_finishCall
    {function : UInt32} (hfunction : c.region (.function function)) (name : String)
    (hostEnd : HostEnd) :
    c.Pairs (active.push name) (Stays active)
      (Exec.finishCall c.first function name hostEnd)
      (Exec.finishCall c.second function name hostEnd) := by
  have hfinish : c.Pairs (active.push name) (fun _ names => True ∧
      names = active.push name)
      (Exec.finishHost function name hostEnd)
        (Exec.finishHost function name hostEnd) := by
    apply h.pairs_of_shared
    intro s s' W _ hshare
    exact Exec.shared_finishHost hshare hfunction hostEnd
  apply hfinish.bind
  rintro _ _ ⟨-, rfl⟩
  exact h.pairs_exit name

end IsSteady
end Coupling

end WebAssembly
