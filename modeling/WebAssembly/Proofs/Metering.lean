import WebAssembly.Proofs.Limits

/-!
# Runs with and without a budget

A run that is watched keeps a record of the instructions that it dispatches.  A run with
a budget is put beside the same run without one: the counter of the first is the number
of instructions that both have dispatched, and it stops where the second one goes on to
dispatch one more.
-/

namespace WebAssembly

/-! ## What is dispatched -/

/-- The sessions in which instructions were dispatched, newest first. -/
def dispatchesOf (trace : List (Moment × Session)) : List Session :=
  trace.filterMap fun
    | (.dispatched _, s) => some s
    | _ => none

theorem dispatchesOf_suffix
    {trace trace' : List (Moment × Session)} (h : trace <:+ trace') :
    dispatchesOf trace <:+ dispatchesOf trace' :=
  h.filterMap _

namespace Machine

variable (m : Machine) (setting : Setting)

theorem dispatchesOf_noted_dispatched (hwatched : setting.watched = true)
    (instr : Instr) :
    dispatchesOf (m.noted setting (.dispatched instr)).trace = m.session ::
      dispatchesOf m.trace := by
  rw [noted, Setting.note, if_pos hwatched]
  rfl

theorem dispatchesOf_noted
    {moment : Moment} (hmoment : ∀ instr, moment ≠ .dispatched instr) :
    dispatchesOf (m.noted setting moment).trace = dispatchesOf m.trace := by
  unfold noted Setting.note
  split
  · cases moment with
    | dispatched instr => exact absurd rfl (hmoment instr)
    | entered | left | restarted => rfl
  · rfl

end Machine

abbrev Setting.watching (config : EngineConfig) (context : ContextRef) : Setting where
  config := config
  context := context
  watched := true

/-- The sessions in which the instructions of an invocation are dispatched, in order. -/
def Engine.history (fuel : Nat) (context : ContextRef) (function : UInt32)
    (args : List Val) (s : Session) : List Session :=
  match Operation.accept function args s with
  | .error _ _ => []
  | .ok config _ =>
    match call fuel (.watching config context) function
      { session := s, stack := Stack.pushAll [] args } with
    | .ok _ r | .error _ r => (dispatchesOf r.trace).reverse

theorem Engine.history_eq
    {s : Session} {config : EngineConfig} (hengine : s.store.engine = some config)
    (fuel : Nat) (context : ContextRef) (function : UInt32) (args : List Val) :
    history fuel context function args s =
      match s.store.refusal function args with
      | some _ => []
      | none =>
        (dispatchesOf (Reference.call fuel (.watching config context) function
          { session := s }
          args).machine.trace).reverse := by
  have haccept := Operation.accept_eq hengine function args
  unfold history
  cases hrefusal : s.store.refusal function args with
  | some error =>
      rw [hrefusal] at haccept
      simp only [haccept]
  | none =>
      rw [hrefusal] at haccept
      simp only [haccept]
      have hmatches := (agrees fuel).call (.watching config context) function
        { session := s } args []
        Stack.isBarrier_nil
      cases hcall : Reference.call fuel (.watching config context) function
        { session := s } args with
      | done a operands m =>
          rw [hcall] at hmatches
          have hrun : call fuel (.watching config context) function
              { session := s, stack := Stack.pushAll [] args } =
                .ok a (m.on (Stack.pushAll [] operands)) := hmatches
          rw [hrun]
          rfl
      | halt cause m =>
          rw [hcall] at hmatches
          obtain ⟨stack, hmatches⟩ := hmatches
          have hrun : call fuel (.watching config context) function
              { session := s, stack := Stack.pushAll [] args } =
                .error cause (m.on stack) := hmatches
          rw [hrun]
          rfl

namespace Coupling

/-- A run that is watched gives the same as one that is not. -/
theorem collected_watched (fuel : Nat) (config : EngineConfig) (context : ContextRef)
    (function : UInt32) (s : Session) (args : List Val) :
    (Reference.call fuel (.watching config context) function { session := s }
      args).collected
        (.watching config context) function =
      (Reference.call fuel { config, context } function { session := s } args).collected
        { config, context }
        function := by
  have hkeeps : Clock.Keeps (.watching config context) { config, context }
      fun clock clock' => clock'.steps = clock.steps :=
    { steps := fun h => h
      record := fun _ _ h => h
      count := by
        intro clock clock' _ _ h _
        exact congrArg (fun steps => if config.stepBudget > 0 then steps + 1
          else steps) h }
  have hvalid : (beside (.watching config context) { config, context }
      fun clock clock' => clock'.steps = clock.steps).IsValid := isValid_beside
        rfl rfl hkeeps
  have hlogs : (beside (.watching config context) { config, context }
      fun clock clock' => clock'.steps = clock.steps).Logs := by
    rintro s _ event rfl
    rfl
  have hfunction : Region.all (.function function) := trivial
  obtain ⟨_, _, _, hcut⟩ | ⟨-, _, _, rfl, ⟨values, hok, hok'⟩ | ⟨error, herror,
      herror'⟩⟩ :=
    hvalid.invoke hlogs rfl rfl hfunction args fuel
  · exact hcut.elim
  · exact hok.trans hok'.symm
  · exact herror.trans herror'.symm

end Coupling

/-! ## The counter -/

def EngineConfig.unmetered (config : EngineConfig) : EngineConfig :=
  { config with stepBudget := 0 }

/-- The budget bounds runs: it is not zero, and the counter does not overflow before it
is above the budget. -/
structure EngineConfig.IsMetered (config : EngineConfig) : Prop where
  pos : 0 < config.stepBudget
  lt : config.stepBudget.toNat + 1 < UInt64.size

/-- The counter of the first run is the number of instructions that were dispatched in
both runs.  It is at least the given number and at most the budget. -/
structure Clock.Metered (budget least : Nat) (clock clock' : Clock) : Prop where
  least_le : least ≤ clock.steps.toNat
  le_budget : clock.steps.toNat ≤ budget
  first : (dispatchesOf clock.trace).length = clock.steps.toNat
  second : (dispatchesOf clock'.trace).length = clock.steps.toNat

theorem Clock.Metered.dispatches_le
    {budget least : Nat} {clock clock' : Clock}
    (h : Metered budget least clock clock') :
    (dispatchesOf clock.trace).length ≤ budget ∧
      (dispatchesOf clock'.trace).length ≤ budget := by
  rw [h.first, h.second]
  exact ⟨h.le_budget, h.le_budget⟩

theorem Clock.Metered.of_succ
    {budget least : Nat} {clock clock' : Clock}
    (h : Metered budget (least + 1) clock clock') :
    Metered budget least clock clock' :=
  { h with least_le := Nat.le_of_succ_le h.least_le }

namespace Coupling

variable {config : EngineConfig} {context : ContextRef} {least : Nat} {m m' : Machine}

/-- A run with a budget beside one without.  The first one is cut short where the second
one dispatches the first instruction above the budget. -/
def metered (config : EngineConfig) (context : ContextRef)
    (least : Nat) : Coupling where
  region := Region.all
  first := .watching config context
  second := .watching config.unmetered context
  Sessions := Session.Counterpart config.unmetered
  Clocks := Clock.Metered config.stepBudget.toNat least
  Common := fun cause => cause ≠ .trap .stepBudget
  Cut := fun cause m trace => cause = .trap .stepBudget ∧
    (dispatchesOf m.trace).length = config.stepBudget.toNat ∧
    ∃ s rest, s :: rest <:+ dispatchesOf trace ∧ rest.length = config.stepBudget.toNat ∧
      m.session.Counterpart config.unmetered s

theorem toNat_tick
    (hmetered : config.IsMetered)
    (hrelated : (metered config context least).Related m m') :
    ((metered config context least).first.tick m.steps).toNat = m.steps.toNat + 1 := by
  have hle : m.steps.toNat ≤ config.stepBudget.toNat := hrelated.clocks.le_budget
  have hlt := hmetered.lt
  rw [Setting.tick_of_pos _ hmetered.pos, UInt64.toNat_add]
  exact Nat.mod_eq_of_lt (Nat.lt_of_le_of_lt (Nat.succ_le_succ hle) hlt)

theorem spent_metered_iff
    (hmetered : config.IsMetered)
    (hrelated : (metered config context least).Related m m') :
    (metered config context least).first.Spent
        ((metered config context least).first.tick m.steps) ↔
      m.steps.toNat = config.stepBudget.toNat := by
  have hle : m.steps.toNat ≤ config.stepBudget.toNat := hrelated.clocks.le_budget
  have htick := toNat_tick hmetered hrelated
  constructor
  · rintro ⟨-, hspent⟩
    have hspent' : config.stepBudget.toNat < m.steps.toNat + 1 :=
      htick ▸ UInt64.lt_iff_toNat_lt.mp hspent
    omega
  · intro heq
    refine ⟨hmetered.pos, UInt64.lt_iff_toNat_lt.mpr ?_⟩
    rw [htick, heq]
    exact Nat.lt_succ_self _

theorem not_spent_unmetered (steps : UInt64) :
    ¬(metered config context least).second.Spent steps := by
  rintro ⟨hpos, -⟩
  exact absurd hpos (UInt64.lt_irrefl 0)

/-- An instruction that is within the budget is counted in both runs. -/
theorem metered_count
    (hmetered : config.IsMetered)
    (hrelated : (metered config context least).Related m m')
    (hroom : ¬(metered config context least).first.Spent
      ((metered config context least).first.tick m.steps)) (instr : Instr) :
    Clock.Metered config.stepBudget.toNat (least + 1)
      ((m.ticked (metered config context least).first).noted
        (metered config context least).first
        (.dispatched instr)).clock
      ((m'.ticked (metered config context least).second).noted
        (metered config context least).second
        (.dispatched instr)).clock := by
  obtain ⟨hleast, hle, hfirst, hsecond⟩ := hrelated.clocks
  have htick := toNat_tick hmetered hrelated
  have hne : m.steps.toNat ≠ config.stepBudget.toNat := fun heq =>
    hroom ((spent_metered_iff hmetered hrelated).mpr heq)
  exact {
    least_le := htick.symm ▸ Nat.succ_le_succ hleast
    le_budget := htick.symm ▸ Nat.lt_of_le_of_ne hle hne
    first := by
      have hdispatched := Machine.dispatchesOf_noted_dispatched
        (m.ticked (metered config context least).first)
        (metered config context least).first rfl instr
      exact (congrArg List.length hdispatched).trans
        ((congrArg Nat.succ hfirst).trans htick.symm)
    second := by
      have hdispatched := Machine.dispatchesOf_noted_dispatched
        (m'.ticked (metered config context least).second)
        (metered config context least).second rfl instr
      exact (congrArg List.length hdispatched).trans
        ((congrArg Nat.succ hsecond).trans htick.symm) }

theorem isValid_metered (hmetered : config.IsMetered) :
    (metered config context least).IsValid where
  sharing := fun hs => hs.sharing
  observe := fun event hs => hs.observe event
  admits := fun hprogram => hprogram.admits rfl rfl
  ordinary := by
    rintro _ hcause rfl
    exact hcause
  exhausted := Abort.noConfusion
  ceiling := fun depth => .of_iff Iff.rfl fun h => by cases h
  interrupt := by
    intro s s' reason hs
    refine .of_iff (iff_of_eq (congrArg (· = some reason) ?_)) fun h => by cases h
    exact hs.interruption _ _ rfl rfl
  record := by
    intro m m' moment hmoment hrelated
    obtain ⟨hleast, hle, hfirst, hsecond⟩ := hrelated.clocks
    have htrace := m.dispatchesOf_noted (metered config context least).first hmoment
    have htrace' := m'.dispatchesOf_noted (metered config context least).second hmoment
    exact ⟨hleast, hle, (congrArg List.length htrace).trans hfirst,
      (congrArg List.length htrace').trans hsecond⟩
  count := by
    intro m m' instr hrelated hroom
    exact ⟨not_spent_unmetered _, (metered_count hmetered hrelated hroom instr).of_succ⟩
  spent := by
    intro m m' instr hrelated hfull
    have hsteps := (spent_metered_iff hmetered hrelated).mp hfull
    have hnext := m'.dispatchesOf_noted_dispatched
      (metered config context least).second rfl instr
    exact .inr ⟨not_spent_unmetered _, rfl, hrelated.clocks.first.trans hsteps,
      m'.session, dispatchesOf m'.trace, ⟨[], hnext.symm⟩,
      hrelated.clocks.second.trans hsteps, hrelated.sessions⟩
  later := by
    rintro cause m trace trace' ⟨hcause, hlength, s, rest, hsuffix, hrest⟩ hlater
    exact ⟨hcause, hlength, s, rest, hsuffix.trans (dispatchesOf_suffix hlater), hrest⟩
  grows := fun _ => Reference.grows _

/-- The two runs at their beginning. -/
theorem related_metered
    {s s' : Session} (hs : s.Counterpart config.unmetered s') :
    (metered config context 0).Related { session := s } { session := s' } where
  sessions := hs
  locals := rfl
  active := rfl
  clocks := ⟨Nat.zero_le _, Nat.zero_le _, rfl, rfl⟩

/-- Both runs of a call have stayed within the budget, or the one with the budget has
stopped where the other one dispatches its first instruction above it. -/
theorem metered_call
    (hmetered : config.IsMetered) {s s' : Session}
    (hs : s.Counterpart config.unmetered s') (context : ContextRef) (function : UInt32)
    (args : List Val) (fuel : Nat) {o o' : Outcome Unit}
    (ho : Reference.call fuel (.watching config context) function { session := s }
      args = o) (ho' : Reference.call fuel (.watching config.unmetered context) function
        { session := s' } args = o') :
    (dispatchesOf o.machine.trace).length ≤ config.stepBudget.toNat ∧
      ((∃ m t, o = .halt (.trap .stepBudget) m ∧
          (dispatchesOf o'.machine.trace).reverse[config.stepBudget.toNat]? = some t ∧
          m.session.Counterpart config.unmetered t) ∨
        (∀ m, o ≠ .halt (.trap .stepBudget) m) ∧
          (dispatchesOf o'.machine.trace).length ≤ config.stepBudget.toNat) := by
  have hvalid : (metered config context 0).IsValid := isValid_metered hmetered
  have hfollows : (metered config context 0).Follows #[] o.ending o'.ending := by
    rw [← ho, ← ho']
    exact (hvalid.holds fuel).call function _ _ args trivial (related_metered hs)
  obtain ⟨cause, m, rfl, hcause, hlength, t, rest, ⟨later, hlater⟩, hrest,
      hsession⟩ | halike := hfollows.outcome
  · subst hcause
    refine ⟨Nat.le_of_eq hlength, .inl ⟨m, t, rfl, ?_, hsession⟩⟩
    rw [← hlater, List.reverse_append, List.reverse_cons, List.append_assoc, ← hrest,
      ← List.length_reverse, List.getElem?_append_right (Nat.le_refl _), Nat.sub_self]
    rfl
  · cases halike with
    | done hrelated' _ =>
        obtain ⟨hfirst, hsecond⟩ := hrelated'.clocks.dispatches_le
        refine ⟨hfirst, .inr ⟨fun m h => ?_, hsecond⟩⟩
        cases h
    | halt hcommon hhalted =>
        obtain ⟨steps, steps', hrelated'⟩ := hhalted
        obtain ⟨hfirst, hsecond⟩ := hrelated'.clocks.dispatches_le
        refine ⟨hfirst, .inr ⟨fun m h => ?_, hsecond⟩⟩
        cases h
        exact hcommon rfl

end Coupling
end WebAssembly
