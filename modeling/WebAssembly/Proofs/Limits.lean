import WebAssembly.Proofs.Counterpart

/-!
# Limits change nothing but whether a run is stopped

An engine has limits on the depth of calls and on the number of instructions, and it may
watch a context.  Under an engine that is more permissive, a run does the same as under
the first one, step by step, until the first one stops it.
-/

namespace WebAssembly

/-- Every run that the second engine stops for one of its limits was stopped by the
first one before. -/
structure EngineConfig.Permits (config config' : EngineConfig) : Prop where
  ceiling : config.ceiling ≤ config'.ceiling
  budget : config'.stepBudget = 0 ∨ 0 < config.stepBudget ∧
    config.stepBudget ≤ config'.stepBudget
  context : config'.closeOnContextDone → config.closeOnContextDone

/-- The trap of a limit. -/
inductive TrapCause.IsLimit : TrapCause → Prop
  | callStackOverflow : IsLimit .callStackOverflow
  | stepBudget : IsLimit .stepBudget
  | contextDone (reason : DoneReason) : IsLimit (.contextDone reason)

theorem Setting.tick_of_pos
    (setting : Setting) (h : 0 < setting.config.stepBudget) (steps : UInt64) :
    setting.tick steps = steps + 1 :=
  if_pos h

namespace Coupling

variable {config config' : EngineConfig} {context : ContextRef}

/-- A run under limits beside one under more permissive ones. -/
def relaxed (config config' : EngineConfig) (context : ContextRef) : Coupling where
  region := Region.all
  first := { config, context }
  second := { config := config', context }
  Sessions := Session.Counterpart config'
  Clocks := fun clock clock' => config'.stepBudget ≠ 0 → clock'.steps = clock.steps
  Common := fun _ => True
  Cut := fun cause _ _ => ∃ limit, TrapCause.IsLimit limit ∧ cause = .trap limit

theorem not_spent_relaxed
    (h : config.Permits config') {m m' : Machine}
    (hrelated : (relaxed config config' context).Related m m')
    (hroom : ¬(relaxed config config' context).first.Spent
      ((relaxed config config' context).first.tick m.steps)) :
    ¬(relaxed config config' context).second.Spent
      ((relaxed config config' context).second.tick m'.steps) := by
  rintro ⟨hpositive', hfull⟩
  have hnonzero : config'.stepBudget ≠ 0 := UInt64.pos_iff_ne_zero.mp hpositive'
  obtain hzero | ⟨hpositive, hle⟩ := h.budget
  · exact hnonzero hzero
  · have hsteps : m'.steps = m.steps := hrelated.clocks hnonzero
    refine hroom ⟨hpositive, ?_⟩
    rw [Setting.tick_of_pos _ hpositive', hsteps] at hfull
    rw [Setting.tick_of_pos _ hpositive]
    exact UInt64.lt_of_le_of_lt hle hfull

theorem isValid_relaxed (h : config.Permits config') :
    (relaxed config config' context).IsValid where
  sharing := fun hs => hs.sharing
  observe := fun event hs => hs.observe event
  admits := fun hprogram => hprogram.admits rfl rfl
  ordinary := fun _ => trivial
  exhausted := trivial
  ceiling := fun depth =>
    { both := Int.le_trans h.ceiling
      common := fun _ => trivial
      cut := fun _ _ _ _ => ⟨_, .callStackOverflow, rfl⟩ }
  interrupt := by
    intro s s' reason hs
    refine { both := ?_, common := fun _ => trivial,
             cut := fun _ _ _ _ => ⟨_, .contextDone reason, rfl⟩ }
    intro hdone
    unfold relaxed Setting.interruption at hdone ⊢
    split at hdone
    · rename_i hwatch
      rw [if_pos (h.context hwatch), ← hs.contexts.doneReason]
      exact hdone
    · cases hdone
  record := fun _ _ hrelated => hrelated.clocks
  count := by
    intro m m' instr hrelated hroom
    refine ⟨not_spent_relaxed h hrelated hroom, ?_⟩
    intro hnonzero
    obtain hzero | ⟨hpositive, -⟩ := h.budget
    · exact absurd hzero hnonzero
    · have hsteps : m'.steps = m.steps := hrelated.clocks hnonzero
      have hpositive' : 0 < config'.stepBudget := UInt64.pos_iff_ne_zero.mpr hnonzero
      have htick := Setting.tick_of_pos (relaxed config config' context).first
        hpositive m.steps
      have htick' := Setting.tick_of_pos (relaxed config config' context).second
        hpositive' m'.steps
      exact htick'.trans (hsteps ▸ htick.symm)
  spent := by
    intro m m' instr hrelated hfull
    by_cases hfull' : (relaxed config config' context).second.Spent
        ((relaxed config config' context).second.tick m'.steps)
    · exact .inl ⟨hfull', trivial⟩
    · exact .inr ⟨hfull', _, .stepBudget, rfl⟩
  later := fun hcut _ => hcut
  grows := fun _ => Reference.grows _

theorem logs_relaxed : (relaxed config config' context).Logs :=
  fun event hs => hs.observe_if _ _ event

end Coupling

namespace Session

/-- Limits are transparent.  An invocation under some limits ends with the trap of one
of them, or it gives the same results or the same error, and leaves the same store, as
under limits that are more permissive. -/
theorem invoke_transparent
    (s : Session) (hhosts : s.store.HostsWithin Command.StaysOut)
    {config config' : EngineConfig} (hpermits : config.Permits config')
    (context : ContextRef) (function : UInt32) (args : List Val) (fuel : Nat) :
    (∃ cause backtrace t, TrapCause.IsLimit cause ∧
      Engine.invoke fuel context function args (s.withEngine config) =
        .error (.trap cause backtrace) t) ∨
      SessionResult.Alike (fun t t' => t'.store = t.store.withEngine config')
        (Engine.invoke fuel context function args (s.withEngine config))
        (Engine.invoke fuel context function args (s.withEngine config')) := by
  have hs : (s.withEngine config).Counterpart config' (s.withEngine config') :=
    { store := ⟨rfl, rfl, hhosts⟩
      contexts := ⟨rfl, rfl⟩ }
  have hend : ∀ {α : Type} {result result' : SessionResult α},
      SessionResult.Alike (Session.Counterpart config') result result' →
        SessionResult.Alike (fun t t' => t'.store = t.store.withEngine config')
          result result' :=
    fun halike => halike.mono fun _ _ ht => ht.store.eq
  rw [(Engine.agrees fuel).invoke]
  cases fuel with
  | zero => exact .inr (hend (SessionResult.alike_error hs _))
  | succ fuel =>
      have hrefusal : (s.withEngine config').store.refusal function args =
          (s.withEngine config).store.refusal function args :=
        Store.refusal_congr rfl args
      rw [Reference.invoke_succ_eq rfl, Reference.invoke_succ_eq rfl, hrefusal]
      cases (s.withEngine config).store.refusal function args with
      | some error => exact .inr (hend (SessionResult.alike_error hs error))
      | none =>
          have hvalid : (Coupling.relaxed config config' context).IsValid :=
            Coupling.isValid_relaxed hpermits
          have hfunction : (Coupling.relaxed config config' context).region
              (.function function) := trivial
          obtain ⟨_, m, hhalt, limit, hlimit, rfl⟩ | ⟨-, halike⟩ :=
            hvalid.invoke Coupling.logs_relaxed hs (fun _ => rfl) hfunction args fuel
          · obtain ⟨t, htrap, -⟩ :=
              Outcome.collected_trap { config, context } function limit m
            exact .inl ⟨limit, m.active.toList.reverse, t, hlimit, hhalt ▸ htrap⟩
          · exact .inr (hend halike)

/-- A module instance with a function of the given results and body, and with a host
function, which assigns to the global of the instance. -/
def assigner (results : List ValueType) (body : List Instr) : Session where
  store := {
    functions := #[
      { kind := .host
        type := some {}
        name := "assign"
        host := some fun _ => .perform (.globalSet 0 (.ofU32 7)) fun _ => .done [] },
      { kind := .wasm
        type := some ⟨[], results⟩
        name := "work"
        body }]
    globals := #[⟨⟨.i32, true⟩, .ofU32 0⟩]
    modules := #[
      { name := "unit", addr := 0, types := [], functions := [0, 1], tables := [],
        memories := [], globals := [0]
        exports := [] }] }

theorem hostsWithin_assigner (results : List ValueType) (body : List Instr) :
    (assigner results body).store.HostsWithin Command.StaysOut := by
  intro f hf host hhost params
  simp only [assigner, List.mem_toArray, List.mem_cons, List.not_mem_nil,
    or_false] at hf
  obtain rfl | rfl := hf
  · obtain rfl := Option.some.inj hhost
    exact .perform (Command.staysOut_of_request fun _ => rfl)
      (fun _ _ _ => Command.noConfusion) fun _ => .done
  · cases hhost

/-- Two active calls and two instructions are enough for a function that calls the host
function and reads the global, and more make no difference to it. -/
theorem assigner_transparent :
    ∃ t t', Engine.invoke 9 .background 1 []
        ((assigner [.i32] [.call 0, .globalGet 0]).withEngine ⟨2, 2, true, false⟩) =
          .ok [.ofU32 7] t ∧
      Engine.invoke 9 .background 1 []
        ((assigner [.i32] [.call 0, .globalGet 0]).withEngine {}) = .ok [.ofU32 7] t' ∧
      t'.store = t.store.withEngine {} := by
  have hruns : (match Engine.invoke 9 .background 1 []
        ((assigner [.i32] [.call 0, .globalGet 0]).withEngine ⟨2, 2, true, false⟩) with
      | .ok values _ => values == [.ofU32 7]
      | .error _ _ => false) = true := by decide +kernel
  have hpermits : EngineConfig.Permits ⟨2, 2, true, false⟩ {} :=
    { ceiling := by decide
      budget := .inl rfl
      context := fun h => by cases h }
  have hhosts := hostsWithin_assigner [.i32] [.call 0, .globalGet 0]
  generalize assigner [.i32] [.call 0, .globalGet 0] = s, 9 = fuel at *
  obtain ⟨cause, backtrace, t, -, htrap⟩ | ⟨t, t', hstore,
      ⟨values, hok, hok'⟩ | ⟨error, herror, -⟩⟩ :=
    invoke_transparent s hhosts hpermits .background 1 [] fuel
  · rw [htrap] at hruns
    cases hruns
  · rw [hok] at hruns
    obtain rfl : values = [.ofU32 7] := eq_of_beq hruns
    exact ⟨t, t', hok, hok', hstore⟩
  · rw [herror] at hruns
    cases hruns

end Session
end WebAssembly
