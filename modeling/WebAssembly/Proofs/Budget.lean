import WebAssembly.Proofs.Metering

/-!
# A budget bounds every run

Blocks, restarts of loops and calls are not counted themselves, but no loop is restarted
and no call is made without an instruction that is.  So an evaluation with a budget
comes to an end: the number of instructions that are left decides over loops and calls,
and between two of them the code becomes shorter.
-/

namespace WebAssembly

/-! ## Evaluations that come to an end -/

/-- From some bound on, the code has ended, and always in the same way. -/
def Settles (evaluate : Nat → Ending × Machine) : Prop :=
  ∃ p : Ending × Machine, p.1 ≠ .halt .exhausted ∧ ∃ bound, ∀ fuel, bound ≤ fuel →
    evaluate fuel = p

namespace Settles

variable {evaluate evaluate' : Nat → Ending × Machine}

theorem now
    {p : Ending × Machine} (hp : p.1 ≠ .halt .exhausted) : Settles fun _ => p :=
  ⟨p, hp, 0, fun _ _ => rfl⟩

theorem succ
    (h : Settles evaluate) (heq : ∀ fuel, evaluate' (fuel + 1) = evaluate fuel) :
    Settles evaluate' := by
  obtain ⟨p, hp, bound, hbound⟩ := h
  refine ⟨p, hp, bound + 1, fun fuel hfuel => ?_⟩
  obtain ⟨fuel, rfl⟩ := Nat.exists_eq_add_of_le' hfuel
  rw [← Nat.add_assoc, heq]
  exact hbound _ (Nat.le_add_left _ _)

/-- Code goes on after a part of it that comes to an end. -/
theorem after
    (h : Settles evaluate) (next : Nat → Ending × Machine → Ending × Machine)
    (hnext : ∀ fuel, (evaluate fuel).1 ≠ .halt .exhausted → Settles fun larger =>
      next larger (evaluate fuel)) :
    Settles fun fuel => next fuel (evaluate fuel) := by
  obtain ⟨p, hp, bound, hbound⟩ := h
  have hp' := hbound bound (Nat.le_refl bound)
  obtain ⟨q, hq, bound', hbound'⟩ := hnext bound (hp'.symm ▸ hp)
  refine ⟨q, hq, max bound bound', fun fuel hfuel => ?_⟩
  calc
    next fuel (evaluate fuel) = next fuel (evaluate bound) := by
      rw [hbound fuel (by omega), hp']
    _ = q := hbound' fuel (by omega)

end Settles

theorem Outcome.ending_inj
    {o o' : Outcome Unit} (h : o.ending = o'.ending) : o = o' := by
  cases o with
  | done a operands m =>
      cases o' with
      | done a' operands' m' =>
          cases h
          rfl
      | halt => cases h
  | halt cause m =>
      cases o' with
      | done => cases h
      | halt cause' m' =>
          cases h
          rfl

/-! ## Single steps are not exhausted -/

namespace Coupling

variable {c : Coupling} {m m' : Machine} {active : Array String} {α : Type}

/-- The coupling in which every cause is common but that a bound was reached. -/
def sober (c : Coupling) : Coupling :=
  { c with Common := fun cause => cause ≠ .exhausted }

theorem related_sober : c.sober.Related m m' ↔ c.Related m m' :=
  ⟨fun h => { h with }, fun h => { h with }⟩

theorem isSteady_sober (h : c.IsSteady) : c.sober.IsSteady where
  sharing := h.sharing
  observe := h.observe
  admits := h.admits
  ordinary := by
    rintro _ hcause rfl
    exact hcause
  ceiling := fun depth =>
    { both := (h.ceiling depth).both
      common := fun _ => Abort.noConfusion
      cut := (h.ceiling depth).cut }
  interrupt := fun reason hs =>
    { both := (h.interrupt reason hs).both
      common := fun _ => Abort.noConfusion
      cut := (h.interrupt reason hs).cut }
  record := fun moment hmoment hrelated =>
    h.record moment hmoment (related_sober.mp hrelated)
  count := fun instr hrelated => h.count instr (related_sober.mp hrelated)
  spent := by
    intro m m' instr hrelated hfull
    obtain ⟨hsecond, -⟩ | hcut := h.spent instr (related_sober.mp hrelated) hfull
    · exact .inl ⟨hsecond, Abort.noConfusion⟩
    · exact .inr hcut

/-- The step is done in a machine that is in step with another one, or it has halted and
is not exhausted. -/
def Lasts (c : Coupling) (P : α → Array String → Prop) (o : Outcome α) : Prop :=
  (∃ cause n, o = .halt cause n ∧ cause ≠ .exhausted) ∨
    ∃ a operands n n', o = .done a operands n ∧ c.Related n n' ∧ P a n.active

theorem Lasts.ne_exhausted
    {P : Unit → Array String → Prop} {o : Outcome Unit} (h : c.Lasts P o) :
    o.ending.1 ≠ .halt .exhausted := by
  obtain ⟨cause, n, rfl, hcause⟩ | ⟨_, _, _, _, rfl, -, -⟩ := h
  · exact fun h => hcause (Ending.halt.inj h)
  · exact Ending.noConfusion

theorem Lasts.not_isExhausted_report
    {P : α → Array String → Prop} {o : Outcome α} (h : c.Lasts P o)
    (setting : Setting) :
    ¬(o.report setting).IsExhausted := by
  rintro ⟨t, hexhausted⟩
  obtain ⟨cause, n, rfl, hcause⟩ | ⟨_, _, _, _, rfl, -, -⟩ := h
  · cases cause with
    | trap | bug => cases hexhausted
    | exhausted => exact hcause rfl
  · cases hexhausted

theorem Alike.lasts
    {P : α → Array String → Prop} {o o' : Outcome α}
    (h : c.sober.Alike P o o') : c.Lasts P o := by
  cases h with
  | done hrelated ha => exact .inr ⟨_, _, _, _, rfl, related_sober.mp hrelated, ha⟩
  | halt hcommon _ => exact .inl ⟨_, _, rfl, hcommon⟩

theorem Pairs.lasts
    {P : α → Array String → Prop} {x y : Exec α} (h : c.sober.Pairs active P x y)
    (hcut : ∀ {cause n trace}, c.Cut cause n trace → cause ≠ .exhausted)
    (hrelated : c.Related m m') (hactive : m.active = active) (operands : List Val) :
    c.Lasts P (x.alone m operands) := by
  obtain ⟨cause, n, hhalt, hcuts⟩ | halike :=
    h.alone (related_sober.mpr hrelated) hactive operands
  · exact .inl ⟨cause, n, hhalt, hcut (hcuts [])⟩
  · exact halike.lasts

theorem Follows.related
    {p q : Ending × Machine} (h : c.Follows active p q)
    (hp : ∀ cause, p.1 ≠ .halt cause) : c.Related p.2 q.2 := by
  cases h with
  | same _ hrelated _ => exact hrelated
  | halt => exact absurd rfl (hp _)
  | cut => exact absurd rfl (hp _)

end Coupling

theorem Ending.IsOrdinary.ne_exhausted
    {ending : Ending} (h : ending.IsOrdinary) : ending ≠ .halt .exhausted := by
  rintro rfl
  exact h

/-! ## Evaluations with a budget -/

namespace Reference

open Coupling

variable {config : EngineConfig} {context : ContextRef} {least : Nat} {m m' : Machine}

theorem isSteady_metered (hmetered : config.IsMetered) :
    (metered config context least).sober.IsSteady :=
  isSteady_sober (isValid_metered hmetered).toIsSteady

theorem lasts_dispatch
    (hmetered : config.IsMetered)
    (hrelated : (metered config context least).Related m m') (module : UInt32)
    (instr : Instr) (operands : List Val) :
    (metered config context (least + 1)).Lasts
      (fun transfer names => transfer.Within Region.all ∧ names = m.active)
      ((Exec.dispatch (.watching config context) module instr).alone m operands) := by
  rw [Exec.dispatch_alone]
  by_cases hspent : (Setting.watching config context).Spent
    ((Setting.watching config context).tick m.steps)
  · rw [if_pos hspent]
    exact .inl ⟨_, _, rfl, Abort.noConfusion⟩
  · rw [if_neg hspent]
    have hrelated' : (metered config context (least + 1)).sober.Related
        ((m.ticked (.watching config context)).noted (.watching config context)
          (.dispatched instr))
        ((m'.ticked (.watching config.unmetered context)).noted
          (.watching config.unmetered context)
          (.dispatched instr)) :=
      { sessions := hrelated.sessions
        locals := hrelated.locals
        active := hrelated.active
        clocks := metered_count hmetered hrelated hspent instr }
    have hshared : ∀ s s' W, (metered config context (least + 1)).sober.Sessions s s' →
        Sharing Region.all s.store W →
        Exec.Shared W (fun transfer => transfer.Within Region.all)
          (Exec.transfer module instr) :=
      fun _ _ _ _ hshare => Exec.shared_transfer hshare trivial instr
    exact ((isSteady_metered hmetered).alike_of_shared hshared hrelated' operands).lasts

theorem cut_ne_exhausted
    {cause : Abort} {n : Machine} {trace : List (Moment × Session)}
    (h : (metered config context least).Cut cause n trace) : cause ≠ .exhausted := by
  obtain ⟨rfl, -⟩ := h
  exact Abort.noConfusion

theorem lasts_restart
    (hmetered : config.IsMetered)
    (hrelated : (metered config context least).Related m m') (operands : List Val) :
    (metered config context least).Lasts (Stays m.active)
      ((Exec.restart (.watching config context)).alone m operands) := by
  exact (isSteady_metered hmetered).pairs_restart.lasts cut_ne_exhausted hrelated
    rfl operands

theorem lasts_summon
    (hmetered : config.IsMetered)
    (hrelated : (metered config context least).Related m m') (function : UInt32)
    (operands : List Val) :
    (metered config context least).Lasts
      (fun summons names => (metered config context least).Serves summons ∧
        names = m.active.push summons.name)
      ((Exec.summon (.watching config context) function).alone m operands) := by
  have hfunction : (metered config context least).sober.region (.function function) :=
    trivial
  exact ((isSteady_metered hmetered).pairs_summon hfunction).lasts cut_ne_exhausted
    hrelated rfl operands

theorem lasts_finishCall
    (hmetered : config.IsMetered)
    (hrelated : (metered config context least).Related m m') (function : UInt32)
    {active : Array String} {name : String} (hactive : m.active = active.push name)
    (hostEnd : HostEnd) (operands : List Val) :
    (metered config context least).Lasts (Stays active)
      ((Exec.finishCall (.watching config context) function name hostEnd).alone m
        operands) := by
  have hfunction : (metered config context least).sober.region (.function function) :=
    trivial
  exact ((isSteady_metered hmetered).pairs_finishCall hfunction name hostEnd).lasts
    cut_ne_exhausted hrelated hactive
    operands

/-- An instruction that does not halt the run was counted. -/
theorem related_instruction
    (hmetered : config.IsMetered)
    (hrelated : (metered config context least).Related m m') (fuel : Nat)
    (scope : Scope) (instr : Instr) (operands : List Val) (hends : ∀ cause,
      (instruction fuel (scope.under (.watching config context)) instr m operands).1 ≠
        .halt cause) :
    ∃ n', (metered config context (least + 1)).Related
      (instruction fuel (scope.under (.watching config context)) instr m
        operands).2 n' := by
  cases fuel with
  | zero => exact absurd rfl (hends _)
  | succ fuel =>
      have hvalid : (metered config context (least + 1)).IsValid :=
        isValid_metered hmetered
      rw [instruction] at hends ⊢
      obtain ⟨cause, n, hhalt, -⟩ | ⟨transfer, operands', n, n', hdone, hrelated', -⟩ :=
        lasts_dispatch hmetered hrelated scope.module instr operands
      · simp only [Scope.under, hhalt] at hends
        exact absurd rfl (hends cause)
      · simp only [Scope.under, hdone] at hends ⊢
        cases transfer with
        | next | branch | ret => exact ⟨n', hrelated'⟩
        | enter isLoop params results body =>
            have hblock := (hvalid.holds fuel).block scope isLoop params results body n
              n' operands' trivial hrelated'
            exact ⟨_, hblock.related hends⟩
        | call function =>
            have hcall := (hvalid.holds fuel).call function n n' operands'
              trivial hrelated'
            exact ⟨_, hcall.related hends⟩

/-- Code that leaves for a label has dispatched an instruction. -/
theorem related_sequence
    (hmetered : config.IsMetered)
    (hrelated : (metered config context least).Related m m') (fuel : Nat)
    (scope : Scope) (body : List Instr) (operands : List Val) (depth : Nat)
    (carried : List Val) (n : Machine)
    (hends : sequence fuel (scope.under (.watching config context)) body m operands =
      (.branch depth carried, n)) : ∃ n',
        (metered config context (least + 1)).Related n n' := by
  cases fuel with
  | zero => cases hends
  | succ fuel =>
      cases body with
      | nil => cases hends
      | cons instr rest =>
          have hfirst := related_instruction hmetered hrelated fuel scope instr operands
          rw [sequence] at hends
          generalize instruction fuel (scope.under (.watching config context)) instr m
            operands = p at *
          obtain ⟨ending, n₁⟩ := p
          cases ending with
          | normal operands' =>
              obtain ⟨n₁', hrelated₁⟩ := hfirst fun _ => Ending.noConfusion
              have hvalid : (metered config context (least + 1)).IsValid :=
                isValid_metered hmetered
              have hrest := (hvalid.holds fuel).sequence scope rest n₁ n₁' operands'
                trivial hrelated₁
              generalize sequence fuel
                (scope.under (metered config context (least + 1)).second) rest n₁'
                  operands' = q
                at hrest
              have hleaves : (metered config context (least + 1)).Follows n₁.active
                  (.branch depth carried, n) q :=
                hends ▸ hrest
              exact ⟨q.2, hleaves.related fun _ => Ending.noConfusion⟩
          | branch =>
              obtain ⟨-, rfl⟩ := Prod.mk.inj hends
              exact hfirst fun _ => Ending.noConfusion
          | ret | halt => cases hends

/-- Code that begins with at least so many instructions counted comes to an end. -/
structure Settled (config : EngineConfig) (context : ContextRef)
    (least : Nat) : Prop where
  instruction : ∀ (scope : Scope) instr m m' operands,
    (metered config context least).Related m m' →
    Settles fun fuel => instruction fuel (scope.under (.watching config context))
      instr m operands
  sequence : ∀ (scope : Scope) body m m' operands,
    (metered config context least).Related m m' →
    Settles fun fuel => sequence fuel (scope.under (.watching config context))
      body m operands
  block : ∀ (scope : Scope) isLoop params results body m m' operands,
    (metered config context least).Related m m' →
    Settles fun fuel =>
      block fuel (scope.under (.watching config context)) isLoop params results
        body m operands
  call : ∀ function m m' operands, (metered config context least).Related m m' →
    Settles fun fuel =>
      (call fuel (.watching config context) function m operands).ending

section Settling

variable (hmetered : config.IsMetered) (ih : Settled config context (least + 1))
  (hrelated : (metered config context least).Related m m')
include hmetered ih hrelated

theorem settles_instruction (scope : Scope) (instr : Instr) (operands : List Val) :
    Settles fun fuel => instruction fuel (scope.under (.watching config context)) instr
      m operands := by
  obtain ⟨cause, n, hhalt, hcause⟩ | ⟨transfer, operands', n, n', hdone,
      hrelated', -⟩ :=
    lasts_dispatch hmetered hrelated scope.module instr operands
  · have hend : Ending.halt cause ≠ .halt .exhausted := fun h =>
        hcause (Ending.halt.inj h)
    refine (Settles.now (p := (.halt cause, n)) hend).succ fun fuel => ?_
    simp only [instruction, Scope.under, hhalt]
  · cases transfer with
    | next =>
        refine (Settles.now (p := (.normal operands', n)) Ending.noConfusion).succ
          fun fuel => ?_
        simp only [instruction, Scope.under, hdone]
    | enter isLoop params results body =>
        refine (ih.block scope isLoop params results body n n' operands' hrelated').succ
          fun fuel => ?_
        simp only [instruction, Scope.under, hdone]
    | branch label =>
        have hend := (scope.isOrdinary_branch label operands').ne_exhausted
        refine (Settles.now (p := (scope.branch label operands', n)) hend).succ
          fun fuel => ?_
        simp only [instruction, Scope.under, hdone]
        rfl
    | ret =>
        have hend := (scope.isOrdinary_ret operands').ne_exhausted
        refine (Settles.now (p := (scope.ret operands', n)) hend).succ fun fuel => ?_
        simp only [instruction, Scope.under, hdone]
        rfl
    | call function =>
        refine (ih.call function n n' operands' hrelated').succ fun fuel => ?_
        simp only [instruction, Scope.under, hdone]

theorem settles_sequence (scope : Scope) (body : List Instr) (operands : List Val) :
    Settles fun fuel => sequence fuel (scope.under (.watching config context)) body m
      operands := by
  cases body with
  | nil =>
      exact (Settles.now (p := (.normal operands, m)) Ending.noConfusion).succ
        fun _ => rfl
  | cons instr rest =>
      refine ((settles_instruction hmetered ih hrelated scope instr operands).after
        (fun fuel => Ending.andThen
          (sequence fuel (scope.under (.watching config context)) rest)) ?_).succ
        fun _ => rfl
      intro fuel hend
      have hfirst := related_instruction hmetered hrelated fuel scope instr operands
      generalize instruction fuel (scope.under (.watching config context)) instr m
        operands = p at *
      obtain ⟨ending, n⟩ := p
      cases ending with
      | normal operands' =>
          -- The instruction was counted, so fewer of them are left for the rest.
          obtain ⟨n', hrelated'⟩ := hfirst fun _ => Ending.noConfusion
          exact ih.sequence scope rest n n' operands' hrelated'
      | branch | ret | halt => exact .now hend

theorem settles_block (scope : Scope) (isLoop : Bool) (params results : Nat)
    (body : List Instr) (operands : List Val) :
    Settles fun fuel =>
      block fuel (scope.under (.watching config context)) isLoop params results body m
        operands := by
  cases htop : topmost params operands with
  | none =>
      refine (Settles.now (p := (.halt (.bug .noValue), m)) (by simp)).succ
        fun fuel => ?_
      simp only [block, htop]
  | some parts =>
      obtain ⟨below, args⟩ := parts
      have hbody := settles_sequence hmetered ih hrelated
        (scope.inside (if isLoop then params else results)) body args
      refine (hbody.after (fun fuel =>
        Ending.outOfBlock (.watching config context) isLoop results below
        (block fuel (scope.under (.watching config context)) isLoop params results
          body)) ?_).succ fun fuel => ?_
      · intro fuel hend
        have hleaves := related_sequence hmetered hrelated fuel
          (scope.inside (if isLoop then params else results)) body args
        generalize sequence fuel _ body m args = p at *
        obtain ⟨ending, n⟩ := p
        cases ending with
        | normal operands' =>
            exact .now (Ending.isOrdinary_fallThrough results below
              operands').ne_exhausted
        | ret | halt => exact .now hend
        | branch depth carried =>
            cases depth with
            | succ depth => exact .now Ending.noConfusion
            | zero =>
                by_cases hloop : isLoop
                · -- The exit to the label of the loop was counted, so fewer
                  -- instructions are left for the next round.
                  obtain ⟨n', hrelated'⟩ := hleaves 0 carried n rfl
                  simp only [Ending.outOfBlock, if_pos hloop]
                  obtain ⟨cause, k, hhalt, hcause⟩ | ⟨_, operands', k, k', hdone,
                      hrelated'', -⟩ :=
                    lasts_restart hmetered hrelated' (below ++ carried)
                  · rw [hhalt]
                    exact .now fun h => hcause (Ending.halt.inj h)
                  · rw [hdone]
                    exact ih.block scope isLoop params results body k k'
                      operands' hrelated''
                · simp only [Ending.outOfBlock, if_neg hloop]
                  exact .now Ending.noConfusion
      · simp only [block, htop]
        rfl

theorem settles_call (function : UInt32) (operands : List Val) :
    Settles fun fuel =>
      (call fuel (.watching config context) function m operands).ending := by
  obtain ⟨cause, n, hhalt, hcause⟩ | ⟨summons, operands', n, n', hdone, hrelated',
      hserves, hactive⟩ :=
    lasts_summon hmetered hrelated function operands
  · have hend : Ending.halt cause ≠ .halt .exhausted := fun h =>
        hcause (Ending.halt.inj h)
    refine (Settles.now (p := (.halt cause, n)) hend).succ fun fuel => ?_
    simp only [call, hhalt]
    rfl
  · cases summons with
    | host name program =>
        obtain ⟨hostEnd, t, t', ht, bound, hbound⟩ :=
          host_ends context (hserves.staysOut rfl) hrelated'.sessions
        have hrelated'' : (metered config context least).Related { n with session := t }
          { n' with session := t' } :=
          { sessions := ht
            locals := hrelated'.locals
            active := hrelated'.active
            clocks := hrelated'.clocks }
        have hfinish := lasts_finishCall hmetered hrelated'' function hactive
          hostEnd operands'
        have hcall : Settles fun fuel =>
            (Outcome.ofHost (.watching config context) function name n operands'
            (host fuel context program n.session)).ending := by
          refine ⟨((Exec.finishCall (.watching config context) function name
            hostEnd).alone { n with session := t }
            operands').ending, ?_, bound, fun fuel hfuel => ?_⟩
          · exact hfinish.ne_exhausted
          · exact congrArg (fun result =>
              (Outcome.ofHost _ function name n operands' result).ending)
              (hbound fuel hfuel)
        refine hcall.succ fun fuel => ?_
        simp only [call, hdone]
    | body f arity params =>
        have hstart : (metered config context least).Related
            { n with locals := (params ++ f.locals.map Val.zero).toArray }
            { n' with locals := (params ++ f.locals.map Val.zero).toArray } :=
          { sessions := hrelated'.sessions
            locals := rfl
            active := hrelated'.active
            clocks := hrelated'.clocks }
        have hbody := settles_sequence hmetered ih hstart
          (.ofBody (.watching config context) f arity) f.body []
        refine (hbody.after (fun _ p =>
          (Ending.outOfBody (.watching config context) f.name arity n.locals
          operands' p).ending) ?_).succ fun fuel => ?_
        · intro fuel hend
          have hends := endsBody_sequence fuel (.watching config context) f arity
            { n with locals := (params ++ f.locals.map Val.zero).toArray }
          generalize hp : sequence fuel _ f.body _ [] = p at *
          obtain ⟨ending, k⟩ := p
          have hsame : sequence fuel (.ofBody (.watching config context) f arity) f.body
            { n with locals := (params ++ f.locals.map Val.zero).toArray } [] =
              (ending, k) := hp
          rw [hsame] at hends
          apply Settles.now
          rw [Ending.outOfBody]
          cases hresults : ending.results f.name arity with
          | ok results =>
              simp only [Exec.exit_alone]
              exact Ending.noConfusion
          | error cause =>
              obtain rfl | rfl := hends.results_eq_error hresults
              · exact hend
              · exact fun h => by cases h
        · simp only [call, hdone]
          rfl

end Settling

/-- The induction is on the number of instructions that are left. -/
theorem settled (hmetered : config.IsMetered) (context : ContextRef) (left : Nat) :
    Settled config context (config.stepBudget.toNat + 1 - left) := by
  induction left with
  | zero =>
      have hnone : ∀ {m m'},
          ¬(metered config context (config.stepBudget.toNat + 1)).Related m m' := by
        intro m m' hrelated
        have hleast := hrelated.clocks.least_le
        have hle := hrelated.clocks.le_budget
        omega
      exact {
        instruction := fun _ _ _ _ _ hrelated => absurd hrelated hnone
        sequence := fun _ _ _ _ _ hrelated => absurd hrelated hnone
        block := fun _ _ _ _ _ _ _ _ hrelated => absurd hrelated hnone
        call := fun _ _ _ _ hrelated => absurd hrelated hnone }
  | succ left ih =>
      by_cases hleft : left ≤ config.stepBudget.toNat
      · have hsucc : config.stepBudget.toNat + 1 - left = config.stepBudget.toNat +
            1 - (left + 1) + 1 := by omega
        rw [hsucc] at ih
        exact {
          instruction := fun scope instr _ _ operands hrelated =>
            settles_instruction hmetered ih hrelated scope instr operands
          sequence := fun scope body _ _ operands hrelated =>
            settles_sequence hmetered ih hrelated scope body operands
          block := fun scope isLoop params results body _ _ operands hrelated =>
            settles_block hmetered ih hrelated scope isLoop params results body operands
          call := fun function _ _ operands hrelated =>
            settles_call hmetered ih hrelated function operands }
      · have hsame : config.stepBudget.toNat + 1 - (left + 1) =
            config.stepBudget.toNat + 1 - left := by omega
        rw [hsame]
        exact ih

/-! ## Invocations with a budget -/

theorem persists_call
    {fuel larger : Nat} (hle : fuel ≤ larger) (setting : Setting) (function : UInt32)
    (m : Machine) (operands : List Val) :
    Outcome.Persists (call fuel setting function m operands)
      (call larger setting function m operands) := by
  induction hle with
  | refl => exact .inr rfl
  | step _ ih =>
      obtain hexhausted | hsame := ih
      · exact .inl hexhausted
      · rw [← hsame]
        exact (stable _).call setting function m operands

variable {s s' : Session} (hmetered : config.IsMetered)
  (hs : s.Counterpart config.unmetered s')
include hmetered hs

/-- The call of a function comes to an end. -/
theorem exists_outcome (context : ContextRef) (function : UInt32) (args : List Val) :
    ∃ o : Outcome Unit, o.ending.1 ≠ .halt .exhausted ∧
      ∃ bound, ∀ fuel, bound ≤ fuel →
        call fuel (.watching config context) function { session := s } args = o := by
  have hsettled := settled hmetered context (config.stepBudget.toNat + 1)
  rw [Nat.sub_self] at hsettled
  obtain ⟨p, hp, bound, hbound⟩ := hsettled.call function _ _ args (related_metered hs)
  have hfirst : (call bound (.watching config context) function { session := s }
    args).ending = p :=
    hbound bound (Nat.le_refl bound)
  refine ⟨call bound (.watching config context) function { session := s } args, ?_,
    bound, fun fuel hfuel => ?_⟩
  · rw [hfirst]
    exact hp
  · exact Outcome.ending_inj ((hbound fuel hfuel).trans hfirst.symm)

/-- Neither is the invocation exhausted if the call was not. -/
theorem not_isExhausted_collected
    (fuel : Nat) (function : UInt32) (args : List Val) {o : Outcome Unit}
    (ho : call fuel (.watching config context) function { session := s } args = o)
    (hends : o.ending.1 ≠ .halt .exhausted) :
    ¬(o.collected (.watching config context) function).IsExhausted := by
  rintro ⟨t, hexhausted⟩
  cases o with
  | halt cause n =>
      cases cause with
      | trap | bug => cases hexhausted
      | exhausted => exact hends rfl
  | done a operands n =>
      have hvalid : (metered config context 0).IsValid := isValid_metered hmetered
      have hfollows := (hvalid.holds fuel).call function _ _ args trivial
        (related_metered hs)
      generalize (call fuel (metered config context 0).second function { session := s' }
        args).ending = q at hfollows
      have hends : (metered config context 0).Follows #[] (.normal operands, n) q := by
        have hnormal : (call fuel (metered config context 0).first function
            { session := s } args).ending =
          (.normal operands, n) := congrArg Outcome.ending ho
        exact hnormal ▸ hfollows
      have hrelated := hends.related fun _ => Ending.noConfusion
      have hshared : ∀ s s' W, (metered config context 0).sober.Sessions s s' →
          Sharing Region.all s.store W →
          Exec.Shared W (fun _ => True) (Exec.collect function) :=
        fun _ _ _ _ hshare => Exec.shared_collect hshare trivial
      have hcollect := (isSteady_metered hmetered).alike_of_shared hshared
        (related_sober.mpr hrelated) operands
      exact hcollect.lasts.not_isExhausted_report _ ⟨t, hexhausted⟩

/-- Only a call that has spent its budget is reported as one. -/
theorem spent_of_collected
    (fuel : Nat) (function : UInt32) (args : List Val) {o : Outcome Unit}
    (ho : call fuel (.watching config context) function { session := s } args = o)
    {backtrace : List String} {t : Session}
    (htrap : o.collected (.watching config context) function =
      .error (.trap .stepBudget backtrace) t) :
    ∃ m, o = .halt (.trap .stepBudget) m := by
  have hvalid : (metered config context 0).IsValid := isValid_metered hmetered
  have hlogs : (metered config context 0).Logs := fun event hs =>
    hs.observe_if _ _ event
  have hfunction : (metered config context 0).region (.function function) := trivial
  subst ho
  obtain ⟨cause, m, hhalt, rfl, -⟩ | ⟨hreports, -⟩ :=
    hvalid.invoke hlogs hs (related_metered hs).clocks hfunction args fuel
  · exact ⟨m, hhalt⟩
  · exact absurd rfl (hreports _ _ _ htrap)

/-- A call that has spent its budget is followed by one that goes on to dispatch
more. -/
theorem dispatched_of_spent
    {fuel : Nat} {function : UInt32} {args : List Val} {m : Machine}
    (hspent : call fuel (.watching config context) function { session := s } args =
      .halt (.trap .stepBudget) m) :
    config.stepBudget.toNat <
      (dispatchesOf (call fuel (.watching config.unmetered context) function
        { session := s' }
        args).machine.trace).length := by
  obtain ⟨-, ⟨_, t, -, hdispatched, -⟩ | ⟨hnever, -⟩⟩ :=
    metered_call hmetered hs context function args fuel rfl rfl
  · obtain ⟨hlt, -⟩ := List.getElem?_eq_some_iff.mp hdispatched
    rw [List.length_reverse] at hlt
    exact hlt
  · exact absurd hspent (hnever m)

/-- Where the call without a budget dispatches more, the one with the budget has spent
it, and has come as far. -/
theorem spent_of_dispatched
    {function : UInt32} {args : List Val} {o : Outcome Unit} {bound : Nat}
    (hbound : ∀ fuel, bound ≤ fuel →
      call fuel (.watching config context) function { session := s } args = o)
    {fuel : Nat} {t : Session}
    (hdispatched : (dispatchesOf (call fuel (.watching config.unmetered context)
      function { session := s' }
        args).machine.trace).reverse[config.stepBudget.toNat]? = some t) :
    ∃ m, o = .halt (.trap .stepBudget) m ∧
      m.session.Counterpart config.unmetered t := by
  obtain ⟨-, ⟨m, t', hhalt, hdispatched', ht'⟩ | ⟨-, hlength⟩⟩ :=
    metered_call hmetered hs context function args fuel rfl rfl
  · obtain rfl : t' = t := Option.some.inj (hdispatched'.symm.trans hdispatched)
    have hlarger := persists_call (Nat.le_max_left fuel bound)
      (.watching config context) function { session := s } args
    rw [hbound _ (Nat.le_max_right fuel bound), hhalt] at hlarger
    obtain ⟨_, hexhausted⟩ | hsame := hlarger
    · cases hexhausted
    · exact ⟨m, hsame, ht'⟩
  · obtain ⟨hlt, -⟩ := List.getElem?_eq_some_iff.mp hdispatched
    rw [List.length_reverse] at hlt
    exact absurd hlt (Nat.not_lt.mpr hlength)

theorem trap_of_dispatched
    {function : UInt32} {args : List Val} {o : Outcome Unit} {bound : Nat}
    (hbound : ∀ fuel, bound ≤ fuel →
      call fuel (.watching config context) function { session := s } args = o)
    {fuel : Nat} {t : Session}
    (hdispatched : (dispatchesOf (call fuel (.watching config.unmetered context)
      function { session := s' }
        args).machine.trace).reverse[config.stepBudget.toNat]? = some t) :
    ∃ backtrace r, o.collected (.watching config context) function =
        .error (.trap .stepBudget backtrace) r ∧
      t.store = r.store.withEngine config.unmetered := by
  obtain ⟨m, rfl, ht⟩ := spent_of_dispatched hmetered hs hbound hdispatched
  obtain ⟨r, htrap, hstore⟩ :=
    Outcome.collected_trap (.watching config context) function .stepBudget m
  refine ⟨_, r, htrap, ?_⟩
  rw [hstore]
  exact ht.store.eq

end Reference

theorem Store.refusal_ne
    {s : Store} {function : UInt32} {args : List Val} {error : Error}
    (h : s.refusal function args = some error) :
    error ≠ .exhausted ∧ ∀ backtrace, error ≠ .trap .stepBudget backtrace := by
  unfold refusal at h
  split at h
  · cases h
    exact ⟨Error.noConfusion, fun _ => Error.noConfusion⟩
  · split at h
    · cases h
      exact ⟨Error.noConfusion, fun _ => Error.noConfusion⟩
    · split at h
      · cases h
        exact ⟨Error.noConfusion, fun _ h => by cases h⟩
      · cases h

/-- The invocation of a function that is called, seen as a run that is watched. -/
theorem Engine.invoke_watched
    {s : Session} {config : EngineConfig} (hengine : s.store.engine = some config)
    {function : UInt32} {args : List Val}
    (hcalled : s.store.refusal function args = none) (context : ContextRef)
    (fuel : Nat) :
    invoke (fuel + 1) context function args s =
      (Reference.call fuel (.watching config context) function { session := s }
        args).collected
        (.watching config context) function := by
  rw [(agrees (fuel + 1)).invoke, Reference.invoke_succ_eq hengine, hcalled,
    Coupling.collected_watched]

namespace Session

/-- A budget bounds every run.  With a budget, an invocation comes to an end and
dispatches no more instructions than its budget.  It traps because the budget is spent
if and only if the same run without a budget dispatches more instructions, and then its
store is that of the run without a budget when it has carried out as many instructions
as the budget allows and dispatches the next one. -/
theorem invoke_within_budget
    (s : Session) (hhosts : s.store.HostsWithin Command.StaysOut)
    {config : EngineConfig} (hmetered : config.IsMetered) (context : ContextRef)
    (function : UInt32) (args : List Val) :
    (∃ result : SessionResult (List Val), ¬result.IsExhausted ∧
      (∃ bound, ∀ fuel, bound ≤ fuel →
        Engine.invoke fuel context function args (s.withEngine config) = result) ∧
      ((∃ backtrace t, result = .error (.trap .stepBudget backtrace) t) ↔
        ∃ fuel, config.stepBudget.toNat <
          (Engine.history fuel context function args
            (s.withEngine config.unmetered)).length) ∧
      ∀ fuel t,
        (Engine.history fuel context function args
            (s.withEngine config.unmetered))[config.stepBudget.toNat]? = some t →
          ∃ backtrace r, result = .error (.trap .stepBudget backtrace) r ∧
            t.store = r.store.withEngine config.unmetered) ∧
    ∀ fuel, (Engine.history fuel context function args (s.withEngine config)).length ≤
      config.stepBudget.toNat := by
  have hs : (s.withEngine config).Counterpart config.unmetered
      (s.withEngine config.unmetered) :=
    { store := ⟨rfl, rfl, hhosts⟩
      contexts := ⟨rfl, rfl⟩ }
  have hrefusal : (s.withEngine config.unmetered).store.refusal function args =
      (s.withEngine config).store.refusal function args := Store.refusal_congr rfl args
  have hhistory := fun fuel => Engine.history_eq (s := s.withEngine config) rfl fuel
    context function args
  have hhistory' := fun fuel => Engine.history_eq (s := s.withEngine config.unmetered)
    rfl fuel context function args
  cases hcase : (s.withEngine config).store.refusal function args with
  | some error =>
      -- The function is not called: there are no instructions at all.
      obtain ⟨hends, hspent⟩ := Store.refusal_ne hcase
      simp only [hrefusal, hcase] at hhistory hhistory'
      refine ⟨⟨.error error (s.withEngine config), ?_, ⟨1, ?_⟩, ⟨?_, ?_⟩, ?_⟩, ?_⟩
      · rintro ⟨t, hexhausted⟩
        cases hexhausted
        exact hends rfl
      · intro fuel hfuel
        obtain ⟨fuel, rfl⟩ := Nat.exists_eq_add_of_le' hfuel
        rw [(Engine.agrees (fuel + 1)).invoke, Reference.invoke_succ_eq rfl, hcase]
      · rintro ⟨backtrace, t, htrap⟩
        cases htrap
        exact absurd rfl (hspent backtrace)
      · rintro ⟨fuel, hlength⟩
        rw [hhistory'] at hlength
        exact absurd hlength (Nat.not_lt_zero _)
      · intro fuel t hdispatched
        rw [hhistory'] at hdispatched
        cases hdispatched
      · intro fuel
        rw [hhistory]
        exact Nat.zero_le _
  | none =>
      simp only [hrefusal, hcase] at hhistory hhistory'
      obtain ⟨o, ho, bound, hbound⟩ :=
        Reference.exists_outcome hmetered hs context function args
      have htraps : ∀ fuel t, (Engine.history fuel context function args
          (s.withEngine config.unmetered))[config.stepBudget.toNat]? = some t →
            ∃ backtrace r, o.collected (.watching config context) function =
                .error (.trap .stepBudget backtrace) r ∧
              t.store = r.store.withEngine config.unmetered := by
        intro fuel t hdispatched
        rw [hhistory'] at hdispatched
        exact Reference.trap_of_dispatched hmetered hs hbound hdispatched
      have hfirst := hbound bound (Nat.le_refl bound)
      refine ⟨⟨o.collected (.watching config context) function, ?_, ⟨bound + 1, ?_⟩,
        ⟨?_, ?_⟩, htraps⟩, ?_⟩
      · exact Reference.not_isExhausted_collected hmetered hs bound function
          args hfirst ho
      · intro fuel hfuel
        obtain ⟨fuel, rfl⟩ := Nat.exists_eq_add_of_le' hfuel
        rw [← Nat.add_assoc, Engine.invoke_watched rfl hcase,
          hbound _ (Nat.le_add_left _ _)]
      · rintro ⟨backtrace, t, htrap⟩
        obtain ⟨m, rfl⟩ := Reference.spent_of_collected hmetered hs bound function args
            hfirst htrap
        refine ⟨bound, ?_⟩
        rw [hhistory', List.length_reverse]
        exact Reference.dispatched_of_spent hmetered hs hfirst
      · rintro ⟨fuel, hlength⟩
        obtain ⟨backtrace, r, htrap, -⟩ :=
          htraps fuel _ (List.getElem?_eq_getElem hlength)
        exact ⟨backtrace, r, htrap⟩
      · intro fuel
        rw [hhistory, List.length_reverse]
        exact (Coupling.metered_call hmetered hs context function args fuel rfl rfl).1

/-- A function that calls the host function and goes on forever is stopped by a budget,
after the global was assigned to. -/
theorem endless_within_budget :
    ∃ bound backtrace r, (∀ fuel, bound ≤ fuel → Engine.invoke fuel .background 1 []
        ((assigner [] [.call 0, .loop none [.br 0]]).withEngine ⟨0, 3, false, false⟩) =
          .error (.trap .stepBudget backtrace) r) ∧
      r.store.globals = #[⟨⟨.i32, true⟩, .ofU32 7⟩] := by
  have hdispatched : ((Engine.history 9 .background 1 []
      ((assigner [] [.call 0, .loop none [.br 0]]).withEngine ⟨0, 0, false,
        false⟩))[3]?.map (·.store.globals)) =
        some #[⟨⟨.i32, true⟩, .ofU32 7⟩] := by decide +kernel
  have hmetered : EngineConfig.IsMetered ⟨0, 3, false, false⟩ := ⟨by decide, by decide⟩
  have hhosts := hostsWithin_assigner [] [.call 0, .loop none [.br 0]]
  generalize assigner [] [.call 0, .loop none [.br 0]] = s, 9 = fuel at *
  obtain ⟨t, hdispatched, hglobals⟩ := Option.map_eq_some_iff.mp hdispatched
  obtain ⟨⟨result, -, ⟨bound, hbound⟩, -, hstore⟩, -⟩ :=
    invoke_within_budget s hhosts hmetered .background 1 []
  obtain ⟨backtrace, r, rfl, hr⟩ := hstore fuel t hdispatched
  refine ⟨bound, backtrace, r, hbound, ?_⟩
  rw [← hglobals, hr]
  rfl

end Session
end WebAssembly
