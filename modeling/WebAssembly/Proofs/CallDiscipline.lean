import WebAssembly.Proofs.Lockstep

/-!
# What a call leaves behind

A call takes its arguments from the top of the stack and puts its results there.  This
is so for every function, whatever its body does: a body works above the marks of its
own activation, and a search for operands, labels or activations ends at them.
-/

namespace WebAssembly

namespace Stack

theorem eq_pushAll_of_popOnto
    {acc values : List Val} {count : Nat} {stack rest : Stack}
    (h : popOnto acc count stack = .ok (values, rest)) :
    ∃ taken : List Val, taken.length = count ∧ values = taken ++ acc ∧
      stack = rest.pushAll taken := by
  fun_induction popOnto acc count stack with
  | case1 acc stack =>
      obtain ⟨rfl, rfl⟩ := Prod.mk.inj (Except.ok.inj h)
      exact ⟨[], rfl, rfl, rfl⟩
  | case2 acc count v stack ih =>
      obtain ⟨taken, rfl, rfl, rfl⟩ := ih h
      refine ⟨taken ++ [v], List.length_append, ?_, (pushAll_concat rest taken v).symm⟩
      rw [List.append_assoc, List.singleton_append]
  | case3 => cases h

/-- What is popped was on top. -/
theorem eq_pushAll_of_popMany
    {count : Nat} {values : List Val} {stack rest : Stack}
    (h : popMany count stack = .ok (values, rest)) :
    values.length = count ∧ stack = rest.pushAll values := by
  obtain ⟨taken, hlength, rfl, hstack⟩ := eq_pushAll_of_popOnto h
  rw [List.append_nil]
  exact ⟨hlength, hstack⟩

/-- Every stack consists of operands above a barrier. -/
theorem exists_barrier (stack : Stack) : ∃ (base : Stack) (operands : List Val),
    base.IsBarrier ∧ stack = base.pushAll operands := by
  induction stack with
  | nil => exact ⟨[], [], isBarrier_nil, rfl⟩
  | cons entry rest ih =>
      cases entry with
      | value v =>
          obtain ⟨base, operands, hbase, rfl⟩ := ih
          exact ⟨base, operands ++ [v], hbase, (pushAll_concat base operands v).symm⟩
      | label arity => exact ⟨.label arity :: rest, [], isBarrier_label arity rest, rfl⟩
      | activation arity =>
          refine ⟨.activation arity :: rest, [], ?_, rfl⟩
          intro v below h
          cases h

end Stack

/-! ## Steps of a call -/

/-- The stack, the locals and the store of a run are the given ones. -/
def Run.Rests (stack : Stack) (locals : Array Val) (s : Store) (r : Run) : Prop :=
  r.stack = stack ∧ r.locals = locals ∧ r.session.store = s

namespace Exec

variable {stack : Stack} {locals : Array Val} {s : Store} (setting : Setting)

theorem rests_record (moment : Moment) :
    Preserves (Run.Rests stack locals s) (record setting moment) fun _ => True := by
  intro r hr
  unfold record
  by_cases h : setting.watched
  · exact Ends.of_eq_ok (if_pos h) ⟨trivial, hr⟩
  · exact Ends.of_eq_ok (if_neg h) ⟨trivial, hr⟩

theorem rests_checkInterrupt :
    Preserves (Run.Rests stack locals s) (checkInterrupt setting) fun _ => True := by
  refine Preserves.ite (fun _ => Preserves.get.bind fun r _ => ?_)
    fun _ => .pure trivial
  split
  · exact .throw
  · exact .pure trivial

theorem rests_enter (name : String) :
    Preserves (Run.Rests stack locals s) (enter setting name) fun _ => True := by
  have hbegin : Preserves (Run.Rests stack locals s) (begin setting name)
      fun _ => True := by
    refine (rests_checkInterrupt setting).bind fun _ _ =>
      Preserves.bind (P := fun _ => True) ?_ fun _ _ =>
      rests_record setting (.entered name)
    exact Preserves.modify fun _ hr => hr
  refine Preserves.get.bind fun r _ => Preserves.ite (fun _ => ?_) fun _ => hbegin
  exact Preserves.bind (P := fun _ => True) .throw fun _ _ => hbegin

theorem rests_exit :
    Preserves (Run.Rests stack locals s) (exit setting) fun _ => True := by
  refine Preserves.bind (P := fun _ => True) ?_ fun _ _ => rests_record setting .left
  exact Preserves.modify fun _ hr => hr

theorem rests_announce (events : List Event) :
    Preserves (Run.Rests stack locals s) (announce events) fun _ => True := by
  rintro r ⟨hstack, hlocals, hstore⟩
  have hobserve : ∀ session : Session,
      (events.foldl Session.observe session).store = session.store := by
    induction events with
    | nil => exact fun _ => rfl
    | cons event rest ih => exact fun session => ih (session.observe event)
  exact ⟨trivial, hstack, hlocals, (hobserve r.session).trans hstore⟩

theorem rests_present {α : Type} (entry : Option α) :
    Preserves (Run.Rests stack locals s) (present entry) fun a => entry = some a := by
  cases entry with
  | none => exact .throw
  | some a => exact .pure rfl

/-- The arguments of the function, which has the given type, were on top of the stack,
and the call has come to the program or to the body of the function. -/
def Takes (stack below : Stack) (f : FuncInst) (type : FuncType)
    (summons : Summons) : Prop :=
  f.type = some type ∧
    (∃ args : List Val, args.length = type.params.length ∧ stack = below.pushAll args) ∧
    match summons with
    | .host _ _ => f.kind = .host
    | .body g arity _ => f.kind = .wasm ∧ g = f ∧ arity = type.results.length

theorem ends_popMany
    {r : Run} (hr : r.Rests stack locals s) (count : Nat) :
    Ends (popMany count) r
      (fun values r' => values.length = count ∧ ∃ below, stack = below.pushAll values ∧
        r'.Rests below locals s)
      fun _ _ => True := by
  obtain ⟨rfl, hlocals, hstore⟩ := hr
  cases hpop : r.stack.popMany count with
  | error cause =>
      have htake : popMany count r = .error (.bug cause) r := by
        simp only [popMany, take, hpop]
      exact .of_eq_error htake trivial
  | ok result =>
      obtain ⟨values, below⟩ := result
      have htake : popMany count r = .ok values { r with stack := below } := by
        simp only [popMany, take, hpop]
      obtain ⟨hlength, hstack⟩ := Stack.eq_pushAll_of_popMany hpop
      exact .of_eq_ok htake ⟨hlength, below, hstack, rfl, hlocals, hstore⟩

theorem ends_receive
    {r : Run} (hr : r.Rests stack locals s) (f : FuncInst) :
    Ends (receive f) r
      (fun received r' => ∃ below type, Takes stack below f type received.1 ∧
        r'.Rests below locals s)
      fun _ _ => True := by
  unfold receive
  split
  · rename_i hkind
    refine (rests_present f.type).ends_bind hr (fun _ _ _ => trivial)
      fun type r₁ htype hr₁ => ?_
    refine (ends_popMany hr₁ _).bind ?_
    rintro args r₂ ⟨hlength, below, hstack, hr₂⟩
    refine (rests_present f.host).ends_bind hr₂ (fun _ _ _ => trivial)
      fun host r₃ _ hr₃ => ?_
    exact ⟨below, type, ⟨htype, ⟨args, hlength, hstack⟩, hkind⟩, hr₃⟩
  · rename_i hkind
    have hread : store r = .ok r.session.store r := rfl
    refine Ends.bind_of_eq_ok hread ?_
    cases r.session.store.module f.module with
    | error cause => exact trivial
    | ok =>
        refine (rests_present f.type).ends_bind hr (fun _ _ _ => trivial)
          fun type r₁ htype hr₁ => ?_
        refine (ends_popMany hr₁ _).bind ?_
        rintro args r₂ ⟨hlength, below, hstack, hr₂⟩
        exact ⟨below, type, ⟨htype, ⟨args, hlength, hstack⟩, hkind, rfl, rfl⟩, hr₂⟩
  · exact trivial

theorem ends_summon
    {r : Run} (hr : r.Rests stack locals s) (function : UInt32) :
    Ends (summon setting function) r
      (fun summons r' => ∃ f below type, s.functions[function.toNat]? = some f ∧
        Takes stack below f type summons ∧
        r'.Rests below locals s)
      fun _ _ => True := by
  have hread : store r = .ok r.session.store r := rfl
  rw [summon_eq]
  refine Ends.bind_of_eq_ok hread ?_
  refine (rests_present _).ends_bind hr (fun _ _ _ => trivial) fun f r₁ hf hr₁ => ?_
  rw [hr.2.2] at hf
  refine (rests_enter setting f.name).ends_bind hr₁ (fun _ _ _ => trivial)
    fun _ r₂ _ hr₂ => ?_
  refine (ends_receive hr₂ f).bind ?_
  rintro ⟨summons, events⟩ r₃ ⟨below, type, htakes, hr₃⟩
  refine (rests_announce events).ends_bind hr₃ (fun _ _ _ => trivial)
    fun _ r₄ _ hr₄ => ?_
  exact ⟨f, below, type, hf, htakes, hr₄⟩

theorem rests_checkResultTypes (name : String) (type : FuncType) (index : Nat)
    (values : List Val) (types : List ValueType) :
    Preserves (Run.Rests stack locals s) (checkResultTypes name type index values types)
      fun _ => True := by
  induction values generalizing index types with
  | nil => exact .pure trivial
  | cons v values ih =>
      cases types with
      | nil => exact .pure trivial
      | cons expected rest =>
          refine Preserves.ite (fun _ => ?_) fun _ => ih _ _
          exact Preserves.bind (P := fun _ => True) .throw fun _ _ => ih _ _

theorem ends_finishHost
    {r : Run} (hr : r.Rests stack locals s) (function : UInt32) (name : String)
    (hostEnd : HostEnd) :
    Ends (finishHost function name hostEnd) r
      (fun _ r' => ∃ f type, s.functions[function.toNat]? = some f ∧
        f.type = some type ∧
        ∃ results : List Val, results.length = type.results.length ∧
          r'.Rests (stack.pushAll results) locals s)
      fun _ _ => True := by
  cases hostEnd with
  | fail error => exact trivial
  | stop cause =>
      cases cause with
      | trap | bug | crash => exact trivial
  | done results =>
      have htype : Ends (typeOf function) r
          (fun type r' => (∃ f, s.functions[function.toNat]? = some f ∧
            f.type = some type) ∧
            r'.Rests stack locals s) fun _ _ => True := by
        have hread : store r = .ok r.session.store r := rfl
        refine Ends.bind_of_eq_ok hread ?_
        refine (rests_present _).ends_bind hr (fun _ _ _ => trivial)
          fun f r₁ hf hr₁ => ?_
        rw [hr.2.2] at hf
        refine ((rests_present f.type) r₁ hr₁).mono ?_ fun _ _ _ => trivial
        rintro type r₂ ⟨htype, hr₂⟩
        exact ⟨⟨f, hf, htype⟩, hr₂⟩
      refine htype.bind ?_
      rintro type r₁ ⟨⟨f, hf, hf'⟩, hr₁⟩
      refine Ends.ite (fun _ => trivial) fun hlength => ?_
      rw [ne_eq, not_not] at hlength
      refine (rests_checkResultTypes name type 0 results _).ends_bind hr₁
        (fun _ _ _ => trivial) ?_
      rintro _ r₂ - ⟨rfl, hlocals, hstore⟩
      exact ⟨f, type, hf, hf', results, hlength, rfl, hlocals, hstore⟩

end Exec

namespace Engine

open Exec

/-- Above the marks of its activation, a body gives its results to its caller whatever
it does. -/
theorem ends_body
    (fuel : Nat) (setting : Setting) (f : FuncInst) (arity : Nat) (m : Machine)
    (below : Stack) (outer : Array Val) :
    Ends (execSequence fuel setting f.module f.body >>= leaveBody f.name arity outer)
      (m.on (.label arity :: .activation arity :: below))
      (fun _ r' => ∃ results : List Val, results.length = arity ∧
        r'.stack = below.pushAll results ∧
        r'.locals = outer)
      fun _ _ => True := by
  have hmatches := (agrees fuel).sequence (.ofBody setting f arity) f.body m [] _
    (Stack.frames_call arity below)
  have hends := Reference.endsBody_sequence fuel setting f arity m
  cases hbody : Reference.sequence fuel (.ofBody setting f arity) f.body m [] with
  | mk ending m' =>
      rw [hbody] at hmatches hends
      have hleave := @Ending.Matches.leaveBody _ _ _ f.name _ outer _ _ hmatches
      cases hresults : ending.results f.name arity with
      | error cause =>
          rw [hresults] at hleave
          obtain ⟨stack, hleave⟩ := hleave
          exact Ends.of_eq_error hleave trivial
      | ok results =>
          rw [hresults] at hleave
          exact Ends.of_eq_ok hleave ⟨results, hends.length_results hresults, rfl, rfl⟩

/-- A call that has ended has put results in the place of arguments and has left
everything else as it was. -/
theorem ends_call (fuel : Nat) (setting : Setting) (function : UInt32) (r : Run) :
    Ends (call fuel setting function) r
      (fun _ r' => ∃ (f : FuncInst) (type given : FuncType) (below : Stack)
          (args results : List Val),
        r.session.store.functions[function.toNat]? = some f ∧ f.type = some type ∧
          (f.kind = .wasm ∧ given = type ∨ f.kind = .host ∧
            ∃ f', r'.session.store.functions[function.toNat]? = some f' ∧
              f'.type = some given) ∧
          args.length = type.params.length ∧ r.stack = below.pushAll args ∧
          results.length = given.results.length ∧ r'.stack = below.pushAll results ∧
          r'.locals = r.locals)
      fun _ _ => True := by
  cases fuel with
  | zero => exact trivial
  | succ fuel =>
      rw [call_succ]
      refine (ends_summon setting ⟨rfl, rfl, rfl⟩ function).bind ?_
      rintro summons r₁ ⟨f, below, type, hf, ⟨htype, ⟨args, hargs, hstack⟩, hsummons⟩,
        hstack₁, hlocals₁, hstore₁⟩
      cases summons with
      | host name program =>
          have hany : Ends (runHost fuel setting.context program) r₁.session
              (fun _ _ => True) fun _ _ => True := by
            unfold Ends
            split
            · trivial
            · trivial
          have hrun : Ends (onSession (runHost fuel setting.context program)) r₁
              (fun _ r' => r'.stack = below ∧ r'.locals = r.locals) fun _ _ => True :=
            ends_onSession hany (fun _ _ _ => ⟨hstack₁, hlocals₁⟩) fun _ _ _ => trivial
          refine hrun.bind ?_
          rintro hostEnd r₂ ⟨hstack₂, hlocals₂⟩
          refine (ends_finishHost ⟨hstack₂, hlocals₂, rfl⟩ function name
            hostEnd).bind ?_
          rintro _ r₃ ⟨f', given, hf', hgiven, results, hresults, hr₃⟩
          refine (rests_exit setting r₃ hr₃).mono ?_ fun _ _ _ => trivial
          rintro _ r' ⟨-, hstack', hlocals', hstore'⟩
          refine ⟨f, type, given, below, args, results, hf, htype,
            .inr ⟨hsummons, f', ?_, hgiven⟩, hargs, hstack, hresults, hstack', hlocals'⟩
          rw [hstore']
          exact hf'
      | body g arity params =>
          obtain ⟨hkind, rfl, rfl⟩ := hsummons
          have hbody : Ends (runBody fuel setting g type.results.length params) r₁
              (fun _ r' => ∃ results : List Val, results.length = type.results.length ∧
                r'.stack = r₁.stack.pushAll results ∧ r'.locals = r₁.locals)
                  fun _ _ => True :=
            ends_body fuel setting g _ { r₁.machine with
              locals := (params ++ g.locals.map Val.zero).toArray } _ _
          rw [hstack₁, hlocals₁] at hbody
          refine hbody.bind ?_
          rintro _ r₂ ⟨results, hresults, hstack₂, hlocals₂⟩
          refine (rests_exit setting r₂ ⟨hstack₂, hlocals₂, rfl⟩).mono ?_
            fun _ _ _ => trivial
          rintro _ r' ⟨-, hstack', hlocals', -⟩
          exact ⟨g, type, type, below, args, results, hf, htype, .inl ⟨hkind, rfl⟩,
            hargs, hstack, hresults, hstack', hlocals'⟩

/-- What a call leaves active, and what it never reports, is the same as for the
evaluator on operands of its own. -/
theorem ends_call_active (fuel : Nat) (setting : Setting) (function : UInt32)
    (r : Run) :
    Ends (call fuel setting function) r (fun _ r' => r'.active = r.active)
      fun cause _ => ∀ name, cause ≠ .bug (.branchPast name) ∧
      cause ≠ .bug (.activationMissing name) := by
  obtain ⟨base, operands, hbase, hstack⟩ := r.stack.exists_barrier
  have hrun : r = r.machine.on (base.pushAll operands) := by
    rw [← hstack]
    rfl
  have hmatches := (agrees fuel).call setting function r.machine operands base hbase
  have hany : setting.Keeps fun _ => True :=
    ⟨fun _ _ _ => trivial, fun _ _ _ _ => trivial⟩
  have hkeeps := Reference.keeps_call hany fuel function (m := r.machine)
    trivial operands
  rw [← hrun] at hmatches
  cases hcall : Reference.call fuel setting function r.machine operands with
  | done a operands' m =>
      rw [hcall] at hmatches hkeeps
      exact Ends.of_eq_ok hmatches hkeeps.1
  | halt cause m =>
      rw [hcall] at hmatches hkeeps
      obtain ⟨stack, hmatches⟩ := hmatches
      exact Ends.of_eq_error hmatches hkeeps.1

/-- Every function keeps to the discipline of calls, whatever its body does.  If a call
ends, the topmost operands were as many as the parameters of the function, and in their
place are as many results as its type has; that is the type at the call for a function
with a body, and for a host function the type when its program has ended.  Below them
the stack is unchanged, and so are the locals of the caller and the list of active
functions.  If it does not end, then not because the body was left for a label outside
it or because its activation is missing. -/
theorem call_replaces_arguments (fuel : Nat) (setting : Setting) (function : UInt32)
    (r : Run) :
    Ends (call fuel setting function) r
      (fun _ r' => ∃ (f : FuncInst) (type given : FuncType) (below : Stack)
          (args results : List Val),
        r.session.store.functions[function.toNat]? = some f ∧ f.type = some type ∧
          (f.kind = .wasm ∧ given = type ∨ f.kind = .host ∧
            ∃ f', r'.session.store.functions[function.toNat]? = some f' ∧
              f'.type = some given) ∧
          args.length = type.params.length ∧ r.stack = below.pushAll args ∧
          results.length = given.results.length ∧ r'.stack = below.pushAll results ∧
          r'.locals = r.locals ∧
          r'.active = r.active)
      fun cause _ => ∀ name, cause ≠ .bug (.branchPast name) ∧
        cause ≠ .bug (.activationMissing name) := by
  refine ((ends_call fuel setting function r).and
    (ends_call_active fuel setting function r)).mono ?_ ?_
  · rintro _ r' ⟨⟨f, type, given, below, args, results, hf, htype, hgiven, hargs,
      hstack, hresults, hstack', hlocals⟩, hactive⟩
    exact ⟨f, type, given, below, args, results, hf, htype, hgiven, hargs, hstack,
      hresults, hstack', hlocals, hactive⟩
  · intro cause r' h
    exact h.2

end Engine
end WebAssembly
