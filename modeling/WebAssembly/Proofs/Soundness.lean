import WebAssembly.Proofs.Control

/-!
# Type soundness of the interpreter

By induction on the bound of a run: in a typed store, typed code ends as its type says
or traps.  The statement goes through bodies, blocks, calls, host programs, commands and
invocations together, as the interpreter does.
-/

namespace WebAssembly

/-- Code of a context ended by a signal: its locals and its module are as before, and
the operands stand where the signal says. -/
def Run.Exited (law : ValueLaw) (total : Prop) (base : Store) (module : UInt32)
    (c : Context) (rest : Stack) (left : List ValueType) (signal : Signal)
    (r : Run) : Prop :=
  r.InCode law total base module c ∧ Stack.Follows c rest left r.stack signal

/-- The error is one that an invocation reports to its caller: a trap, an invalid
address, or an exhausted bound. -/
def Error.Reports (s : Store) (function : UInt32) (error : Error) : Prop :=
  error = .exhausted ∨ (∃ cause backtrace, error = .trap cause backtrace) ∨
    ∃ cause, s.function function = .error cause ∧ error = .access cause

theorem Error.Reports.ne_crash
    {s : Store} {function : UInt32} {error : Error} (h : error.Reports s function) :
    error ≠ .crash := by
  obtain rfl | ⟨_, _, rfl⟩ | ⟨_, _, rfl⟩ := h <;> exact nofun

namespace Engine

open Exec

/-- Within a bound on their length, all parts of the interpreter are sound. -/
structure Sound (law : ValueLaw) (total : Prop) (base : Store) (fuel : Nat) : Prop where
  exec : ∀ (setting : Setting) {module instr c taken left rest r},
    InstrHasType c instr taken left → r.Lawful law → r.InCode law total base module c →
    rest.Unwinds c →
    r.stack.Carries rest taken →
    EndsWithin Run.Bounded (exec fuel setting module instr) r
      (fun signal r' => r'.Exited law total base module c rest left signal ∧
        (signal = .next → ¬instr.Transfers))
      (Run.Aborted law total base)
  sequence : ∀ (setting : Setting) {module body c before after rest r},
    SequenceHasType c body before after → r.Lawful law →
    r.InCode law total base module c → rest.Unwinds c →
    r.stack.Carries rest before →
    EndsWithin Run.Bounded (execSequence fuel setting module body) r
      (fun signal r' => r'.Exited law total base module c rest after signal ∧
        (signal = .next → ∀ instr ∈ body, ¬instr.Transfers))
      (Run.Aborted law total base)
  block : ∀ (setting : Setting) {module c rest r} {isLoop : Bool}
      {params results : List ValueType} {body},
    BodyHasType (c.inBlock (if isLoop then params else results)) body params results →
    r.Lawful law →
    r.InCode law total base module c → rest.Unwinds c → r.stack.Carries rest params →
    EndsWithin Run.Bounded (execBlock fuel setting module isLoop params.length
      results.length body) r
      (fun signal r' => r'.Exited law total base module c rest results signal)
        (Run.Aborted law total base)
  call : ∀ (setting : Setting) {function : UInt32} {f : FuncInst} {type : FuncType}
      {rest r}, r.Lawful law →
    r.session.Sound law total base →
    r.session.store.functions[function.toNat]? = some f → f.type = some type →
    r.stack.Carries rest type.params →
    EndsWithin Run.Bounded (call fuel setting function) r
      (fun _ => Run.Returned law total base r.locals rest type.results)
        (Run.Aborted law total base)
  host : ∀ (context : ContextRef) {program : HostProgram} {s : Session},
    program.Lawful law total → s.Sound law total base →
    EndsWithin Session.Bounded (runHost fuel context program) s
      (fun hostEnd s' => s'.Sound law total base ∧ hostEnd.Lawful law total)
      (fun error s' => s'.Sound law total base ∧ error = .exhausted)
  perform : ∀ (context : ContextRef) {command : Command} {s : Session},
    command.Lawful law total → s.Sound law total base →
    EndsWithin Session.Bounded (perform fuel context command) s
      (fun response s' => s'.Sound law total base ∧ response.Lawful law)
      (fun error s' => s'.Sound law total base ∧
        (total → command.IsComplete → error ≠ .crash))
  invoke : ∀ (context : ContextRef) {function : UInt32} {args : List Val} {s : Session},
    law.HoldsAll args → s.Sound law total base →
    EndsWithin Session.Bounded (invoke fuel context function args) s
      (fun results s' => s'.Sound law total base ∧ law.HoldsAll results ∧
        ∀ f type, s.store.function function = .ok f → f.type = some type →
          results.map Val.type = type.results)
      (fun error s' => s'.Sound law total base ∧
        (total → error.Reports s.store function))

variable {law : ValueLaw} {total : Prop} {base : Store} {fuel : Nat} {setting : Setting}
  {module : UInt32} {c : Context} {rest : Stack} {r : Run}

theorem steady_exec
    {instr : Instr} : Steady law (exec fuel setting module instr) fun _ => True :=
  fun _ hbase => (evolving hbase fuel).exec _ _ _

theorem steady_sequence
    {body : List Instr} :
    Steady law (execSequence fuel setting module body) fun _ => True :=
  fun _ hbase => (evolving hbase fuel).sequence _ _ _

theorem steady_call
    {function : UInt32} : Steady law (call fuel setting function) fun _ => True :=
  fun _ hbase => (evolving hbase fuel).call _ _

/-- A call in code leaves the code as it was, with the results in place of the
arguments. -/
theorem Sound.call_next
    {function : UInt32} {f : FuncInst} {type : FuncType}
    (ih : Sound law total base fuel) (hlawful : r.Lawful law)
    (hr : r.InCode law total base module c)
    (hf : r.session.store.functions[function.toNat]? = some f)
    (htype : f.type = some type) (hstack : r.stack.Carries rest type.params) :
    EndsWithin Run.Bounded (do
      Engine.call fuel setting function
      pure Signal.next) r
      (fun signal r' => r'.Exited law total base module c rest type.results signal)
      (Run.Aborted law total base) := by
  have hcall := ih.call setting hlawful hr.sound hf htype hstack
  refine endsWithin_bind hlawful steady_call (fun _ _ _ _ =>
    Preserves.pure trivial) hcall ?_
  rintro _ r' ⟨hsound, hlocals, hstack'⟩ _ _ hext
  exact fun _ => ⟨hr.of_extends hext hsound hlocals, hstack'⟩

theorem sound_sequence
    {body : List Instr} {before after : List ValueType} (ih : Sound law total base fuel)
    (h : SequenceHasType c body before after) (hlawful : r.Lawful law)
    (hr : r.InCode law total base module c) (hrest : rest.Unwinds c)
    (hstack : r.stack.Carries rest before) :
    EndsWithin Run.Bounded (execSequence (fuel + 1) setting module body) r
      (fun signal r' => r'.Exited law total base module c rest after signal ∧
        (signal = .next → ∀ instr ∈ body, ¬instr.Transfers))
      (Run.Aborted law total base) := by
  rw [execSequence.eq_def]
  cases h with
  | nil => exact fun _ => ⟨⟨hr, hstack⟩, fun _ => List.forall_mem_nil _⟩
  | @cons _ instr tail below taken left _ hinstr htail =>
      obtain ⟨_, ⟨values, hvalues, rfl⟩, htaken⟩ := Stack.Carries.append_iff.mp hstack
      have hexec := ih.exec setting hinstr hlawful hr (hrest.pushAll values) htaken
      refine endsWithin_bind hlawful steady_exec ?_ hexec ?_
      · intro signal _
        cases signal with
        | next => exact steady_sequence
        | branch | ret => exact fun _ _ => Preserves.pure trivial
      · rintro signal r' ⟨⟨hr', hfollows⟩, htransfers⟩ _ hlawful' _
        cases signal with
        | next =>
            have hstack' := Stack.Carries.append_iff.mpr ⟨_,
              ⟨values, hvalues, rfl⟩, hfollows⟩
            have htail := ih.sequence setting htail hlawful' hr' hrest hstack'
            refine htail.mono (fun signal r'' h => ?_) fun _ _ => id
            exact ⟨h.1, fun hnext =>
              List.forall_mem_cons.mpr ⟨htransfers rfl, h.2 hnext⟩⟩
        | branch depth =>
            have hleft : Signal.branch depth ≠ .next := by simp
            exact fun _ => ⟨⟨hr', hfollows.of_pushAll hleft⟩,
              fun hnext => absurd hnext hleft⟩
        | ret =>
            have hleft : Signal.ret ≠ .next := by simp
            exact fun _ => ⟨⟨hr', hfollows.of_pushAll hleft⟩,
              fun hnext => absurd hnext hleft⟩

/-- A block whose body ran off its end drops its label from below the results. -/
theorem closeBlock_ends
    {arity : Nat} {results : List ValueType} (hr : r.InCode law total base module c)
    (hstack : r.stack.Carries (.label arity :: rest) results) :
    Ends (do
      let values ← popMany results.length
      rearrange Stack.popLabel
      pushAll values
      pure Signal.next) r
      (fun signal r' => r'.Exited law total base module c rest results signal)
        (Run.Aborted law total base) := by
  obtain ⟨values, htypes, -, hpop⟩ := hstack.popMany_eq_ok
  exact ends_popMany_bind hpop (ends_rearrange_bind rfl ⟨hr.of_stack _, values,
    htypes, rfl⟩)

/-- Operands may be left below the results of a body only if control does not reach its
end. -/
theorem surplus_eq_nil
    {surplus : List ValueType} {body : List Instr}
    (hsurplus : surplus = [] ∨ ∃ instr ∈ body, instr.Transfers)
    (hbody : ∀ instr ∈ body, ¬instr.Transfers) : surplus = [] := by
  rcases hsurplus with hempty | ⟨instr, hmem, htransfers⟩
  · exact hempty
  · exact absurd htransfers (hbody instr hmem)

/-- After an exit to the label of a block, a loop is restarted with what the exit
carries, and any other block is left with it. -/
theorem sound_restart
    {isLoop : Bool} {params results : List ValueType} {body : List Instr}
    (ih : Sound law total base fuel)
    (hbody : BodyHasType (c.inBlock (if isLoop then params else results)) body params
      results) (hlawful : r.Lawful law) (hr :
        r.InCode law total base module c) (hrest : rest.Unwinds c)
    (hstack : r.stack.Carries rest (if isLoop then params else results)) :
    EndsWithin Run.Bounded (if isLoop = true then do
        checkInterrupt setting
        record setting .restarted
        execBlock fuel setting module isLoop params.length results.length body
      else pure Signal.next) r
      (fun signal r' => r'.Exited law total base module c rest results signal)
        (Run.Aborted law total base) := by
  cases isLoop with
  | false => exact fun _ => ⟨hr, hstack⟩
  | true =>
      refine quiet_checkInterrupt.endsWithin_bind hr.sound fun r₁ h₁ => ?_
      refine quiet_record.endsWithin_bind (h₁.inCode hr).sound fun r₂ h₂ => ?_
      have hstack₂ : r₂.stack.Carries rest params := by
        rw [h₂.stack, h₁.stack]
        exact hstack
      exact ih.block setting hbody (h₂.lawful (h₁.lawful hlawful))
        (h₂.inCode (h₁.inCode hr)) hrest hstack₂

theorem sound_block
    {isLoop : Bool} {params results : List ValueType} {body : List Instr}
    (ih : Sound law total base fuel)
    (h : BodyHasType (c.inBlock (if isLoop then params else results)) body params
      results) (hlawful : r.Lawful law) (hr :
        r.InCode law total base module c) (hrest : rest.Unwinds c)
    (hstack : r.stack.Carries rest params) :
    EndsWithin Run.Bounded (execBlock (fuel + 1) setting module isLoop params.length
      results.length body) r
      (fun signal r' => r'.Exited law total base module c rest results signal)
        (Run.Aborted law total base) := by
  have hbody := h
  obtain @⟨_, _, _, surplus, _, hsequence, hsurplus⟩ := h
  have harity : (if isLoop then params.length else results.length) =
      (if isLoop then params else results).length := by
    split <;> rfl
  obtain ⟨args, hargs, -, hpop⟩ := hstack.popMany_eq_ok
  obtain ⟨hargsLawful, hrestLawful⟩ := hlawful.stack.popMany hpop
  have hlawful₁ : Run.Lawful law
      { r with stack := Stack.pushAll (.label (if isLoop then params
        else results).length :: rest) args } :=
    ⟨hlawful.session, hrestLawful.label_cons.pushAll hargsLawful, hlawful.locals⟩
  have hr₁ : r.InCode law total base module
      (c.inBlock (if isLoop then params else results)) :=
    Run.InCode.inBlock_iff.mpr hr
  rw [execBlock, harity]
  refine ends_popMany_bind hpop (Ends.bind_of_eq_ok rfl (Ends.bind_of_eq_ok rfl ?_))
  have hinner := ih.sequence setting hsequence hlawful₁ (hr₁.of_stack _)
    hrest.label_cons ⟨args, hargs, rfl⟩
  refine endsWithin_bind hlawful₁ steady_sequence
    (fun signal _ _ hbase => evolving_afterBlock (evolving hbase fuel) signal) hinner ?_
  rintro signal r' ⟨⟨hinside, hfollows⟩, htransfers⟩ _ hlawful' _
  have hr' : r'.InCode law total base module c := Run.InCode.inBlock_iff.mp hinside
  cases signal with
  | next =>
      obtain rfl : surplus = [] := surplus_eq_nil hsurplus (htransfers rfl)
      exact (closeBlock_ends hr' hfollows).within
  | ret => exact fun _ => ⟨hr', hfollows.ret_of_label⟩
  | branch depth =>
      cases depth with
      | succ depth => exact fun _ => ⟨hr', hfollows.of_label⟩
      | zero =>
          exact sound_restart ih hbody hlawful' hr' hrest (hfollows.zero_of_label rfl)

theorem branch_ends
    {instr : Instr} {label : UInt32} {types left : List ValueType}
    (taken : List ValueType) (hr : r.InCode law total base module c)
    (hrest : rest.Unwinds c) (hlabel : Denotes c.labels label types)
    (hstack : r.stack.Carries rest (taken ++ types)) :
    EndsWithin Run.Bounded (branch label) r
      (fun signal r' => r'.Exited law total base module c rest left signal ∧
        (signal = .next → ¬instr.Transfers))
      (Run.Aborted law total base) := by
  obtain ⟨stack, hbranch, hfollows⟩ := hrest.branch_eq_ok hlabel.getElem? hstack
  exact ends_rearrange_bind hbranch fun _ => ⟨⟨hr.of_stack stack, hfollows⟩, nofun⟩

/-- Of an instruction that does not transfer control, only the operands matter. -/
theorem endsWithin_of_not_transfers
    {instr : Instr} {left : List ValueType} {x : Exec Signal}
    (hinstr : ¬instr.Transfers)
    (h : EndsWithin Run.Bounded x r (fun signal r' =>
      r'.Exited law total base module c rest left signal)
      (Run.Aborted law total base)) :
    EndsWithin Run.Bounded x r
      (fun signal r' => r'.Exited law total base module c rest left signal ∧
        (signal = .next → ¬instr.Transfers))
      (Run.Aborted law total base) :=
  h.mono (fun _ _ h => ⟨h, fun _ => hinstr⟩) fun _ _ => id

theorem sound_exec
    {instr : Instr} {taken left : List ValueType} (ih : Sound law total base fuel)
    (h : InstrHasType c instr taken left) (hlawful : r.Lawful law)
    (hr : r.InCode law total base module c) (hrest : rest.Unwinds c)
    (hstack : r.stack.Carries rest taken) :
    EndsWithin Run.Bounded (exec (fuel + 1) setting module instr) r
      (fun signal r' => r'.Exited law total base module c rest left signal ∧
        (signal = .next → ¬instr.Transfers))
      (Run.Aborted law total base) := by
  rw [exec.eq_def]
  refine quiet_countStep.endsWithin_bind hr.sound fun r₁ h₁ => ?_
  refine quiet_record.endsWithin_bind (h₁.inCode hr).sound fun r₂ h₂ => ?_
  -- Counting and recording leave alone whatever typing speaks of.
  replace hr := h₂.inCode (h₁.inCode hr)
  replace hlawful := h₂.lawful (h₁.lawful hlawful)
  replace hstack : r₂.stack.Carries rest taken := by
    rw [h₂.stack, h₁.stack]
    exact hstack
  by_cases hplain : instr.IsPlain
  · have hinstr := plain_ends hplain h hr hlawful.stack hstack
    have hends : Ends (plain module instr >>= fun _ => pure Signal.next) r₂
        (fun signal r' => r'.Exited law total base module c rest left signal)
          (Run.Aborted law total base) :=
      hinstr.bind fun _ r' h => h
    have hrun := endsWithin_of_not_transfers hplain.not_transfers hends.within
    cases instr <;> first | exact hplain.elim | exact hrun
  cases h with
  | nop | drop | select | localGet | localSet | localTee | globalGet | globalSet | load
  | store | memorySize
  | memoryGrow | const | unary | binary => exact absurd trivial hplain
  | unreachable => exact (ends_trap hr.sound).within
  | block _ hbody =>
    exact endsWithin_of_not_transfers id
      (ih.block setting hbody hlawful hr hrest hstack)
  | loop _ hbody =>
    exact endsWithin_of_not_transfers id
      (ih.block setting hbody hlawful hr hrest hstack)
  | @ifElse _ type whenTrue whenFalse _ htrue hfalse =>
      obtain ⟨v, below, hv, hvalues, hbelow⟩ := Stack.Carries.concat_iff.mp hstack
      have hbody : BodyHasType (c.inBlock (blockSignature type).results)
          (if v.u32 ≠ 0 then whenTrue else whenFalse) (blockSignature type).params
          (blockSignature type).results := by
        split
        · exact htrue
        · exact hfalse
      refine ends_popU32_bind hvalues hv (endsWithin_of_not_transfers id ?_)
      exact ih.block setting hbody (hlawful.of_cons hvalues) (hr.of_stack below)
        hrest hbelow
  | br hlabel => exact branch_ends _ hr hrest hlabel hstack
  | brIf hlabel =>
      obtain ⟨v, below, hv, hvalues, hbelow⟩ := Stack.Carries.concat_iff.mp hstack
      refine ends_popU32_bind hvalues hv (Ends.ite (fun _ => ?_) fun _ => ?_)
      · exact branch_ends [] (hr.of_stack below) hrest hlabel hbelow
      · exact fun _ => ⟨⟨hr.of_stack below, hbelow⟩, fun _ => id⟩
  | @brTable _ labels default types taken _ hdefault hlabels =>
      rw [← List.append_assoc] at hstack
      obtain ⟨v, below, hv, hvalues, hbelow⟩ := Stack.Carries.concat_iff.mp hstack
      have hlabel : Denotes c.labels
          ((Index.lookup labels v.u32).getD default) types := by
        cases hentry : Index.lookup labels v.u32 with
        | none => exact hdefault
        | some label =>
            exact hlabels label (List.mem_of_getElem? (Index.getElem?_of_lookup hentry))
      exact ends_popU32_bind hvalues hv (branch_ends taken (hr.of_stack below) hrest
        hlabel hbelow)
  | ret =>
      obtain ⟨stack, hret, hfollows⟩ := hrest.ret_eq_ok hstack
      have hleft : Signal.ret ≠ .next := by simp
      exact ends_rearrange_bind hret fun _ =>
        ⟨⟨hr.of_stack stack, hfollows⟩, fun hnext => absurd hnext hleft⟩
  | call hfunction htype =>
      obtain ⟨inst, addr, f, hinst, haddr, hf, hftype⟩ :=
        hr.exists_function hfunction htype
      refine ends_present_bind hinst (Ends.bind_of_eq_ok haddr ?_)
      exact endsWithin_of_not_transfers id (ih.call_next hlawful hr hf hftype hstack)
  | callIndirect htable _ htype =>
      obtain ⟨inst, hinst, hrealizes⟩ := hr.realizes
      have htables : c.tables ≠ [] := fun hempty => by simp [hempty] at htable
      refine ends_present_bind hinst ?_
      refine (indirectTarget_ends hr hlawful hrealizes htables htype.getElem?
        hstack).within_bind ?_
      rintro function r' ⟨hr', hlawful', hstack', f, hf, hftype⟩
      exact endsWithin_of_not_transfers id (ih.call_next hlawful' hr' hf hftype hstack')

/-- The body of a function runs in a frame of its own. -/
theorem sound_callBody
    {f : FuncInst} {type : FuncType} (ih : Sound law total base fuel)
    (hlawful : r.Lawful law) (hr : r.session.Sound law total base)
    (hcode : f.HasCode r.session.store) (htype : f.type = some type)
    (hstack : r.stack.Carries rest type.params) :
    EndsWithin Run.Bounded (do
      let type ← present f.type
      let params ← popMany type.params.length
      let arity := type.results.length
      let outer := (← get).locals
      modify fun r => { r with locals := (params ++ f.locals.map Val.zero).toArray }
      pushMark (.activation arity)
      pushMark (.label arity)
      match ← execSequence fuel setting f.module f.body with
      | .branch (_ + 1) => bug (.branchPast f.name)
      | _ => pure ()
      rearrange (Stack.leave f.name arity)
      modify fun r => { r with locals := outer }
      exit setting) r
      (fun _ => Run.Returned law total base r.locals rest type.results)
        (Run.Aborted law total base) := by
  obtain ⟨type', inst, c, htype', hinst, hrealizes, hbody⟩ := hcode
  obtain rfl : type' = type := Option.some.inj (htype'.symm.trans htype)
  obtain @⟨_, _, _, surplus, _, hsequence, hsurplus⟩ := hbody
  obtain ⟨params, hparams, -, hpop⟩ := hstack.popMany_eq_ok
  obtain ⟨hparamsLawful, hrestLawful⟩ := hlawful.stack.popMany hpop
  have hframe : Run.Lawful law { r with
      stack := .label type'.results.length :: .activation type'.results.length :: rest
      locals := (params ++ f.locals.map Val.zero).toArray } :=
    ⟨hlawful.session, hrestLawful.activation_cons.label_cons, holds_frame hparamsLawful⟩
  have hcode : Run.InCode law total base f.module (c.inFunction type' f.locals) { r with
      stack := .label type'.results.length :: .activation type'.results.length :: rest
      locals := (params ++ f.locals.map Val.zero).toArray } := by
    refine ⟨hr, ⟨inst, hinst, { hrealizes with }⟩, ?_⟩
    simp [Context.inFunction, hparams, Function.comp_def, Val.zero]
  refine ends_present_bind htype
    (ends_popMany_bind hpop (Ends.get_bind (Ends.modify_bind ?_)))
  refine Ends.bind_of_eq_ok rfl (Ends.bind_of_eq_ok rfl ?_)
  have hrun := ih.sequence setting hsequence hframe hcode
    (Stack.unwinds_frame c type' f.locals rest)
    (Stack.Carries.nil_iff.mpr rfl)
  refine endsWithin_bind hframe steady_sequence
    (fun signal _ _ _ => preserves_closeCall hlawful.locals signal) hrun ?_
  rintro signal r' ⟨⟨hr', hfollows⟩, htransfers⟩ _ _ _
  cases signal with
  | next =>
      obtain rfl : surplus = [] := surplus_eq_nil hsurplus (htransfers rfl)
      exact closeCall_ends hr'.sound hfollows rfl
  | ret =>
      obtain ⟨below, hbelow, hcarries⟩ := hfollows
      obtain ⟨-, rfl⟩ := Prod.mk.inj (Option.some.inj hbelow)
      exact closeCall_ends hr'.sound hcarries rfl
  | branch depth =>
      cases depth with
      | zero => exact closeCall_ends hr'.sound (hfollows.zero_of_label rfl) rfl
      | succ depth =>
          -- The body of a function has one label only, which an exit past it would have
          -- to name.
          obtain ⟨types, below, hlabel, -⟩ := hfollows
          cases hlabel

/-- A host function gets the arguments that its type declares, and is held to it for its
results. -/
theorem sound_callHost
    {function : UInt32} {f : FuncInst} {type : FuncType}
    (ih : Sound law total base fuel) (hlawful : r.Lawful law)
    (hr : r.session.Sound law total base)
    (hf : r.session.store.functions[function.toNat]? = some f) (hkind : f.kind = .host)
    (htype : f.type = some type) (hstack : r.stack.Carries rest type.params) :
    EndsWithin Run.Bounded (do
      let type ← present f.type
      let params ← popMany type.params.length
      let host ← present f.host
      onSession (modify (·.observe (.hostCall f.name params)))
      finishHost function f.name
        (← onSession (runHost fuel setting.context (host params)))
      exit setting) r
      (fun _ => Run.Returned law total base r.locals rest type.results)
        (Run.Aborted law total base) := by
  have hmem := Array.mem_of_getElem? hf
  have hhost : f.HostLawful law total := by
    have htyped := hr.typed.functions f hmem
    rw [FuncInst.Typed, hkind] at htyped
    exact htyped
  obtain ⟨params, hparams, -, hpop⟩ := hstack.popMany_eq_ok
  obtain ⟨hparamsLawful, hrestLawful⟩ := hlawful.stack.popMany hpop
  refine ends_present_bind htype (ends_popMany_bind hpop ?_)
  -- The program is known to be total because the arguments have the declared types.
  cases hprogram : f.host with
  | none =>
      refine fun _ => ⟨hr, fun htotal => ?_⟩
      simpa [hprogram] using (hhost.isPresent htotal).2
  | some host =>
      have hcall : (r.session.observe (.hostCall f.name params)).Sound law total base :=
        Session.Sound.hostCall hr ⟨f, hmem, hkind, rfl, type, htype, hparams⟩
      have hlawful₁ : Run.Lawful law
          { r with
            session := r.session.observe (.hostCall f.name params), stack := rest } :=
        ⟨hlawful.session, hrestLawful, hlawful.locals⟩
      have hprogramLawful :=
        hhost.typed host type hprogram htype params hparamsLawful hparams
      have hrun := ih.host setting.context hprogramLawful hcall
      refine ends_present_bind rfl (Ends.bind_of_eq_ok rfl ?_)
      refine endsWithin_bind hlawful₁ (R := HostEnd.Lawful law False)
        (P := fun hostEnd r' => r'.session.Sound law total base ∧
          hostEnd.Lawful law total ∧ r'.stack = rest ∧
          r'.locals = r.locals) ?_ ?_ ?_ ?_
      · exact fun base hbase =>
          preserves_onSession ((evolving hbase fuel).host _ _
            (hhost.any host hprogram params hparamsLawful))
      · exact fun hostEnd hend base _ => (preserves_finishHost hend).bind
          fun _ _ => preserves_exit
      · refine ends_onSession hrun (fun hostEnd s h hB =>
          ⟨(h hB).1, (h hB).2, rfl, rfl⟩) fun error s h hB => ?_
        obtain ⟨hs, rfl⟩ := h hB
        exact ⟨hs, trivial⟩
      · rintro hostEnd r' ⟨hr', hend, rfl, hlocals⟩ _ _ hext
        obtain ⟨_, hf', rfl⟩ := hext.functions _ _ hf
        refine (finishHost_ends hr' hend hf' htype).within_bind
          fun _ r'' hreturned => ?_
        rw [hlocals] at hreturned
        exact hreturned.exit_ends

theorem sound_call
    {function : UInt32} {f : FuncInst} {type : FuncType}
    (ih : Sound law total base fuel) (hlawful : r.Lawful law)
    (hr : r.session.Sound law total base)
    (hf : r.session.store.functions[function.toNat]? = some f)
    (htype : f.type = some type) (hstack : r.stack.Carries rest type.params) :
    EndsWithin Run.Bounded (call (fuel + 1) setting function) r
      (fun _ => Run.Returned law total base r.locals rest type.results)
        (Run.Aborted law total base) := by
  rw [call.eq_def]
  refine ends_present_bind hf (quiet_enter.endsWithin_bind hr fun r₁ h₁ => ?_)
  have hr₁ : r₁.session.Sound law total base := h₁.session ▸ hr
  have hlawful₁ := h₁.lawful hlawful
  have hf₁ : r₁.session.store.functions[function.toNat]? = some f := h₁.session ▸ hf
  have hstack₁ : r₁.stack.Carries rest type.params := h₁.stack ▸ hstack
  have htyped := hr₁.typed.functions f (Array.mem_of_getElem? hf₁)
  rw [← h₁.locals]
  cases hkind : f.kind with
  | host => exact sound_callHost ih hlawful₁ hr₁ hf₁ hkind htype hstack₁
  | wasm =>
      have hcode : f.HasCode r₁.session.store := by
        rw [FuncInst.Typed, hkind] at htyped
        exact htyped
      have hmodule : ∃ inst, r₁.session.store.module f.module = .ok inst := by
        obtain ⟨_, inst, _, _, hinst, _⟩ := hcode
        exact ⟨inst, Store.lookup_eq_ok_iff.mpr hinst⟩
      obtain ⟨inst, hinst⟩ := hmodule
      refine Ends.bind_of_eq_ok (a := r₁.session.store) rfl ?_
      rw [hinst]
      exact sound_callBody ih hlawful₁ hr₁ hcode htype hstack₁
  | reserved code =>
      rw [FuncInst.Typed, hkind] at htyped
      exact htyped.elim

theorem steady_host
    {context : ContextRef} {program : HostProgram} (h : program.Lawful law total) :
    Operation.Steady law (runHost fuel context program) fun _ => True :=
  fun _ hbase => ((evolving hbase fuel).host context program h.weaken).mono
    fun _ _ => trivial

theorem steady_perform
    {context : ContextRef} {command : Command} (h : command.Lawful law total) :
    Operation.Steady law (perform fuel context command) (Response.Lawful law) :=
  fun _ hbase => (evolving hbase fuel).perform context command h.weaken

theorem sound_host
    {context : ContextRef} {program : HostProgram} {s : Session}
    (ih : Sound law total base fuel) (hprogram : program.Lawful law total)
    (hs : s.Sound law total base) :
    EndsWithin Session.Bounded (runHost (fuel + 1) context program) s
      (fun hostEnd s' => s'.Sound law total base ∧ hostEnd.Lawful law total)
      (fun error s' => s'.Sound law total base ∧ error = .exhausted) := by
  cases hprogram with
  | done hresults => exact fun _ => ⟨hs, hresults⟩
  | fail => exact fun _ => ⟨hs, trivial⟩
  | stop hpartial => exact fun _ => ⟨hs, hpartial⟩
  | @perform _ command next hcommand hcomplete hnext =>
      -- The command may leave the bound; then the rest of the program is looked at
      -- without types.
      have hboth := Ends.and (ih.perform context hcommand hs)
        ((steady_perform hcommand).ends hs.typed.lawful)
      refine ends_runHost_perform hboth ?_ ?_ (fun s' h hB => ?_)
        fun s' h hB => ⟨(h.1 hB).1, rfl⟩
      · rintro response s' ⟨h, hresponse, hlawful, -⟩
        have hrest := hnext response hresponse
        exact (steady_host hrest).endsWithin hlawful fun hB =>
          ih.host context hrest (h hB).1
      · rintro error s' ⟨h, hlawful, -⟩
        have hrest := hnext (.failed error) trivial
        exact (steady_host hrest).endsWithin hlawful fun hB =>
          ih.host context hrest (h hB).1
      · exact ⟨(h.1 hB).1, fun htotal => (h.1 hB).2 htotal (hcomplete htotal) rfl⟩

theorem map_type_of_checkArgumentTypes
    {args : List Val} {params : List ValueType} {index : Nat}
    (hlength : args.length = params.length)
    (h : checkArgumentTypes index args params = .ok ()) :
    args.map Val.type = params := by
  induction args generalizing params index with
  | nil => exact (List.length_eq_zero_iff.mp hlength.symm).symm
  | cons v args ih =>
      cases params with
      | nil => cases hlength
      | cons first rest =>
          rw [checkArgumentTypes] at h
          split at h
          · rename_i hfirst
            rw [List.map_cons, hfirst, ih (Nat.succ.inj hlength) h]
          · cases h

theorem map_type_of_checkArguments
    {args : List Val} {type : FuncType} (h : checkArguments type args = .ok ()) :
    args.map Val.type = type.params := by
  unfold checkArguments at h
  split at h
  · exact map_type_of_checkArgumentTypes ‹_› h
  · cases h

/-- The run of an invocation: the arguments are put on an empty stack, and the results
are all that is left there. -/
theorem sound_invocation
    {function : UInt32} {f : FuncInst} {type : FuncType} {args : List Val} {s : Session}
    (setting : Setting) (ih : Sound law total base fuel) (hargs : law.HoldsAll args)
    (hs : s.Sound law total base) (hf : s.store.functions[function.toNat]? = some f)
    (htype : f.type = some type) (htypes : args.map Val.type = type.params) :
    EndsWithin Run.Bounded (do
      call fuel setting function
      let type ← typeOf function
      popMany type.results.length) { session := s, stack := Stack.pushAll [] args }
      (fun results r => r.session.Sound law total base ∧ law.HoldsAll results ∧
        results.map Val.type = type.results)
      (Run.Aborted law total base) := by
  have hlawful : Run.Lawful law { session := s, stack := Stack.pushAll [] args } :=
    ⟨hs.typed.lawful, Stack.Lawful.nil.pushAll hargs, fun _ h => by simp at h⟩
  have hcall := ih.call setting hlawful hs hf htype ⟨args, htypes, rfl⟩
  refine endsWithin_bind hlawful steady_call (fun _ _ _ _ => ?_) hcall ?_
  · exact preserves_typeOf.bind fun _ _ => preserves_popMany.mono fun _ _ => trivial
  · rintro _ r hreturned _ hlawful' hext
    obtain ⟨_, hf', rfl⟩ := hext.functions _ _ hf
    obtain ⟨results, hresults, -, hpop⟩ := hreturned.stack.popMany_eq_ok
    have hholds := (hlawful'.stack.popMany hpop).1
    have htake : popMany type.results.length r =
        .ok results { r with stack := [] } := by
      unfold popMany take
      rw [hpop]
    refine Ends.bind_of_eq_ok (typeOf_eq_ok hf' htype) ?_
    exact Ends.of_eq_ok htake fun _ => ⟨hreturned.sound, hholds, hresults⟩

theorem sound_invoke
    {context : ContextRef} {function : UInt32} {args : List Val} {s : Session}
    (hengine : total → base.engine ≠ none) (ih : Sound law total base fuel)
    (hargs : law.HoldsAll args) (hs : s.Sound law total base) :
    EndsWithin Session.Bounded (invoke (fuel + 1) context function args) s
      (fun results s' => s'.Sound law total base ∧ law.HoldsAll results ∧
        ∀ f type, s.store.function function = .ok f → f.type = some type →
          results.map Val.type = type.results)
      (fun error s' => s'.Sound law total base ∧
        (total → error.Reports s.store function)) := by
  rw [invoke.eq_def]
  refine Ends.get_bind (Ends.bind (P := fun _ s' => s = s')
    (Operation.ends_present (fun _ _ => rfl) ?_) ?_)
  · intro hnone _
    refine ⟨hs, fun htotal => absurd ?_ (hengine htotal)⟩
    rw [← hs.evolves.extension.engine, hnone]
  rintro config _ rfl
  refine Ends.bind (P := fun f s' => s = s' ∧ s.store.function function = .ok f)
    (Operation.ends_read (fun _ hf => ⟨rfl, hf⟩) fun cause hcause _ => ?_) ?_
  · exact ⟨hs, fun _ => .inr (.inr ⟨cause, hcause, rfl⟩)⟩
  rintro f _ ⟨rfl, hread⟩
  have hf := Store.lookup_eq_ok_iff.mp hread
  refine Ends.bind (P := fun type s' => s = s' ∧ f.type = some type)
    (Operation.ends_present (fun _ htype => ⟨rfl, htype⟩) fun hnone _ => ?_) ?_
  · have htyped := hs.typed.functions f (Array.mem_of_getElem? hf)
    exact ⟨hs, fun htotal => absurd hnone (htyped.type_ne_none htotal)⟩
  rintro type _ ⟨rfl, htype⟩
  cases hcheck : checkArguments type args with
  | error cause => exact fun _ => ⟨hs, fun _ => .inr (.inl ⟨_, _, rfl⟩)⟩
  | ok =>
      have hrun := sound_invocation { config, context } ih hargs hs hf htype
        (map_type_of_checkArguments hcheck)
      refine ends_toOperation hrun ?_ ?_ ?_ ?_
      · intro results r h hB
        obtain ⟨hsound, hholds, hresults⟩ := h hB
        refine ⟨hsound, hholds, fun f' type' hread' htype' => ?_⟩
        obtain rfl : f = f' := Except.ok.inj (hread.symm.trans hread')
        rw [hresults, Option.some.inj (htype.symm.trans htype')]
      · intro cause r s' h hstore hcalls hB
        have hmoves : r.session.Moves law True total s' := ⟨hstore ▸ .refl _, hcalls⟩
        have hbounded : r.session.store.Addressable := hstore ▸ hB
        exact ⟨(h hbounded).1.moves hmoves hB, fun _ => .inr (.inl ⟨_, _, rfl⟩)⟩
      · exact fun cause r h hB => ⟨(h hB).1, fun htotal => ((h hB).2 htotal).elim⟩
      · exact fun r h hB => ⟨(h hB).1, fun _ => .inl rfl⟩

/-- Within a bound on their length, invocations keep a session sound, and they do not
crash if they are safe. -/
def SoundInvocations (law : ValueLaw) (total safe : Prop) (base : Store)
    (fuel : Nat) : Prop :=
  ∀ (context : ContextRef) (function : UInt32) (args : List Val) (s : Session),
    law.HoldsAll args →
    s.Sound law total base →
    EndsWithin Session.Bounded (invoke fuel context function args) s
      (fun results s' => s'.Sound law total base ∧ law.HoldsAll results)
      (fun error s' => s'.Sound law total base ∧ (safe → error ≠ .crash))

section Commands

variable {safe : Prop} {s : Session} {context : ContextRef}

theorem sound_start
    {name : String} {start : Option UInt32} {position : Nat} {inst : ModuleInst}
    (hinvoke : SoundInvocations law total safe base fuel)
    (hs : s.Sound law total base) :
    EndsWithin Session.Bounded (do
      match start with
      | some function => runStart name (invoke fuel context function [])
      | none => pure ()
      Response.module <$> Operation.added position inst) s
      (fun response s' => s'.Sound law total base ∧ response.Lawful law)
      (fun error s' => s'.Sound law total base ∧ (safe → error ≠ .crash)) := by
  have hmodule (s : Session) (hs : s.Bounded → s.Sound law total base) :
      EndsWithin Session.Bounded (Response.module <$> Operation.added position inst) s
        (fun response s' => s'.Sound law total base ∧ response.Lawful law)
        (fun error s' => s'.Sound law total base ∧ (safe → error ≠ .crash)) :=
    fun hB => ⟨hs hB, trivial⟩
  cases start with
  | none => exact hmodule s fun _ => hs
  | some function =>
      have hrun := hinvoke context function [] s (fun _ h => by cases h) hs
      refine Ends.bind (P := fun _ s' => s'.Bounded → s'.Sound law total base)
        (ends_runStart hrun ?_ ?_ ?_ ?_)
        fun _ s' => hmodule s'
      · exact fun _ _ h hB => (h hB).1
      · exact fun _ h => h
      · exact fun _ h => h
      · exact fun _ _ h hB => ⟨(h hB).1, fun _ => nofun⟩

theorem sound_openContext
    (hs : s.Sound law total base) (choice : ContextChoice) :
    (s.openContext context choice).2.Sound law total base := by
  refine hs.moves (s.moves_openContext context choice) ?_
  cases choice <;> exact hs.addressable

/-- An invocation under a context that is chosen for it. -/
theorem sound_chosen
    {choice : ContextChoice} {function : UInt32} {args : List Val}
    (hinvoke : SoundInvocations law total safe base fuel) (hargs : law.HoldsAll args)
    (hs : s.Sound law total base) :
    EndsWithin Session.Bounded (do
      let context ← Operation.openContext context choice
      Response.results <$> invoke fuel context function args) s
      (fun response s' => s'.Sound law total base ∧ response.Lawful law)
      (fun error s' => s'.Sound law total base ∧ (safe → error ≠ .crash)) := by
  refine Ends.bind_of_eq_ok rfl (Ends.map ?_)
  exact hinvoke _ function args _ hargs (sound_openContext hs choice)

theorem sound_perform
    {command : Command} (hsafe : safe → total)
    (hinvoke : SoundInvocations law total safe base fuel)
    (hcommand : command.Lawful law total) (hs : s.Sound law total base) :
    EndsWithin Session.Bounded (perform (fuel + 1) context command) s
      (fun response s' => s'.Sound law total base ∧ response.Lawful law)
      (fun error s' => s'.Sound law total base ∧
        (safe → command.IsComplete → error ≠ .crash)) := by
  have htypes (htotal : total) (f : FuncInst) (hf : f ∈ s.store.functions) :
      f.type ≠ none :=
    (hs.typed.functions f hf).type_ne_none htotal
  have hanswer : EndsWithin Session.Bounded (Operation.answer command) s
      (fun response s' => s'.Sound law total base ∧ response.Lawful law)
      (fun error s' => s'.Sound law total base ∧
        (safe → command.IsComplete → error ≠ .crash)) := by
    have hends : Ends (Operation.answer command) s (Operation.Answers law True total s)
        (Operation.Refuses law True total command.IsComplete s) :=
      Operation.answer_ends hcommand hs.typed.lawful htypes
    exact hends.mono (fun _ _ h hB => ⟨hs.moves h.2 hB, h.1⟩)
      fun _ _ h hB => ⟨hs.moves h.1 hB, fun h' => h.2 (hsafe h')⟩
  rw [perform.eq_def]
  cases hcommand with
  | invoke hargs =>
      exact (sound_chosen hinvoke hargs hs).mono (fun _ _ => id) fun _ _ h =>
        ⟨h.1, fun h' _ => h.2 h'⟩
  | @call _ module name args choice hargs =>
      refine Ends.bind (P := fun _ s' => s = s')
        (Operation.findExport_ends (fun _ _ => rfl) ?_ ?_) ?_
      · exact fun _ _ => ⟨hs, fun _ _ h => by cases h⟩
      · exact fun _ _ => ⟨hs, fun _ _ h => by cases h⟩
      · rintro val _ rfl
        exact (sound_chosen hinvoke hargs hs).mono (fun _ _ => id) fun _ _ h =>
          ⟨h.1, fun h' _ => h.2 h'⟩
  | allocGlobal | globalSet | allocFunction => exact hanswer
  | @instantiate _ m name externs choice hdata =>
      have hs₁ := @sound_openContext law total base s context hs choice
      have hprepare : Ends (Operation.prepare m name externs)
          (s.openContext context choice).2
          (fun _ s' => (s.openContext context choice).2.Moves law True total s')
          (fun e s' => (s.openContext context choice).2.Moves law True total s' ∧
            (total → e ≠ .crash)) := by
        refine Operation.prepare_ends _ fun htotal module hmodule => ?_
        refine Store.prepares (fun f hf => ?_) (hdata htotal module hmodule)
        exact (hs₁.typed.functions f hf).type_ne_none htotal
      refine Ends.bind_of_eq_ok rfl (Ends.get_bind ?_)
      refine Ends.bind (hprepare.mono (fun _ _ => id) fun e s' h hB => ?_)
        fun prepared s' hmoves => ?_
      · exact ⟨hs₁.moves h.1 hB, fun h' _ => h.2 (hsafe h')⟩
      · refine Operation.Steady.endsWithin (fun _ hbase =>
          evolving_start (evolving hbase fuel))
          (hmoves.store.lawful hs₁.typed.lawful) fun hB => ?_
        refine (sound_start hinvoke (hs₁.moves hmoves hB)).mono (fun _ _ => id)
          fun _ _ h => ?_
        exact ⟨h.1, fun h' _ => h.2 h'⟩
  | plain hplain =>
      cases command with
      | instantiate | invoke | call => exact hplain.elim
      | _ => exact hanswer

end Commands

/-- All parts of the interpreter are sound, whatever the bound on their length. -/
theorem sound
    (hengine : total → base.engine ≠ none) (fuel : Nat) :
    Sound law total base fuel := by
  -- The functions of the interpreter call each other with less fuel, so the seven
  -- statements go together.
  induction fuel with
  | zero =>
      exact {
        exec := fun _ _ _ _ _ _ _ _ _ _ hr _ _ _ => ⟨hr.sound, trivial⟩
        sequence := fun _ _ _ _ _ _ _ _ _ _ hr _ _ _ => ⟨hr.sound, trivial⟩
        block := fun _ _ _ _ _ _ _ _ _ _ _ hr _ _ _ => ⟨hr.sound, trivial⟩
        call := fun _ _ _ _ _ _ _ hs _ _ _ _ => ⟨hs, trivial⟩
        host := fun _ _ _ _ hs _ => ⟨hs, rfl⟩
        perform := fun _ _ _ _ hs _ => ⟨hs, fun _ _ => nofun⟩
        invoke := fun _ _ _ _ _ hs _ => ⟨hs, fun _ => .inl rfl⟩ }
  | succ fuel ih =>
      have hinvoke : SoundInvocations law total total base fuel := by
        intro context function args s hargs hs
        refine (ih.invoke context hargs hs).mono (fun _ _ h => ⟨h.1, h.2.1⟩)
          fun _ _ h => ?_
        exact ⟨h.1, fun htotal => (h.2 htotal).ne_crash⟩
      exact {
        exec := fun _ => sound_exec ih
        sequence := fun _ => sound_sequence ih
        block := fun _ => sound_block ih
        call := fun _ => sound_call ih
        host := fun _ => sound_host ih
        perform := fun _ => sound_perform id hinvoke
        invoke := fun _ => sound_invoke hengine ih }

end Engine
end WebAssembly
