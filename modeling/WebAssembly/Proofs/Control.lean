import WebAssembly.Proofs.Instructions

/-!
# Control flow in typed code

How statements about typed runs are put together.  What is claimed of a run holds only
while addresses suffice, so a first part may leave the bound; then the untyped account
of runs says that the rest stays outside.
-/

namespace WebAssembly

/-- The session lies within the bound in which addresses are unique. -/
def Session.Bounded (s : Session) : Prop :=
  s.store.Addressable

/-- The session of the run lies within the bound in which addresses are unique. -/
def Run.Bounded (r : Run) : Prop :=
  r.session.Bounded

/-- The run handles lawful values over a lawful store. -/
def Run.Lawful (law : ValueLaw) (r : Run) : Prop :=
  r.Keeps law fun s => s.store.Lawful law

/-- Two runs differ only in what they count and record. -/
structure Run.Agrees (r r' : Run) : Prop where
  session : r'.session = r.session
  stack : r'.stack = r.stack
  locals : r'.locals = r.locals

variable {law : ValueLaw} {total : Prop} {base : Store} {α β : Type}

namespace Operation

/-- From every lawful store, the operation changes it by known steps. -/
def Steady (law : ValueLaw) (x : Operation α) (R : α → Prop) : Prop :=
  ∀ base : Store, base.Lawful law → Preserves (Exec.From law base) x R

theorem Steady.ends
    {x : Operation α} {R : α → Prop} {s : Session} (h : Steady law x R)
    (hs : s.store.Lawful law) :
    Ends x s (fun a s' => R a ∧ s'.store.Lawful law ∧ s.store.Extends False s'.store)
      fun _ s' => s'.store.Lawful law ∧ s.store.Extends False s'.store := by
  refine (h s.store hs s (.refl _)).mono (fun a s' h =>
    ⟨h.1, h.2.lawful hs, h.2.extension⟩) ?_
  exact fun _ _ h => ⟨Store.Evolves.lawful h hs, Store.Evolves.extension h⟩

/-- What grows beyond the bound does not come back, so only a start within the bound
matters. -/
theorem Steady.endsWithin
    {x : Operation α} {R : α → Prop} {s : Session} {P : α → Session → Prop}
    {E : Error → Session → Prop} (hx : Steady law x R) (hs : s.store.Lawful law)
    (h : s.Bounded → EndsWithin Session.Bounded x s P E) :
    EndsWithin Session.Bounded x s P E := by
  by_cases hB : s.Bounded
  · exact h hB
  · exact (hx.ends hs).mono (fun _ _ h hB' => absurd (h.2.2.addressable hB') hB)
      fun _ _ h hB' => absurd (h.2.addressable hB') hB

end Operation

namespace Exec

/-- From every lawful store, the step changes it by known steps. -/
def Steady (law : ValueLaw) (x : Exec α) (R : α → Prop) : Prop :=
  ∀ base : Store, base.Lawful law → Preserves (Run.Keeps law (From law base)) x R

theorem Steady.ends
    {x : Exec α} {R : α → Prop} {r : Run} (h : Steady law x R) (hr : r.Lawful law) :
    Ends x r (fun a r' => R a ∧ r'.Lawful law ∧
      r.session.store.Extends False r'.session.store)
      fun _ r' => r.session.store.Extends False r'.session.store := by
  refine (h r.session.store hr.session r ⟨.refl _, hr.stack, hr.locals⟩).mono
    (fun a r' h => ?_) ?_
  · exact ⟨h.1, ⟨h.2.session.lawful hr.session, h.2.stack, h.2.locals⟩,
      h.2.session.extension⟩
  · exact fun _ _ h => Store.Evolves.extension h.session

/-- What grows beyond the bound does not come back, so only a start within the bound
matters. -/
theorem Steady.endsWithin
    {x : Exec α} {R : α → Prop} {r : Run} {P : α → Run → Prop} {E : Abort → Run → Prop}
    (hx : Steady law x R) (hr : r.Lawful law)
    (h : r.Bounded → EndsWithin Run.Bounded x r P E) :
    EndsWithin Run.Bounded x r P E := by
  by_cases hB : r.Bounded
  · exact h hB
  · exact (hx.ends hr).mono (fun _ _ h hB' => absurd (h.2.2.addressable hB') hB)
      fun _ _ h hB' => absurd (h.addressable hB') hB

/-- Two parts of a run in a row. -/
theorem endsWithin_bind
    {x : Exec α} {f : α → Exec β} {r : Run} {R : α → Prop} {P : α → Run → Prop}
    {Q : β → Run → Prop} {E : Abort → Run → Prop} (hr : r.Lawful law)
    (hx : Steady law x R) (hf : ∀ a, R a → Steady law (f a) fun _ => True)
    (hfirst : EndsWithin Run.Bounded x r P E)
    (hsecond : ∀ a r', P a r' → R a → r'.Lawful law →
      r.session.store.Extends False r'.session.store →
      EndsWithin Run.Bounded (f a) r' Q E) : EndsWithin Run.Bounded
        (x >>= f) r Q E := by
  refine Ends.bind ((Ends.and hfirst (hx.ends hr)).mono (fun _ _ => id)
    fun _ _ h => h.1) ?_
  rintro a r' ⟨hP, hR, hlawful, hext⟩
  exact (hf a hR).endsWithin hlawful fun hB => hsecond a r' (hP hB) hR hlawful hext

/-- The step only counts, records or traps. -/
def Quiet (x : Exec Unit) : Prop :=
  ∀ r : Run, Ends x r (fun _ r' => r.Agrees r') fun abort r' => r.Agrees r' ∧ ∃ cause,
    abort = .trap cause

theorem Quiet.bind
    {x y : Exec Unit} (hx : Quiet x) (hy : Quiet y) : Quiet (x >>= fun _ => y) := by
  intro r
  refine (hx r).bind fun _ r' h => (hy r').mono (fun _ r'' h' => ?_) fun _ r'' h' => ?_
  · exact ⟨h'.session.trans h.session, h'.stack.trans h.stack, h'.locals.trans h.locals⟩
  · obtain ⟨h', hcause⟩ := h'
    exact ⟨⟨h'.session.trans h.session, h'.stack.trans h.stack,
      h'.locals.trans h.locals⟩, hcause⟩

theorem quiet_record {setting : Setting} {moment : Moment} :
    Quiet (record setting moment) := by
  intro r
  unfold Ends record
  split
  · rename_i heq
    split at heq
    · obtain ⟨-, rfl⟩ := EStateM.Result.ok.inj heq
      exact ⟨rfl, rfl, rfl⟩
    · obtain ⟨-, rfl⟩ := EStateM.Result.ok.inj heq
      exact ⟨rfl, rfl, rfl⟩
  · rename_i heq
    split at heq <;> cases heq

theorem quiet_countStep {setting : Setting} : Quiet (countStep setting) := by
  intro r
  refine Ends.ite (fun _ => Ends.modify_bind (Ends.get_bind ?_))
    fun _ => ⟨rfl, rfl, rfl⟩
  exact Ends.ite (fun _ => ⟨⟨rfl, rfl, rfl⟩, _, rfl⟩) fun _ => ⟨rfl, rfl, rfl⟩

theorem quiet_checkInterrupt {setting : Setting} : Quiet (checkInterrupt setting) := by
  intro r
  refine Ends.ite (fun _ => Ends.get_bind ?_) fun _ => ⟨rfl, rfl, rfl⟩
  cases r.session.doneReason setting.context with
  | none => exact ⟨rfl, rfl, rfl⟩
  | some reason => exact ⟨⟨rfl, rfl, rfl⟩, _, rfl⟩

theorem quiet_enter {setting : Setting} {name : String} :
    Quiet (enter setting name) := by
  have hpush : Quiet (modify fun r => { r with active := r.active.push name }) :=
    fun _ => ⟨rfl, rfl, rfl⟩
  intro r
  refine Ends.get_bind (Ends.ite (fun _ => ⟨⟨rfl, rfl, rfl⟩, _, rfl⟩) fun _ => ?_)
  exact quiet_checkInterrupt.bind (hpush.bind quiet_record) r

theorem quiet_exit {setting : Setting} : Quiet (exit setting) := by
  have hpop : Quiet (modify fun r => { r with active := r.active.pop }) :=
    fun _ => ⟨rfl, rfl, rfl⟩
  exact hpop.bind quiet_record

theorem Quiet.endsWithin_bind
    {x : Exec Unit} {f : Unit → Exec β} {r : Run} {Q : β → Run → Prop} (hx : Quiet x)
    (hr : r.session.Sound law total base)
    (hf : ∀ r', r.Agrees r' → EndsWithin Run.Bounded (f ()) r' Q
      (Run.Aborted law total base)) :
    EndsWithin Run.Bounded (x >>= f) r Q (Run.Aborted law total base) := by
  refine Ends.bind ((hx r).mono (fun _ _ => id) ?_) fun _ r' h => hf r' h
  rintro abort r' ⟨h, cause, rfl⟩ _
  exact ⟨h.session ▸ hr, trivial⟩

end Exec

namespace Run.Agrees

variable {r r' : Run}

theorem lawful
    (h : r.Agrees r') (hr : r.Lawful law) : r'.Lawful law :=
  ⟨h.session ▸ hr.session, h.stack ▸ hr.stack, h.locals ▸ hr.locals⟩

theorem inCode
    {module : UInt32} {c : Context} (h : r.Agrees r')
    (hr : r.InCode law total base module c) :
    r'.InCode law total base module c :=
  ⟨h.session ▸ hr.sound, h.session ▸ hr.realizes, h.locals ▸ hr.locals⟩

end Run.Agrees

theorem Run.Lawful.of_cons
    {r : Run} {entry : Entry} {below : Stack} (hr : r.Lawful law)
    (hstack : r.stack = entry :: below) :
    { r with stack := below }.Lawful law :=
  ⟨hr.session, (hstack ▸ hr.stack).tail, hr.locals⟩

/-- A call has ended: its results stand where its arguments stood, and the locals of the
caller are back. -/
structure Run.Returned (law : ValueLaw) (total : Prop) (base : Store)
    (locals : Array Val) (rest : Stack) (results : List ValueType)
    (r : Run) : Prop where
  sound : r.session.Sound law total base
  locals : r.locals = locals
  stack : r.stack.Carries rest results

section Frames

open Exec

variable {r : Run} {rest : Stack} {setting : Setting} {outer : Array Val}
  {results : List ValueType} {name : String}

theorem Run.Returned.exit_ends
    (h : r.Returned law total base outer rest results) :
    EndsWithin Run.Bounded (exit setting) r (fun _ =>
      Run.Returned law total base outer rest results)
      (Run.Aborted law total base) := by
  refine (quiet_exit r).mono (fun _ r' hquiet _ => ?_) ?_
  · exact ⟨hquiet.session ▸ h.sound, hquiet.locals.trans h.locals,
      hquiet.stack ▸ h.stack⟩
  · rintro abort r' ⟨hquiet, cause, rfl⟩ _
    exact ⟨hquiet.session ▸ h.sound, trivial⟩

/-- A function whose body has ended gives its results to the caller, whatever is left
between them and its activation. -/
theorem Exec.closeCall_ends
    {above : Stack} {arity : Nat} (hr : r.session.Sound law total base)
    (hstack : r.stack.Carries above results)
    (habove : Stack.findActivation above = some (arity, rest)) :
    EndsWithin Run.Bounded (do
      rearrange (Stack.leave name results.length)
      modify fun r => { r with locals := outer }
      exit setting) r (fun _ => Run.Returned law total base outer rest results)
        (Run.Aborted law total base) := by
  obtain ⟨stack, hleave, hcarries⟩ := hstack.leave_eq_ok habove name
  refine ends_rearrange_bind hleave (Ends.modify_bind ?_)
  exact Run.Returned.exit_ends ⟨hr, rfl, hcarries⟩

theorem Exec.checkResultTypes_ends
    {type : FuncType} {values : List Val} {expected : List ValueType} {index : Nat}
    (hr : r.session.Sound law total base) (hlength : values.length = expected.length) :
    Ends (checkResultTypes name type index values expected) r
      (fun _ r' => r' = r ∧ values.map Val.type = expected)
        (Run.Aborted law total base) := by
  induction values generalizing expected index with
  | nil =>
      obtain rfl := List.length_eq_zero_iff.mp hlength.symm
      exact ⟨rfl, rfl⟩
  | cons v values ih =>
      cases expected with
      | nil => cases hlength
      | cons first rest =>
          refine Ends.ite (fun _ => ends_trap hr) fun hfirst => ?_
          refine (ih (Nat.succ.inj hlength)).mono (fun _ r' h => ⟨h.1, ?_⟩)
            fun _ _ => id
          rw [List.map_cons, h.2, Decidable.not_not.mp hfirst]

theorem Exec.typeOf_eq_ok
    {function : UInt32} {f : FuncInst} {type : FuncType}
    (hf : r.session.store.functions[function.toNat]? = some f)
    (htype : f.type = some type) :
    typeOf function r = .ok type r := by
  show (present r.session.store.functions[function.toNat]? >>= fun f =>
    present f.type) r = .ok type r
  rw [hf]
  show present f.type r = .ok type r
  rw [htype]
  rfl

/-- What a host function gives back is checked against its declared type. -/
theorem Exec.finishHost_ends
    {function : UInt32} {f : FuncInst} {type : FuncType} {hostEnd : HostEnd}
    (hr : r.session.Sound law total base) (hend : hostEnd.Lawful law total)
    (hf : r.session.store.functions[function.toNat]? = some f)
    (htype : f.type = some type) :
    Ends (finishHost function name hostEnd) r
      (fun _ => Run.Returned law total base r.locals r.stack type.results)
        (Run.Aborted law total base) := by
  cases hostEnd with
  | done results =>
      refine Ends.bind_of_eq_ok (typeOf_eq_ok hf htype) ?_
      refine Ends.ite (fun _ => ends_trap hr) fun hlength => ?_
      refine (checkResultTypes_ends hr (Decidable.not_not.mp hlength)).bind ?_
      rintro _ _ ⟨rfl, htypes⟩
      exact ⟨hr, rfl, results, htypes, rfl⟩
  | fail error => exact ends_trap hr
  | stop cause =>
      cases cause with
      | trap => exact ends_trap hr
      | bug | crash => exact ⟨hr, hend⟩

end Frames

section Targets

variable {module : UInt32} {c : Context} {r : Run} {rest : Stack} {type : FuncType}

/-- The function at an index of typed code is one of the store, of the type that the
context says. -/
theorem Run.InCode.exists_function
    {function index : UInt32} (hr : r.InCode law total base module c)
    (hfunction : Denotes c.functions function index)
    (htype : c.types[index.toNat]? = some (some type)) :
    ∃ inst addr f, r.session.store.modules[module.toNat]? = some inst ∧
      Exec.functionAt inst function r = .ok addr r ∧
      r.session.store.functions[addr.toNat]? = some f ∧
      f.type = some type := by
  obtain ⟨inst, hinst, hrealizes⟩ := hr.realizes
  obtain ⟨addr, haddr, f, type', hf, htype', hentry⟩ := 
    hfunction.exists_lookup hrealizes.functions
  obtain rfl : type' = type := by simpa [htype] using hentry.symm
  refine ⟨inst, addr, f, hinst, ?_, hf, htype'⟩
  unfold Exec.functionAt
  rw [haddr]
  have hread : r.session.store.function addr = .ok f := Store.lookup_eq_ok_iff.mpr hf
  show (Exec.access (r.session.store.function addr) >>= fun _ => pure addr) r =
    .ok addr r
  rw [hread]
  rfl

/-- The target of a call through the table is a function of the store, of the type that
the call names. -/
theorem Exec.indirectTarget_ends
    {index : UInt32} {inst : ModuleInst} (hr : r.InCode law total base module c)
    (hlawful : r.Lawful law) (hrealizes : r.session.store.Realizes c inst)
    (htable : c.tables ≠ []) (htype : c.types[index.toNat]? = some (some type))
    (hstack : r.stack.Carries rest (type.params ++ [.i32])) :
    Ends (indirectTarget inst index) r
      (fun function r' => r'.InCode law total base module c ∧ r'.Lawful law ∧
        r'.stack.Carries rest type.params ∧
        ∃ f, r'.session.store.functions[function.toNat]? = some f ∧ f.type = some type)
      (Run.Aborted law total base) := by
  obtain ⟨addr, haddr, hlt⟩ :=
    hrealizes.exists_addr .table rfl (List.length_pos_iff.mpr htable)
  have htables : inst.tables[0]? = some addr := haddr
  have hread : r.session.store.table addr = .ok _ :=
    Store.lookup_eq_ok_iff.mpr (Array.getElem?_eq_getElem hlt)
  obtain ⟨v, below, hv, hvalues, hbelow⟩ := Stack.Carries.concat_iff.mp hstack
  have htableAddr : tableAddr inst = pure addr := by
    unfold tableAddr
    cases hlist : inst.tables with
    | nil => simp [hlist] at htables
    | cons first rest =>
        obtain rfl : first = addr := by simpa [hlist] using htables
        rfl
  unfold indirectTarget
  rw [htableAddr]
  refine ends_access_bind hread (ends_popU32_bind hvalues hv ?_)
  split
  · rename_i function hslot
    have hfunction :=
      (hr.sound.typed.wellFormed.tables _ (Array.getElem_mem hlt)).slots _ _ hslot
    obtain ⟨f, hf⟩ : ∃ f, r.session.store.functions[function.toNat]? = some f :=
      ⟨_, Array.getElem?_eq_getElem hfunction⟩
    have hexpected : inst.types[index.toNat]?.join = some type := by
      rw [hrealizes.types, htype]; rfl
    refine ends_access_bind (Store.lookup_eq_ok_iff.mpr hf)
      (ends_present_bind hexpected ?_)
    cases hactual : f.type with
    | none =>
        have htyped := hr.sound.typed.functions f (Array.mem_of_getElem? hf)
        exact ⟨hr.sound, fun htotal => htyped.type_ne_none htotal hactual⟩
    | some actual =>
        refine Ends.ite (fun hsame => ?_) fun _ => ends_trap hr.sound
        exact ⟨hr.of_stack below, hlawful.of_cons hvalues, hbelow, f, hf,
          hactual.trans (congrArg some hsame)⟩
  · exact ends_trap hr.sound

end Targets

namespace Stack.Follows

variable {c : Context} {rest stack : Stack} {left left' : List ValueType}

theorem of_pushAll
    {values : List Val} {signal : Signal}
    (h : Follows c (rest.pushAll values) left stack signal) (hsignal : signal ≠ .next) :
    Follows c rest left' stack signal := by
  cases signal with
  | next => exact absurd rfl hsignal
  | branch depth => simpa [Follows] using h
  | ret => simpa [Follows] using h

theorem of_label
    {types : List ValueType} {arity depth : Nat}
    (h : Follows (c.inBlock types) (.label arity :: rest) left stack
      (.branch (depth + 1))) :
    Follows c rest left' stack (.branch depth) :=
  h

theorem ret_of_label
    {types : List ValueType} {arity : Nat}
    (h : Follows (c.inBlock types) (.label arity :: rest) left stack .ret) :
    Follows c rest left' stack .ret :=
  h

theorem zero_of_label
    {types : List ValueType} {arity : Nat}
    (h : Follows c (.label arity :: rest) left stack (.branch 0))
    (htypes : c.labels[0]? = some types) : stack.Carries rest types := by
  obtain ⟨types', below, hlabel, hfind, hstack⟩ := h
  obtain rfl : types = types' := Option.some.inj (htypes.symm.trans hlabel)
  obtain ⟨-, rfl⟩ := Prod.mk.inj (Except.ok.inj (hfind 0))
  exact hstack

end Stack.Follows
end WebAssembly
