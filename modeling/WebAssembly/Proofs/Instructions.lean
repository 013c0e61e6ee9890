import WebAssembly.Proofs.Evolution
import WebAssembly.Proofs.Operands

/-!
# Instructions in typed code

An instruction without control flow, run where its typing says, either traps or leaves
operands of the types that its typing says, and the store stays typed.  It never runs
into a bug.
-/

namespace WebAssembly

/-- What an index denotes in one space has a counterpart at the index of a space that
corresponds to it entry by entry. -/
theorem Denotes.exists_lookup
    {α β : Type} {R : α → β → Prop} {entries : List α} {others : List β}
    {index : UInt32} {a : α} (h : Denotes entries index a)
    (hR : List.Forall₂ R entries others) :
    ∃ b, Index.lookup others index = some b ∧ R a b := by
  obtain ⟨b, hb, hab⟩ := exists_of_getElem?_left hR h.getElem?
  exact ⟨b, Index.lookup_eq_some_iff.mpr ⟨hR.length_eq ▸ h.1, hb⟩, hab⟩

/-- The run may abort so; under a total law it may not do so by a bug. -/
def Abort.Allowed (total : Prop) : Abort → Prop
  | .trap _ | .exhausted => True
  | .bug _ => ¬total

/-- The run has been aborted in an allowed way and leaves a sound session behind. -/
def Run.Aborted (law : ValueLaw) (total : Prop) (base : Store) (abort : Abort)
    (r : Run) : Prop :=
  r.session.Sound law total base ∧ abort.Allowed total

/-- The run is in code of a module instance that realizes the context, with locals as
the context says. -/
structure Run.InCode (law : ValueLaw) (total : Prop) (base : Store) (module : UInt32)
    (c : Context) (r : Run) : Prop where
  sound : r.session.Sound law total base
  realizes : ∃ inst, r.session.store.modules[module.toNat]? = some inst ∧
    r.session.store.Realizes c inst
  locals : r.locals.toList.map Val.type = c.locals

/-- The instruction neither transfers control, nor calls, nor holds others. -/
def Instr.IsPlain : Instr → Prop
  | .unreachable | .block .. | .loop .. | .ifElse .. | .br _ | .brIf _ | .brTable ..
  | .ret | .call _
  | .callIndirect _ => False
  | _ => True

theorem Instr.IsPlain.not_transfers
    {instr : Instr} (h : instr.IsPlain) : ¬instr.Transfers := by
  cases instr <;> first | exact h.elim | exact id

section Code

variable {law : ValueLaw} {total : Prop} {base : Store} {module : UInt32} {c : Context}
  {r : Run}

theorem Run.InCode.of_stack
    (hr : r.InCode law total base module c) (stack : Stack) :
    { r with stack }.InCode law total base module c :=
  ⟨hr.sound, hr.realizes, hr.locals⟩

/-- The state of code is the same in a store that extends the one before. -/
theorem Run.InCode.of_extends
    {guarded : Prop} {r' : Run} (hr : r.InCode law total base module c)
    (hext : r.session.store.Extends guarded r'.session.store)
    (hsound : r'.session.Sound law total base) (hlocals : r'.locals = r.locals) :
    r'.InCode law total base module c := by
  obtain ⟨inst, hinst, hrealizes⟩ := hr.realizes
  obtain ⟨_, hinst', rfl⟩ := hext.modules _ _ hinst
  exact ⟨hsound, ⟨inst, hinst', hext.realizes hrealizes⟩, hlocals ▸ hr.locals⟩

theorem Run.InCode.change
    {store : Store} (hr : r.InCode law total base module c)
    (h : Store.Change law True total r.session.store store) (haddr : store.Addressable)
    (stack : Stack) :
    { r with session := r.session.withStore store, stack }.InCode law total
      base module c :=
  hr.of_extends h.extension (hr.sound.change h haddr) rfl

theorem Run.InCode.inBlock_iff
    {types : List ValueType} :
    r.InCode law total base module (c.inBlock types) ↔
      r.InCode law total base module c := by
  constructor <;> rintro ⟨hsound, ⟨inst, hinst, hrealizes⟩, hlocals⟩ <;>
    exact ⟨hsound, ⟨inst, hinst, { hrealizes with }⟩, hlocals⟩

theorem Run.InCode.exists_local
    {index : UInt32} {type : ValueType} (hr : r.InCode law total base module c)
    (hlocal : Denotes c.locals index type) :
    ∃ v, r.locals[index.toNat]? = some v ∧ v.type = type := by
  have hentry := hlocal.getElem?
  rw [← hr.locals, List.getElem?_map, Option.map_eq_some_iff] at hentry
  obtain ⟨v, hv, htype⟩ := hentry
  exact ⟨v, by rwa [Array.getElem?_toList] at hv, htype⟩

theorem Run.InCode.set_local
    {index : Nat} {old v : Val} (hr : r.InCode law total base module c)
    (hold : r.locals[index]? = some old) (htype : v.type = old.type) (stack : Stack) :
    { r with stack, locals := r.locals.setIfInBounds index v }.InCode law total base
      module c where
  sound := hr.sound
  realizes := hr.realizes
  locals := by
    rw [← hr.locals, Array.toList_setIfInBounds, List.map_set]
    have hentry : (r.locals.toList.map Val.type)[index]? = some v.type := by
      rw [List.getElem?_map, Array.getElem?_toList, hold, htype]
      rfl
    obtain ⟨hlt, heq⟩ := List.getElem?_eq_some_iff.mp hentry
    rw [← heq, List.set_getElem_self]

theorem Run.InCode.exists_global
    {index : UInt32} {type : GlobalType} (hr : r.InCode law total base module c)
    (hglobal : Denotes c.globals index (some type)) :
    ∃ inst addr g, r.session.store.modules[module.toNat]? = some inst ∧
      Index.lookup inst.globals index = some addr ∧
      r.session.store.global addr = .ok g ∧
      g.type = type ∧ g.value.type = type.value := by
  obtain ⟨inst, hinst, hrealizes⟩ := hr.realizes
  obtain ⟨addr, haddr, g, hg, htype⟩ := hglobal.exists_lookup hrealizes.globals
  obtain rfl := Option.some.inj htype
  have hvalue := hr.sound.typed.globals g (Array.mem_of_getElem? hg)
  exact ⟨inst, addr, g, hinst, haddr, Store.lookup_eq_ok_iff.mpr hg, rfl, hvalue⟩

theorem Run.InCode.exists_memory
    (hr : r.InCode law total base module c) (hmemory : c.memories ≠ []) :
    ∃ inst addr memory, r.session.store.modules[module.toNat]? = some inst ∧
      Exec.memoryAddr inst = pure addr ∧ r.session.store.memory addr = .ok memory := by
  obtain ⟨inst, hinst, hrealizes⟩ := hr.realizes
  obtain ⟨addr, haddr, hlt⟩ :=
    hrealizes.exists_addr .memory rfl (List.length_pos_iff.mpr hmemory)
  refine ⟨inst, addr, _, hinst, ?_,
    Store.lookup_eq_ok_iff.mpr (Array.getElem?_eq_getElem hlt)⟩
  have hmemories : inst.memories[0]? = some addr := haddr
  unfold Exec.memoryAddr
  cases hlist : inst.memories with
  | nil =>
      rw [hlist] at hmemories
      cases hmemories
  | cons first rest =>
      rw [hlist] at hmemories
      obtain rfl : first = addr := Option.some.inj hmemories
      rfl

end Code

namespace Exec

variable {law : ValueLaw} {total : Prop} {base : Store} {module : UInt32} {c : Context}
  {r : Run} {rest : Stack}

/-- What an instruction without control flow leaves behind: the state of typed code, and
operands of the given types. -/
def Leaves (law : ValueLaw) (total : Prop) (base : Store) (module : UInt32)
    (c : Context) (rest : Stack) (left : List ValueType) (r : Run) : Prop :=
  r.InCode law total base module c ∧ r.stack.Carries rest left

theorem ends_trap
    {α : Type} {cause : TrapCause} {Q : α → Run → Prop}
    (hr : r.session.Sound law total base) :
    Ends (trap cause) r Q (Run.Aborted law total base) :=
  ⟨hr, trivial⟩

theorem leaves_push
    {v : Val} {type : ValueType} (hr : r.InCode law total base module c)
    (hstack : r.stack = rest) (hv : v.type = type) :
    Ends (push v) r (fun _ => Leaves law total base module c rest [type])
      (Run.Aborted law total base) := by
  subst hstack
  exact ⟨hr.of_stack _, Stack.Carries.singleton_iff.mpr ⟨v, hv, rfl⟩⟩

theorem globalGet_ends
    {index : UInt32} {type : GlobalType} (hr : r.InCode law total base module c)
    (hglobal : Denotes c.globals index (some type)) (hstack : r.stack = rest) :
    Ends (plain module (.globalGet index)) r
      (fun _ => Leaves law total base module c rest [type.value])
        (Run.Aborted law total base) := by
  obtain ⟨inst, addr, g, hinst, haddr, hg, -, hvalue⟩ := hr.exists_global hglobal
  refine ends_present_bind hinst ?_
  unfold globalAddr
  rw [haddr]
  exact ends_access_bind hg (leaves_push hr hstack hvalue)

theorem globalSet_ends
    {index : UInt32} {type : GlobalType} (hr : r.InCode law total base module c)
    (hlawful : r.stack.Lawful law) (hglobal : Denotes c.globals index (some type))
    (hmutable : type.isMutable = true) (hstack : r.stack.Carries rest [type.value]) :
    Ends (plain module (.globalSet index)) r
      (fun _ => Leaves law total base module c rest [])
        (Run.Aborted law total base) := by
  obtain ⟨inst, addr, g, hinst, haddr, hg, rfl, -⟩ := hr.exists_global hglobal
  obtain ⟨v, hv, hvalues⟩ := Stack.Carries.singleton_iff.mp hstack
  refine ends_present_bind hinst ?_
  unfold globalAddr
  rw [haddr]
  refine ends_access_bind hg (ends_popTyped_bind hvalues hv ?_)
  have hholds : law.Holds v := hlawful v (hvalues ▸ List.mem_cons_self)
  have hchange : Store.Change law True total r.session.store
      (r.session.store.setGlobal addr { g with value := v }) :=
    .assign hg (fun _ => hmutable) hv hholds
  have haddressable :
      (r.session.store.setGlobal addr { g with value := v }).Addressable := by
    have hbefore := hr.sound.addressable
    have hglobals : (r.session.store.setGlobal addr { g with value := v }).globals.size ≤
        UInt32.size := by
      simpa [Store.setGlobal] using hbefore.globals
    exact ⟨hbefore.functions, hglobals, hbefore.modules⟩
  exact ⟨hr.change hchange haddressable rest, Stack.Carries.nil_iff.mpr rfl⟩

theorem load_ends
    {op : LoadOp} {arg : MemArg} (hr : r.InCode law total base module c)
    (hmemory : c.memories ≠ []) (hstack : r.stack.Carries rest [.i32]) :
    Ends (plain module (.load op arg)) r
      (fun _ => Leaves law total base module c rest [.number op.type])
        (Run.Aborted law total base) := by
  obtain ⟨inst, addr, memory, hinst, haddr, hmem⟩ := hr.exists_memory hmemory
  obtain ⟨v, hv, hvalues⟩ := Stack.Carries.singleton_iff.mp hstack
  refine ends_present_bind hinst ?_
  rw [haddr]
  refine ends_access_bind hmem (ends_popU32_bind hvalues hv ?_)
  cases hload : memory.load? op (MemInst.address v.u32 arg.offset) with
  | none => exact ends_trap hr.sound
  | some loaded =>
      refine leaves_push (hr.of_stack rest) rfl ?_
      unfold MemInst.load? at hload
      split at hload
      · obtain rfl := Option.some.inj hload
        exact Val.type_ofBits _ _
      · cases hload

theorem store_ends
    {op : StoreOp} {arg : MemArg} (hr : r.InCode law total base module c)
    (hmemory : c.memories ≠ [])
    (hstack : r.stack.Carries rest [.i32, .number op.type]) :
    Ends (plain module (.store op arg)) r
      (fun _ => Leaves law total base module c rest [])
        (Run.Aborted law total base) := by
  obtain ⟨inst, addr, memory, hinst, haddr, hmem⟩ := hr.exists_memory hmemory
  obtain ⟨w, v, hw, -, hvalues⟩ := Stack.Carries.pair_iff.mp hstack
  refine ends_present_bind hinst ?_
  rw [haddr]
  refine ends_access_bind hmem (ends_pop_bind hvalues (ends_popU32_bind rfl hw ?_))
  refine Ends.ite (fun _ => ?_) fun _ => ends_trap hr.sound
  have hchange : Store.Change law True total r.session.store
      (r.session.store.modifyMemory addr
        (·.store op (MemInst.address w.u32 arg.offset) v)) := by
    rw [Store.modifyMemory_eq_setMemory hmem]
    exact .splice hmem
  have hbefore := hr.sound.addressable
  exact ⟨hr.change hchange ⟨hbefore.functions, hbefore.globals, hbefore.modules⟩ rest,
    Stack.Carries.nil_iff.mpr rfl⟩

theorem memoryGrow_ends
    (hr : r.InCode law total base module c) (hmemory : c.memories ≠ [])
    (hstack : r.stack.Carries rest [.i32]) :
    Ends (plain module .memoryGrow) r
      (fun _ => Leaves law total base module c rest [.i32])
        (Run.Aborted law total base) := by
  obtain ⟨inst, addr, memory, hinst, haddr, hmem⟩ := hr.exists_memory hmemory
  obtain ⟨v, hv, hvalues⟩ := Stack.Carries.singleton_iff.mp hstack
  refine ends_popU32_bind hvalues hv (ends_present_bind hinst ?_)
  rw [haddr]
  refine ends_access_bind hmem ?_
  cases hgrow : memory.grow? v.u32 with
  | none => exact leaves_push (hr.of_stack rest) rfl rfl
  | some grown =>
      have hbefore := hr.sound.addressable
      have hafter := hr.change (.growMemory hmem hgrow) ⟨hbefore.functions,
        hbefore.globals, hbefore.modules⟩ rest
      exact leaves_push hafter rfl rfl

theorem ends_setLocal_bind
    {β : Type} {index : UInt32} {old v : Val} {below : Stack} {f : Val → Exec β}
    {Q : β → Run → Prop} {E : Abort → Run → Prop}
    (hold : r.locals[index.toNat]? = some old) (hstack : r.stack = .value v :: below)
    (htype : v.type = old.type) (h : Ends (f v) { r with
      stack := below, locals := r.locals.setIfInBounds index.toNat v } Q E) :
    Ends (setLocal index >>= f) r Q E := by
  refine Ends.bind (P := fun a r' => a = v ∧
    r' = { r with stack := below, locals := r.locals.setIfInBounds index.toNat v }) ?_
      ?_
  · exact Ends.get_bind
      (ends_present_bind hold (ends_popTyped_bind hstack htype ⟨rfl, rfl⟩))
  · rintro _ _ ⟨rfl, rfl⟩
    exact h

/-- An instruction without control flow does as its typing says. -/
theorem plain_ends
    {instr : Instr} {taken left : List ValueType} (hplain : instr.IsPlain)
    (h : InstrHasType c instr taken left) (hr : r.InCode law total base module c)
    (hlawful : r.stack.Lawful law) (hstack : r.stack.Carries rest taken) :
    Ends (plain module instr) r (fun _ => Leaves law total base module c rest left)
      (Run.Aborted law total base) := by
  have hempty : rest.Carries rest [] := Stack.Carries.nil_iff.mpr rfl
  cases h with
  | unreachable | block | loop | ifElse | br | brIf | brTable | ret | call
  | callIndirect => exact hplain.elim
  | nop => exact ⟨hr, hstack⟩
  | drop =>
      obtain ⟨v, -, hvalues⟩ := Stack.Carries.singleton_iff.mp hstack
      exact ends_pop_bind hvalues ⟨hr.of_stack rest, hempty⟩
  | @select _ type =>
      have hsplit : r.stack.Carries rest ([type, type] ++ [.i32]) := hstack
      obtain ⟨condition, below, hcondition, hvalues, hbelow⟩ :=
        Stack.Carries.concat_iff.mp hsplit
      obtain ⟨first, second, hfirst, hsecond, rfl⟩ := Stack.Carries.pair_iff.mp hbelow
      refine ends_popU32_bind hvalues hcondition
        (ends_pop_bind rfl (ends_pop_bind rfl ?_))
      refine Ends.ite (fun hne => absurd (hfirst.trans hsecond.symm) hne) fun _ => ?_
      refine leaves_push (hr.of_stack rest) rfl ?_
      split
      · exact hfirst
      · exact hsecond
  | localGet hlocal =>
      obtain ⟨v, hv, htype⟩ := hr.exists_local hlocal
      exact Ends.get_bind
        (ends_present_bind hv (leaves_push hr (Stack.Carries.nil_iff.mp hstack) htype))
  | localSet hlocal =>
      obtain ⟨old, hold, rfl⟩ := hr.exists_local hlocal
      obtain ⟨v, hv, hvalues⟩ := Stack.Carries.singleton_iff.mp hstack
      exact ends_setLocal_bind hold hvalues hv ⟨hr.set_local hold hv rest, hempty⟩
  | localTee hlocal =>
      obtain ⟨old, hold, rfl⟩ := hr.exists_local hlocal
      obtain ⟨v, hv, hvalues⟩ := Stack.Carries.singleton_iff.mp hstack
      exact ends_setLocal_bind hold hvalues hv
        (leaves_push (hr.set_local hold hv rest) rfl hv)
  | globalGet hglobal =>
      exact globalGet_ends hr hglobal (Stack.Carries.nil_iff.mp hstack)
  | globalSet hglobal hmutable =>
      exact globalSet_ends hr hlawful hglobal hmutable hstack
  | load hmemory => exact load_ends hr hmemory hstack
  | store hmemory => exact store_ends hr hmemory hstack
  | memorySize hmemory =>
      obtain ⟨inst, addr, memory, hinst, haddr, hmem⟩ := hr.exists_memory hmemory
      refine ends_present_bind hinst ?_
      rw [haddr]
      exact ends_access_bind hmem (leaves_push hr (Stack.Carries.nil_iff.mp hstack) rfl)
  | memoryGrow hmemory => exact memoryGrow_ends hr hmemory hstack
  | const =>
      exact leaves_push hr (Stack.Carries.nil_iff.mp hstack) (Val.type_ofBits _ _)
  | @unary _ op =>
      obtain ⟨v, hv, hvalues⟩ := Stack.Carries.singleton_iff.mp hstack
      refine ends_popTyped_bind hvalues hv ?_
      unfold UnaryOp.eval
      cases op.apply v.bits with
      | error cause => exact ends_trap hr.sound
      | ok bits => exact leaves_push (hr.of_stack rest) rfl (Val.type_ofBits _ _)
  | @binary _ op =>
      obtain ⟨v, w, hv, hw, hvalues⟩ := Stack.Carries.pair_iff.mp hstack
      refine ends_popTyped_bind hvalues hw (ends_popTyped_bind rfl hv ?_)
      unfold BinaryOp.eval
      cases op.apply v.bits w.bits with
      | error cause => exact ends_trap hr.sound
      | ok bits => exact leaves_push (hr.of_stack rest) rfl (Val.type_ofBits _ _)

end Exec
end WebAssembly
