import WebAssembly.Proofs.Checker
import WebAssembly.Proofs.MemoryAccess

/-!
# Operands of the wrong kind

Code that was not checked may leave an operand of any kind where an instruction takes
one of a fixed kind.  An instruction that looks at the kind of its operand reports a
bug, which ends the invocation and leaves the store as it was.  All of them do so, apart
from stores, which look at the kind of the address but not of the value.
-/

namespace WebAssembly

/-- The kinds that an instruction fixes for the topmost operands that it takes, the top
last.  Nothing is fixed where the context has no local or global of the index. -/
def Context.demands (c : Context) : Instr → List ValueType
  | .ifElse .. | .brIf _ | .brTable .. | .callIndirect _ | .select | .load ..
  | .memoryGrow => [.i32]
  | .store op _ => [.i32, .number op.type]
  | .localSet index | .localTee index => c.locals[index.toNat]?.toList
  | .globalSet index => (c.globals[index.toNat]?.join.map GlobalType.value).toList
  | .unary op => [.number op.operand]
  | .binary op => [.number op.operand, .number op.operand]
  | _ => []

/-- The operand that lies under `depth` others; labels and activations hide what lies
below them. -/
def Stack.operandAt : Stack → Nat → Option Val
  | .value v :: _, 0 => some v
  | .value _ :: rest, depth + 1 => operandAt rest depth
  | _, _ => none

/-- The operand at the depth is not of the kind that the instruction fixes for it. -/
def Context.Misfits (c : Context) (instr : Instr) (stack : Stack)
    (depth : Nat) : Prop :=
  ∃ v type, stack.operandAt depth = some v ∧
    (c.demands instr).reverse[depth]? = some type ∧ v.type ≠ type

/-- The instruction looks at the kind of the operand at the depth. -/
def Instr.Examines (depth : Nat) : Instr → Prop
  | .store .. => depth ≠ 0
  | _ => True

/-- The context says what the code of a module instance finds in a run: values of the
kinds of the locals, and globals of the declared types. -/
structure Context.Describes (c : Context) (module : UInt32) (r : Run) : Prop where
  locals : r.locals.toList.map Val.type = c.locals
  globals : ∀ {inst : ModuleInst} {index : UInt32} {type : GlobalType} {addr : UInt32}
      {g : GlobalInst},
    r.session.store.modules[module.toNat]? = some inst →
    c.globals[index.toNat]? = some (some type) →
    inst.globals[index.toNat]? = some addr → r.session.store.global addr = .ok g →
    g.type = type

/-- What is demanded of operands is part of the effect under which the instruction is
checked. -/
theorem Context.demands_suffix
    {c : Context} {running effect : StackEffect} {instr : Instr}
    (h : c.effect running instr = .ok effect) :
    c.demands instr <:+ effect.params := by
  cases instr with
  | ifElse type whenTrue whenFalse =>
      simp only [Context.effect, Attempt.bind_eq_ok, Attempt.pure_eq_ok] at h
      obtain ⟨-, -, -, -, -, -, -, -, rfl⟩ := h
      exact List.suffix_append _ _
  | brIf label =>
      simp only [Context.effect, Attempt.bind_eq_ok, Attempt.pure_eq_ok] at h
      obtain ⟨types, -, rfl⟩ := h
      exact List.suffix_append types _
  | brTable labels default =>
      simp only [Context.effect, Attempt.bind_eq_ok, Attempt.pure_eq_ok] at h
      obtain ⟨types, -, -, -, rfl⟩ := h
      exact List.suffix_append types _
  | callIndirect index =>
      simp only [Context.effect, Attempt.bind_eq_ok, Attempt.pure_eq_ok] at h
      obtain ⟨-, -, -, -, type, -, rfl⟩ := h
      exact List.suffix_append type.params _
  | select =>
      obtain rfl := Except.ok.inj h
      exact List.suffix_append [_, _] _
  | localSet index | localTee index =>
      simp only [Context.effect, Attempt.bind_eq_ok, Attempt.orFail_eq_ok,
        Attempt.pure_eq_ok] at h
      obtain ⟨type, hlocal, rfl⟩ := h
      rw [demands, Index.getElem?_of_lookup hlocal]
      exact List.suffix_rfl
  | globalSet index =>
      simp only [Context.effect, Attempt.bind_eq_ok, globalType_eq_ok_iff,
        Attempt.pure_eq_ok] at h
      obtain ⟨type, hglobal, -, -, rfl⟩ := h
      rw [demands, hglobal.getElem?]
      exact List.suffix_rfl
  | load op arg =>
      simp only [Context.effect, Attempt.bind_eq_ok, Attempt.pure_eq_ok] at h
      obtain ⟨-, -, -, -, rfl⟩ := h
      exact List.suffix_rfl
  | store op arg =>
      simp only [Context.effect, Attempt.bind_eq_ok, Attempt.pure_eq_ok,
        op.access_eq] at h
      obtain ⟨-, -, -, -, rfl⟩ := h
      exact List.suffix_rfl
  | memoryGrow =>
      simp only [Context.effect, Attempt.bind_eq_ok, Attempt.pure_eq_ok] at h
      obtain ⟨-, -, rfl⟩ := h
      exact List.suffix_rfl
  | unary op =>
      obtain ⟨-, rfl⟩ := effect_unary_eq_ok_iff.mp h
      exact List.suffix_rfl
  | binary op =>
      obtain rfl := Except.ok.inj h
      rw [op.effect_eq]
      exact List.suffix_rfl
  | _ => exact List.nil_suffix

/-! ## Faults -/

/-- The step reports a bug, and the session is as it was. -/
def Exec.Faults {α : Type} (x : Exec α) (r : Run) : Prop :=
  ∃ cause r', x r = .error (.bug cause) r' ∧ r'.session = r.session

/-- The step finds something without changing the run, or reports a bug. -/
def Exec.Looks {α : Type} (x : Exec α) : Prop :=
  ∀ r, (∃ a, x r = .ok a r) ∨ ∃ cause, x r = .error (.bug cause) r

namespace Exec

variable {α β : Type} {x : Exec α} {f : α → Exec β} {r : Run}

theorem Faults.bind
    (h : x.Faults r) : (x >>= f).Faults r := by
  obtain ⟨cause, r', hx, hsession⟩ := h
  exact ⟨cause, r', bind_eq_of_eq_error hx, hsession⟩

/-- A fault that comes later, in a run that still has the same session. -/
theorem Faults.of_eq_ok
    {a : α} {r' : Run} (hx : x r = .ok a r') (hsession : r'.session = r.session)
    (h : (f a).Faults r') :
    (x >>= f).Faults r := by
  obtain ⟨cause, r'', hf, hsession'⟩ := h
  exact ⟨cause, r'', (bind_eq_of_eq_ok hx).trans hf, hsession'.trans hsession⟩

theorem Looks.faults_bind
    (hx : x.Looks) (h : ∀ a, x r = .ok a r → (f a).Faults r) : (x >>= f).Faults r := by
  rcases hx r with ⟨a, ha⟩ | ⟨cause, hcause⟩
  · exact .of_eq_ok ha rfl (h a ha)
  · exact Faults.bind ⟨cause, r, hcause, rfl⟩

theorem looks_present (entry : Option α) : (present entry).Looks := by
  intro r
  cases entry with
  | none => exact .inr ⟨_, rfl⟩
  | some a => exact .inl ⟨a, rfl⟩

theorem looks_access (result : Except AccessError α) : (access result).Looks := by
  intro r
  cases result with
  | error cause => exact .inr ⟨_, rfl⟩
  | ok a => exact .inl ⟨a, rfl⟩

theorem eq_some_of_present
    {entry : Option α} {a : α} (h : present entry r = .ok a r) : entry = some a := by
  cases entry with
  | none => cases h
  | some b =>
      cases h
      rfl

theorem eq_ok_of_access
    {result : Except AccessError α} {a : α} (h : access result r = .ok a r) :
    result = .ok a := by
  cases result with
  | error cause => cases h
  | ok b =>
      cases h
      rfl

theorem looks_store : store.Looks :=
  fun r => .inl ⟨r.session.store, rfl⟩

theorem looks_currentModule (module : UInt32) : (currentModule module).Looks :=
  fun r => looks_present r.session.store.modules[module.toNat]? r

theorem looks_memoryAddr (inst : ModuleInst) : (memoryAddr inst).Looks := by
  intro r
  unfold memoryAddr
  cases inst.memories with
  | nil => exact .inr ⟨_, rfl⟩
  | cons addr rest => exact .inl ⟨addr, rfl⟩

theorem looks_tableAddr (inst : ModuleInst) : (tableAddr inst).Looks := by
  intro r
  unfold tableAddr
  cases inst.tables with
  | nil => exact .inr ⟨_, rfl⟩
  | cons addr rest => exact .inl ⟨addr, rfl⟩

theorem looks_globalAddr (inst : ModuleInst) (index : UInt32) :
    (globalAddr inst index).Looks := by
  intro r
  unfold globalAddr
  cases Index.lookup inst.globals index with
  | none => exact .inr ⟨_, rfl⟩
  | some addr => exact .inl ⟨addr, rfl⟩

theorem eq_some_of_globalAddr
    {inst : ModuleInst} {index addr : UInt32}
    (h : globalAddr inst index r = .ok addr r) :
    inst.globals[index.toNat]? = some addr := by
  unfold globalAddr at h
  cases hentry : Index.lookup inst.globals index with
  | none =>
      rw [hentry] at h
      cases h
  | some found =>
      rw [hentry] at h
      cases h
      exact Index.getElem?_of_lookup hentry

end Exec

theorem Stack.operandAt_zero_eq_some
    {stack : Stack} {v : Val} (h : stack.operandAt 0 = some v) :
    ∃ below, stack = .value v :: below := by
  rcases stack with _ | ⟨entry, below⟩
  · cases h
  · cases entry with
    | value w =>
        obtain rfl : w = v := Option.some.inj h
        exact ⟨below, rfl⟩
    | label | activation => cases h

theorem Stack.operandAt_succ_eq_some
    {stack : Stack} {depth : Nat} {v : Val} (h : stack.operandAt (depth + 1) = some v) :
    ∃ (w : Val) (below : Stack), stack = .value w :: below ∧
      below.operandAt depth = some v := by
  rcases stack with _ | ⟨entry, below⟩
  · cases h
  · cases entry with
    | value w => exact ⟨w, below, rfl, h⟩
    | label | activation => cases h

namespace Exec

variable {α : Type} {r : Run} {type : ValueType} {v w : Val} {below : Stack}

theorem faults_popTyped
    (hv : r.stack.operandAt 0 = some v) (hne : v.type ≠ type) :
    (popTyped type).Faults r := by
  obtain ⟨below, hstack⟩ := Stack.operandAt_zero_eq_some hv
  refine ⟨.wrongKind type v, r, ?_, rfl⟩
  rw [popTyped, take, hstack, Stack.popTyped, Stack.pop]
  simp only [hne, if_false]

theorem faults_popTyped_bind
    {f : Val → Exec α} (hstack : r.stack = .value w :: below)
    (h : (f w).Faults { r with stack := below }) :
    (popTyped type >>= f).Faults r := by
  by_cases htype : w.type = type
  · have hpop : popTyped type r = .ok w { r with stack := below } := by
      rw [popTyped, take, hstack, Stack.popTyped, Stack.pop]
      simp only [htype, if_true]
    exact .of_eq_ok hpop rfl h
  · exact Faults.bind (faults_popTyped (by rw [hstack]; rfl) htype)

theorem faults_popU32
    (hv : r.stack.operandAt 0 = some v) (hne : v.type ≠ .i32) : popU32.Faults r :=
  (faults_popTyped hv hne).bind

end Exec

namespace Context.Misfits

variable {c : Context} {instr : Instr} {depth : Nat}

theorem of_single
    {stack : Stack} {type : ValueType} (h : c.Misfits instr stack depth)
    (hdemands : c.demands instr = [type]) :
    ∃ v, stack.operandAt 0 = some v ∧ v.type ≠ type := by
  obtain ⟨v, type', hv, htype, hne⟩ := h
  rw [hdemands, List.reverse_singleton] at htype
  cases depth with
  | zero =>
      obtain rfl : type = type' := Option.some.inj htype
      exact ⟨v, hv, hne⟩
  | succ depth => cases htype

theorem of_pair
    {stack : Stack} {first second : ValueType} (h : c.Misfits instr stack depth)
    (hdemands : c.demands instr = [first, second]) :
    (depth = 0 ∧ ∃ v, stack.operandAt 0 = some v ∧ v.type ≠ second) ∨
      ∃ v, stack.operandAt 1 = some v ∧ v.type ≠ first := by
  obtain ⟨v, type, hv, htype, hne⟩ := h
  rw [hdemands] at htype
  match depth, htype with
  | 0, htype =>
    obtain rfl : second = type := Option.some.inj htype
    exact .inl ⟨rfl, v, hv, hne⟩
  | 1, htype =>
    obtain rfl : first = type := Option.some.inj htype
    exact .inr ⟨v, hv, hne⟩

end Context.Misfits

namespace Exec

variable {c : Context} {module : UInt32} {r : Run} {instr : Instr} {depth : Nat}

theorem faults_memory
    {α : Type} {f : UInt32 → MemInst → Exec α} (h : ∀ addr m, (f addr m).Faults r) :
    (currentModule module >>= fun inst => memoryAddr inst >>= fun addr =>
      store >>= fun s => access (s.memory addr) >>= f addr).Faults r := by
  refine (looks_currentModule module).faults_bind fun inst _ => ?_
  refine (looks_memoryAddr inst).faults_bind fun addr _ => ?_
  refine looks_store.faults_bind fun s _ => ?_
  exact (looks_access (s.memory addr)).faults_bind fun m _ => h addr m

theorem faults_setLocal
    {index : UInt32} (hc : c.Describes module r) (h : c.Misfits instr r.stack depth)
    (hdemands : c.demands instr = c.locals[index.toNat]?.toList) :
    (setLocal index).Faults r := by
  refine (looks_present r.locals[index.toNat]?).faults_bind fun old hold => ?_
  have hkind : c.locals[index.toNat]? = some old.type := by
    rw [← hc.locals, List.getElem?_map, Array.getElem?_toList, eq_some_of_present hold]
    rfl
  obtain ⟨v, hv, hne⟩ := h.of_single (hdemands.trans (by rw [hkind]; rfl))
  exact (faults_popTyped hv hne).bind

theorem faults_globalSet
    {index : UInt32} (hc : c.Describes module r)
    (h : c.Misfits (.globalSet index) r.stack depth) :
    (plain module (.globalSet index)).Faults r := by
  refine (looks_currentModule module).faults_bind fun inst hinst => ?_
  refine (looks_globalAddr inst index).faults_bind fun addr haddr => ?_
  refine looks_store.faults_bind fun s hs => ?_
  cases hs
  refine (looks_access (r.session.store.global addr)).faults_bind fun g hg => ?_
  have hmodule : r.session.store.modules[module.toNat]? = some inst :=
    eq_some_of_present hinst
  obtain ⟨type, hglobal⟩ : ∃ type, c.globals[index.toNat]? = some (some type) := by
    obtain ⟨v, kind, -, hkind, -⟩ := h
    cases hentry : c.globals[index.toNat]?.join with
    | none =>
        simp only [Context.demands, hentry] at hkind
        cases hkind
    | some type => exact ⟨type, Option.join_eq_some_iff.mp hentry⟩
  obtain rfl := hc.globals hmodule hglobal (eq_some_of_globalAddr haddr)
      (eq_ok_of_access hg)
  obtain ⟨v, hv, hne⟩ := h.of_single (by rw [Context.demands, hglobal]; rfl)
  exact (faults_popTyped hv hne).bind

/-- An instruction that looks at the kind of an operand of the wrong kind reports a bug
before it changes anything. -/
theorem faults_transfer
    (hc : c.Describes module r) (h : c.Misfits instr r.stack depth)
    (hexamines : instr.Examines depth) :
    (transfer module instr).Faults r := by
  cases instr with
  | ifElse | brIf | brTable =>
      obtain ⟨v, hv, hne⟩ := h.of_single rfl
      exact (faults_popU32 hv hne).bind
  | callIndirect type =>
      obtain ⟨v, hv, hne⟩ := h.of_single rfl
      refine (looks_currentModule module).faults_bind fun inst _ => Faults.bind ?_
      refine (looks_tableAddr inst).faults_bind fun addr _ => ?_
      refine looks_store.faults_bind fun s _ => ?_
      exact (looks_access (s.table addr)).faults_bind fun table _ =>
        (faults_popU32 hv hne).bind
  | select | memoryGrow =>
      obtain ⟨v, hv, hne⟩ := h.of_single rfl
      exact Faults.bind (Faults.bind (faults_popU32 hv hne))
  | localSet index | localTee index =>
      exact Faults.bind (Faults.bind (faults_setLocal hc h rfl))
  | globalSet index => exact Faults.bind (faults_globalSet hc h)
  | load op arg =>
      obtain ⟨v, hv, hne⟩ := h.of_single rfl
      exact Faults.bind (faults_memory fun addr m => (faults_popU32 hv hne).bind)
  | store op arg =>
      rcases h.of_pair rfl with ⟨hdepth, -⟩ | ⟨v, hv, hne⟩
      · exact absurd hdepth hexamines
      · obtain ⟨w, below, hstack, hbelow⟩ := Stack.operandAt_succ_eq_some hv
        refine Faults.bind (faults_memory fun addr m => ?_)
        exact .of_eq_ok (pop_eq_ok hstack) rfl (faults_popU32 hbelow hne).bind
  | unary op =>
      obtain ⟨v, hv, hne⟩ := h.of_single rfl
      exact Faults.bind (Faults.bind (faults_popTyped hv hne))
  | binary op =>
      rcases h.of_pair rfl with ⟨-, v, hv, hne⟩ | ⟨v, hv, hne⟩
      · exact Faults.bind (Faults.bind (faults_popTyped hv hne))
      · obtain ⟨w, below, hstack, hbelow⟩ := Stack.operandAt_succ_eq_some hv
        exact Faults.bind (faults_popTyped_bind hstack
          (faults_popTyped hbelow hne).bind)
  | _ =>
      obtain ⟨v, type, -, htype, -⟩ := h
      cases htype

end Exec

namespace Engine

open Exec

/-- An operand of the wrong kind ends the invocation by a bug, in whatever body and
state it is met, and leaves the session as it was when the instruction began.  The kinds
are those under which the instruction is checked.  What a store writes is the one
operand whose kind is not looked at: under a valid address it never leads to a bug. -/
theorem wrong_operand_ends_invocation (c : Context) :
    (∀ {running effect : StackEffect} {instr : Instr},
      c.effect running instr = .ok effect → c.demands instr <:+ effect.params) ∧
    (∀ {fuel : Nat} {context : ContextRef} {function : UInt32} {args : List Val}
      {s : Session} {point : Point}
        {depth : Nat}, Executes fuel context function args s point →
        c.Describes point.module point.run →
      c.Misfits point.instr point.run.stack depth → point.instr.Examines depth →
      ∃ cause, invoke (fuel + 1) context function args s =
        .error (.bug cause) point.run.session) ∧
    (∀ {fuel : Nat} {setting : Setting} {module addr : UInt32} {m : MemInst}
      {op : StoreOp} {arg : MemArg} {v base : Val} {below : Stack}
        {r r' : Run}, r.session.store.HasMemory module addr m →
      r.stack = .value v :: .value base :: below → base.type = .i32 →
      Dispatches setting (.store op arg) r r' →
      ∀ cause r'', exec (fuel + 1) setting module (.store op arg) r ≠
        .error (.bug cause) r'') := by
  refine ⟨Context.demands_suffix, ?_, ?_⟩
  · intro fuel context function args s point depth hexecutes hdescribes
      hmisfits hexamines
    obtain ⟨cause, r', hfault, hsession⟩ :=
      faults_transfer hdescribes hmisfits hexamines
    refine ⟨cause, ?_⟩
    rw [hexecutes.invoke_eq_error hfault, hsession]
  · intro fuel setting module addr m op arg v base below r r' hmemory hstack hbase
      hdispatches cause r'' hexec
    have htransfer : transfer module (.store op arg) r' = _ :=
      transfer_store (hdispatches.session_eq ▸ hmemory)
        (hdispatches.stack_eq.trans hstack) hbase
    by_cases hadmits : m.admits op (MemInst.address base.u32 arg.offset) = true
    · rw [if_pos hadmits] at htransfer
      rw [hdispatches.exec_of_next htransfer] at hexec
      cases hexec
    · rw [if_neg hadmits] at htransfer
      rw [hdispatches.exec_of_error htransfer] at hexec
      cases hexec

/-- A condition of kind `i64` inside a loop. -/
theorem wrong_condition_ends_invocation :
    let s := Session.scratch [.loop none [.const .i64 1, .ifElse none [] []]]
    let point : Point :=
      { module := 0
        instr := .ifElse none [] []
        run := {
          session := s
          stack := [.value ⟨.i64, 1⟩, .label 0, .label 0, .activation 0]
          active := #["main"] } }
    Executes 8 .background 0 [] s point ∧
      ({} : Context).Misfits point.instr point.run.stack 0 ∧
      ∃ cause, invoke 9 .background 0 [] s = .error (.bug cause) s := by
  intro s point
  have hexecutes : Executes 8 .background 0 [] s point := by
    exact ⟨{}, rfl,
      .body rfl (.first (.enter rfl (.inside rfl (.later rfl (.first (.here rfl))))))⟩
  have hmisfits : ({} : Context).Misfits point.instr point.run.stack 0 :=
    ⟨_, _, rfl, rfl, by decide⟩
  have hdescribes : ({} : Context).Describes point.module point.run :=
    ⟨rfl, fun _ htype => by cases htype⟩
  exact ⟨hexecutes, hmisfits, (wrong_operand_ends_invocation {}).2.1 hexecutes
    hdescribes hmisfits trivial⟩

/-- A value of kind `i64` is stored as if it were of kind `i32`, and the memory is
changed. -/
theorem store_of_wrong_kind_succeeds :
    let s := Session.scratch [.const .i32 0, .const .i64 1, .store .i32 ⟨2, 0⟩]
    let point : Point :=
      { module := 0
        instr := .store .i32 ⟨2, 0⟩
        run := {
          session := s
          stack := [.value ⟨.i64, 1⟩, .value ⟨.i32, 0⟩, .label 0, .activation 0]
          active := #["main"] } }
    Executes 8 .background 0 [] s point ∧
      ({} : Context).Describes point.module point.run ∧
      ({} : Context).Misfits point.instr point.run.stack 0 ∧
      ∃ s', invoke 9 .background 0 [] s = .ok [] s' ∧
        s'.store.memories ≠ s.store.memories := by
  intro s point
  have hexecutes : Executes 8 .background 0 [] s point := by
    exact ⟨{}, rfl, .body rfl (.later rfl (.later rfl (.first (.here rfl))))⟩
  have hmisfits : ({} : Context).Misfits point.instr point.run.stack 0 :=
    ⟨_, _, rfl, rfl, by decide⟩
  have hdescribes : ({} : Context).Describes point.module point.run :=
    ⟨rfl, fun _ htype => by cases htype⟩
  have hruns : (match invoke 9 .background 0 [] s with
      | .ok values s' => values.isEmpty && s'.store.memories != s.store.memories
      | .error _ _ => false) = true := by decide +kernel
  refine ⟨hexecutes, hdescribes, hmisfits, ?_⟩
  generalize invoke 9 .background 0 [] s = result at hruns ⊢
  cases result with
  | ok values s' =>
      simp only [Bool.and_eq_true, List.isEmpty_iff, bne_iff_ne] at hruns
      obtain ⟨rfl, hmemories⟩ := hruns
      exact ⟨s', rfl, hmemories⟩
  | error => cases hruns

end Engine
end WebAssembly
