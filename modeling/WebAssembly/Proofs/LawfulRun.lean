import WebAssembly.Proofs.Law
import WebAssembly.Proofs.Outcome

/-!
# Lawful runs

A run handles lawful values if every operand on its stack and every local satisfies the
law.  Each step that only moves values around, typed or not, keeps this and whatever
else holds of the session.
-/

namespace WebAssembly

variable {law : ValueLaw}

/-- Every operand on the stack satisfies the law. -/
def Stack.Lawful (law : ValueLaw) (stack : Stack) : Prop :=
  ∀ v, .value v ∈ stack → law.Holds v

namespace Stack.Lawful

variable {stack : Stack}

theorem nil : Stack.Lawful law [] :=
  fun _ h => nomatch h

theorem tail
    {entry : Entry} (h : Stack.Lawful law (entry :: stack)) : stack.Lawful law :=
  fun v hv => h v (List.mem_cons_of_mem entry hv)

theorem value_cons
    {v : Val} (h : stack.Lawful law) (hv : law.Holds v) :
    Stack.Lawful law (.value v :: stack) := by
  intro w hw
  rcases List.mem_cons.mp hw with heq | hold
  · rwa [Entry.value.inj heq]
  · exact h w hold

theorem label_cons
    {arity : Nat} (h : stack.Lawful law) :
    Stack.Lawful law (.label arity :: stack) := by
  intro v hv
  exact h v (by simpa using hv)

theorem activation_cons
    {arity : Nat} (h : stack.Lawful law) :
    Stack.Lawful law (.activation arity :: stack) := by
  intro v hv
  exact h v (by simpa using hv)

theorem pushAll
    {values : List Val} (h : stack.Lawful law) (hvalues : law.HoldsAll values) :
    (stack.pushAll values).Lawful law := by
  induction values generalizing stack with
  | nil => exact h
  | cons v rest ih =>
      obtain ⟨hv, hrest⟩ := List.forall_mem_cons.mp hvalues
      exact ih (h.value_cons hv) hrest

theorem pop
    {v : Val} {rest : Stack} (h : stack.Lawful law) (hpop : stack.pop = .ok (v, rest)) :
    law.Holds v ∧ rest.Lawful law := by
  unfold Stack.pop at hpop
  split at hpop
  · obtain ⟨rfl, rfl⟩ := Prod.mk.inj (Except.ok.inj hpop)
    exact ⟨h _ List.mem_cons_self, h.tail⟩
  · cases hpop

theorem popTyped
    {type : ValueType} {v : Val} {rest : Stack} (h : stack.Lawful law)
    (hpop : stack.popTyped type = .ok (v, rest)) :
    (law.Holds v ∧ v.type = type) ∧ rest.Lawful law := by
  unfold Stack.popTyped at hpop
  split at hpop
  · rename_i hv
    split at hpop
    · obtain ⟨rfl, rfl⟩ := Prod.mk.inj (Except.ok.inj hpop)
      obtain ⟨hholds, hrest⟩ := h.pop hv
      exact ⟨⟨hholds, ‹_›⟩, hrest⟩
    · cases hpop
  · cases hpop

theorem popOnto
    {count : Nat} {acc values : List Val} {rest : Stack} (h : stack.Lawful law)
    (hacc : law.HoldsAll acc)
    (hpop : Stack.popOnto acc count stack = .ok (values, rest)) :
    law.HoldsAll values ∧ rest.Lawful law := by
  induction count generalizing acc stack with
  | zero =>
      obtain ⟨rfl, rfl⟩ : acc = values ∧ stack = rest := by
        simpa [Stack.popOnto] using hpop
      exact ⟨hacc, h⟩
  | succ count ih =>
      cases stack with
      | nil => cases hpop
      | cons entry stack =>
          cases entry with
          | value v =>
              refine ih h.tail ?_ hpop
              exact List.forall_mem_cons.mpr ⟨h v List.mem_cons_self, hacc⟩
          | label | activation => cases hpop

theorem popMany
    {count : Nat} {values : List Val} {rest : Stack} (h : stack.Lawful law)
    (hpop : stack.popMany count = .ok (values, rest)) :
    law.HoldsAll values ∧ rest.Lawful law :=
  h.popOnto (by simp [ValueLaw.HoldsAll]) hpop

theorem findLabel
    {target : UInt32} {depth arity : Nat} {below : Stack} (h : stack.Lawful law)
    (hfind : stack.findLabel target depth = .ok (arity, below)) : below.Lawful law := by
  fun_induction Stack.findLabel target depth stack with
  | case1 => cases hfind
  | case2 _ _ _ ih => exact ih h.tail hfind
  | case3 =>
      obtain ⟨rfl, rfl⟩ := Prod.mk.inj (Except.ok.inj hfind)
      exact h.tail
  | case4 _ _ _ ih => exact ih h.tail hfind
  | case5 => cases hfind

theorem findActivation
    {arity : Nat} {below : Stack} (h : stack.Lawful law)
    (hfind : stack.findActivation = some (arity, below)) : below.Lawful law := by
  fun_induction Stack.findActivation stack with
  | case1 => cases hfind
  | case2 =>
      obtain ⟨rfl, rfl⟩ := Prod.mk.inj (Option.some.inj hfind)
      exact h.tail
  | case3 _ _ _ ih => exact ih h.tail hfind

theorem popLabel
    {rest : Stack} (h : stack.Lawful law) (hpop : stack.popLabel = .ok rest) :
    rest.Lawful law := by
  unfold Stack.popLabel at hpop
  split at hpop
  · obtain rfl := Except.ok.inj hpop
    exact h.tail
  · cases hpop

theorem branch
    {target : UInt32} {stack' : Stack} (h : stack.Lawful law)
    (hbranch : stack.branch target = .ok stack') : stack'.Lawful law := by
  unfold Stack.branch at hbranch
  split at hbranch
  · cases hbranch
  · rename_i hfind
    split at hbranch
    · cases hbranch
    · rename_i hpop
      obtain rfl := Except.ok.inj hbranch
      exact (h.findLabel hfind).pushAll (h.popMany hpop).1

theorem ret
    {stack' : Stack} (h : stack.Lawful law) (hret : stack.ret = .ok stack') :
    stack'.Lawful law := by
  unfold Stack.ret at hret
  split at hret
  · cases hret
  · rename_i hfind
    split at hret
    · cases hret
    · rename_i hpop
      obtain rfl := Except.ok.inj hret
      exact (h.findActivation hfind).activation_cons.pushAll (h.popMany hpop).1

theorem leave
    {function : String} {arity : Nat} {stack' : Stack} (h : stack.Lawful law)
    (hleave : stack.leave function arity = .ok stack') : stack'.Lawful law := by
  unfold Stack.leave at hleave
  split at hleave
  · cases hleave
  · rename_i hpop
    obtain ⟨hvalues, hrest⟩ := h.popMany hpop
    split at hleave
    · cases hleave
    · rename_i hfind
      obtain rfl := Except.ok.inj hleave
      exact (hrest.findActivation hfind).pushAll hvalues

end Stack.Lawful

/-- A property of the session holds, and every value that the run handles satisfies the
law. -/
structure Run.Keeps (law : ValueLaw) (I : Session → Prop) (r : Run) : Prop where
  session : I r.session
  stack : r.stack.Lawful law
  locals : ∀ v ∈ r.locals, law.Holds v

namespace Exec

variable {I : Session → Prop} {α β : Type}

theorem preserves_trap {cause : TrapCause} {P : α → Prop} :
    Preserves (Run.Keeps law I) (trap cause) P :=
  Preserves.throw

theorem preserves_bug {cause : Bug} {P : α → Prop} :
    Preserves (Run.Keeps law I) (bug cause) P :=
  Preserves.throw

theorem preserves_present {entry : Option α} :
    Preserves (Run.Keeps law I) (present entry) fun a => entry = some a := by
  cases entry with
  | none => exact preserves_bug
  | some a => exact Preserves.pure rfl

theorem preserves_access {result : Except AccessError α} :
    Preserves (Run.Keeps law I) (access result) fun a => result = .ok a := by
  cases result with
  | error cause => exact preserves_bug
  | ok a => exact Preserves.pure rfl

theorem preserves_record {setting : Setting} {moment : Moment} :
    Preserves (Run.Keeps law I) (record setting moment) fun _ => True := by
  intro r hr
  unfold Ends record
  split
  · rename_i heq
    split at heq
    · obtain ⟨-, rfl⟩ := EStateM.Result.ok.inj heq
      exact ⟨trivial, hr.session, hr.stack, hr.locals⟩
    · obtain ⟨-, rfl⟩ := EStateM.Result.ok.inj heq
      exact ⟨trivial, hr⟩
  · rename_i heq
    split at heq <;> cases heq

theorem preserves_store :
    Preserves (Run.Keeps law I) store fun s => ∃ session, I session ∧
      session.store = s :=
  fun r hr => ⟨⟨r.session, hr.session, rfl⟩, hr⟩

theorem preserves_modifyStore
    {change : Store → Store} (h : ∀ s, I s → I (s.withStore (change s.store))) :
    Preserves (Run.Keeps law I) (modifyStore change) fun _ => True :=
  fun r hr => ⟨trivial, h r.session hr.session, hr.stack, hr.locals⟩

theorem preserves_push
    {v : Val} (hv : law.Holds v) : Preserves (Run.Keeps law I) (push v) fun _ => True :=
  fun _ hr => ⟨trivial, hr.session, hr.stack.value_cons hv, hr.locals⟩

theorem preserves_pushAll
    {values : List Val} (hvalues : law.HoldsAll values) :
    Preserves (Run.Keeps law I) (pushAll values) fun _ => True :=
  fun _ hr => ⟨trivial, hr.session, hr.stack.pushAll hvalues, hr.locals⟩

theorem preserves_pushLabel
    {arity : Nat} : Preserves (Run.Keeps law I) (pushMark (.label arity))
      fun _ => True :=
  fun _ hr => ⟨trivial, hr.session, hr.stack.label_cons, hr.locals⟩

theorem preserves_pushActivation
    {arity : Nat} : Preserves (Run.Keeps law I) (pushMark (.activation arity))
      fun _ => True :=
  fun _ hr => ⟨trivial, hr.session, hr.stack.activation_cons, hr.locals⟩

theorem preserves_take
    {pop : Stack → Except Bug (α × Stack)} {P : α → Prop}
    (h : ∀ stack a rest, stack.Lawful law → pop stack = .ok (a, rest) → P a ∧
      rest.Lawful law) :
    Preserves (Run.Keeps law I) (take pop) P := by
  intro r hr
  unfold Ends take
  cases hpop : pop r.stack with
  | error cause => exact hr
  | ok result =>
      obtain ⟨hP, hrest⟩ := h r.stack result.1 result.2 hr.stack hpop
      exact ⟨hP, hr.session, hrest, hr.locals⟩

theorem preserves_rearrange
    {change : Stack → Except Bug Stack}
    (h : ∀ stack stack', stack.Lawful law → change stack = .ok stack' →
      stack'.Lawful law) :
    Preserves (Run.Keeps law I) (rearrange change) fun _ => True := by
  intro r hr
  unfold Ends rearrange
  cases hchange : change r.stack with
  | error cause => exact hr
  | ok stack => exact ⟨trivial, hr.session, h r.stack stack hr.stack hchange, hr.locals⟩

theorem preserves_pop : Preserves (Run.Keeps law I) pop law.Holds :=
  preserves_take fun _ _ _ h => h.pop

theorem preserves_popTyped {type : ValueType} :
    Preserves (Run.Keeps law I) (popTyped type) fun v => law.Holds v ∧ v.type = type :=
  preserves_take fun _ _ _ h => h.popTyped

theorem preserves_popMany {count : Nat} :
    Preserves (Run.Keeps law I) (popMany count) law.HoldsAll :=
  preserves_take fun _ _ _ h => h.popMany

theorem preserves_popU32 : Preserves (Run.Keeps law I) popU32 fun _ => True :=
  preserves_popTyped.bind fun _ _ => Preserves.pure trivial

theorem preserves_countStep {setting : Setting} :
    Preserves (Run.Keeps law I) (countStep setting) fun _ => True := by
  unfold countStep
  refine Preserves.ite (fun _ => ?_) fun _ => Preserves.pure trivial
  refine (Preserves.modify fun r hr => ⟨hr.session, hr.stack, hr.locals⟩).bind
    fun _ _ => ?_
  refine Preserves.get.bind fun _ _ => ?_
  exact Preserves.ite (fun _ => preserves_trap) fun _ => Preserves.pure trivial

theorem preserves_checkInterrupt {setting : Setting} :
    Preserves (Run.Keeps law I) (checkInterrupt setting) fun _ => True := by
  unfold checkInterrupt
  refine Preserves.ite (fun _ => Preserves.get.bind fun r _ => ?_) fun _ =>
    Preserves.pure trivial
  cases r.session.doneReason setting.context with
  | none => exact Preserves.pure trivial
  | some reason => exact preserves_trap

theorem preserves_currentModule {addr : UInt32} :
    Preserves (Run.Keeps law I) (currentModule addr) fun _ => True :=
  preserves_store.bind fun _ _ => preserves_present.mono fun _ _ => trivial

theorem preserves_memoryAddr {inst : ModuleInst} :
    Preserves (Run.Keeps law I) (memoryAddr inst) fun _ => True := by
  unfold memoryAddr
  split
  · exact Preserves.pure trivial
  · exact preserves_bug

theorem preserves_tableAddr {inst : ModuleInst} :
    Preserves (Run.Keeps law I) (tableAddr inst) fun _ => True := by
  unfold tableAddr
  split
  · exact Preserves.pure trivial
  · exact preserves_bug

theorem preserves_globalAddr {inst : ModuleInst} {index : UInt32} :
    Preserves (Run.Keeps law I) (globalAddr inst index) fun _ => True := by
  unfold globalAddr
  split
  · exact Preserves.pure trivial
  · exact preserves_bug

theorem preserves_functionAt {inst : ModuleInst} {index : UInt32} :
    Preserves (Run.Keeps law I) (functionAt inst index) fun _ => True := by
  unfold functionAt
  split
  · exact preserves_store.bind fun _ _ => preserves_access.bind fun _ _ =>
      Preserves.pure trivial
  · exact preserves_bug

theorem preserves_indirectTarget {inst : ModuleInst} {type : UInt32} :
    Preserves (Run.Keeps law I) (indirectTarget inst type) fun _ => True := by
  refine preserves_tableAddr.bind fun _ _ => preserves_store.bind fun _ _ =>
    preserves_access.bind fun table _ =>
    preserves_popU32.bind fun index _ => ?_
  split
  · refine preserves_store.bind fun _ _ => preserves_access.bind fun _ _ =>
      preserves_present.bind fun _ _ =>
      preserves_present.bind fun _ _ => ?_
    exact Preserves.ite (fun _ => Preserves.pure trivial) fun _ => preserves_trap
  · exact preserves_trap

theorem preserves_setLocal {index : UInt32} :
    Preserves (Run.Keeps law I) (setLocal index) law.Holds := by
  refine Preserves.get.bind fun _ _ => preserves_present.bind fun old _ =>
    preserves_popTyped.bind fun v hv => ?_
  refine (Preserves.modify fun r hr => ⟨hr.session, hr.stack, fun w hw => ?_⟩).bind
    fun _ _ =>
    Preserves.pure hv.1
  rcases Array.mem_or_eq_of_mem_setIfInBounds hw with hold | rfl
  · exact hr.locals w hold
  · exact hv.1

end Exec

end WebAssembly
