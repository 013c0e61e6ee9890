import WebAssembly.Proofs.Operands
import WebAssembly.Proofs.Reference

/-!
# Steps that see only the topmost operands

Operands are taken only from above the first label or activation.  A step that moves no
mark therefore does the same whatever lies below: its outcome on its own operands is its
outcome above every barrier.  This is shown once for each primitive step and composed
along the text of the others.
-/

namespace WebAssembly

/-! ## Operands above a barrier -/

namespace Stack

/-- No operand can be taken from the stack. -/
def IsBarrier (base : Stack) : Prop :=
  ∀ v rest, base ≠ .value v :: rest

theorem isBarrier_nil : IsBarrier [] := by
  intro v rest h
  cases h

theorem isBarrier_label (arity : Nat) (rest : Stack) :
    IsBarrier (.label arity :: rest) := by
  intro v rest' h
  cases h

theorem operands_pushAll (stack : Stack) (values : List Val) :
    (stack.pushAll values).operands = stack.operands ++ values := by
  induction values generalizing stack with
  | nil => exact (List.append_nil _).symm
  | cons v rest ih =>
      rw [pushAll, ih, operands, List.append_assoc, List.singleton_append]

theorem popOnto_eq_error
    {base : Stack} (hbase : base.IsBarrier) {values acc : List Val} {count : Nat}
    (h : values.length < count) :
    popOnto acc count (base.pushAll values) = .error .noValue := by
  obtain ⟨count, rfl⟩ : ∃ n, count = n + 1 := ⟨count - 1, by omega⟩
  induction values using List.reverseRecOn generalizing acc count with
  | nil =>
      rw [pushAll]
      cases base with
      | nil => rfl
      | cons entry rest =>
          cases entry with
          | value v => exact absurd rfl (hbase v rest)
          | label | activation => rfl
  | append_singleton values v ih =>
      rw [List.length_append, List.length_singleton] at h
      obtain ⟨count, rfl⟩ : ∃ n, count = n + 1 := ⟨count - 1, by omega⟩
      rw [pushAll_concat, popOnto]
      exact ih count (by omega)

/-- Popping takes the topmost operands and fails where there are too few of them. -/
theorem popMany_eq
    {base : Stack} (hbase : base.IsBarrier) (count : Nat) (operands : List Val) :
    popMany count (base.pushAll operands) =
      match topmost count operands with
      | some (below, values) => .ok (values, base.pushAll below)
      | none => .error .noValue := by
  by_cases h : count ≤ operands.length
  · have hlength : (operands.drop (operands.length - count)).length = count := by
      rw [List.length_drop]
      omega
    have hpop := popMany_pushAll
      (base.pushAll (operands.take (operands.length - count)))
      (operands.drop (operands.length - count))
    rw [← pushAll_append, List.take_append_drop, hlength] at hpop
    rw [hpop, topmost, if_pos h, List.splitAt_eq]
  · rw [topmost, if_neg h]
    exact popOnto_eq_error hbase (Nat.lt_of_not_le h)

theorem pop_eq_error {base : Stack} (hbase : base.IsBarrier) :
    pop base = .error .noValue := by
  unfold pop
  split
  · exact absurd rfl (hbase _ _)
  · rfl

end Stack

theorem topmost_eq_some
    {count : Nat} {operands below values : List Val}
    (h : topmost count operands = some (below, values)) :
    values.length = count ∧ below ++ values = operands := by
  unfold topmost at h
  split at h
  · rename_i hle
    rw [List.splitAt_eq] at h
    obtain ⟨rfl, rfl⟩ := Prod.mk.inj (Option.some.inj h)
    refine ⟨?_, List.take_append_drop _ _⟩
    rw [List.length_drop]
    omega
  · cases h

/-! ## Outcomes above a barrier -/

namespace Machine

variable (m : Machine) (stack : Stack)

@[simp] theorem machine_on : (m.on stack).machine = m := rfl

@[simp] theorem stack_on : (m.on stack).stack = stack := rfl

end Machine

/-- The result is the outcome, with its operands above the given stack. -/
def Outcome.Matches {α : Type} (base : Stack) :
    Outcome α → EStateM.Result Abort Run α → Prop
  | .done a operands m, result => result = .ok a (m.on (base.pushAll operands))
  | .halt cause m, result => ∃ stack, result = .error cause (m.on stack)

namespace Outcome.Matches

variable {α β : Type} {base : Stack} {x : Exec α} {f : α → Exec β} {r : Run}
  {m : Machine}

theorem bind_eq
    {a : α} {operands : List Val} (h : (Outcome.done a operands m).Matches base (x r)) :
    (x >>= f) r = f a (m.on (base.pushAll operands)) :=
  bind_eq_of_eq_ok h

theorem bind_eq_error
    {cause : Abort} (h : (Outcome.halt cause m).Matches base (x r)) :
    ∃ stack, (x >>= f) r = .error cause (m.on stack) := by
  obtain ⟨stack, hx⟩ := h
  exact ⟨stack, bind_eq_of_eq_error hx⟩

end Outcome.Matches

namespace Exec

variable {α β : Type} {x : Exec α} {f : α → Exec β}

/-- The step has one outcome, whatever lies below its operands. -/
def Local (x : Exec α) : Prop :=
  ∀ (m : Machine) operands, ∃ o : Outcome α, ∀ base : Stack, base.IsBarrier →
    o.Matches base (x (m.on (base.pushAll operands)))

/-- The outcome of a local step is the one that it has on its own. -/
theorem Local.matches_alone
    (h : Local x) (m : Machine) (operands : List Val) {base : Stack}
    (hbase : base.IsBarrier) :
    (x.alone m operands).Matches base (x (m.on (base.pushAll operands))) := by
  obtain ⟨o, ho⟩ := h m operands
  have halone : x.alone m operands = o := by
    have hown := ho [] Stack.isBarrier_nil
    cases o with
    | done a operands' m' =>
        rw [alone, hown]
        simp only [Machine.stack_on, Machine.machine_on, Stack.operands_pushAll]
        rfl
    | halt cause m' =>
        obtain ⟨stack, hstack⟩ := hown
        rw [alone, hstack]
        rfl
  rw [halone]
  exact ho base hbase

theorem Local.bind
    (hx : Local x) (hf : ∀ a, Local (f a)) : Local (x >>= f) := by
  intro m operands
  obtain ⟨o, ho⟩ := hx m operands
  cases o with
  | halt cause m' =>
      refine ⟨.halt cause m', ?_⟩
      intro base hbase
      exact (ho base hbase).bind_eq_error
  | done a operands' m' =>
      obtain ⟨o, hfo⟩ := hf a m' operands'
      refine ⟨o, ?_⟩
      intro base hbase
      rw [(ho base hbase).bind_eq]
      exact hfo base hbase

/-- A step that does not touch the stack is local. -/
theorem local_of_eq_ok
    (a : Machine → α) (change : Machine → Machine)
    (h : ∀ (m : Machine) stack, x (m.on stack) = .ok (a m) ((change m).on stack)) :
    Local x :=
  fun m operands => ⟨.done (a m) operands (change m), fun _ _ => h m _⟩

theorem local_pure (a : α) : Local (pure a) :=
  local_of_eq_ok (fun _ => a) id fun _ _ => rfl

theorem local_throw (cause : Abort) : Local (throw cause : Exec α) :=
  fun m _ => ⟨.halt cause m, fun _ _ => ⟨_, rfl⟩⟩

theorem local_trap (cause : TrapCause) : Local (trap cause : Exec α) :=
  local_throw (.trap cause)

theorem local_bug (cause : Bug) : Local (bug cause : Exec α) :=
  local_throw (.bug cause)

/-- The state may be read as long as the stack is not. -/
theorem Local.get_bind
    {f : Run → Exec α} (h : ∀ m : Machine, Local (f (m.on [])))
    (hf : ∀ (m : Machine) stack, f (m.on stack) = f (m.on [])) :
    Local (get >>= f) := by
  intro m operands
  obtain ⟨o, ho⟩ := h m m operands
  refine ⟨o, ?_⟩
  intro base hbase
  have hget : (get >>= f) (m.on (base.pushAll operands)) =
      f (m.on []) (m.on (base.pushAll operands)) := by
    rw [← hf m (base.pushAll operands)]
    rfl
  rw [hget]
  exact ho base hbase

theorem local_present (entry : Option α) : Local (present entry) := by
  cases entry with
  | none => exact local_bug .crash
  | some a => exact local_pure a

theorem local_access (result : Except AccessError α) : Local (access result) := by
  cases result with
  | error cause => exact local_bug (.access cause)
  | ok a => exact local_pure a

theorem local_record (setting : Setting) (moment : Moment) :
    Local (record setting moment) := by
  by_cases h : setting.watched
  · refine local_of_eq_ok (fun _ => ()) (fun m => { m with
      trace := (moment, m.session) :: m.trace }) ?_
    intro m stack
    simp only [record, if_pos h]
    rfl
  · refine local_of_eq_ok (fun _ => ()) id ?_
    intro m stack
    simp only [record, if_neg h]
    rfl

theorem local_store : Local store :=
  local_of_eq_ok (·.session.store) id fun _ _ => rfl

theorem local_modifyStore (change : Store → Store) : Local (modifyStore change) :=
  local_of_eq_ok (fun _ => ())
    (fun m => { m with session := { m.session with store := change m.session.store } })
      fun _ _ => rfl

theorem local_pushAll (values : List Val) : Local (pushAll values) := by
  intro m operands
  refine ⟨.done () (operands ++ values) m, ?_⟩
  intro base _
  rw [Outcome.Matches, Stack.pushAll_append]
  rfl

theorem local_push (v : Val) : Local (push v) :=
  local_pushAll [v]

theorem local_take
    {pop : Stack → Except Bug (α × Stack)}
    (h : ∀ operands,
      (∃ a rest, ∀ base : Stack, base.IsBarrier → pop (base.pushAll operands) = .ok (a,
        base.pushAll rest)) ∨
        ∃ cause, ∀ base : Stack, base.IsBarrier →
          pop (base.pushAll operands) = .error cause) :
    Local (take pop) := by
  intro m operands
  obtain ⟨a, rest, hpop⟩ | ⟨cause, hpop⟩ := h operands
  · refine ⟨.done a rest m, ?_⟩
    intro base hbase
    simp only [Outcome.Matches, take, Machine.stack_on, hpop base hbase]
    rfl
  · refine ⟨.halt (.bug cause) m, ?_⟩
    intro base hbase
    refine ⟨base.pushAll operands, ?_⟩
    simp only [take, Machine.stack_on, hpop base hbase]

theorem local_popMany (count : Nat) : Local (popMany count) := by
  apply local_take
  intro operands
  cases h : topmost count operands with
  | none => exact .inr ⟨.noValue, fun base hbase => by rw [Stack.popMany_eq hbase, h]⟩
  | some parts =>
      exact .inl ⟨parts.2, parts.1, fun base hbase => by rw [Stack.popMany_eq hbase, h]⟩

theorem local_pop : Local pop := by
  apply local_take
  intro operands
  obtain rfl | ⟨rest, v, rfl⟩ := operands.eq_nil_or_concat'
  · exact .inr ⟨.noValue, fun base hbase => Stack.pop_eq_error hbase⟩
  · exact .inl ⟨v, rest, fun base _ => by rw [Stack.pushAll_concat, Stack.pop]⟩

theorem local_popTyped (type : ValueType) : Local (popTyped type) := by
  apply local_take
  intro operands
  obtain rfl | ⟨rest, v, rfl⟩ := operands.eq_nil_or_concat'
  · refine .inr ⟨.noValue, ?_⟩
    intro base hbase
    rw [Stack.popTyped, Stack.pushAll, Stack.pop_eq_error hbase]
  · by_cases htype : v.type = type
    · refine .inl ⟨v, rest, ?_⟩
      intro base _
      simp only [Stack.popTyped, Stack.pushAll_concat, Stack.pop, if_pos htype]
    · refine .inr ⟨.wrongKind type v, ?_⟩
      intro base _
      simp only [Stack.popTyped, Stack.pushAll_concat, Stack.pop, if_neg htype]

theorem local_popU32 : Local popU32 :=
  (local_popTyped .i32).bind fun v => local_pure v.u32

theorem onSession_eq_ok
    {operation : Operation α} {m : Machine} {a : α} {session : Session}
    (h : operation m.session = .ok a session) (stack : Stack) :
    onSession operation (m.on stack) = .ok a (Machine.on { m with session } stack) := by
  simp only [onSession, Machine.on, h]

theorem onSession_eq_error
    {operation : Operation α} {m : Machine} {error : Error} {session : Session}
    (h : operation m.session = .error error session) (stack : Stack) :
    onSession operation (m.on stack) = .error (abortOf error)
      (Machine.on { m with session } stack) := by
  simp only [onSession, Machine.on, h]

theorem local_onSession (operation : Operation α) : Local (onSession operation) := by
  intro m operands
  cases h : operation m.session with
  | ok a session =>
      exact ⟨.done a operands { m with session }, fun base _ => onSession_eq_ok h _⟩
  | error error session =>
      exact ⟨.halt (abortOf error) { m with session },
        fun base _ => ⟨_, onSession_eq_error h _⟩⟩

theorem Local.ite
    {p : Prop} [Decidable p] {y : Exec α} (hx : Local x) (hy : Local y) :
    Local (if p then x else y) := by
  split
  · exact hx
  · exact hy

/-! ## The steps of the interpreter -/

theorem local_countStep (setting : Setting) : Local (countStep setting) := by
  refine Local.ite ?_ (local_pure ())
  refine (local_of_eq_ok (fun _ => ()) (fun m => { m with
    steps := m.steps + 1 }) fun _ _ => rfl).bind fun _ => ?_
  refine Local.get_bind (fun m => ?_) fun _ _ => rfl
  exact Local.ite (local_trap .stepBudget) (local_pure ())

theorem local_checkInterrupt (setting : Setting) : Local (checkInterrupt setting) := by
  refine Local.ite ?_ (local_pure ())
  refine Local.get_bind (fun m => ?_) fun _ _ => rfl
  split
  · exact local_trap _
  · exact local_pure ()

theorem local_currentModule (addr : UInt32) : Local (currentModule addr) :=
  local_store.bind fun _ => local_present _

theorem local_memoryAddr (inst : ModuleInst) : Local (memoryAddr inst) := by
  unfold memoryAddr
  split
  · exact local_pure _
  · exact local_bug _

theorem local_tableAddr (inst : ModuleInst) : Local (tableAddr inst) := by
  unfold tableAddr
  split
  · exact local_pure _
  · exact local_bug _

theorem local_globalAddr (inst : ModuleInst) (index : UInt32) :
    Local (globalAddr inst index) := by
  unfold globalAddr
  split
  · exact local_pure _
  · exact local_bug _

theorem local_functionAt (inst : ModuleInst) (index : UInt32) :
    Local (functionAt inst index) := by
  unfold functionAt
  split
  · exact local_store.bind fun _ => (local_access _).bind fun _ => local_pure _
  · exact local_bug _

theorem local_indirectTarget (inst : ModuleInst) (type : UInt32) :
    Local (indirectTarget inst type) := by
  refine (local_tableAddr inst).bind fun addr => local_store.bind fun s =>
    (local_access _).bind fun table =>
    local_popU32.bind fun index => ?_
  split
  · exact local_store.bind fun _ => (local_access _).bind fun _ =>
      (local_present _).bind fun _ =>
      (local_present _).bind fun _ => (local_pure _).ite (local_trap _)
  · exact local_trap _

theorem local_setLocal (index : UInt32) : Local (setLocal index) := by
  refine Local.get_bind (fun m => ?_) fun _ _ => rfl
  refine (local_present _).bind fun old => (local_popTyped old.type).bind fun v => ?_
  exact (local_of_eq_ok (fun _ => ()) (fun m => { m with
    locals := m.locals.setIfInBounds index.toNat v })
    fun _ _ => rfl).bind fun _ => local_pure v

theorem local_plain (module : UInt32) (instr : Instr) : Local (plain module instr) := by
  cases instr with
  | unreachable => exact local_trap _
  | drop => exact local_pop.bind fun _ => local_pure ()
  | select =>
      refine local_popU32.bind fun _ => local_pop.bind fun _ =>
        local_pop.bind fun _ => ?_
      exact Local.ite ((local_bug _).bind fun _ => local_push _) (local_push _)
  | localGet index =>
      refine Local.get_bind (fun m => ?_) fun _ _ => rfl
      exact (local_present _).bind fun v => local_push v
  | localSet index => exact (local_setLocal index).bind fun _ => local_pure ()
  | localTee index => exact (local_setLocal index).bind fun v => local_push v
  | globalGet index =>
      exact (local_currentModule module).bind fun _ => (local_globalAddr _ _).bind
        fun _ => local_store.bind fun _ =>
        (local_access _).bind fun _ => local_push _
  | globalSet index =>
      exact (local_currentModule module).bind fun _ => (local_globalAddr _ _).bind
        fun _ => local_store.bind fun _ =>
        (local_access _).bind fun _ => (local_popTyped _).bind
          fun _ => local_modifyStore _
  | load op arg =>
      refine (local_currentModule module).bind fun _ => (local_memoryAddr _).bind
        fun _ => local_store.bind fun _ =>
        (local_access _).bind fun _ => local_popU32.bind fun _ => ?_
      split
      · exact local_push _
      · exact local_trap _
  | store op arg =>
      refine (local_currentModule module).bind fun _ => (local_memoryAddr _).bind
        fun _ => local_store.bind fun _ =>
        (local_access _).bind fun _ => local_pop.bind fun _ =>
          local_popU32.bind fun _ => ?_
      exact Local.ite (local_modifyStore _) (local_trap _)
  | memorySize =>
      exact (local_currentModule module).bind fun _ => (local_memoryAddr _).bind
        fun _ => local_store.bind fun _ =>
        (local_access _).bind fun _ => local_push _
  | memoryGrow =>
      refine local_popU32.bind fun _ => (local_currentModule module).bind fun _ =>
        (local_memoryAddr _).bind fun _ =>
        local_store.bind fun _ => (local_access _).bind fun _ => ?_
      split
      · exact (local_modifyStore _).bind fun _ => local_push _
      · exact local_push _
  | const type bits => exact local_push _
  | unary op =>
      refine (local_popTyped _).bind fun a => ?_
      split
      · exact local_push _
      · exact local_trap _
  | binary op =>
      refine (local_popTyped _).bind fun b => (local_popTyped _).bind fun a => ?_
      split
      · exact local_push _
      · exact local_trap _
  | reserved code => exact local_bug _
  | _ => exact local_pure ()

theorem local_transfer (module : UInt32) (instr : Instr) :
    Local (transfer module instr) := by
  cases instr with
  | block | loop | br | ret => exact local_pure _
  | ifElse | brIf | brTable => exact local_popU32.bind fun _ => local_pure _
  | call index =>
      exact (local_currentModule module).bind fun _ => (local_functionAt _ _).bind
        fun _ => local_pure _
  | callIndirect type =>
      exact (local_currentModule module).bind fun _ => (local_indirectTarget _ _).bind
        fun _ => local_pure _
  | _ => exact (local_plain module _).bind fun _ => local_pure _

theorem local_dispatch (setting : Setting) (module : UInt32) (instr : Instr) :
    Local (dispatch setting module instr) :=
  (local_countStep setting).bind fun _ => (local_record setting _).bind fun _ =>
    local_transfer module instr

theorem local_restart (setting : Setting) : Local (restart setting) :=
  (local_checkInterrupt setting).bind fun _ => local_record setting _

theorem local_enter (setting : Setting) (name : String) :
    Local (enter setting name) := by
  refine Local.get_bind (fun m => ?_) fun _ _ => rfl
  have hrest : Local (checkInterrupt setting >>= fun _ =>
      modify (fun r : Run => { r with active := r.active.push name }) >>= fun _ =>
        record setting (.entered name)) :=
    (local_checkInterrupt setting).bind fun _ =>
      (local_of_eq_ok (fun _ => ()) (fun m => { m with active := m.active.push name })
        fun _ _ => rfl).bind fun _ =>
        local_record setting _
  exact Local.ite ((local_trap _).bind fun _ => hrest) hrest

theorem local_exit (setting : Setting) : Local (exit setting) :=
  (local_of_eq_ok (fun _ => ()) (fun m => { m with
    active := m.active.pop }) fun _ _ => rfl).bind fun _ =>
    local_record setting _

theorem local_typeOf (function : UInt32) : Local (typeOf function) :=
  local_store.bind fun _ => (local_present _).bind fun _ => local_present _

theorem local_collect (function : UInt32) : Local (collect function) :=
  (local_typeOf function).bind fun _ => local_popMany _

theorem local_checkResultTypes (name : String) (type : FuncType) (index : Nat)
    (values : List Val) (types : List ValueType) :
    Local (checkResultTypes name type index values types) := by
  induction values generalizing index types with
  | nil => exact local_pure ()
  | cons v values ih =>
      cases types with
      | nil => exact local_pure ()
      | cons expected rest =>
          exact Local.ite ((local_trap _).bind fun _ => ih _ _) (ih _ _)

theorem local_stop (cause : HostStop) : Local (stop cause : Exec α) := by
  cases cause with
  | trap text => exact local_trap _
  | bug text => exact local_bug _
  | crash => exact local_bug _

theorem local_finishCall (setting : Setting) (function : UInt32) (name : String)
    (hostEnd : HostEnd) :
    Local (finishCall setting function name hostEnd) := by
  refine Local.bind ?_ fun _ => local_exit setting
  cases hostEnd with
  | done results =>
      refine (local_typeOf function).bind fun type => ?_
      have hrest : Local (checkResultTypes name type 0 results type.results >>=
          fun _ => pushAll results) :=
        (local_checkResultTypes _ _ _ _ _).bind fun _ => local_pushAll results
      exact Local.ite ((local_trap _).bind fun _ => hrest) hrest
  | fail error => exact local_trap _
  | stop cause => exact local_stop cause

theorem local_summon (setting : Setting) (function : UInt32) :
    Local (summon setting function) := by
  refine local_store.bind fun _ => (local_present _).bind fun f =>
    (local_enter setting f.name).bind fun _ => ?_
  cases f.kind with
  | host =>
      exact (local_present _).bind fun _ => (local_popMany _).bind fun _ =>
        (local_present _).bind fun _ =>
        (local_onSession _).bind fun _ => local_pure _
  | wasm =>
      refine local_store.bind fun s => ?_
      have hrest : Local (present f.type >>= fun type => popMany type.params.length >>=
          fun params =>
          pure (Summons.body f type.results.length params)) :=
        (local_present _).bind fun _ => (local_popMany _).bind fun _ => local_pure _
      cases s.module f.module with
      | error cause => exact (local_bug _).bind fun _ => hrest
      | ok => exact hrest
  | reserved code => exact local_bug _

end Exec
end WebAssembly
