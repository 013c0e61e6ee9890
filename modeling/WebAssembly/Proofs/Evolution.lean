import WebAssembly.Proofs.Commands
import WebAssembly.Proofs.LawfulRun

/-!
# Runs evolve stores

Whatever a run executes, well typed or not, it changes the store by known steps only,
and every value that it handles satisfies the law.  The main statement is one induction
over the bound on the length of a run, for instructions, sequences, blocks, calls, host
programs, commands and invocations at once.
-/

namespace WebAssembly

variable {law : ValueLaw}

theorem Store.modifyMemory_eq_setMemory
    {s : Store} {addr : UInt32} {m : MemInst} {change : MemInst → MemInst}
    (h : s.memory addr = .ok m) :
    s.modifyMemory addr change = s.setMemory addr (change m) := by
  have hmemory := lookup_eq_ok_iff.mp h
  unfold modifyMemory setMemory
  congr 1
  refine Array.ext_getElem? fun i => ?_
  rw [Array.getElem?_modify, Array.getElem?_setIfInBounds]
  by_cases hi : addr.toNat = i
  · subst hi
    obtain ⟨hlt, hget⟩ := Array.getElem?_eq_some_iff.mp hmemory
    simp [hlt, hget]
  · simp [hi]

theorem Store.modifyMemory_eq_self
    {s : Store} {addr : UInt32} {cause : AccessError} {change : MemInst → MemInst}
    (h : s.memory addr = .error cause) : s.modifyMemory addr change = s := by
  have hnone : s.memories[addr.toNat]? = none := by
    unfold Store.memory Store.lookup at h
    split at h
    · cases h
    · assumption
  have hmodify : s.memories.modify addr.toNat change = s.memories := by
    refine Array.ext_getElem? fun i => ?_
    rw [Array.getElem?_modify]
    by_cases hi : addr.toNat = i
    · subst hi
      simp [hnone]
    · simp [hi]
  unfold modifyMemory
  rw [hmodify]

namespace Exec

variable {I : Session → Prop} {α : Type} {base : Store}

def From (law : ValueLaw) (base : Store) (s : Session) : Prop :=
  Store.Evolves law False False base s.store

theorem From.tail
    {s : Session} {store : Store} (h : From law base s)
    (hchange : Store.Change law False False s.store store) :
    From law base (s.withStore store) :=
  Store.Evolves.tail h hchange

theorem From.moves
    {s s' : Session} (h : From law base s) (hmoves : s.Moves law False False s') :
    From law base s' :=
  Store.Evolves.trans h hmoves.store

theorem preserves_globalSet {module index : UInt32} :
    Preserves (Run.Keeps law (From law base)) (plain module (.globalSet index))
      fun _ => True := by
  intro r hr
  -- Until the assignment the session stays the same, so that the global read is the one
  -- written.
  have hfix : r.Keeps law (· = r.session) := ⟨rfl, hr.stack, hr.locals⟩
  have hE (e : Abort) (r' : Run) (h : r'.Keeps law (· = r.session)) :
      r'.Keeps law (From law base) :=
    ⟨h.session ▸ hr.session, h.stack, h.locals⟩
  refine preserves_currentModule.ends_bind hfix hE fun inst r₁ _ hr₁ => ?_
  refine preserves_globalAddr.ends_bind hr₁ hE fun addr r₂ _ hr₂ => ?_
  refine preserves_store.ends_bind hr₂ hE ?_
  rintro _ r₃ ⟨_, rfl, rfl⟩ hr₃
  refine preserves_access.ends_bind hr₃ hE fun g r₄ hg hr₄ => ?_
  refine preserves_popTyped.ends_bind hr₄ hE fun v r₅ hv hr₅ => ?_
  have hchange : Store.Change law False False r.session.store
      (r.session.store.setGlobal addr { g with value := v }) :=
    .assign hg False.elim hv.2 hv.1
  refine ⟨trivial, ?_, hr₅.stack, hr₅.locals⟩
  have hsession : r₅.session = r.session := hr₅.session
  show Store.Evolves law False False base (r₅.session.store.setGlobal addr { g with
    value := v })
  rw [hsession]
  exact Store.Evolves.tail hr.session hchange

theorem preserves_memoryGrow {module : UInt32} :
    Preserves (Run.Keeps law (From law base)) (plain module .memoryGrow)
      fun _ => True := by
  intro r hr
  -- As above, the memory that is measured is the one that grows.
  have hfix : r.Keeps law (· = r.session) := ⟨rfl, hr.stack, hr.locals⟩
  have hE (e : Abort) (r' : Run) (h : r'.Keeps law (· = r.session)) :
      r'.Keeps law (From law base) :=
    ⟨h.session ▸ hr.session, h.stack, h.locals⟩
  refine preserves_popU32.ends_bind hfix hE fun delta r₁ _ hr₁ => ?_
  refine preserves_currentModule.ends_bind hr₁ hE fun inst r₂ _ hr₂ => ?_
  refine preserves_memoryAddr.ends_bind hr₂ hE fun addr r₃ _ hr₃ => ?_
  refine preserves_store.ends_bind hr₃ hE ?_
  rintro _ r₄ ⟨_, rfl, rfl⟩ hr₄
  refine preserves_access.ends_bind hr₄ hE fun memory r₅ hmemory hr₅ => ?_
  have hsession : r₅.session = r.session := hr₅.session
  cases hgrow : memory.grow? delta with
  | none =>
      exact preserves_push (law.ofU32 _) r₅ ⟨hsession ▸ hr.session,
        hr₅.stack, hr₅.locals⟩
  | some grown =>
      refine ⟨trivial, ?_, hr₅.stack.value_cons (law.ofU32 _), hr₅.locals⟩
      show Store.Evolves law False False base (r₅.session.store.setMemory addr grown)
      rw [hsession]
      exact Store.Evolves.tail hr.session (.growMemory hmemory hgrow)

theorem preserves_storeInstr {module : UInt32} {op : StoreOp} {arg : MemArg} :
    Preserves (Run.Keeps law (From law base)) (plain module (.store op arg))
      fun _ => True := by
  refine preserves_currentModule.bind fun _ _ => preserves_memoryAddr.bind fun addr _ =>
    preserves_store.bind fun _ _ => preserves_access.bind fun _ _ =>
      preserves_pop.bind fun v _ =>
      preserves_popU32.bind fun _ _ => Preserves.ite (fun _ => ?_)
        fun _ => preserves_trap
  refine preserves_modifyStore fun s hs => ?_
  cases hmemory : s.store.memory addr with
  | error cause =>
      rw [Store.modifyMemory_eq_self hmemory]
      exact hs
  | ok memory =>
      rw [Store.modifyMemory_eq_setMemory hmemory]
      exact hs.tail (.splice hmemory)

/-- An instruction without control flow changes the store by known steps. -/
theorem preserves_plain
    {module : UInt32} {instr : Instr} (hbase : base.Lawful law) :
    Preserves (Run.Keeps law (From law base)) (plain module instr) fun _ => True := by
  cases instr with
  | unreachable => exact preserves_trap
  | drop => exact preserves_pop.bind fun _ _ => Preserves.pure trivial
  | select =>
      refine preserves_popU32.bind fun _ _ => preserves_pop.bind fun second hsecond =>
        preserves_pop.bind fun first hfirst => ?_
      refine Preserves.ite (fun _ => ?_) fun _ => preserves_push ?_
      · exact (preserves_bug (P := fun _ => False)).bind fun _ h => h.elim
      · split
        · exact hfirst
        · exact hsecond
  | localGet index =>
      refine Preserves.get.bind fun r hr => preserves_present.bind
        fun v hv => preserves_push ?_
      exact hr.locals v (Array.mem_of_getElem? hv)
  | localSet index => exact preserves_setLocal.bind fun _ _ => Preserves.pure trivial
  | localTee index => exact preserves_setLocal.bind fun _ hv => preserves_push hv
  | globalGet index =>
      refine preserves_currentModule.bind fun _ _ => preserves_globalAddr.bind
        fun addr _ =>
        preserves_store.bind ?_
      rintro _ ⟨s, hs, rfl⟩
      refine preserves_access.bind fun g hg => preserves_push ?_
      have hlawful := Store.Evolves.lawful hs hbase
      exact hlawful.globals g (Array.mem_of_getElem? (Store.lookup_eq_ok_iff.mp hg))
  | globalSet index => exact preserves_globalSet
  | load op arg =>
      refine preserves_currentModule.bind fun _ _ =>
        preserves_memoryAddr.bind fun _ _ =>
        preserves_store.bind fun _ _ => preserves_access.bind fun memory _ =>
          preserves_popU32.bind fun base' _ => ?_
      cases hload : memory.load? op (MemInst.address base' arg.offset) with
      | none => exact preserves_trap
      | some v =>
          refine preserves_push ?_
          unfold MemInst.load? at hload
          split at hload
          · obtain rfl := Option.some.inj hload
            exact law.ofBits _ _
          · cases hload
  | store op arg => exact preserves_storeInstr
  | memorySize =>
      exact preserves_currentModule.bind fun _ _ => preserves_memoryAddr.bind fun _ _ =>
        preserves_store.bind fun _ _ => preserves_access.bind fun _ _ =>
          preserves_push (law.ofU32 _)
  | memoryGrow => exact preserves_memoryGrow
  | const type bits => exact preserves_push (law.ofBits _ _)
  | unary op =>
      refine preserves_popTyped.bind fun a _ => ?_
      unfold UnaryOp.eval
      cases op.apply a.bits with
      | error cause => exact preserves_trap
      | ok bits => exact preserves_push (law.ofBits _ _)
  | binary op =>
      refine preserves_popTyped.bind fun b _ => preserves_popTyped.bind fun a _ => ?_
      unfold BinaryOp.eval
      cases op.apply a.bits b.bits with
      | error cause => exact preserves_trap
      | ok bits => exact preserves_push (law.ofBits _ _)
  | reserved code => exact preserves_bug
  | _ => exact Preserves.pure trivial

theorem preserves_enter {setting : Setting} {name : String} :
    Preserves (Run.Keeps law I) (enter setting name) fun _ => True := by
  have hrest : Preserves (Run.Keeps law I) (do
      checkInterrupt setting
      modify fun r => { r with active := r.active.push name }
      record setting (.entered name)) fun _ => True := by
    refine preserves_checkInterrupt.bind fun _ _ => ?_
    refine (Preserves.modify fun r hr => ⟨hr.session, hr.stack, hr.locals⟩).bind
      fun _ _ => ?_
    exact preserves_record
  refine Preserves.get.bind fun _ _ => Preserves.ite (fun _ => ?_) fun _ => hrest
  exact (preserves_trap (P := fun _ => False)).bind fun _ h => h.elim

theorem preserves_exit {setting : Setting} :
    Preserves (Run.Keeps law I) (exit setting) fun _ => True :=
  (Preserves.modify fun _ hr => ⟨hr.session, hr.stack, hr.locals⟩).bind
    fun _ _ => preserves_record

theorem preserves_typeOf {function : UInt32} :
    Preserves (Run.Keeps law I) (typeOf function) fun _ => True :=
  preserves_store.bind fun _ _ => preserves_present.bind fun _ _ =>
    preserves_present.mono fun _ _ => trivial

theorem preserves_branch {label : UInt32} :
    Preserves (Run.Keeps law I) (branch label) fun _ => True :=
  (preserves_rearrange fun _ _ h => h.branch).bind fun _ _ => Preserves.pure trivial

theorem preserves_checkResultTypes
    {name : String} {type : FuncType} {index : Nat} {values : List Val}
    {types : List ValueType} :
    Preserves (Run.Keeps law I) (checkResultTypes name type index values types)
      fun _ => True := by
  induction values generalizing index types with
  | nil => exact Preserves.pure trivial
  | cons v rest ih =>
      cases types with
      | nil => exact Preserves.pure trivial
      | cons expected types =>
          refine Preserves.ite (fun _ => ?_) fun _ => ih
          exact (preserves_trap (P := fun _ => False)).bind fun _ h => h.elim

theorem preserves_finishHost
    {function : UInt32} {name : String} {hostEnd : HostEnd}
    (hend : hostEnd.Lawful law False) :
    Preserves (Run.Keeps law I) (finishHost function name hostEnd) fun _ => True := by
  cases hostEnd with
  | done results =>
      refine preserves_typeOf.bind fun type _ => Preserves.ite (fun _ => ?_) fun _ => ?_
      · exact (preserves_trap (P := fun _ => False)).bind fun _ h => h.elim
      · exact preserves_checkResultTypes.bind fun _ _ => preserves_pushAll hend
  | fail error => exact preserves_trap
  | stop cause =>
      cases cause with
      | trap text => exact preserves_trap
      | bug text => exact preserves_bug
      | crash => exact preserves_bug

/-- An operation of a host function is one of the run, except that its failures abort
it. -/
theorem ends_onSession
    {operation : Operation α} {r : Run} {P : α → Session → Prop}
    {E : Error → Session → Prop} {onOk : α → Run → Prop} {onError : Abort → Run → Prop}
    (h : Ends operation r.session P E)
    (hok : ∀ a session, P a session → onOk a { r with session })
    (herror : ∀ error session, E error session → onError (abortOf error) { r with
      session }) :
    Ends (onSession operation) r onOk onError := by
  unfold Ends at h ⊢
  unfold onSession
  cases hop : operation r.session with
  | ok a session =>
      rw [hop] at h
      simp only [hop]
      exact hok a session h
  | error error session =>
      rw [hop] at h
      simp only [hop]
      exact herror error session h

theorem preserves_onSession
    {operation : Operation α} {P : α → Prop} (h : Preserves I operation P) :
    Preserves (Run.Keeps law I) (onSession operation) P :=
  fun r hr => ends_onSession (h r.session hr.session)
    (fun _ _ hs => ⟨hs.1, hs.2, hr.stack, hr.locals⟩)
    fun _ _ hs => ⟨hs, hr.stack, hr.locals⟩

/-- The error that an abort of a run is reported as. -/
theorem ends_toOperation
    {setting : Setting} {args : List Val} {body : Exec α} {s : Session}
    {P : α → Run → Prop} {E : Abort → Run → Prop} {onOk : α → Session → Prop}
    {onError : Error → Session → Prop}
    (h : Ends body { session := s, stack := Stack.pushAll [] args } P E)
    (hok : ∀ a r, P a r → onOk a r.session) (htrap : ∀ cause (r : Run) (s' : Session),
      E (.trap cause) r → s'.store = r.session.store →
      s'.hostCalls = r.session.hostCalls → onError (.trap cause r.backtrace) s')
    (hbug : ∀ cause r, E (.bug cause) r → onError (.bug cause) r.session)
    (hexhausted : ∀ r, E .exhausted r → onError .exhausted r.session) :
    Ends (toOperation setting args body) s onOk onError := by
  unfold Ends at h ⊢
  unfold toOperation
  cases hrun : body { session := s, stack := Stack.pushAll [] args } with
  | ok a r =>
      rw [hrun] at h
      exact hok a r h
  | error abort r =>
      rw [hrun] at h
      cases abort with
      | trap cause =>
          refine htrap cause r _ h ?_ ?_
          · split <;> rfl
          · split <;> simp [Session.hostCalls, Session.observe]
      | bug cause => exact hbug cause r h
      | exhausted => exact hexhausted r h

theorem preserves_toOperation
    {setting : Setting} {args : List Val} {body : Exec α} {P : α → Prop}
    (hargs : law.HoldsAll args)
    (hbody : Preserves (Run.Keeps law (From law base)) body P) :
    Preserves (From law base) (toOperation setting args body) P := by
  intro s hs
  have hrun := hbody { session := s, stack := Stack.pushAll [] args }
    ⟨hs, Stack.Lawful.nil.pushAll hargs, fun _ h => by simp at h⟩
  refine ends_toOperation hrun (fun _ _ h => ⟨h.1, h.2.session⟩) ?_
    (fun _ _ h => h.session) fun _ h => h.session
  intro _ r s' h hstore _
  unfold From
  rw [hstore]
  exact h.session

end Exec
namespace Operation

variable {I : Session → Prop} {α : Type}

theorem preserves_present
    {entry : Option α} : Preserves I (present entry) fun a => entry = some a :=
  fun _ hs => ends_present (fun _ ha => ⟨ha, hs⟩) fun _ => hs

theorem preserves_read
    {access : Store → Except AccessError α} : Preserves I (read access) fun _ => True :=
  fun _ hs => ends_read (fun _ _ => ⟨trivial, hs⟩) fun _ _ => hs

end Operation

namespace Engine

open Exec

/-- Within a bound on its length, every run changes the store by known steps and handles
lawful values. -/
structure Evolving (law : ValueLaw) (base : Store) (fuel : Nat) : Prop where
  exec : ∀ setting module instr,
    Preserves (Run.Keeps law (From law base)) (exec fuel setting module instr)
      fun _ => True
  sequence : ∀ setting module body,
    Preserves (Run.Keeps law (From law base)) (execSequence fuel setting module body)
      fun _ => True
  block : ∀ setting module isLoop params results body,
    Preserves (Run.Keeps law (From law base))
      (execBlock fuel setting module isLoop params results body)
      fun _ => True
  call : ∀ setting function,
    Preserves (Run.Keeps law (From law base)) (call fuel setting function) fun _ => True
  host : ∀ context program, program.Lawful law False →
    Preserves (From law base) (runHost fuel context program) (HostEnd.Lawful law False)
  perform : ∀ context command, command.Lawful law False →
    Preserves (From law base) (perform fuel context command) (Response.Lawful law)
  invoke : ∀ context function args, law.HoldsAll args →
    Preserves (From law base) (invoke fuel context function args) law.HoldsAll

variable {base : Store} {fuel : Nat} {setting : Setting} {module : UInt32}

theorem evolving_exec
    {instr : Instr} (hbase : base.Lawful law) (ih : Evolving law base fuel) :
    Preserves (Run.Keeps law (From law base)) (exec (fuel + 1) setting module instr)
      fun _ => True := by
  rw [exec.eq_def]
  refine preserves_countStep.bind fun _ _ => preserves_record.bind fun _ _ => ?_
  cases instr with
  | block type body => exact ih.block _ _ _ _ _ _
  | loop type body => exact ih.block _ _ _ _ _ _
  | ifElse type whenTrue whenFalse =>
      exact preserves_popU32.bind fun _ _ => ih.block _ _ _ _ _ _
  | br label => exact preserves_branch
  | brIf label =>
      exact preserves_popU32.bind fun _ _ =>
        Preserves.ite (fun _ => preserves_branch) fun _ => Preserves.pure trivial
  | brTable labels default => exact preserves_popU32.bind fun _ _ => preserves_branch
  | ret =>
      exact (preserves_rearrange fun _ _ h => h.ret).bind fun _ _ =>
        Preserves.pure trivial
  | call index =>
      exact preserves_currentModule.bind fun _ _ => preserves_functionAt.bind fun _ _ =>
        (ih.call _ _).bind fun _ _ => Preserves.pure trivial
  | callIndirect type =>
      exact preserves_currentModule.bind fun _ _ =>
        preserves_indirectTarget.bind fun _ _ =>
        (ih.call _ _).bind fun _ _ => Preserves.pure trivial
  | _ => exact (preserves_plain hbase).bind fun _ _ => Preserves.pure trivial

theorem evolving_sequence
    {body : List Instr} (ih : Evolving law base fuel) :
    Preserves (Run.Keeps law (From law base))
      (execSequence (fuel + 1) setting module body) fun _ => True := by
  rw [execSequence.eq_def]
  cases body with
  | nil => exact Preserves.pure trivial
  | cons instr rest =>
      refine (ih.exec _ _ _).bind fun signal _ => ?_
      cases signal with
      | next => exact ih.sequence _ _ _
      | branch | ret => exact Preserves.pure trivial

/-- What follows the body of a block when control runs off its end. -/
theorem preserves_closeBlock
    {I : Session → Prop} {results : Nat} :
    Preserves (Run.Keeps law I) (do
      let values ← popMany results
      rearrange Stack.popLabel
      pushAll values
      pure Signal.next) fun _ => True :=
  preserves_popMany.bind fun _ hvalues => (preserves_rearrange fun _ _ h =>
    h.popLabel).bind fun _ _ =>
    (preserves_pushAll hvalues).bind fun _ _ => Preserves.pure trivial

/-- What follows the body of a block, however it ended. -/
theorem evolving_afterBlock
    {isLoop : Bool} {params results : Nat} {body : List Instr}
    (ih : Evolving law base fuel) (signal : Signal) :
    Preserves (Run.Keeps law (From law base)) (match signal with
      | .next => do
        let values ← popMany results
        rearrange Stack.popLabel
        pushAll values
        pure .next
      | .ret => pure .ret
      | .branch (depth + 1) => pure (.branch depth)
      | .branch 0 =>
        if isLoop then do
          checkInterrupt setting
          record setting .restarted
          execBlock fuel setting module isLoop params results body
        else pure .next) fun _ => True := by
  cases signal with
  | next => exact preserves_closeBlock
  | ret => exact Preserves.pure trivial
  | branch depth =>
      cases depth with
      | succ depth => exact Preserves.pure trivial
      | zero =>
          refine Preserves.ite (fun _ => ?_) fun _ => Preserves.pure trivial
          exact preserves_checkInterrupt.bind fun _ _ => preserves_record.bind
            fun _ _ => ih.block _ _ _ _ _ _

theorem evolving_block
    {isLoop : Bool} {params results : Nat} {body : List Instr}
    (ih : Evolving law base fuel) :
    Preserves (Run.Keeps law (From law base))
      (execBlock (fuel + 1) setting module isLoop params results body)
        fun _ => True := by
  rw [execBlock]
  exact preserves_popMany.bind fun args hargs => preserves_pushLabel.bind fun _ _ =>
    (preserves_pushAll hargs).bind fun _ _ => (ih.sequence _ _ _).bind fun signal _ =>
      evolving_afterBlock ih signal

/-- What follows the body of a function, however it ended: its results replace its
frame, and the locals of the caller are back. -/
theorem preserves_closeCall
    {I : Session → Prop} {name : String} {arity : Nat} {outer : Array Val}
    (houter : ∀ v ∈ outer, law.Holds v) (signal : Signal) :
    Preserves (Run.Keeps law I) (do
      match signal with
      | .branch (_ + 1) => bug (.branchPast name)
      | _ => pure ()
      rearrange (Stack.leave name arity)
      modify fun r => { r with locals := outer }
      exit setting) fun _ => True := by
  have hclose : Preserves (Run.Keeps law I) (do
      rearrange (Stack.leave name arity)
      modify fun r => { r with locals := outer }
      exit setting) fun _ => True :=
    (preserves_rearrange fun _ _ h => h.leave).bind fun _ _ =>
      (Preserves.modify fun r hr => ⟨hr.session, hr.stack, houter⟩).bind
        fun _ _ => preserves_exit
  cases signal with
  | next => exact hclose
  | ret => exact hclose
  | branch depth =>
      cases depth with
      | zero => exact hclose
      | succ depth => exact (preserves_bug (P := fun _ => False)).bind fun _ h => h.elim

theorem evolving_callHost
    {function : UInt32} {f : FuncInst}
    (hf : ∀ host, f.host = some host → ∀ params, law.HoldsAll params →
      (host params).Lawful law False)
    (ih : Evolving law base fuel) :
    Preserves (Run.Keeps law (From law base)) (do
      let type ← present f.type
      let params ← popMany type.params.length
      let host ← present f.host
      onSession (modify (·.observe (.hostCall f.name params)))
      finishHost function f.name
        (← onSession (runHost fuel setting.context (host params)))
      exit setting) fun _ => True := by
  refine preserves_present.bind fun type _ => preserves_popMany.bind
    fun params hparams =>
    preserves_present.bind fun host hhost => ?_
  have hobserve : Preserves (From law base)
      (modify (·.observe (.hostCall f.name params)) : Operation Unit) fun _ => True :=
    Preserves.modify fun _ hs => hs
  have hprogram := ih.host setting.context (host params) (hf host hhost params hparams)
  refine (preserves_onSession hobserve).bind fun _ _ => ?_
  refine (preserves_onSession hprogram).bind fun hostEnd hend => ?_
  exact (preserves_finishHost hend).bind fun _ _ => preserves_exit

/-- The locals of a function start as its arguments, followed by zeros. -/
theorem holds_frame
    {params : List Val} {locals : List ValueType} (hparams : law.HoldsAll params) :
    ∀ v ∈ (params ++ locals.map Val.zero).toArray, law.Holds v := by
  intro v hv
  rcases List.mem_append.mp (List.mem_toArray.mp hv) with hparam | hlocal
  · exact hparams v hparam
  · obtain ⟨type, -, rfl⟩ := List.mem_map.mp hlocal
    exact law.zero type

theorem evolving_callBody
    {f : FuncInst} (ih : Evolving law base fuel) :
    Preserves (Run.Keeps law (From law base)) (do
      let type ← present f.type
      let params ← popMany type.params.length
      let arity := type.results.length
      let outer := (← get).locals
      modify fun r => { r with locals := (params ++ f.locals.map Val.zero).toArray }
      pushMark (.activation arity)
      pushMark (.label arity)
      match ← execSequence fuel setting f.module f.body with
      | .branch (_ + 1) => bug (.branchPast f.name)
      | _ => pure ()
      rearrange (Stack.leave f.name arity)
      modify fun r => { r with locals := outer }
      exit setting) fun _ => True := by
  refine preserves_present.bind fun type _ => preserves_popMany.bind
    fun params hparams =>
    Preserves.get.bind fun r hr => ?_
  refine (Preserves.modify fun r hr => ⟨hr.session, hr.stack, holds_frame hparams⟩).bind
    fun _ _ => ?_
  exact preserves_pushActivation.bind fun _ _ => preserves_pushLabel.bind fun _ _ =>
    (ih.sequence _ _ _).bind fun signal _ => preserves_closeCall hr.locals signal

theorem evolving_call
    {function : UInt32} (hbase : base.Lawful law) (ih : Evolving law base fuel) :
    Preserves (Run.Keeps law (From law base)) (call (fuel + 1) setting function)
      fun _ => True := by
  rw [call.eq_def]
  refine preserves_store.bind ?_
  rintro _ ⟨s, hs, rfl⟩
  refine preserves_present.bind fun f hf => preserves_enter.bind fun _ _ => ?_
  have hlawful := Store.Evolves.lawful hs hbase
  cases hkind : f.kind with
  | host =>
      exact evolving_callHost (hlawful.hosts f (Array.mem_of_getElem? hf)) ih
  | wasm =>
      refine preserves_store.bind fun store _ => ?_
      cases store.module f.module with
      | error cause =>
          exact (preserves_bug (P := fun _ => False)).bind fun _ h => h.elim
      | ok inst => exact evolving_callBody ih
  | reserved code => exact (preserves_bug (P := fun _ => False)).bind fun _ h => h.elim

/-- A command of a host program is carried out, and the program goes on with what came
of it. -/
theorem ends_runHost_perform
    {context : ContextRef} {command : Command} {next : Response → HostProgram}
    {s : Session} {P : Response → Session → Prop} {E' : Error → Session → Prop}
    {Q : HostEnd → Session → Prop} {E : Error → Session → Prop}
    (hperform : Ends (perform fuel context command) s P E')
    (hok : ∀ response s', P response s' →
      Ends (runHost fuel context (next response)) s' Q E) (hfailed :
        ∀ error s', E' error s' →
          Ends (runHost fuel context (next (.failed error))) s' Q E)
    (hcrash : ∀ s', E' .crash s' → Q (.stop .crash) s')
    (hexhausted : ∀ s', E' .exhausted s' → E .exhausted s') :
    Ends (runHost (fuel + 1) context (.perform command next)) s Q E := by
  rw [runHost.eq_def]
  unfold Ends at hperform
  unfold Ends
  cases hresult : perform fuel context command s with
  | ok response s' =>
      rw [hresult] at hperform
      simp only [hresult]
      exact hok response s' hperform
  | error error s' =>
      rw [hresult] at hperform
      simp only [hresult]
      cases error with
      | exhausted => exact hexhausted s' hperform
      | crash => exact hcrash s' hperform
      | _ => exact hfailed _ s' hperform

theorem evolving_host
    {context : ContextRef} {program : HostProgram} (hprogram : program.Lawful law False)
    (ih : Evolving law base fuel) :
    Preserves (From law base) (runHost (fuel + 1) context program)
      (HostEnd.Lawful law False) := by
  cases hprogram with
  | done hresults => exact Preserves.pure hresults
  | fail => exact Preserves.pure trivial
  | stop hpartial => exact Preserves.pure hpartial
  | @perform _ command next hcommand _ hnext =>
      intro s hs
      refine ends_runHost_perform (ih.perform context command hcommand s hs) ?_ ?_
        (fun _ h => ⟨id, h⟩) fun _ h => h
      · exact fun response s' h =>
          ih.host context (next response) (hnext response h.1) s' h.2
      · exact fun error s' h => ih.host context (next (.failed error))
          (hnext (.failed error) trivial) s' h

/-- A start function that fails makes the instantiation fail, unless it ends
everything. -/
theorem ends_runStart
    {α : Type} {name : String} {operation : Operation α} {s : Session}
    {P : α → Session → Prop} {Q : Unit → Session → Prop} {E E' : Error → Session → Prop}
    (h : Ends operation s P E) (hok : ∀ a s', P a s' → Q () s')
    (hexhausted : ∀ s', E .exhausted s' → E' .exhausted s')
    (hcrash : ∀ s', E .crash s' → E' .crash s')
    (hfailed : ∀ error s', E error s' → E' (.instantiation name (.start error)) s') :
    Ends (runStart name operation) s Q E' := by
  unfold Ends at h ⊢
  unfold runStart
  cases hop : operation s with
  | ok a s' =>
      rw [hop] at h
      exact hok a s' h
  | error error s' =>
      rw [hop] at h
      cases error with
      | exhausted => exact hexhausted s' h
      | crash => exact hcrash s' h
      | _ => exact hfailed _ s' h

theorem evolving_invoke
    {context : ContextRef} {function : UInt32} {args : List Val}
    (hargs : law.HoldsAll args) (ih : Evolving law base fuel) :
    Preserves (From law base) (invoke (fuel + 1) context function args)
      law.HoldsAll := by
  rw [invoke.eq_def]
  refine Preserves.get.bind fun s _ => Operation.preserves_present.bind fun config _ =>
    Operation.preserves_read.bind fun f _ => Operation.preserves_present.bind
      fun type _ => ?_
  cases checkArguments type args with
  | error cause => exact (Preserves.throw (P := fun _ => False)).bind fun _ h => h.elim
  | ok _ =>
      refine preserves_toOperation hargs ?_
      exact (ih.call _ _).bind fun _ _ => preserves_typeOf.bind
        fun _ _ => preserves_popMany

theorem preserves_openContext
    {inherited : ContextRef} {choice : ContextChoice} :
    Preserves (From law base) (Operation.openContext inherited choice) fun _ => True :=
  fun s hs => ⟨trivial, From.moves hs (s.moves_openContext inherited choice)⟩

/-- What follows the preparation of a module: its start function is run, and its
instance is given back. -/
theorem evolving_start
    {context : ContextRef} {name : String} {start : Option UInt32} {position : Nat}
    {inst : ModuleInst} (ih : Evolving law base fuel) :
    Preserves (From law base) (do
      match start with
      | some function => runStart name (invoke fuel context function [])
      | none => pure ()
      Response.module <$> Operation.added position inst) (Response.Lawful law) := by
  have hmodule : Preserves (From law base) (Response.module <$>
      Operation.added position inst)
      (Response.Lawful law) := fun _ hs => ⟨trivial, hs⟩
  cases start with
  | none => exact hmodule
  | some function =>
      have hstart : Preserves (From law base)
          (runStart name (invoke fuel context function [])) fun _ => True :=
        fun s hs => ends_runStart
          (ih.invoke context function [] (fun _ h => by cases h) s hs)
          (fun _ _ h => ⟨trivial, h.2⟩) (fun _ h => h) (fun _ h => h) fun _ _ h => h
      exact hstart.bind fun _ _ => hmodule

theorem evolving_perform
    {context : ContextRef} {command : Command} (hbase : base.Lawful law)
    (hcommand : command.Lawful law False) (ih : Evolving law base fuel) :
    Preserves (From law base) (perform (fuel + 1) context command)
      (Response.Lawful law) := by
  have hanswer : Preserves (From law base) (Operation.answer command)
      (Response.Lawful law) := by
    intro s hs
    have hends : Ends (Operation.answer command) s (Operation.Answers law False False s)
        (Operation.Refuses law False False command.IsComplete s) :=
      Operation.answer_ends hcommand (Store.Evolves.lawful hs hbase) False.elim
    exact hends.mono (fun _ _ h => ⟨h.1, From.moves hs h.2⟩)
      fun _ _ h => From.moves hs h.1
  rw [perform.eq_def]
  cases hcommand with
  | invoke hargs =>
      exact preserves_openContext.bind fun _ _ => Preserves.map (ih.invoke _ _ _ hargs)
  | @call _ module name _ _ hargs =>
      have hfind : Preserves (From law base) (Operation.findExport module name .func)
          fun _ => True :=
        fun s hs => Operation.findExport_ends (fun _ _ => ⟨trivial, hs⟩) (fun _ => hs)
          fun _ => hs
      exact hfind.bind fun _ _ => preserves_openContext.bind fun _ _ =>
        Preserves.map (ih.invoke _ _ _ hargs)
  | allocGlobal | globalSet | allocFunction => exact hanswer
  | @instantiate _ m name externs choice =>
      have hprepare : Preserves (From law base) (Operation.prepare m name externs)
          fun _ => True :=
        fun s hs => (Operation.prepare_ends s False.elim).mono
          (fun _ _ h => ⟨trivial, From.moves hs h⟩)
          fun _ _ h => From.moves hs h.1
      exact preserves_openContext.bind fun context _ => Preserves.get.bind
        fun before _ =>
        hprepare.bind fun prepared _ => evolving_start ih
  | plain hplain =>
      cases command with
      | instantiate | invoke | call => exact hplain.elim
      | _ => exact hanswer

/-- Every run, however it ends, changes the store by known steps and handles lawful
values only. -/
theorem evolving
    (hbase : base.Lawful law) (fuel : Nat) : Evolving law base fuel := by
  -- The functions of the interpreter call each other with less fuel, so the seven
  -- statements go together.
  induction fuel with
  | zero =>
      exact {
        exec := fun _ _ _ => Preserves.throw
        sequence := fun _ _ _ => Preserves.throw
        block := fun _ _ _ _ _ _ => Preserves.throw
        call := fun _ _ => Preserves.throw
        host := fun _ _ _ => Preserves.throw
        perform := fun _ _ _ => Preserves.throw
        invoke := fun _ _ _ _ => Preserves.throw }
  | succ fuel ih =>
      exact {
        exec := fun _ _ _ => evolving_exec hbase ih
        sequence := fun _ _ _ => evolving_sequence ih
        block := fun _ _ _ _ _ _ => evolving_block ih
        call := fun _ _ => evolving_call hbase ih
        host := fun _ _ h => evolving_host h ih
        perform := fun _ _ h => evolving_perform hbase h ih
        invoke := fun _ _ _ h => evolving_invoke h ih }

end Engine
end WebAssembly
