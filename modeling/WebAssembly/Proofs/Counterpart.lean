import WebAssembly.Proofs.CoupledInvocation

/-!
# Sessions that differ in their engine

Commands that do not invoke a function do not look at the configuration of the engine.
Carried out in two sessions that differ in nothing else, they give the same responses
and leave such sessions behind.  They also come to an end, so that a host function which
performs no others comes to an end too.
-/

namespace WebAssembly

/-- Two attempts fail for the same reason, or succeed with related values. -/
inductive Concur {ε α α' : Type} (P : α → α' → Prop) : Except ε α → Except ε α' → Prop
  | ok {a a'} (h : P a a') : Concur P (.ok a) (.ok a')
  | error (e : ε) : Concur P (.error e) (.error e)

theorem Concur.bind
    {ε α β β' : Type} {P : β → β' → Prop} (x : Except ε α) {f : α → Except ε β}
    {f' : α → Except ε β'} (h : ∀ a, Concur P (f a) (f' a)) :
    Concur P (x >>= f) (x >>= f') := by
  cases x with
  | error e => exact .error e
  | ok a => exact h a

theorem concur_refl {ε α : Type} (x : Except ε α) : Concur Eq x x := by
  cases x with
  | error e => exact .error e
  | ok a => exact .ok rfl

theorem Concur.guard
    {ε β β' : Type} {P : β → β' → Prop} (p : Prop) [Decidable p] (e : ε)
    {x : Except ε β} {x' : Except ε β'} (h : Concur P x x') :
    Concur P (if p then .error e else x) (if p then .error e else x') := by
  split
  · exact .error e
  · exact h

theorem rel_refl {α : Type} (entry : Option α) : Option.Rel Eq entry entry := by
  cases entry with
  | none => exact .none
  | some a => exact .some rfl

theorem rel_bind
    {α β β' : Type} {P : β → β' → Prop} (entry : Option α) {f : α → Option β}
    {f' : α → Option β'} (h : ∀ a, entry = some a → Option.Rel P (f a) (f' a)) :
    Option.Rel P (entry >>= f) (entry >>= f') := by
  cases entry with
  | none => exact .none
  | some a => exact h a rfl

theorem rel_bind_rel
    {α α' β β' : Type} {Q : α → α' → Prop} {P : β → β' → Prop} {entry : Option α}
    {entry' : Option α'} {f : α → Option β} {f' : α' → Option β'}
    (hentry : Option.Rel Q entry entry')
    (h : ∀ a a', Q a a' → Option.Rel P (f a) (f' a')) :
    Option.Rel P (entry >>= f) (entry' >>= f') := by
  cases hentry with
  | none => exact .none
  | some ha => exact h _ _ ha

/-- In no session does the command get to the invocation of a function. -/
def Command.StaysOut (command : Command) : Prop :=
  ∀ inherited s context function args purpose t,
    Operation.request inherited command s ≠
      .ok (.invoke context function args purpose) t

/-- A command that is only answered stays out. -/
theorem Command.staysOut_of_request
    {command : Command}
    (h : ∀ inherited, Operation.request inherited command = .answer <$>
      Operation.answer command) :
    command.StaysOut := by
  intro inherited s context function args purpose t hrequest
  rw [h] at hrequest
  simp only [Functor.map, EStateM.map] at hrequest
  split at hrequest
  · cases hrequest
  · cases hrequest

/-- The host functions of the store perform only such commands. -/
def Store.HostsWithin (allowed : Command → Prop) (s : Store) : Prop :=
  ∀ f ∈ s.functions, ∀ host, f.host = some host → ∀ params, (host params).Within allowed

/-- The second store is the first one but for the engine, which both have, and no host
function of theirs gets to it. -/
structure Store.Counterpart (config : EngineConfig) (s s' : Store) : Prop where
  eq : s' = s.withEngine config
  engine : s.engine.isSome
  hosts : s.HostsWithin Command.StaysOut

/-- The sessions differ in the configuration of the engine and in what was observed. -/
structure Session.Counterpart (config : EngineConfig) (s s' : Session) : Prop where
  store : s.store.Counterpart config s'.store
  contexts : s.SameContexts s'

/-! ## Changes of the store -/

namespace Store

variable {config : EngineConfig} {s s' : Store}

theorem HostsWithin.setFunction
    {allowed : Command → Prop} (h : s.HostsWithin allowed) {addr : UInt32}
    {f g : FuncInst} (hf : s.functions[addr.toNat]? = some f)
    (hhost : g.host = f.host) :
    (s.setFunction addr g).HostsWithin allowed := by
  intro k hk host hkhost
  obtain hk | rfl := Array.mem_or_eq_of_mem_setIfInBounds hk
  · exact h k hk host hkhost
  · rw [hhost] at hkhost
    exact h f (Array.mem_of_getElem? hf) host hkhost

theorem HostsWithin.addFunction
    {allowed : Command → Prop} (h : s.HostsWithin allowed) {f : FuncInst}
    (hf : ∀ host, f.host = some host → ∀ params, (host params).Within allowed) :
    (s.addFunction f).HostsWithin allowed := by
  intro k hk host hkhost
  obtain hk | rfl := Array.mem_push.mp hk
  · exact h k hk host hkhost
  · exact hf host hkhost

namespace Counterpart

variable (h : s.Counterpart config s')
include h

/-- Two stores that have changed in the same way, and not in their functions, are
counterparts again. -/
theorem update
    {t : Store} (hengine : t.engine = s.engine)
    (hfunctions : t.functions = s.functions) :
    t.Counterpart config (t.withEngine config) where
  eq := rfl
  engine := hengine ▸ h.engine
  hosts := by
    unfold HostsWithin
    rw [hfunctions]
    exact h.hosts

theorem globalSet (addr : UInt32) (v : Val) :
    Concur (Counterpart config) (s.globalSet addr v) (s'.globalSet addr v) := by
  obtain rfl := h.eq
  refine .bind (s.global addr) fun g => ?_
  refine .guard _ _ (.guard _ _ ?_)
  exact .ok (h.update rfl rfl)

theorem tableSet (addr index : UInt32) (content : Option UInt32) :
    Concur (Counterpart config) (s.tableSet addr index content)
      (s'.tableSet addr index content) := by
  obtain rfl := h.eq
  refine .bind (s.table addr) fun t => ?_
  cases content with
  | none => exact .guard _ _ (.ok (h.update rfl rfl))
  | some function =>
      refine .guard _ _ (.bind (s.function function) fun _ => ?_)
      exact .ok (h.update rfl rfl)

theorem memoryWrite (addr offset : UInt32) (bytes : List UInt8) :
    Concur (Counterpart config) (s.memoryWrite addr offset bytes)
      (s'.memoryWrite addr offset bytes) := by
  obtain rfl := h.eq
  refine .bind (s.memory addr) fun m => ?_
  cases m.write? offset bytes with
  | none => exact .error _
  | some written => exact .ok (h.update rfl rfl)

theorem tableGrow (addr delta : UInt32) :
    Concur (Option.Rel fun grown grown' => grown'.1 = grown.1 ∧
      grown.2.Counterpart config grown'.2)
      (s.tableGrow addr delta) (s'.tableGrow addr delta) := by
  obtain rfl := h.eq
  refine .bind (s.table addr) fun t => .ok ?_
  cases t.grow? delta with
  | none => exact .none
  | some grown => exact .some ⟨rfl, h.update rfl rfl⟩

theorem memoryGrow (addr delta : UInt32) :
    Concur (Option.Rel fun grown grown' => grown'.1 = grown.1 ∧
      grown.2.Counterpart config grown'.2)
      (s.memoryGrow addr delta) (s'.memoryGrow addr delta) := by
  obtain rfl := h.eq
  refine .bind (s.memory addr) fun m => .ok ?_
  cases m.grow? delta with
  | none => exact .none
  | some grown => exact .some ⟨rfl, h.update rfl rfl⟩

theorem allocTable (type : Option TableType) :
    Concur (fun added added' => added'.1 = added.1 ∧
      added.2.Counterpart config added'.2)
      (s.allocTable type) (s'.allocTable type) := by
  obtain rfl := h.eq
  refine .bind (TableType.check type) fun _ => .bind (Attempt.present type)
    fun type => ?_
  exact .bind (Attempt.present type.limits) fun limits => .ok ⟨rfl, h.update rfl rfl⟩

theorem allocMemory (limits : Option Limits) :
    Concur (fun added added' => added'.1 = added.1 ∧
      added.2.Counterpart config added'.2)
      (s.allocMemory limits) (s'.allocMemory limits) := by
  obtain rfl := h.eq
  exact .bind (s.checkMemoryType limits) fun limits => .ok ⟨rfl, h.update rfl rfl⟩

theorem allocGlobal (type : Option GlobalType) (v : Val) :
    Concur (fun added added' => added'.1 = added.1 ∧
      added.2.Counterpart config added'.2)
      (s.allocGlobal type v) (s'.allocGlobal type v) := by
  obtain rfl := h.eq
  refine .bind (Attempt.present type) fun type =>
    .bind (Attempt.mapCause Error.fault type.value.check) fun _ => ?_
  exact .bind (Attempt.require (v.type = type.value) _) fun _ =>
    .ok ⟨rfl, h.update rfl rfl⟩

end Counterpart

theorem allocGlobal_ne_exhausted (s : Store) (type : Option GlobalType) (v : Val) :
    s.allocGlobal type v ≠ .error (.cause .exhausted) := by
  cases type with
  | none => exact fun h => by cases h
  | some type =>
      have hunfold : s.allocGlobal (some type) v = (do
          Attempt.mapCause Error.fault type.value.check
          Attempt.require (v.type = type.value) (.access (.valueType v type.value))
          pure (s.nextGlobal, s.addGlobal { type, value := v })) := rfl
      rw [hunfold]
      intro h
      cases hcheck : type.value.check with
      | error failure =>
          rw [hcheck] at h
          cases failure with
          | cause cause => cases h
          | crash => cases h
      | ok u =>
          rw [hcheck] at h
          by_cases htype : v.type = type.value
          · simp only [htype] at h
            cases h
          · simp only [htype] at h
            cases h

/-! ## Instantiation -/

theorem Counterpart.addGlobals
    (h : s.Counterpart config s') (addrs : List UInt32)
    (entries : List (Option Global)) :
    Option.Rel (fun added added' => added.1.Counterpart config added'.1 ∧
      added'.2 = added.2)
      (s.addGlobals addrs entries) (s'.addGlobals addrs entries) := by
  induction entries generalizing s s' addrs with
  | nil => exact .some ⟨h, rfl⟩
  | cons entry rest ih =>
      obtain rfl := h.eq
      refine rel_bind entry fun global _ => rel_bind global.init fun init _ => ?_
      refine rel_bind (s.evalConst addrs init) fun value _ => rel_bind global.type
        fun type _ => ?_
      have hadded : (s.addGlobal { type, value }).Counterpart config
          ((s.addGlobal { type, value }).withEngine config) := h.update rfl rfl
      exact ih hadded _

theorem host_newFunctions
    {m : Module} {name : String} {addr : UInt32} {exports : List Export}
    {imported : Nat} {functions : List FuncInst}
    (h : newFunctions m name addr exports imported = some functions) :
    ∀ f ∈ functions, f.host = none := by
  intro f hf
  obtain ⟨⟨type, position⟩, -, hnew⟩ := exists_of_mem_right (mapM_eq_some_iff.mp h) hf
  obtain ⟨code, functionType, -, -, rfl⟩ := newFunction_eq_some hnew
  rfl

theorem Counterpart.allocate
    (h : s.Counterpart config s') (m : Module) (name : String)
    (externs : List ExternVal) :
    Option.Rel (fun added added' => added.1.Counterpart config added'.1 ∧
      added'.2 = added.2)
      (s.allocate m name externs) (s'.allocate m name externs) := by
  obtain rfl := h.eq
  refine rel_bind (m.exports.mapM id) fun exports _ => ?_
  refine rel_bind (newFunctions m name s.nextModule exports _)
    fun functions hfunctions => ?_
  refine rel_bind (newTables m) fun tables _ => rel_bind (s.newMemories m)
    fun memories _ => ?_
  have hextended : { s with
      functions := s.functions ++ functions
      tables := s.tables ++ tables
      memories := s.memories ++ memories }.Counterpart config _ :=
    { eq := rfl
      engine := h.engine
      hosts := by
        intro f hf host hhost
        obtain hf | hf := mem_append_list.mp hf
        · exact h.hosts f hf host hhost
        · rw [host_newFunctions hfunctions f hf] at hhost
          cases hhost }
  refine rel_bind_rel (hextended.addGlobals _ _) ?_
  rintro ⟨extended, addrs⟩ ⟨extended', addrs'⟩ ⟨hcounter, haddrs⟩
  replace hcounter : extended.Counterpart config extended' := hcounter
  obtain rfl := hcounter.eq
  obtain rfl : addrs' = addrs := haddrs
  refine rel_bind (exports.mapM _) fun exported _ => ?_
  exact .some ⟨hcounter.update rfl rfl, rfl⟩

theorem Counterpart.applyElement
    (h : s.Counterpart config s') (inst : ModuleInst) (entry : Option ElementSegment) :
    Option.Rel (Counterpart config) (s.applyElement inst entry)
      (s'.applyElement inst entry) := by
  obtain rfl := h.eq
  refine rel_bind entry fun entry _ => rel_bind (s.segmentOffset inst entry.offset)
    fun offset _ => ?_
  refine rel_bind (elementTarget inst entry) fun addr _ =>
    rel_bind s.tables[addr.toNat]? fun t _ => ?_
  exact rel_bind (fillSlots inst.functions t.slots offset entry.init) fun slots _ =>
    .some (h.update rfl rfl)

theorem Counterpart.applyData
    (h : s.Counterpart config s') (inst : ModuleInst) (entry : Option DataSegment) :
    Option.Rel (Counterpart config) (s.applyData inst entry)
      (s'.applyData inst entry) := by
  obtain rfl := h.eq
  refine rel_bind entry fun entry _ => rel_bind (s.segmentOffset inst entry.offset)
    fun offset _ => ?_
  refine rel_bind (dataTarget inst entry) fun addr _ => rel_bind s.memories[addr.toNat]?
    fun m _ => ?_
  by_cases hfits : offset.toNat ≤ m.bytes.size
  · rw [if_pos hfits, if_pos hfits]
    exact .some (h.update rfl rfl)
  · rw [if_neg hfits, if_neg hfits]
    exact .none

theorem Counterpart.foldlM
    {α : Type} {f : Store → α → Option Store}
    (hf : ∀ s s' a, s.Counterpart config s' →
      Option.Rel (Counterpart config) (f s a) (f s' a))
    (h : s.Counterpart config s') (entries : List α) :
    Option.Rel (Counterpart config) (entries.foldlM f s) (entries.foldlM f s') := by
  induction entries generalizing s s' with
  | nil => exact .some h
  | cons a rest ih =>
      rw [List.foldlM_cons, List.foldlM_cons]
      exact rel_bind_rel (hf s s' a h) fun _ _ => ih

theorem Counterpart.applySegments
    (h : s.Counterpart config s') (inst : ModuleInst) (m : Module) :
    Option.Rel (Counterpart config) (s.applySegments inst m)
      (s'.applySegments inst m) := by
  refine rel_bind_rel (h.foldlM ?_ m.elements) fun t t' ht => ht.foldlM ?_ m.data
  · exact fun _ _ entry ht => ht.applyElement inst entry
  · exact fun _ _ entry ht => ht.applyData inst entry

end Store

/-! ## Operations -/

namespace Session.Counterpart

variable {config : EngineConfig} {s s' : Session} (h : s.Counterpart config s')
include h

theorem withStore
    {t t' : Store} (hstore : t.Counterpart config t') :
    (s.withStore t).Counterpart config (s'.withStore t') where
  store := hstore
  contexts := { h.contexts with }

theorem observe (event : Event) :
    (s.observe event).Counterpart config (s'.observe event) where
  store := h.store
  contexts := { h.contexts with }

/-- What was observed makes no difference. -/
theorem observe_if (logging logging' : Bool) (event : Event) :
    (if logging then s.observe event else s).Counterpart config
      (if logging' then s'.observe event else s') := by
  cases logging with
  | false =>
      cases logging' with
      | false => exact h
      | true => exact ⟨h.store, { h.contexts with }⟩
  | true =>
      cases logging' with
      | false => exact ⟨h.store, { h.contexts with }⟩
      | true => exact h.observe event

theorem log (entry : LogEntry) : (s.log entry).Counterpart config (s'.log entry) := by
  have hlogging : s'.store.logging = s.store.logging := by
    rw [h.store.eq]
    rfl
  unfold Session.log
  rw [hlogging]
  exact h.observe_if _ _ _

theorem cancel : s.cancel.Counterpart config s'.cancel where
  store := by
    rw [store_cancel, store_cancel]
    exact h.store
  contexts := h.contexts.cancel

theorem openContext (inherited : ContextRef) (choice : ContextChoice) :
    (s'.openContext inherited choice).1 = (s.openContext inherited choice).1 ∧
      (s.openContext inherited choice).2.Counterpart config
        (s'.openContext inherited choice).2 := by
  have hopened : ContextRef.opened s'.contexts.size = .opened s.contexts.size := by
    rw [h.contexts.contexts]
  have hpushed : ∀ done, s'.contexts.push done = s.contexts.push done := fun done => by
    rw [h.contexts.contexts]
  have hlatest : some s'.contexts.size = some s.contexts.size := by
    rw [h.contexts.contexts]
  cases choice with
  | background | inherited => exact ⟨rfl, h⟩
  | canceled => exact ⟨hopened, h.store, hpushed _, h.contexts.latest⟩
  | expired | cancelable => exact ⟨hopened, h.store, hpushed _, hlatest⟩

end Session.Counterpart

namespace Operation

variable {config : EngineConfig} {α α' β β' : Type}

/-- From a session and its counterpart, the operations succeed with related values or
fail with the same error, which is not that a bound was reached, and leave such sessions
behind. -/
def Matches (config : EngineConfig) (P : α → α' → Prop) (x : Operation α)
    (x' : Operation α') : Prop :=
  ∀ s s' : Session, s.Counterpart config s' → ∃ t t', t.Counterpart config t' ∧
    ((∃ a a', P a a' ∧ x s = .ok a t ∧ x' s' = .ok a' t') ∨
      ∃ error, error ≠ .exhausted ∧ x s = .error error t ∧ x' s' = .error error t')

theorem Matches.bind
    {P : α → α' → Prop} {Q : β → β' → Prop} {x : Operation α} {x' : Operation α'}
    {f : α → Operation β} {f' : α' → Operation β'} (hx : Matches config P x x')
    (hf : ∀ a a', P a a' → Matches config Q (f a) (f' a')) :
    Matches config Q (x >>= f) (x' >>= f') := by
  intro s s' h
  obtain ⟨t, t', ht, ⟨a, a', ha, hok, hok'⟩ | ⟨error, herror, hx, hx'⟩⟩ := hx s s' h
  · rw [bind_eq_of_eq_ok hok, bind_eq_of_eq_ok hok']
    exact hf a a' ha t t' ht
  · exact ⟨t, t', ht, .inr ⟨error, herror, bind_eq_of_eq_error hx,
      bind_eq_of_eq_error hx'⟩⟩

theorem matches_pure
    {P : α → α' → Prop} {a : α} {a' : α'} (h : P a a') :
    Matches config P (pure a) (pure a') :=
  fun s s' hs => ⟨s, s', hs, .inl ⟨a, a', h, rfl, rfl⟩⟩

theorem matches_throw
    {P : α → α' → Prop} {error : Error} (herror : error ≠ .exhausted) :
    Matches config P (throw error) (throw error) :=
  fun s s' hs => ⟨s, s', hs, .inr ⟨error, herror, rfl, rfl⟩⟩

theorem Matches.map
    {x x' : Operation α} (h : Matches config Eq x x') (f : α → β) :
    Matches config Eq (f <$> x) (f <$> x') := by
  rw [← bind_pure_comp, ← bind_pure_comp]
  apply h.bind
  rintro a _ rfl
  exact matches_pure rfl

theorem matches_get : Matches config (Session.Counterpart config) get get :=
  fun s s' hs => ⟨s, s', hs, .inl ⟨s, s', hs, rfl, rfl⟩⟩

theorem matches_modify
    {change change' : Session → Session}
    (h : ∀ s s', s.Counterpart config s' → (change s).Counterpart config (change' s')) :
    Matches config Eq (modify change) (modify change') :=
  fun s s' hs => ⟨_, _, h s s' hs, .inl ⟨(), (), rfl, rfl, rfl⟩⟩

theorem matches_log (entry : LogEntry) : Matches config Eq (log entry) (log entry) :=
  matches_modify fun _ _ h => h.log entry

theorem matches_withStore
    {store store' : Store} (h : store.Counterpart config store') :
    Matches config Eq (modify (·.withStore store)) (modify (·.withStore store')) :=
  matches_modify fun _ _ hs => hs.withStore h

theorem matches_change
    (change : Store → Store)
    (h : ∀ s : Store, change (s.withEngine config) = (change s).withEngine config ∧
      (change s).engine = s.engine ∧
      (change s).functions = s.functions) :
    Matches config Eq (modify fun s => s.withStore (change s.store))
      (modify fun s => s.withStore (change s.store)) := by
  apply matches_modify
  intro s s' hs
  obtain ⟨hchange, hengine, hfunctions⟩ := h s.store
  refine hs.withStore ?_
  rw [hs.store.eq, hchange]
  exact hs.store.update hengine hfunctions

theorem matches_present
    {P : α → α' → Prop} {entry : Option α} {entry' : Option α'}
    (h : Option.Rel P entry entry') :
    Matches config P (present entry) (present entry') := by
  cases h with
  | none => exact matches_throw Error.noConfusion
  | some ha => exact matches_pure ha

theorem matches_ofAttempt
    {ε : Type} {account : ε → Error} {P : α → α' → Prop} {attempt : Attempt ε α}
    {attempt' : Attempt ε α'} (h : Concur P attempt attempt')
    (haccount : ∀ cause, attempt = .error (.cause cause) → account cause ≠ .exhausted) :
    Matches config P (ofAttempt account attempt) (ofAttempt account attempt') := by
  cases h with
  | ok ha => exact matches_pure ha
  | error failure =>
      cases failure with
      | cause cause => exact matches_throw (haccount cause rfl)
      | crash => exact matches_throw Error.noConfusion

theorem matches_read
    {access : Store → Except AccessError α}
    (h : ∀ s : Store, access (s.withEngine config) = access s) :
    Matches config Eq (read access) (read access) := by
  intro s s' hs
  refine ⟨s, s', hs, ?_⟩
  unfold read
  rw [hs.store.eq, h]
  cases access s.store with
  | ok a => exact .inl ⟨a, a, rfl, rfl, rfl⟩
  | error cause => exact .inr ⟨.access cause, Error.noConfusion, rfl, rfl⟩

theorem matches_write
    {access : Store → Except AccessError Store}
    (h : ∀ s s', s.Counterpart config s' →
      Concur (Store.Counterpart config) (access s) (access s')) :
    Matches config Eq (write access) (write access) := by
  intro s s' hs
  have hconcur := h _ _ hs.store
  unfold write
  generalize access s.store = result, access s'.store = result' at hconcur ⊢
  cases hconcur with
  | ok hstore => exact ⟨_, _, hs.withStore hstore, .inl ⟨(), (), rfl, rfl, rfl⟩⟩
  | error cause => exact ⟨s, s', hs, .inr ⟨.access cause, Error.noConfusion, rfl, rfl⟩⟩

theorem matches_grow
    {access : Store → Except AccessError (Option (UInt32 × Store))}
    (h : ∀ s s', s.Counterpart config s' →
      Concur (Option.Rel fun grown grown' => grown'.1 = grown.1 ∧
        grown.2.Counterpart config grown'.2)
        (access s) (access s')) : Matches config Eq (grow access) (grow access) := by
  intro s s' hs
  have hconcur := h _ _ hs.store
  unfold grow
  generalize access s.store = result, access s'.store = result' at hconcur ⊢
  cases hconcur with
  | error cause => exact ⟨s, s', hs, .inr ⟨.access cause, Error.noConfusion, rfl, rfl⟩⟩
  | ok hgrown =>
      cases hgrown with
      | none => exact ⟨s, s', hs, .inl ⟨none, none, rfl, rfl, rfl⟩⟩
      | @some grown grown' hgrown =>
          obtain ⟨hsize, hstore⟩ := hgrown
          exact ⟨_, _, hs.withStore hstore, .inl ⟨some grown.1, some grown'.1,
            congrArg some hsize.symm, rfl, rfl⟩⟩

theorem matches_alloc
    {ε : Type} {account : ε → Error} {attempt : Store → Attempt ε (UInt32 × Store)}
    (h : ∀ s s', s.Counterpart config s' →
      Concur (fun added added' => added'.1 = added.1 ∧
        added.2.Counterpart config added'.2) (attempt s) (attempt s'))
    (haccount : ∀ s cause, attempt s = .error (.cause cause) →
      account cause ≠ .exhausted) :
    Matches config Eq (alloc account attempt) (alloc account attempt) := by
  apply matches_get.bind
  intro s s' hs
  apply (matches_ofAttempt (h _ _ hs.store) (haccount _)).bind
  rintro ⟨addr, store⟩ ⟨addr', store'⟩ ⟨haddr, hstore⟩
  apply (matches_withStore hstore).bind
  intro _ _ _
  exact matches_pure haddr.symm

theorem matches_openContext (inherited : ContextRef) (choice : ContextChoice) :
    Matches config Eq (openContext inherited choice)
      (openContext inherited choice) := by
  intro s s' hs
  obtain ⟨hcontext, hopened⟩ := hs.openContext inherited choice
  exact ⟨_, _, hopened, .inl ⟨_, _, hcontext.symm, rfl, rfl⟩⟩

theorem matches_findExport (module : UInt32) (name : String) (kind : ExternKind) :
    Matches config Eq (findExport module name kind) (findExport module name kind) := by
  apply (matches_read fun _ => rfl).bind
  rintro inst _ rfl
  cases inst.findExport name kind with
  | ok val => exact matches_pure rfl
  | error cause => exact matches_throw Error.noConfusion

theorem matches_patchSlot (table index : UInt32) (content : Option UInt32) :
    Matches config Eq (patchSlot table index content)
      (patchSlot table index content) := by
  apply (matches_read fun _ => rfl).bind
  rintro t _ rfl
  by_cases hout : t.slots.size ≤ index.toNat
  · simp only [if_pos hout]
    exact fun s s' hs => ⟨s, s', hs, .inr ⟨.crash, Error.noConfusion, rfl, rfl⟩⟩
  · simp only [if_neg hout]
    exact matches_change (·.setTable table { t with
      slots := t.slots.setIfInBounds index.toNat content })
      fun _ => ⟨rfl, rfl, rfl⟩

theorem matches_allocFunction
    (name : String) (type : Option FuncType) {host : Option HostFunction}
    (hhost : ∀ program, host = some program → ∀ params,
      (program params).Within Command.StaysOut) :
    Matches config Eq (answer (.allocFunction name type host))
      (answer (.allocFunction name type host)) := by
  intro s s' hs
  have hadded : (s.store.allocFunction name type host).2.Counterpart config
      (s'.store.allocFunction name type host).2 :=
    { eq := by
        rw [hs.store.eq]
        rfl
      engine := hs.store.engine
      hosts := hs.store.hosts.addFunction hhost }
  have haddr : (s'.store.allocFunction name type host).1 =
      (s.store.allocFunction name type host).1 := by
    rw [hs.store.eq]
    rfl
  exact ⟨_, _, hs.withStore hadded,
    .inl ⟨_, _, congrArg Response.addr haddr.symm, rfl, rfl⟩⟩

theorem matches_patchFunction (addr : UInt32) (patch : FunctionPatch) :
    Matches config Eq (answer (.patchFunction addr patch))
      (answer (.patchFunction addr patch)) := by
  intro s s' hs
  have hread : s'.store.function addr = s.store.function addr := by
    rw [hs.store.eq]
    rfl
  cases hf : s.store.function addr with
  | error cause =>
      have hfail : ∀ u : Session, u.store.function addr = .error cause →
          answer (.patchFunction addr patch) u = .error (.access cause) u := by
        intro u hu
        apply bind_eq_of_eq_error
        simp only [read, hu]
      exact ⟨s, s', hs, .inr ⟨_, Error.noConfusion, hfail s hf,
        hfail s' (hread.trans hf)⟩⟩
  | ok f =>
      have hfind : ∀ u : Session, u.store.function addr = .ok f →
          answer (.patchFunction addr patch) u =
            .ok .done (u.withStore (u.store.setFunction addr (f.patch patch))) := by
        intro u hu
        have hok : read (·.function addr) u = .ok f u := by simp only [read, hu]
        exact bind_eq_of_eq_ok hok
      have hpatched : (s.store.setFunction addr (f.patch patch)).Counterpart config
          (s'.store.setFunction addr (f.patch patch)) :=
        { eq := by
            rw [hs.store.eq]
            rfl
          engine := hs.store.engine
          hosts := hs.store.hosts.setFunction (Store.lookup_eq_ok_iff.mp hf) rfl }
      exact ⟨_, _, hs.withStore hpatched,
        .inl ⟨_, _, rfl, hfind s hf, hfind s' (hread.trans hf)⟩⟩

theorem matches_answer
    {command : Command}
    (hadded : ∀ name type host, command = .allocFunction name type (some host) →
      ∀ params, (host params).Within Command.StaysOut) :
    Matches config Eq (answer command) (answer command) := by
  have hdone : ∀ {x : Operation Unit}, Matches config Eq x x →
      Matches config Eq (x >>= fun _ => pure Response.done)
        (x >>= fun _ => pure Response.done) := by
    intro x hx
    exact hx.bind fun _ _ _ => matches_pure rfl
  cases command with
  | instantiate | invoke | call => exact matches_pure rfl
  | findExport module name kind => exact (matches_findExport module name kind).map _
  | allocFunction name type host =>
      apply matches_allocFunction
      rintro program rfl
      exact hadded name type program rfl
  | allocTable type =>
      exact (matches_alloc (fun _ _ h => h.allocTable type) fun _ _ _ =>
        Error.noConfusion).map _
  | allocMemory limits =>
      exact (matches_alloc (fun _ _ h => h.allocMemory limits) fun _ _ _ =>
        Error.noConfusion).map _
  | allocGlobal type v =>
      refine (matches_alloc (fun _ _ h => h.allocGlobal type v) ?_).map _
      rintro s cause hfail rfl
      exact Store.allocGlobal_ne_exhausted s type v hfail
  | globalGet addr => exact (matches_read fun _ => rfl).map _
  | globalSet addr v => exact hdone (matches_write fun _ _ h => h.globalSet addr v)
  | tableSize addr => exact (matches_read fun _ => rfl).map _
  | tableGet addr index => exact (matches_read fun _ => rfl).map _
  | tableSet addr index content =>
      exact hdone (matches_write fun _ _ h => h.tableSet addr index content)
  | tableGrow addr delta =>
      exact (matches_grow fun _ _ h => h.tableGrow addr delta).map _
  | memorySize addr => exact (matches_read fun _ => rfl).map _
  | memoryRead addr offset count => exact (matches_read fun _ => rfl).map _
  | memoryWrite addr offset bytes =>
      exact hdone (matches_write fun _ _ h => h.memoryWrite addr offset bytes)
  | memoryGrow addr delta =>
      exact (matches_grow fun _ _ h => h.memoryGrow addr delta).map _
  | memoryHasSize addr offset size =>
      apply (matches_read fun _ => rfl).bind
      rintro m _ rfl
      exact matches_pure rfl
  | viewFunction addr =>
      apply (matches_read fun _ => rfl).bind
      rintro f _ rfl
      exact (matches_present (rel_refl f.view?)).map _
  | viewTable addr => exact (matches_read fun _ => rfl).map _
  | viewMemory addr => exact (matches_read fun _ => rfl).map _
  | viewGlobal addr => exact (matches_read fun _ => rfl).map _
  | viewModule addr => exact (matches_read fun _ => rfl).map _
  | counts =>
      apply matches_get.bind
      intro s s' hs
      apply matches_pure
      rw [hs.store.eq]
      rfl
  | patchFunction addr patch => exact matches_patchFunction addr patch
  | patchElement addr element =>
      apply (matches_read fun _ => rfl).bind
      rintro t _ rfl
      exact hdone (matches_change (·.setTable addr { t with element })
        fun _ => ⟨rfl, rfl, rfl⟩)
  | patchSlot addr index content => exact hdone (matches_patchSlot addr index content)
  | patchModule addr patch =>
      apply (matches_read fun _ => rfl).bind
      rintro inst _ rfl
      exact hdone (matches_change (·.setModule addr (inst.patch patch))
        fun _ => ⟨rfl, rfl, rfl⟩)
  | cancel => exact hdone (matches_modify fun _ _ h => h.cancel)

/-- A check that does not look at the engine. -/
theorem matches_check
    {ε : Type} {account : ε → Error} (haccount : ∀ cause, account cause ≠ .exhausted)
    (check : Store → Attempt ε α)
    (hcheck : ∀ s : Store, check (s.withEngine config) = check s) {P : β → β' → Prop}
    {f : α → Operation β} {f' : α → Operation β'}
    (hf : ∀ a, Matches config P (f a) (f' a)) :
    Matches config P (get >>= fun s => ofAttempt account (check s.store) >>= f)
      (get >>= fun s => ofAttempt account (check s.store) >>= f') := by
  apply matches_get.bind
  intro s s' hs
  have hconcur : Concur Eq (check s.store) (check s'.store) := by
    rw [hs.store.eq, hcheck]
    exact concur_refl _
  apply (matches_ofAttempt hconcur fun cause _ => haccount cause).bind
  rintro a _ rfl
  exact hf a

theorem matches_prepare (m : Option Module) (name : String) (externs : List ExternVal) :
    Matches config Eq (prepare m name externs) (prepare m name externs) := by
  cases m with
  | none => exact matches_throw Error.noConfusion
  | some m =>
      apply (matches_pure rfl).bind
      rintro m _ rfl
      refine matches_check (fun _ => Error.noConfusion) (m.validate ·.features)
        (fun _ => rfl) fun imports => ?_
      refine (matches_log _).bind fun _ _ _ => ?_
      refine matches_check (fun _ => Error.noConfusion) (·.link imports externs)
        (fun _ => rfl) fun _ => ?_
      refine matches_check (fun _ => Error.noConfusion) (·.checkMemories m)
        (fun _ => rfl) fun _ => ?_
      apply matches_get.bind
      intro s s' hs
      apply (matches_present (hs.store.allocate m name externs)).bind
      rintro ⟨store, inst⟩ ⟨store', inst'⟩ ⟨hstore, hinst⟩
      replace hstore : store.Counterpart config store' := hstore
      obtain rfl : inst' = inst := hinst
      refine (matches_withStore hstore).bind fun _ _ _ => (matches_log _).bind
        fun _ _ _ => ?_
      have hsegments : Concur Eq (store.checkSegments inst' m)
          (store'.checkSegments inst' m) := by
        rw [hstore.eq]
        exact concur_refl _
      refine (matches_ofAttempt hsegments fun _ _ => Error.noConfusion).bind
        fun _ _ _ => ?_
      apply (matches_present (hstore.applySegments inst' m)).bind
      intro applied applied' happlied
      refine (matches_withStore happlied).bind fun _ _ _ => (matches_log _).bind
        fun _ _ _ => ?_
      cases m.start with
      | none => exact matches_pure rfl
      | some index =>
          apply (matches_present (rel_refl inst'.functions[index.toNat]?)).bind
          rintro function _ rfl
          refine (matches_log _).bind fun _ _ _ => matches_get.bind ?_
          intro t t' ht
          have hengine : ∀ u : Store, u.engine.isSome → ¬u.engine.isNone = true := by
            intro u hu hnone
            rw [Option.isNone_iff_eq_none.mp hnone] at hu
            cases hu
          have hengine' : t'.store.engine.isSome := by
            rw [ht.store.eq]
            rfl
          rw [if_neg (hengine _ ht.store.engine), if_neg (hengine _ hengine')]
          exact matches_pure rfl

theorem matches_added (position : Nat) (inst : ModuleInst) :
    Matches config Eq (added position inst) (added position inst) := by
  apply matches_get.bind
  intro s s' hs
  exact matches_pure (by rw [hs.store.eq]; rfl)

/-- A command comes to the same in a session and in its counterpart. -/
theorem matches_request
    (inherited : ContextRef) {command : Command}
    (hadded : ∀ name type host, command = .allocFunction name type (some host) →
      ∀ params, (host params).Within Command.StaysOut) :
    Matches config Eq (request inherited command) (request inherited command) := by
  cases command with
  | instantiate m name externs choice =>
      apply (matches_openContext inherited choice).bind
      rintro context _ rfl
      apply matches_get.bind
      intro s s' hs
      have hposition : s'.store.modules.size = s.store.modules.size := by
        rw [hs.store.eq]
        rfl
      rw [hposition]
      apply (matches_prepare m name externs).bind
      rintro ⟨inst, start⟩ _ rfl
      cases start with
      | none => exact ((matches_added s.store.modules.size inst).map _).map _
      | some function => exact matches_pure rfl
  | invoke function args choice =>
      apply (matches_openContext inherited choice).bind
      rintro context _ rfl
      exact matches_pure rfl
  | call module name args choice =>
      apply (matches_findExport module name .func).bind
      rintro val _ rfl
      apply (matches_openContext inherited choice).bind
      rintro context _ rfl
      exact matches_pure rfl
  | _ => exact (matches_answer hadded).map _

end Operation

/-! ## Host programs -/

namespace Reference

variable {config : EngineConfig} {s s' : Session}

/-- A command that stays out of the engine is carried out within every bound but
zero. -/
theorem perform_counterpart
    (context : ContextRef) {command : Command} (hcommand : command.StaysOut)
    (hadded : ∀ name type host, command = .allocFunction name type (some host) →
      ∀ params, (host params).Within Command.StaysOut) (hs : s.Counterpart config s') :
    ∃ t t', t.Counterpart config t' ∧
      ((∃ response, ∀ fuel, perform (fuel + 1) context command s = .ok response t ∧
          perform (fuel + 1) context command s' = .ok response t') ∨
        ∃ error, error ≠ .exhausted ∧ ∀ fuel,
          perform (fuel + 1) context command s = .error error t ∧
          perform (fuel + 1) context command s' = .error error t') := by
  obtain ⟨t, t', ht, ⟨request, _, rfl, hok, hok'⟩ | ⟨error, herror, hfail, hfail'⟩⟩ :=
    Operation.matches_request context hadded s s' hs
  · cases request with
    | invoke context function args purpose => exact absurd hok (hcommand _ _ _ _ _ _ _)
    | answer response =>
        refine ⟨t, t', ht, .inl ⟨response, fun fuel => ?_⟩⟩
        rw [perform, bind_eq_of_eq_ok hok, bind_eq_of_eq_ok hok']
        exact ⟨rfl, rfl⟩
  · refine ⟨t, t', ht, .inr ⟨error, herror, fun fuel => ?_⟩⟩
    rw [perform, bind_eq_of_eq_error hfail, bind_eq_of_eq_error hfail']
    exact ⟨rfl, rfl⟩

theorem host_perform (fuel : Nat) (context : ContextRef) (command : Command)
    (next : Response → HostProgram) (s : Session) :
    host (fuel + 1) context (.perform command next) s =
      Operation.resume (host fuel context) next (perform fuel context command s) :=
  rfl

/-- A host program that stays out of the engine comes to an end. -/
theorem host_ends
    (context : ContextRef) {program : HostProgram}
    (hprogram : program.Within Command.StaysOut) (hs : s.Counterpart config s') :
    ∃ hostEnd t t', t.Counterpart config t' ∧
      ∃ bound, ∀ fuel, bound ≤ fuel → host fuel context program s = .ok hostEnd t := by
  have hnow : ∀ {program hostEnd} {s s' : Session}, s.Counterpart config s' →
      (∀ fuel, host (fuel + 1) context program s = .ok hostEnd s) →
        ∃ hostEnd t t', t.Counterpart config t' ∧
          ∃ bound, ∀ fuel, bound ≤ fuel →
            host fuel context program s = .ok hostEnd t := by
    intro program hostEnd s s' hs hhost
    refine ⟨hostEnd, s, s', hs, 1, fun fuel hfuel => ?_⟩
    obtain ⟨fuel, rfl⟩ := Nat.exists_eq_add_of_le' hfuel
    exact hhost fuel
  induction hprogram generalizing s s' with
  | done | fail | stop => exact hnow hs fun _ => rfl
  | @perform command next hcommand hadded hnext _ ih =>
      obtain ⟨t, t', ht, hperform⟩ := perform_counterpart context hcommand hadded hs
      -- The program goes on with a response to its command, unless the command has
      -- crashed.
      have hgoes : ∀ (result : SessionResult Response) (response : Response),
          (∀ fuel, perform (fuel + 1) context command s = result) →
          (∀ run, Operation.resume run next result = run (next response) t) →
            ∃ hostEnd t t', t.Counterpart config t' ∧ ∃ bound, ∀ fuel, bound ≤ fuel →
              host fuel context (.perform command next) s = .ok hostEnd t := by
        intro result response hresult hresume
        obtain ⟨hostEnd, u, u', hu, bound, hbound⟩ := ih response ht
        refine ⟨hostEnd, u, u', hu, bound + 2, fun fuel hfuel => ?_⟩
        obtain ⟨fuel, rfl⟩ := Nat.exists_eq_add_of_le' hfuel
        rw [← Nat.add_assoc, host_perform, hresult, hresume]
        exact hbound _ (by omega)
      obtain ⟨response, hperform⟩ | ⟨error, herror, hperform⟩ := hperform
      · exact hgoes _ response (fun fuel => (hperform fuel).1) fun _ => rfl
      · cases error with
        | exhausted => exact absurd rfl herror
        | crash =>
            refine ⟨.stop .crash, t, t', ht, 2, fun fuel hfuel => ?_⟩
            obtain ⟨fuel, rfl⟩ := Nat.exists_eq_add_of_le' hfuel
            rw [host_perform, (hperform fuel).1]
            rfl
        | _ => exact hgoes _ (.failed _) (fun fuel => (hperform fuel).1) fun _ => rfl

end Reference

/-! ## Couplings of such sessions -/

namespace Session.Counterpart

variable {config : EngineConfig} {s s' : Session} (h : s.Counterpart config s')
include h

/-- What both sessions share: all but the engine. -/
theorem sharing :
    ∃ W, Sharing Region.all s.store W ∧ W s.store s'.store ∧
      ∀ t t', W t t' → (s.withStore t).Counterpart config (s'.withStore t') := by
  have heq := h.store.eq
  refine ⟨s.store.Refilled s'.store, sharing_refilled ?_ ?_ ?_,
    ⟨s.store.memories, s.store.globals, rfl, ?_⟩, ?_⟩
  · rw [heq]
    rfl
  · rw [heq]
    rfl
  · rw [heq]
    rfl
  · rw [heq]
    rfl
  · rintro _ _ ⟨memories, globals, rfl, rfl⟩
    apply h.withStore
    rw [heq]
    exact h.store.update rfl rfl

theorem interruption
    (first second : Setting) (hcontext : second.context = first.context)
    (hclose : second.config.closeOnContextDone = first.config.closeOnContextDone) :
    second.interruption s' = first.interruption s := by
  unfold Setting.interruption
  rw [hcontext, hclose, h.contexts.doneReason]

end Session.Counterpart

namespace Coupling

variable {c : Coupling} {config : EngineConfig} (hsessions : c.Sessions =
  Session.Counterpart config)
  {program : HostProgram} (hprogram : c.Offers program)
include hsessions hprogram

theorem Offers.staysOut : program.Within Command.StaysOut := by
  obtain ⟨s, s', function, f, host, params, hs, -, hf, -, hhost, rfl⟩ := hprogram
  rw [hsessions] at hs
  exact hs.store.hosts f (Array.mem_of_getElem? hf) host hhost params

/-- A host function of the one session does the same in the other one. -/
theorem Offers.admits (hcontext : c.second.context = c.first.context) :
    c.Admits program := by
  refine admits_of_within ?_ (hprogram.staysOut hsessions)
  intro command hcommand hadded fuel t t' ht
  rw [hcontext]
  cases fuel with
  | zero => exact SessionResult.alike_error ht _
  | succ fuel =>
      rw [hsessions] at ht ⊢
      obtain ⟨u, u', hu, ⟨response, hok⟩ | ⟨error, -, hfail⟩⟩ :=
        Reference.perform_counterpart c.first.context hcommand hadded ht
      · rw [(hok fuel).1, (hok fuel).2]
        exact SessionResult.alike_ok hu response
      · rw [(hfail fuel).1, (hfail fuel).2]
        exact SessionResult.alike_error hu error

end Coupling
end WebAssembly
