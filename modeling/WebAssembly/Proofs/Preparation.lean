import WebAssembly.Proofs.Extension
import WebAssembly.Proofs.Outcome

/-!
# Preparation of modules

What linking has checked, what the segments of a module write, and from both what the
preparation of a module does to a session: it changes the store by steps that are known,
and it crashes only where the store or the module is not as validation and linking
promise.
-/

namespace WebAssembly
namespace Store

/-- The store has, under an extern value, what an import type asks for. -/
def Provides (s : Store) : ExternType → ExternVal → Prop
  | .func type, val =>
    val.kind = .func ∧ ∃ f, s.functions[val.addr.toNat]? = some f ∧ f.type = some type
  | .table type, val =>
    val.kind = .table ∧ ∃ t limits, s.tables[val.addr.toNat]? = some t ∧
      t.element = type.element ∧
      type.limits = some limits ∧ limits.admits t.size t.limits.max = true
  | .memory limits, val =>
    val.kind = .memory ∧ ∃ m, s.memories[val.addr.toNat]? = some m ∧
      limits.admits m.pages m.limits.max = true
  | .global type, val =>
    val.kind = .global ∧ ∃ g, s.globals[val.addr.toNat]? = some g ∧ g.type = type

theorem mapCause_lookup_eq_ok_iff
    {α ε : Type} {space : Space} {arena : Array α} {addr : UInt32}
    {cause : AccessError → ε} {a : α} :
    Attempt.mapCause cause (Attempt.ofExcept (lookup space arena addr)) = .ok a ↔
      arena[addr.toNat]? = some a := by
  rw [Attempt.mapCause_eq_ok, Attempt.ofExcept_eq_ok, lookup_eq_ok_iff]

theorem checkExtern_eq_ok_iff
    {s : Store} {type : ExternType} {val : ExternVal} {u : Unit} :
    s.checkExtern type val = .ok u ↔ s.Provides type val := by
  cases type with
  | func type =>
      simp only [checkExtern, Provides, function, Attempt.bind_eq_ok, exists_const,
        Attempt.require_eq_ok, Attempt.present_eq_ok, mapCause_lookup_eq_ok_iff,
        decide_eq_true_eq]
      constructor
      · rintro ⟨hkind, f, hf, _, htype, rfl⟩
        exact ⟨hkind, f, hf, htype⟩
      · rintro ⟨hkind, f, hf, htype⟩
        exact ⟨hkind, f, hf, type, htype, rfl⟩
  | table type =>
      simp only [checkExtern, Provides, table, Attempt.bind_eq_ok, exists_const,
        Attempt.require_eq_ok, Attempt.present_eq_ok, mapCause_lookup_eq_ok_iff,
        decide_eq_true_eq]
      constructor
      · rintro ⟨hkind, t, ht, helement, limits, hlimits, hadmits⟩
        exact ⟨hkind, t, limits, ht, helement, hlimits, hadmits⟩
      · rintro ⟨hkind, t, limits, ht, helement, hlimits, hadmits⟩
        exact ⟨hkind, t, ht, helement, limits, hlimits, hadmits⟩
  | memory limits =>
      simp only [checkExtern, Provides, memory, Attempt.bind_eq_ok, exists_const,
        Attempt.require_eq_ok, mapCause_lookup_eq_ok_iff, decide_eq_true_eq]
      exact Iff.rfl
  | global type =>
      simp only [checkExtern, Provides, global, Attempt.bind_eq_ok, exists_const,
        Attempt.require_eq_ok, mapCause_lookup_eq_ok_iff, decide_eq_true_eq]
      constructor
      · rintro ⟨hkind, g, hg, hmutable, hvalue⟩
        refine ⟨hkind, g, hg, ?_⟩
        cases hgtype : g.type
        cases type
        simp_all
      · rintro ⟨hkind, g, hg, rfl⟩
        exact ⟨hkind, g, hg, rfl, rfl⟩

theorem link_eq_ok_iff
    {s : Store} {imports : List ExternType} {externs : List ExternVal} {u : Unit} :
    s.link imports externs = .ok u ↔ List.Forall₂ s.Provides imports externs := by
  simp only [link, Attempt.bind_eq_ok, exists_const, Attempt.require_eq_ok,
    Attempt.forEach_eq_ok, Attempt.mapCause_eq_ok, checkExtern_eq_ok_iff,
    decide_eq_true_eq, List.forall₂_iff_zip]
  refine and_congr_right fun _ => ?_
  constructor
  · intro h type val hmem
    obtain ⟨i, hi⟩ := List.getElem?_of_mem hmem
    exact h i (type, val) hi
  · intro h i entry hentry
    exact h (List.mem_of_getElem? hentry)

/-- The number of instances of a kind, which bounds their addresses. -/
def arenaSize (s : Store) : ExternKind → Nat
  | .func => s.functions.size
  | .table => s.tables.size
  | .memory => s.memories.size
  | .global => s.globals.size
  | .reserved _ => 0

variable {s s' : Store} {m : Module} {name : String} {externs : List ExternVal}
  {inst : ModuleInst} {added : Additions} {imports : List ExternType}

theorem Provides.lt_arenaSize
    {type : ExternType} {val : ExternVal} (h : s.Provides type val) :
    val.addr.toNat < s.arenaSize val.kind := by
  cases type with
  | func =>
      obtain ⟨hkind, f, hf, -⟩ := h
      rw [hkind]
      exact (Array.getElem?_eq_some_iff.mp hf).1
  | table =>
      obtain ⟨hkind, t, _, ht, -⟩ := h
      rw [hkind]
      exact (Array.getElem?_eq_some_iff.mp ht).1
  | memory =>
      obtain ⟨hkind, memory, hmemory, -⟩ := h
      rw [hkind]
      exact (Array.getElem?_eq_some_iff.mp hmemory).1
  | global =>
      obtain ⟨hkind, g, hg, -⟩ := h
      rw [hkind]
      exact (Array.getElem?_eq_some_iff.mp hg).1

theorem lt_of_mem_externAddrs
    {kind : ExternKind} {addr : UInt32}
    (hlink : List.Forall₂ s.Provides imports externs)
    (haddr : addr ∈ externAddrs externs kind) : addr.toNat < s.arenaSize kind := by
  obtain ⟨val, hval, hkind⟩ := List.mem_filterMap.mp haddr
  obtain ⟨type, -, hprovides⟩ := exists_of_mem_right hlink hval
  have hlt := hprovides.lt_arenaSize
  by_cases h : val.kind = kind
  · obtain rfl : val.addr = addr := by simpa [h] using hkind
    rwa [h] at hlt
  · simp [h] at hkind

theorem lt_of_mem_freshAddrs
    {size count : Nat} {addr : UInt32} (haddr : addr ∈ freshAddrs size count) :
    addr.toNat < size + count := by
  obtain ⟨i, hi, rfl⟩ := List.mem_map.mp haddr
  have hmod : (UInt32.ofNat (size + i)).toNat ≤ size + i := by
    rw [UInt32.toNat_ofNat']
    exact Nat.mod_le _ _
  have hlt := List.mem_range.mp hi
  omega

theorem lt_of_mem_addrs
    {kind : ExternKind} {count : Nat} {addr : UInt32}
    (hlink : List.Forall₂ s.Provides imports externs)
    (haddr : addr ∈ externAddrs externs kind ++ freshAddrs (s.arenaSize kind) count) :
    addr.toNat < s.arenaSize kind + count := by
  rcases List.mem_append.mp haddr with himported | hfresh
  · have := lt_of_mem_externAddrs hlink himported
    omega
  · exact lt_of_mem_freshAddrs hfresh

theorem Allocation.lt_of_mem_functions
    {addr : UInt32} (h : s.Allocation m name externs inst added)
    (hlink : List.Forall₂ s.Provides imports externs) (haddr : addr ∈ inst.functions) :
    addr.toNat < (s.extend added).functions.size := by
  rw [h.functionAddrs] at haddr
  have hlt := @lt_of_mem_addrs s externs imports .func _ addr hlink haddr
  simpa [extend, size_append_list, arenaSize] using hlt

theorem fillSlots_eq_some
    {functions init : List UInt32} {slots slots' : Array (Option UInt32)}
    {slot : UInt32} (h : fillSlots functions slots slot init = some slots') :
    slots'.size = slots.size ∧ ∀ (i : Nat) function, slots'[i]? = some (some function) →
      slots[i]? = some (some function) ∨ function ∈ functions := by
  induction init generalizing slots slot with
  | nil =>
      obtain rfl := Option.some.inj h
      exact ⟨rfl, fun _ _ => .inl⟩
  | cons index rest ih =>
      simp only [fillSlots, Option.bind_eq_bind, Option.bind_eq_some_iff] at h
      obtain ⟨addr, haddr, hrest⟩ := h
      split at hrest
      · obtain ⟨hsize, hslots⟩ := ih hrest
        refine ⟨by simpa using hsize, fun i function hi => ?_⟩
        rcases hslots i function hi with hold | hnew
        · rw [Array.getElem?_setIfInBounds] at hold
          by_cases hslot : slot.toNat = i
          · subst hslot
            obtain rfl : addr = function := by
              simp_all
            exact .inr (List.mem_of_getElem? haddr)
          · exact .inl (by simpa [hslot] using hold)
        · exact .inr hnew
      · cases hrest

variable {law : ValueLaw} {guarded total : Prop}

theorem applyElement_eq_some
    {entry : Option ElementSegment} (h : s.applyElement inst entry = some s')
    (hinst : ∀ addr ∈ inst.functions, addr.toNat < s.functions.size) :
    Change law guarded total s s' ∧ s'.functions = s.functions := by
  simp only [applyElement, Option.bind_eq_bind, Option.bind_eq_some_iff,
    Option.pure_def, Option.some.injEq] at h
  obtain ⟨segment, -, offset, -, addr, -, t, ht, slots, hslots, rfl⟩ := h
  obtain ⟨hsize, hfilled⟩ := fillSlots_eq_some hslots
  refine ⟨.refill (lookup_eq_ok_iff.mpr ht) hsize fun i function hi => ?_, rfl⟩
  exact (hfilled i function hi).imp_right (hinst function)

theorem applyData_eq_some
    {entry : Option DataSegment} (h : s.applyData inst entry = some s') :
    Change law guarded total s s' ∧ s'.functions = s.functions := by
  simp only [applyData, Option.bind_eq_bind, Option.bind_eq_some_iff] at h
  obtain ⟨segment, -, offset, -, addr, -, memory, hmemory, hwrite⟩ := h
  split at hwrite
  · obtain rfl := Option.some.inj hwrite
    exact ⟨.splice (lookup_eq_ok_iff.mpr hmemory), rfl⟩
  · cases hwrite

/-- What each step of a fold keeps, the fold keeps. -/
theorem foldlM_induct
    {α β : Type} {P : α → Prop} {f : α → β → Option α} {entries : List β} {a a' : α}
    (hstep : ∀ a b a', P a → f a b = some a' → P a') (ha : P a)
    (h : entries.foldlM f a = some a') : P a' := by
  induction entries generalizing a with
  | nil =>
      obtain rfl : a = a' := by simpa using h
      exact ha
  | cons b rest ih =>
      simp only [List.foldlM_cons, Option.bind_eq_bind, Option.bind_eq_some_iff] at h
      obtain ⟨next, hnext, hrest⟩ := h
      exact ih (hstep a b next ha hnext) hrest

theorem evolves_of_applySegments
    (h : s.applySegments inst m = some s')
    (hinst : ∀ addr ∈ inst.functions, addr.toNat < s.functions.size) :
    Evolves law guarded total s s' := by
  simp only [applySegments, Option.bind_eq_bind, Option.bind_eq_some_iff] at h
  obtain ⟨middle, helements, hdata⟩ := h
  have hmiddle : Evolves law guarded total s middle ∧
      middle.functions = s.functions := by
    refine foldlM_induct (P := fun t => Evolves law guarded total s t ∧
      t.functions = s.functions)
      ?_ ⟨.refl s, rfl⟩ helements
    rintro t entry t' ⟨ht, hfunctions⟩ happly
    rw [← hfunctions] at hinst
    obtain ⟨hchange, hsame⟩ := applyElement_eq_some happly hinst
    exact ⟨ht.tail hchange, hsame.trans hfunctions⟩
  refine foldlM_induct (P := fun t => Evolves law guarded total s t) ?_ hmiddle.1 hdata
  intro t entry t' ht happly
  exact ht.tail (applyData_eq_some happly).1

/-- The store and the module are as validation and linking promise, so that nothing is
missing when the module is prepared. -/
structure Prepares (s : Store) (m : Module) (name : String)
    (externs : List ExternVal) : Prop where
  validate : m.validate s.features ≠ .error .crash
  link : ∀ imports, m.validate s.features = .ok imports →
    s.link imports externs ≠ .error .crash
  memories : s.checkMemories m ≠ .error .crash
  allocate : ∀ imports, m.validate s.features = .ok imports →
    s.link imports externs = .ok () →
    (s.allocate m name externs).isSome
  segments : ∀ imports s' inst, m.validate s.features = .ok imports →
    s.link imports externs = .ok () →
    s.allocate m name externs = some (s', inst) →
    s'.checkSegments inst m ≠ .error .crash
  apply : ∀ imports s' inst, m.validate s.features = .ok imports →
    s.link imports externs = .ok () →
    s.allocate m name externs = some (s', inst) → s'.checkSegments inst m = .ok () →
      (s'.applySegments inst m).isSome
  start : ∀ imports s' inst index, m.validate s.features = .ok imports →
    s.link imports externs = .ok () →
    s.allocate m name externs = some (s', inst) → m.start = some index →
      inst.functions[index.toNat]?.isSome

end Store

/-- The calls of host functions that were observed in a session, newest first. -/
def Session.hostCalls (s : Session) : List (String × List Val) :=
  s.events.filterMap fun
    | .hostCall function params => some (function, params)
    | .log _ => none

/-- The session has changed its store by known steps and has called no host function. -/
structure Session.Moves (law : ValueLaw) (guarded total : Prop)
    (s s' : Session) : Prop where
  store : Store.Evolves law guarded total s.store s'.store
  hostCalls : s'.hostCalls = s.hostCalls

theorem Session.store_log (s : Session) (entry : LogEntry) :
    (s.log entry).store = s.store := by
  unfold Session.log
  split <;> rfl

theorem Session.hostCalls_log (s : Session) (entry : LogEntry) :
    (s.log entry).hostCalls = s.hostCalls := by
  unfold Session.log
  split <;> rfl

namespace Operation

variable {α β ε : Type} {s : Session} {Q : β → Session → Prop}
  {E : Error → Session → Prop} {f : α → Operation β}

theorem ends_ofAttempt_bind
    {account : ε → Error} {attempt : Attempt ε α}
    (hok : ∀ a, attempt = .ok a → Ends (f a) s Q E)
    (hcause : ∀ cause, attempt = .error (.cause cause) → E (account cause) s)
    (hcrash : attempt = .error .crash → E .crash s) :
    Ends (ofAttempt account attempt >>= f) s Q E := by
  rcases attempt with (cause | _) | a
  · exact hcause cause rfl
  · exact hcrash rfl
  · exact hok a rfl

theorem ends_present_bind
    {entry : Option α} (hsome : ∀ a, entry = some a → Ends (f a) s Q E)
    (hnone : entry = none → E .crash s) :
    Ends (present entry >>= f) s Q E := by
  cases entry with
  | none => exact hnone rfl
  | some a => exact hsome a rfl

theorem ends_log_bind
    {entry : LogEntry} {f : PUnit → Operation β} (h : Ends (f ⟨⟩) (s.log entry) Q E) :
    Ends (log entry >>= f) s Q E :=
  h

variable {law : ValueLaw} {guarded total : Prop}

/-- The part of the preparation that follows the allocation. -/
theorem prepare_tail_ends
    {m : Module} {name : String} {externs : List ExternVal} {imports : List ExternType}
    {store' : Store} {inst : ModuleInst} {s s₁ : Session}
    (hvalid : m.validate s.store.features = .ok imports)
    (hlink : s.store.link imports externs = .ok ())
    (hmemories : s.store.checkMemories m = .ok ())
    (halloc : s.store.allocate m name externs = some (store', inst))
    (hcalls : s₁.hostCalls = s.hostCalls)
    (hsafe : total → s.store.Prepares m name externs) :
    Ends (do
        modify (·.withStore store')
        log (.allocated name inst.addr inst.functions.length inst.tables.length
          inst.memories.length inst.globals.length)
        ofAttempt (fun cause => Error.instantiation name (.segment cause))
          (store'.checkSegments inst m)
        let store ← present (store'.applySegments inst m)
        modify (·.withStore store)
        log (.applied name m.elements.length m.data.length)
        match m.start with
        | none => pure (inst, none)
        | some index =>
          let function ← present inst.functions[index.toNat]?
          log (.starting name function)
          if (← get).store.engine.isNone then throw (Error.instantiation name .noEngine)
          pure (inst, some function)) s₁
      (fun _ s' => s.Moves law guarded total s')
      (fun e s' => s.Moves law guarded total s' ∧ (total → e ≠ .crash)) := by
  have hchange : Store.Change law guarded total s.store store' :=
    .link hvalid hlink hmemories halloc
  have hstore' : Store.Evolves law guarded total s.store store' :=
    .tail (.refl s.store) hchange
  have hinst : ∀ addr ∈ inst.functions, addr.toNat < store'.functions.size := by
    obtain ⟨added, hadded, rfl⟩ := Store.exists_allocation halloc
    exact fun addr => hadded.lt_of_mem_functions (Store.link_eq_ok_iff.mp hlink)
  refine Ends.modify_bind (ends_log_bind ?_)
  have hstore₂ := Session.store_log (s₁.withStore store')
    (.allocated name inst.addr inst.functions.length
    inst.tables.length inst.memories.length inst.globals.length)
  have hcalls₂ := Session.hostCalls_log (s₁.withStore store')
    (.allocated name inst.addr inst.functions.length
    inst.tables.length inst.memories.length inst.globals.length)
  generalize (s₁.withStore store').log _ = s₂ at hstore₂ hcalls₂ ⊢
  have hs₂ : s.Moves law guarded total s₂ :=
    ⟨hstore₂ ▸ hstore', hcalls₂.trans hcalls⟩
  refine ends_ofAttempt_bind ?_ (fun _ _ => ⟨hs₂, fun _ => by simp⟩)
    (fun hcrash => ⟨hs₂, fun h =>
      absurd hcrash ((hsafe h).segments imports store' inst hvalid hlink halloc)⟩)
  intro _ hsegments
  refine ends_present_bind ?_ (fun hnone => ⟨hs₂, fun h => ?_⟩)
  · intro store'' happly
    have hstore'' : Store.Evolves law guarded total s.store store'' :=
      hstore'.trans (Store.evolves_of_applySegments happly hinst)
    refine Ends.modify_bind (ends_log_bind ?_)
    have hstore₃ := Session.store_log (s₂.withStore store'')
      (.applied name m.elements.length m.data.length)
    have hcalls₃ := Session.hostCalls_log (s₂.withStore store'')
      (.applied name m.elements.length m.data.length)
    generalize (s₂.withStore store'').log _ = s₃ at hstore₃ hcalls₃ ⊢
    have hs₃ : s.Moves law guarded total s₃ :=
      ⟨hstore₃ ▸ hstore'', hcalls₃.trans hs₂.hostCalls⟩
    cases hstart : m.start with
    | none => exact hs₃
    | some index =>
        refine ends_present_bind ?_ (fun hnone => ⟨hs₃, fun h => ?_⟩)
        · intro function _
          refine ends_log_bind (Ends.get_bind ?_)
          have hs₄ : s.Moves law guarded total (s₃.log (.starting name function)) :=
            ⟨(s₃.store_log _).symm ▸ hs₃.store,
              (s₃.hostCalls_log _).trans hs₃.hostCalls⟩
          split
          · exact ⟨hs₄, fun _ => by simp⟩
          · exact hs₄
        · have hsome := (hsafe h).start imports store' inst index hvalid hlink
              halloc hstart
          rw [hnone] at hsome
          cases hsome
  · have hsome := (hsafe h).apply imports store' inst hvalid hlink halloc hsegments
    rw [hnone] at hsome
    cases hsome

/-- The preparation of a module changes the store by known steps, whether it succeeds or
fails, and calls no host function.  It does not crash where nothing is missing. -/
theorem prepare_ends
    {m : Option Module} {name : String} {externs : List ExternVal} (s : Session)
    (hsafe : total → ∀ module, m = some module → s.store.Prepares module name externs) :
    Ends (prepare m name externs) s
      (fun _ s' => s.Moves law guarded total s')
      (fun e s' => s.Moves law guarded total s' ∧ (total → e ≠ .crash)) := by
  have hrefl : Store.Evolves law guarded total s.store s.store := .refl s.store
  cases m with
  | none => exact ⟨⟨hrefl, rfl⟩, fun _ => by simp⟩
  | some m =>
      refine Ends.pure_bind (Ends.get_bind ?_)
      refine ends_ofAttempt_bind ?_ (fun _ _ => ⟨⟨hrefl, rfl⟩, fun _ => by simp⟩)
        (fun hcrash => ⟨⟨hrefl, rfl⟩, fun h => absurd hcrash (hsafe h m rfl).validate⟩)
      intro imports hvalid
      -- Logging leaves the store alone, so that linking and allocation still see the
      -- first one.
      refine ends_log_bind (Ends.get_bind ?_)
      have hstore := s.store_log (.validated name imports.length)
      have hcalls := s.hostCalls_log (.validated name imports.length)
      generalize s.log (.validated name imports.length) = s₁ at hstore hcalls ⊢
      have hs₁ : Store.Evolves law guarded total s.store s₁.store := by rwa [hstore]
      rw [hstore]
      refine ends_ofAttempt_bind ?_ (fun _ _ => ⟨⟨hs₁, hcalls⟩, fun _ => by simp⟩)
        (fun hcrash => ⟨⟨hs₁, hcalls⟩, fun h =>
          absurd hcrash ((hsafe h m rfl).link imports hvalid)⟩)
      intro _ hlink
      refine Ends.get_bind ?_
      rw [hstore]
      refine ends_ofAttempt_bind ?_ (fun _ _ => ⟨⟨hs₁, hcalls⟩, fun _ => by simp⟩)
        (fun hcrash => ⟨⟨hs₁, hcalls⟩, fun h => absurd hcrash (hsafe h m rfl).memories⟩)
      intro _ hmemories
      refine Ends.get_bind ?_
      rw [hstore]
      refine ends_present_bind ?_ (fun hnone => ⟨⟨hs₁, hcalls⟩, fun h => ?_⟩)
      · rintro ⟨store, inst⟩ halloc
        exact prepare_tail_ends hvalid hlink hmemories halloc hcalls
          (fun h => hsafe h m rfl)
      · have hsome := (hsafe h m rfl).allocate imports hvalid hlink
        rw [hnone] at hsome
        cases hsome

end Operation
end WebAssembly
