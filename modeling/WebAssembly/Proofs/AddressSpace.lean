import WebAssembly.Proofs.InstantiationEnds

/-!
# While addresses suffice

An address is a word of 32 bits, made from the number of instances that there are when
another one is added.  While the instances of a store can be told apart in this way, its
globals have values of their types, invocations are safe, and immutable globals keep
their values.  With more than `2 ^ 32` globals nothing of this is left: a module that
comes late has the first globals of the store for its own.
-/

namespace WebAssembly

namespace Session

/-- A module without segments and without a start function is instantiated as soon as it
is admitted. -/
theorem step_instantiate_of_admits
    {s : Session} {m : Module} {name : String} {externs : List ExternVal}
    {imports : List ExternType} {allocated : Store} {inst : ModuleInst}
    (hadmits : s.store.Admits m name externs imports allocated inst)
    (helements : m.elements = []) (hdata : m.data = []) (hstart : m.start = none)
    (bound : Nat) :
    ∃ t, s.step (bound + 1) (.instantiate (some m) name externs .background) =
        (.module inst, t) ∧
      t.store = allocated := by
  have hsegments : allocated.checkSegments inst m = .ok () := by
    rw [Store.checkSegments, helements, hdata]; rfl
  have happly : allocated.applySegments inst m = some allocated := by
    rw [Store.applySegments, helements, hdata]; rfl
  have hprepared := Operation.prepared_of_applySegments hadmits hsegments happly
    (by simp [hstart])
  generalize hprepare : Operation.prepare (some m) name externs s = result at hprepared
  cases hprepared with
  | starting hindex | noEngine hindex => cases hstart.symm.trans hindex
  | @complete t _ ht =>
      have hinst : t.store.modules[s.store.modules.size]? = some inst :=
        ht.store ▸ Store.module_of_allocate hadmits.allocate
      have hperform : Engine.perform (bound + 1) .background
            (.instantiate (some m) name externs .background) s =
          .ok (.module inst) t :=
        Engine.perform_instantiate_of_complete hprepare hinst bound
      refine ⟨t, ?_, ht.store⟩
      rw [step, hperform]

end Session

/-! ## A module that comes late -/

/-- An immutable global of 32 bits. -/
def GlobalInst.seven : GlobalInst :=
  ⟨⟨.i32, false⟩, .ofU32 7⟩

/-- A module with two immutable globals of 64 bits and a mutable one of 32 bits.  Its
functions give back the first one and assign to the last one. -/
def Module.late : Module where
  types := [some ⟨[], [.i64]⟩, some ⟨[], []⟩]
  functions := [0, 1]
  globals := [some ⟨some ⟨.i64, false⟩, some (.const .i64 5)⟩,
    some ⟨some ⟨.i64, false⟩, some (.globalGet 0)⟩,
    some ⟨some ⟨.i32, true⟩, some (.const .i32 8)⟩]
  exports := [some ⟨.global, "first", 0⟩]
  code := [some ⟨[], [.globalGet 0]⟩, some ⟨[], [.const .i32 9, .globalSet 2]⟩]

/-- The instance of the module in a store that had `2 ^ 32` globals: the addresses of
its own begin again at zero. -/
def ModuleInst.late : ModuleInst where
  name := "late"
  addr := 0
  types := Module.late.types
  functions := [0, 1]
  tables := []
  memories := []
  globals := [0, 1, 2]
  exports := [("first", ⟨.global, 0⟩)]

/-- The globals that the module adds.  The second one begins with what is found under
the address of the first. -/
def Module.lateGlobals : List GlobalInst :=
  [⟨⟨.i64, false⟩, ⟨.i64, 5⟩⟩, ⟨⟨.i64, false⟩, .ofU32 7⟩, ⟨⟨.i32, true⟩, .ofU32 8⟩]

namespace Store

def ofGlobals (globals : Array GlobalInst) : Store :=
  { ({} : Config).newStore false with globals }

def late (globals : Array GlobalInst) : Store :=
  { ofGlobals globals with
    functions := #[
      { kind := .wasm, type := some ⟨[], [.i64]⟩, name := "late.$0",
        body := [.globalGet 0] },
      { kind := .wasm, type := some ⟨[], []⟩, name := "late.$1",
        body := [.const .i32 9, .globalSet 2] }]
    modules := #[.late] }

theorem allocate_late
    {globals : Array GlobalInst} (hsize : globals.size = 2 ^ 32)
    (hfirst : globals[0]? = some .seven) :
    (ofGlobals globals).allocate .late "late" [] =
      some (late (globals ++ Module.lateGlobals), .late) := by
  have hvalue : globals[0].value = .ofU32 7 := by
    rw [Array.getElem?_eq_getElem (by omega), Option.some.injEq] at hfirst
    rw [hfirst]
    rfl
  have hnames : functionName [⟨.global, "first", 0⟩] 0 = "$0" ∧
      functionName [⟨.global, "first", 0⟩] 1 = "$1" := ⟨rfl, rfl⟩
  have hvalues : Val.ofBits (.number .i64) 5 = ⟨.i64, 5⟩ ∧
      Val.ofBits (.number .i32) 8 = .ofU32 8 := by decide
  have happend : globals ++ Module.lateGlobals =
      ((globals.push ⟨⟨.i64, false⟩, ⟨.i64, 5⟩⟩).push
      ⟨⟨.i64, false⟩, .ofU32 7⟩).push ⟨⟨.i32, true⟩, .ofU32 8⟩ := by
    simp [Module.lateGlobals]
  rw [happend]
  simp [allocate, Module.late, newFunctions, newFunction, newTables, newMemories,
    addGlobals, evalConst, addGlobal, nextGlobal, externAddrs, freshAddrs, hsize,
    Array.getElem?_push, hvalue, late, ofGlobals, ModuleInst.late,
    Config.newStore, addModule, nextModule, exportVal, hnames, hvalues, List.range_succ]

theorem admits_late
    {globals : Array GlobalInst} (hsize : globals.size = 2 ^ 32)
    (hfirst : globals[0]? = some .seven) :
    (ofGlobals globals).Admits .late "late" [] []
      (late (globals ++ Module.lateGlobals)) .late where
  valid := rfl
  link := rfl
  memories := rfl
  allocate := allocate_late hsize hfirst

end Store

namespace Session

/-- A session in which immutable globals were allocated, one after the other. -/
def crowded : Nat → Session
  | 0 => { store := ({} : Config).newStore false }
  | count + 1 =>
    ((crowded count).step 1 (.allocGlobal (some ⟨.i32, false⟩) (.ofU32 7))).2

theorem crowded_eq (count : Nat) :
    crowded count = { store := .ofGlobals (Array.replicate count .seven) } := by
  induction count with
  | zero => rfl
  | succ count ih =>
      rw [crowded, ih, Array.replicate_succ]
      rfl

theorem reachable_crowded (law : ValueLaw) (total : Prop) (count : Nat) :
    (crowded count).Reachable law total := by
  induction count with
  | zero => exact reachable_newStore _ _
  | succ count ih => exact ih.step 1 (.allocGlobal (law.ofU32 7))

/-- The session after a number of globals and the late module. -/
def late (count : Nat) : Session :=
  ((crowded count).step 2 (.instantiate (some .late) "late" [] .background)).2

theorem reachable_late (law : ValueLaw) (total : Prop) (count : Nat) :
    (late count).Reachable law total :=
  (reachable_crowded law total count).step 2 (.instantiate_of_data_eq_nil rfl)

-- The number of globals stays a variable below, so that nothing ever counts up to it.
variable {count : Nat}

/-- The late module is instantiated, and has the first three globals of the store for
its own.  One of those that it has added has a value that is not of its type. -/
theorem step_late
    (hcount : count = 2 ^ 32) :
    (crowded count).step 2 (.instantiate (some .late) "late" [] .background) =
        (.module .late, late count) ∧
      ∃ rest, (late count).store = .late ⟨.seven :: .seven :: .seven :: rest⟩ ∧
        ⟨⟨.i64, false⟩, .ofU32 7⟩ ∈ rest := by
  have hfirst : (Array.replicate count GlobalInst.seven)[0]? = some .seven := by
    rw [Array.getElem?_replicate, if_pos (by omega)]
  have hsize : (Array.replicate count GlobalInst.seven).size = 2 ^ 32 :=
    Array.size_replicate.trans hcount
  have hadmits := Store.admits_late hsize hfirst
  unfold late
  rw [crowded_eq]
  obtain ⟨t, hstep, ht⟩ :=
    step_instantiate_of_admits
      (s := { store := .ofGlobals (Array.replicate count .seven) })
      hadmits rfl rfl rfl 1
  rw [hstep]
  obtain ⟨others, rfl⟩ : ∃ others, count = others + 3 := ⟨count - 3, by omega⟩
  refine ⟨rfl, List.replicate others .seven ++ Module.lateGlobals,
    ht.trans (congrArg Store.late ?_), ?_⟩
  · apply Array.toList_inj.mp
    simp [List.replicate_succ]
  · simp [Module.lateGlobals]

/-- The late session after the assignment of its module. -/
def overwritten (count : Nat) : Session :=
  ((late count).step 7 (.invoke 1 [] .background)).2

theorem leads_overwritten (law : ValueLaw) (total : Prop) (count : Nat) :
    (late count).Leads law total (overwritten count) :=
  .step .refl 7 (.invoke nofun)

/-- The module assigns to the third global of the session, which is not mutable. -/
theorem globals_overwritten
    (hcount : count = 2 ^ 32) :
    (late count).store.globals[2]? = some .seven ∧
      (overwritten count).store.globals[2]? = some { GlobalInst.seven with
        value := .ofU32 9 } := by
  obtain ⟨-, rest, hstore, -⟩ := step_late hcount
  have hrun : Engine.invoke 6 .background 1 [] (late count) =
      .ok [] ((late count).withStore
      (.late ⟨.seven :: .seven :: { GlobalInst.seven with
        value := .ofU32 9 } :: rest⟩)) := by
    generalize late count = s at hstore ⊢
    obtain ⟨store, contexts, latest, events⟩ := s
    obtain rfl : store = _ := hstore
    rfl
  have hperform : Engine.perform 7 .background (.invoke 1 [] .background) (late count) =
      EStateM.map Response.results (Engine.invoke 6 .background 1 []) (late count) :=
    rfl
  constructor
  · rw [hstore]
    rfl
  · rw [overwritten, step, hperform, EStateM.map, hrun]
    rfl

end Session

/-! ## A crowd of modules -/

def Store.blank (s : Store) : ModuleInst :=
  ⟨"", s.nextModule, [], [], [], [], [], []⟩

theorem Store.admits_blank (s : Store) :
    s.Admits {} "" [] [] (s.addModule s.blank) s.blank where
  valid := rfl
  link := rfl
  memories := rfl
  allocate := by
    simp [allocate, newFunctions, newTables, newMemories, addGlobals, externAddrs,
      freshAddrs, addModule, blank]

namespace Session

/-- A session in which a module with nothing in it was instantiated again and again. -/
def thronged : Nat → Session
  | 0 => { store := ({} : Config).newStore false }
  | count + 1 => ((thronged count).step 1 (.instantiate (some {}) "" [] .background)).2

theorem reachable_thronged (law : ValueLaw) (total : Prop) (count : Nat) :
    (thronged count).Reachable law total := by
  induction count with
  | zero => exact reachable_newStore _ _
  | succ count ih => exact ih.step 1 (.instantiate_of_data_eq_nil rfl)

theorem store_thronged (count : Nat) :
    (thronged (count + 1)).store = (thronged count).store.addModule
      (thronged count).store.blank := by
  obtain ⟨t, hstep, ht⟩ :=
    step_instantiate_of_admits (thronged count).store.admits_blank rfl rfl rfl 0
  rw [thronged, hstep]
  exact ht

theorem size_modules_thronged (count : Nat) :
    (thronged count).store.modules.size = count := by
  induction count with
  | zero => rfl
  | succ count ih =>
      rw [store_thronged, Store.addModule, Array.size_push, ih]

end Session

/-! ## Well-formed stores -/

namespace Session

/-- Every store to which public operations lead is well-formed, in whatever order they
come and however they end: memories and tables agree with their limits, the payloads of
globals fit, and every address that is kept anywhere is valid.  While addresses suffice,
globals have values of their types, and a module instance has the address of its
position. -/
theorem wellFormed_of_reachable
    {s : Session} (h : s.Reachable .fits False) :
    s.store.WellFormed ∧ (∀ g ∈ s.store.globals, g.value.Fits) ∧
      (s.store.globals.size ≤ 2 ^ 32 → ∀ g ∈ s.store.globals,
        g.value.type = g.type.value) ∧
      (s.store.modules.size ≤ 2 ^ 32 → ∀ (position : Nat) inst,
        s.store.modules[position]? = some inst → inst.addr.toNat = position) := by
  refine ⟨h.wellFormed, h.lawful.globals, h.globalsTyped,
    fun hsize position inst hinst => ?_⟩
  have hlt := (Array.getElem?_eq_some_iff.mp hinst).1
  rw [(h.wellFormed.modules position inst hinst).addr, Nat.mod_eq_of_lt (by omega)]

/-- A relay to which a table, a memory and a global have been added, and all of them
used. -/
def furnished : Session :=
  let s := (relay.step 2 (.allocTable (some ⟨TableType.funcref, some ⟨1, some 4⟩⟩))).2
  let s := (s.step 2 (.allocMemory (some ⟨0, some 2⟩))).2
  let s := (s.step 2 (.allocGlobal (some ⟨.f32, true⟩) (.ofBits .f32 0x7fc00000))).2
  let s := (s.step 2 (.tableGrow 0 2)).2
  let s := (s.step 2 (.tableSet 0 2 (some 1))).2
  let s := (s.step 2 (.memoryGrow 0 1)).2
  let s := (s.step 2 (.globalSet 1 (.ofBits .f32 0x3f800000))).2
  (s.step 12 (.invoke 1 [.ofU32 7] .background)).2

theorem reachable_furnished (law : ValueLaw) (total : Prop) :
    furnished.Reachable law total := by
  refine ((((((((reachable_relay law total).step 2 ?_).step 2 ?_).step 2 ?_).step 2
    ?_).step 2 ?_).step 2 ?_).step 2 ?_).step 12 ?_
  · exact .plain trivial
  · exact .plain trivial
  · exact .allocGlobal (law.ofBits _ _)
  · exact .plain trivial
  · exact .plain trivial
  · exact .plain trivial
  · exact .globalSet (law.ofBits _ _)
  · refine .invoke fun v hv => ?_
    obtain rfl := List.mem_singleton.mp hv
    exact law.ofU32 7

/-- The store of a furnished relay has two functions, a table of three slots, a memory,
two globals and a module. -/
theorem wellFormed_after_assignment :
    furnished.store.WellFormed ∧ (∀ g ∈ furnished.store.globals, g.value.Fits ∧
      g.value.type = g.type.value) ∧
      (∀ (position : Nat) inst, furnished.store.modules[position]? = some inst →
        inst.addr.toNat = position) ∧
      furnished.store.counts = ⟨2, 1, 1, 2, 1⟩ ∧
      furnished.store.tables.map (·.slots) = #[#[none, none, some 1]] ∧
      furnished.store.globals.map (·.value) = #[.ofU32 7, .ofBits .f32 0x3f800000] := by
  obtain ⟨hwf, hfits, htypes, haddrs⟩ :=
    wellFormed_of_reachable (reachable_furnished .fits False)
  have hstore : (furnished.store.globals.size ≤ 2 ^ 32 ∧
        furnished.store.modules.size ≤ 2 ^ 32) ∧
      furnished.store.counts = ⟨2, 1, 1, 2, 1⟩ ∧
      furnished.store.tables.map (·.slots) = #[#[none, none, some 1]] ∧
      furnished.store.globals.map (·.value) = #[.ofU32 7, .ofBits .f32 0x3f800000] := by
    decide +kernel
  obtain ⟨⟨hglobals, hmodules⟩, hcontents⟩ := hstore
  exact ⟨hwf, fun g hg => ⟨hfits g hg, htypes hglobals g hg⟩, haddrs hmodules, hcontents⟩

/-- After `2 ^ 32` globals of 32 bits, a global of 64 bits begins with a value of 32
bits.  After `2 ^ 32` modules, the next one has the address of the first. -/
theorem mistyped_beyond_addresses :
    ((late (2 ^ 32)).Reachable .fits False ∧
        ∃ g ∈ (late (2 ^ 32)).store.globals, g.type.value = .i64 ∧
          g.value.type = .i32) ∧
      (thronged (2 ^ 32 + 1)).Reachable .fits False ∧
        ∃ inst, (thronged (2 ^ 32 + 1)).store.modules[2 ^ 32]? = some inst ∧
          inst.addr = 0 := by
  generalize hcount : 2 ^ 32 = count
  constructor
  · obtain ⟨-, rest, hstore, hmem⟩ := step_late hcount.symm
    refine ⟨reachable_late .fits False count, ⟨⟨.i64, false⟩, .ofU32 7⟩, ?_, rfl, rfl⟩
    rw [hstore]
    exact Array.mem_def.mpr (.tail _ (.tail _ (.tail _ hmem)))
  · refine ⟨reachable_thronged .fits False (count + 1), (thronged count).store.blank,
      ?_, ?_⟩
    · rw [store_thronged]
      exact (congrArg _ (size_modules_thronged count).symm).trans
        Array.getElem?_push_size
    · simp [Store.blank, Store.nextModule, size_modules_thronged, ← hcount]

end Session

/-! ## Safe invocations -/

namespace Session

/-- Type soundness, end to end.  After any public operations, a function that is invoked
by any engine with any arguments gives results of its declared types, or it traps,
unless the bound on its length is reached; no bug and no crash is met on the way.  A
host function may stop by force on arguments that are not of its declared types, so it
is called with no others; the record of calls says the same.  All of it holds while
addresses suffice. -/
theorem invoke_typed_or_traps
    {s : Session} (h : s.Reachable .trivial True) {function : UInt32} {f : FuncInst}
    (hf : s.store.function function = .ok f) (config : EngineConfig)
    (context : ContextRef) (args : List Val) (fuel : Nat) :
    EndsWithin Session.Bounded (Engine.invoke fuel context function args)
      (s.withStore { s.store with engine := some config })
      (fun results s' =>
          (∃ type, f.type = some type ∧ results.map Val.type = type.results) ∧
        ∀ call ∈ s'.hostCalls, s'.store.AdmitsCall call)
      (fun error s' => (error = .exhausted ∨ ∃ cause backtrace,
        error = .trap cause backtrace) ∧
        ∀ call ∈ s'.hostCalls, s'.store.AdmitsCall call) := by
  have hargs : ValueLaw.trivial.HoldsAll args := fun _ _ => trivial
  have hlawful : Store.Lawful .trivial { s.store with engine := some config } :=
    { h.lawful with }
  have hsteady : Operation.Steady .trivial (Engine.invoke fuel context function args)
      fun _ => True :=
    fun _ hbase => ((Engine.evolving hbase fuel).invoke context function args
      hargs).mono fun _ _ => trivial
  refine hsteady.endsWithin hlawful fun hB => ?_
  -- The engine takes no part in typing, so the session is as sound with the given one
  -- as with its own.
  have hs := h.sound { hB with }
  have hengine : True → ({ s.store with engine := some config } : Store).engine ≠
    none := fun _ => nofun
  refine ((Engine.sound hengine fuel).invoke context hargs
    (hs.withEngine (some config))).mono ?_ ?_
  · rintro results s' ⟨hs', -, htypes⟩
    have htyped := hs.typed.functions f
      (Array.mem_of_getElem? (Store.lookup_eq_ok_iff.mp hf))
    obtain ⟨type, htype⟩ := Option.ne_none_iff_exists'.mp (htyped.type_ne_none trivial)
    exact ⟨⟨type, htype, htypes f type hf htype⟩, hs'.calls⟩
  · rintro error s' ⟨hs', hreports⟩
    refine ⟨?_, hs'.calls⟩
    rcases hreports trivial with hexhausted | htrap | ⟨cause, hcause, -⟩
    · exact .inl hexhausted
    · exact .inr htrap
    · cases hf.symm.trans hcause

/-- The run of a relay gives a result of the declared type. -/
theorem relay_typed_or_traps :
    ∃ f results s', Session.relay.store.function 1 = .ok f ∧
      Engine.invoke 12 .background 1 [.ofU32 7]
        (Session.relay.withStore { Session.relay.store with
            engine := some (Config.engine {} true) }) =
          .ok results s' ∧
      ∃ type, f.type = some type ∧ results.map Val.type = type.results := by
  have hends : (match Engine.invoke 12 .background 1 [.ofU32 7]
      (Session.relay.withStore { Session.relay.store with
        engine := some (Config.engine {} true) }) with
      | .ok _ s =>
          s.store.functions.size == 2 && s.store.globals.size == 1 &&
            s.store.modules.size == 1
      | .error _ _ => false) = true := by decide +kernel
  have hread : (Session.relay.store.function 1).isOk = true := by decide +kernel
  have hreachable := reachable_relay .trivial True
  generalize Session.relay = s, 12 = fuel at *
  cases hf : s.store.function 1 with
  | error cause =>
      rw [hf] at hread
      cases hread
  | ok f =>
      have hrun := invoke_typed_or_traps hreachable hf (Config.engine {} true)
        .background [.ofU32 7] fuel
      unfold EndsWithin Ends at hrun
      split at hrun
      · rename_i results s' hresult
        rw [hresult] at hends
        obtain ⟨⟨hfunctions, hglobals⟩, hmodules⟩ :
              (s'.store.functions.size = 2 ∧ s'.store.globals.size = 1) ∧
            s'.store.modules.size = 1 := by simpa using hends
        have hbounded : s'.Bounded := by
          constructor <;> simp [hfunctions, hglobals, hmodules, UInt32.size]
        exact ⟨f, results, s', rfl, hresult, (hrun hbounded).1⟩
      · rename_i hresult
        rw [hresult] at hends
        cases hends

/-- After `2 ^ 32` globals of 32 bits, a function whose result is declared to have 64
bits gives one of 32 bits. -/
theorem result_mistyped_beyond_addresses :
    (late (2 ^ 32)).Reachable .trivial True ∧
      ∃ f s', (late (2 ^ 32)).store.function 0 = .ok f ∧ f.type = some ⟨[], [.i64]⟩ ∧
        Engine.invoke 4 .background 0 [] (late (2 ^ 32)) = .ok [.ofU32 7] s' := by
  refine ⟨reachable_late .trivial True _, ?_⟩
  generalize hcount : 2 ^ 32 = count
  obtain ⟨-, rest, hstore, -⟩ := step_late hcount.symm
  generalize late count = s at hstore ⊢
  obtain ⟨store, contexts, latest, events⟩ := s
  obtain rfl : store = _ := hstore
  exact ⟨_, _, rfl, rfl, rfl⟩

end Session

/-! ## Stores that are extended -/

namespace Session

/-- Store extension.  Public operations, however they end, keep every address valid and
what it denotes: the same function or module instance, a global of the same type, a
table of the same element type and limits, a memory of the same limits; no table and no
memory shrinks.  An immutable global keeps its value, although the engine assigns to
globals without a check. -/
theorem extends_of_leads
    {s s' : Session} (hs : s.Reachable .trivial False) (h : s.Leads .trivial False s') :
    s.store.Extends False s'.store ∧
      (s'.store.Addressable → s.store.Extends True s'.store) := by
  have hevolves := h.evolves hs.lawful
  refine ⟨hevolves.extension, fun haddr => ?_⟩
  have hsound := hs.sound (hevolves.extension.addressable haddr)
  exact (h.sound hsound haddr).evolves.extension

/-- The relay has an immutable global, which the assignment does not reach. -/
theorem extends_after_relay :
    Session.relay.store.Extends True
      ((Session.relay.step 12 (.invoke 1 [.ofU32 7] .background)).2.step 2
        (.globalSet 0 (.ofU32 8))).2.store := by
  refine (extends_of_leads (reachable_relay .trivial False)
    (.step (.step .refl 12 ?_) 2 ?_)).2 ?_
  · exact .invoke fun _ _ => trivial
  · exact .globalSet trivial
  · suffices h : _ ∧ _ ∧ _ from ⟨h.1, h.2.1, h.2.2⟩
    decide +kernel

/-- After `2 ^ 32` immutable globals, a module that assigns to a mutable global of its
own changes one of them. -/
theorem immutable_assigned_beyond_addresses :
    (late (2 ^ 32)).Reachable .trivial False ∧
      (late (2 ^ 32)).Leads .trivial False (overwritten (2 ^ 32)) ∧
      (late (2 ^ 32)).store.globals[2]? = some ⟨⟨.i32, false⟩, .ofU32 7⟩ ∧
      (overwritten (2 ^ 32)).store.globals[2]? = some ⟨⟨.i32, false⟩, .ofU32 9⟩ := by
  generalize hcount : 2 ^ 32 = count
  exact ⟨reachable_late .trivial False count, leads_overwritten .trivial False count,
    globals_overwritten hcount.symm⟩

end Session
end WebAssembly
