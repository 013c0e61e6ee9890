import WebAssembly.Proofs.Additions
import WebAssembly.Proofs.Safety

/-!
# How an instantiation ends

The preparation of a module has few outcomes.  It is refused before anything is added to
the store, it is refused over a segment once its definitions have been added and before
any of them is written to, or it gets as far as the start function.  Everything that is
said here of failures is read off from that one list.
-/

namespace WebAssembly

/-- The session has come to another one that holds the given store, and no host function
was called. -/
structure Session.ComesTo (s : Session) (store : Store) (s' : Session) : Prop where
  store : s'.store = store
  hostCalls : s'.hostCalls = s.hostCalls

namespace Session.ComesTo

variable {s s' : Session} {store : Store}

theorem refl (s : Session) : s.ComesTo s.store s :=
  ⟨rfl, rfl⟩

theorem log
    (h : s.ComesTo store s') (entry : LogEntry) : s.ComesTo store (s'.log entry) :=
  ⟨(s'.store_log entry).trans h.store, (s'.hostCalls_log entry).trans h.hostCalls⟩

theorem withStore
    (h : s.ComesTo store s') (next : Store) : s.ComesTo next (s'.withStore next) :=
  ⟨rfl, h.hostCalls⟩

theorem trans
    {s'' : Session} {next : Store} (h : s.ComesTo store s') (h' : s'.ComesTo next s'') :
    s.ComesTo next s'' :=
  ⟨h'.store, h'.hostCalls.trans h.hostCalls⟩

theorem openContext (s : Session) (inherited : ContextRef) (choice : ContextChoice) :
    s.ComesTo s.store (s.openContext inherited choice).2 := by
  cases choice <;> exact ⟨rfl, rfl⟩

end Session.ComesTo

namespace Store

/-- The store refuses a module before anything is added to it, for the given reason. -/
inductive Refuses (s : Store) (name : String) (externs : List ExternVal) :
    Option Module → Error → Prop
  | absent : Refuses s name externs none .noModule
  | invalid {m cause} (hvalid : m.validate s.features = .error (.cause cause)) :
    Refuses s name externs (some m) (.instantiation name (.invalid cause))
  | unlinked {m imports cause} (hvalid : m.validate s.features = .ok imports)
    (hlink : s.link imports externs = .error (.cause cause)) :
    Refuses s name externs (some m) (.instantiation name (.link cause))
  | oversized {m imports cause} (hvalid : m.validate s.features = .ok imports)
    (hlink : s.link imports externs = .ok ()) (hmemories : s.checkMemories m =
      .error (.cause cause)) :
    Refuses s name externs (some m) (.instantiation name (.invalid cause))

/-- The store admits a module, whose definitions are allocated. -/
structure Admits (s : Store) (m : Module) (name : String) (externs : List ExternVal)
    (imports : List ExternType) (allocated : Store) (inst : ModuleInst) : Prop where
  valid : m.validate s.features = .ok imports
  link : s.link imports externs = .ok ()
  memories : s.checkMemories m = .ok ()
  allocate : s.allocate m name externs = some (allocated, inst)

/-- The store admits a module, and then finds a segment that does not fit. -/
inductive Overruns (s : Store) (name : String) (externs : List ExternVal) :
    Option Module → Error → Prop
  | segment {m imports allocated inst cause}
    (hadmits : s.Admits m name externs imports allocated inst)
      (hsegments : allocated.checkSegments inst m = .error (.cause cause)) :
    Overruns s name externs (some m) (.instantiation name (.segment cause))

end Store

namespace Operation

/-- The outcomes of the preparation of a module. -/
inductive PrepareEnds (s : Session) (name : String) (externs : List ExternVal) :
    Option Module → EStateM.Result Error Session (ModuleInst × Option UInt32) → Prop
  | refused {m error s'} (hrefuses : s.store.Refuses name externs m error)
    (hs' : s.ComesTo s.store s') :
    PrepareEnds s name externs m (.error error s')
  | overrun {m imports allocated inst cause s'}
    (hadmits : s.store.Admits m name externs imports allocated inst)
    (hsegments : allocated.checkSegments inst m = .error (.cause cause))
      (hs' : s.ComesTo allocated s') :
    PrepareEnds s name externs (some m)
      (.error (.instantiation name (.segment cause)) s')
  | crashed {m s'} : PrepareEnds s name externs m (.error .crash s')
  | noEngine {m s'} :
    PrepareEnds s name externs m (.error (.instantiation name .noEngine) s')
  | prepared {m imports allocated inst applied start s'}
    (hadmits : s.store.Admits m name externs imports allocated inst)
    (hsegments : allocated.checkSegments inst m = .ok ())
    (happly : allocated.applySegments inst m = some applied)
    (hstart : start = m.start.bind fun index => inst.functions[index.toNat]?)
    (hengine : m.start ≠ none → start ≠ none ∧ applied.engine ≠ none)
      (hs' : s.ComesTo applied s') :
    PrepareEnds s name externs (some m) (.ok (inst, start) s')

theorem prepareEnds (s : Session) (name : String) (externs : List ExternVal)
    (m : Option Module) :
    PrepareEnds s name externs m (prepare m name externs s) := by
  refine Ends.result ?_
  cases m with
  | none => exact .refused .absent (.refl s)
  | some m =>
      refine Ends.pure_bind (Ends.get_bind ?_)
      refine ends_ofAttempt_bind ?_ (fun _ h => .refused (.invalid h) (.refl s))
        fun _ => .crashed
      intro imports hvalid
      refine ends_log_bind (Ends.get_bind ?_)
      have hs₁ := (Session.ComesTo.refl s).log (.validated name imports.length)
      generalize s.log (.validated name imports.length) = s₁ at hs₁ ⊢
      rw [hs₁.store]
      refine ends_ofAttempt_bind ?_ (fun _ h => .refused (.unlinked hvalid h) hs₁)
        fun _ => .crashed
      intro _ hlink
      refine Ends.get_bind ?_
      rw [hs₁.store]
      refine ends_ofAttempt_bind ?_ (fun _ h =>
        .refused (.oversized hvalid hlink h) hs₁) fun _ => .crashed
      intro _ hmemories
      refine Ends.get_bind ?_
      rw [hs₁.store]
      refine ends_present_bind ?_ fun _ => .crashed
      rintro ⟨allocated, inst⟩ hallocate
      have hadmits : s.store.Admits m name externs imports allocated inst :=
        ⟨hvalid, hlink, hmemories, hallocate⟩
      refine Ends.modify_bind (ends_log_bind ?_)
      have hs₂ := (hs₁.withStore allocated).log
        (.allocated name inst.addr inst.functions.length
        inst.tables.length inst.memories.length inst.globals.length)
      generalize (s₁.withStore allocated).log _ = s₂ at hs₂ ⊢
      refine ends_ofAttempt_bind ?_ (fun _ h => .overrun hadmits h hs₂)
        fun _ => .crashed
      intro _ hsegments
      refine ends_present_bind ?_ fun _ => .crashed
      intro applied happly
      refine Ends.modify_bind (ends_log_bind ?_)
      have hs₃ := (hs₂.withStore applied).log
        (.applied name m.elements.length m.data.length)
      generalize (s₂.withStore applied).log _ = s₃ at hs₃ ⊢
      cases hstart : m.start with
      | none =>
          exact .prepared hadmits hsegments happly (by rw [hstart]; rfl)
            (by simp [hstart]) hs₃
      | some index =>
          refine ends_present_bind ?_ fun _ => .crashed
          intro function hfunction
          refine ends_log_bind (Ends.get_bind ?_)
          have hs₄ := hs₃.log (.starting name function)
          rw [hs₄.store]
          cases hengine : applied.engine with
          | none => exact .noEngine
          | some config =>
              refine .prepared hadmits hsegments happly
                (by rw [hstart]; exact hfunction.symm) ?_ hs₄
              exact fun _ => ⟨nofun, by simp [hengine]⟩

section Known

variable {α β ε : Type} {s : Session} {Q : β → Session → Prop}
  {E : Error → Session → Prop} {f : α → Operation β} {account : ε → Error}
  {attempt : Attempt ε α}

theorem ends_ofAttempt_bind_of_ok
    {a : α} (h : attempt = .ok a) (hf : Ends (f a) s Q E) :
    Ends (ofAttempt account attempt >>= f) s Q E := by
  subst h
  exact hf

theorem ends_ofAttempt_bind_of_cause
    {cause : ε} (h : attempt = .error (.cause cause)) (hE : E (account cause) s) :
    Ends (ofAttempt account attempt >>= f) s Q E := by
  subst h
  exact hE

end Known

variable {s : Session} {name : String} {externs : List ExternVal} {m : Option Module}
  {error : Error}

/-- A module that the store refuses fails for the reason of the refusal. -/
theorem prepare_of_refuses
    (h : s.store.Refuses name externs m error) :
    Ends (prepare m name externs) s (fun _ _ => False) fun e _ => e = error := by
  cases h with
  | absent => exact Eq.refl Error.noModule
  | invalid hvalid =>
      exact Ends.pure_bind (Ends.get_bind (ends_ofAttempt_bind_of_cause hvalid rfl))
  | unlinked hvalid hlink =>
      refine Ends.pure_bind
        (Ends.get_bind (ends_ofAttempt_bind_of_ok hvalid
          (ends_log_bind (Ends.get_bind ?_))))
      rw [Session.store_log]
      exact ends_ofAttempt_bind_of_cause hlink rfl
  | oversized hvalid hlink hmemories =>
      refine Ends.pure_bind
        (Ends.get_bind (ends_ofAttempt_bind_of_ok hvalid
          (ends_log_bind (Ends.get_bind ?_))))
      rw [Session.store_log]
      refine ends_ofAttempt_bind_of_ok hlink (Ends.get_bind ?_)
      rw [Session.store_log]
      exact ends_ofAttempt_bind_of_cause hmemories rfl

theorem prepare_of_overruns
    (h : s.store.Overruns name externs m error) :
    Ends (prepare m name externs) s (fun _ _ => False) fun e _ => e = error := by
  cases h with
  | segment hadmits hsegments =>
      refine Ends.pure_bind (Ends.get_bind (ends_ofAttempt_bind_of_ok hadmits.valid
        (ends_log_bind (Ends.get_bind ?_))))
      rw [Session.store_log]
      refine ends_ofAttempt_bind_of_ok hadmits.link (Ends.get_bind ?_)
      rw [Session.store_log]
      refine ends_ofAttempt_bind_of_ok hadmits.memories (Ends.get_bind ?_)
      rw [Session.store_log, hadmits.allocate]
      refine Ends.bind_of_eq_ok rfl (Ends.modify_bind (ends_log_bind ?_))
      exact ends_ofAttempt_bind_of_cause hsegments rfl

end Operation

namespace Operation

/-- The outcomes of a preparation that has written the segments of a module. -/
inductive Prepared (s : Session) (name : String) (m : Module) (inst : ModuleInst)
    (applied : Store) :
    EStateM.Result Error Session (ModuleInst × Option UInt32) → Prop
  | complete {t} (hstart : m.start = none) (ht : s.ComesTo applied t) :
    Prepared s name m inst applied (.ok (inst, none) t)
  | starting {index function t} (hstart : m.start = some index)
    (hfunction : inst.functions[index.toNat]? = some function)
      (hengine : applied.engine ≠ none)
    (ht : s.ComesTo applied t) :
      Prepared s name m inst applied (.ok (inst, some function) t)
  | noEngine {index t} (hstart : m.start = some index) (hengine : applied.engine = none)
    (ht : s.ComesTo applied t) :
      Prepared s name m inst applied (.error (.instantiation name .noEngine) t)

/-- A module whose segments fit comes to its start function, and the segments are
written by then. -/
theorem prepared_of_applySegments
    {s : Session} {m : Module} {name : String} {externs : List ExternVal}
    {imports : List ExternType} {allocated applied : Store} {inst : ModuleInst}
    (hadmits : s.store.Admits m name externs imports allocated inst)
    (hsegments : allocated.checkSegments inst m = .ok ())
    (happly : allocated.applySegments inst m = some applied)
    (hstart : ∀ index, m.start = some index → inst.functions[index.toNat]? ≠ none) :
    Prepared s name m inst applied (prepare (some m) name externs s) := by
  refine Ends.result
    (Ends.pure_bind (Ends.get_bind (ends_ofAttempt_bind_of_ok hadmits.valid
      (ends_log_bind
    (Ends.get_bind ?_)))))
  have hs₁ := (Session.ComesTo.refl s).log (.validated name imports.length)
  generalize s.log (.validated name imports.length) = s₁ at hs₁ ⊢
  rw [hs₁.store]
  refine ends_ofAttempt_bind_of_ok hadmits.link (Ends.get_bind ?_)
  rw [hs₁.store]
  refine ends_ofAttempt_bind_of_ok hadmits.memories (Ends.get_bind ?_)
  rw [hs₁.store, hadmits.allocate]
  refine Ends.bind_of_eq_ok rfl (Ends.modify_bind
    (ends_log_bind (ends_ofAttempt_bind_of_ok hsegments ?_)))
  rw [happly]
  refine Ends.bind_of_eq_ok rfl (Ends.modify_bind (ends_log_bind ?_))
  have hs₂ := (hs₁.withStore allocated).log
    (.allocated name inst.addr inst.functions.length
    inst.tables.length inst.memories.length inst.globals.length)
  have hs₃ := (hs₂.withStore applied).log
    (.applied name m.elements.length m.data.length)
  cases hindex : m.start with
  | none => exact .complete hindex hs₃
  | some index =>
      refine ends_present_bind (fun function hfunction => ?_) fun hnone =>
        absurd hnone (hstart index hindex)
      refine ends_log_bind (Ends.get_bind ?_)
      have hs₄ := hs₃.log (.starting name function)
      rw [hs₄.store]
      cases hengine : applied.engine with
      | none => exact .noEngine hindex hengine hs₄
      | some config => exact .starting hindex hfunction (by simp [hengine]) hs₄

end Operation

namespace Error

/-- A module was refused before anything was added to the store. -/
def IsRefusal : Error → Prop
  | .noModule | .instantiation _ (.invalid _) | .instantiation _ (.link _) => True
  | _ => False

/-- A segment of a module does not fit. -/
def IsOverrun : Error → Prop
  | .instantiation _ (.segment _) => True
  | _ => False

end Error

namespace Engine

variable {s s' : Session} {m : Option Module} {name : String} {externs : List ExternVal}
  {inherited : ContextRef} {choice : ContextChoice} {error : Error}

/-- A failure of the preparation is the failure of the instantiation, whatever the
bound. -/
theorem perform_instantiate_of_prepare
    (h : Operation.prepare m name externs (s.openContext inherited choice).2 =
      .error error s') (bound : Nat) :
    perform (bound + 1) inherited (.instantiate m name externs choice) s =
      .error error s' := by
  have hopen : Operation.openContext inherited choice s =
      .ok (s.openContext inherited choice).1 (s.openContext inherited choice).2 := rfl
  have hget : (get : Operation Session) (s.openContext inherited choice).2 =
      .ok (s.openContext inherited choice).2 (s.openContext inherited choice).2 := rfl
  rw [perform.eq_def]
  exact (bind_eq_of_eq_ok hopen).trans
    ((bind_eq_of_eq_ok hget).trans (bind_eq_of_eq_error h))

theorem exists_perform_instantiate_eq_error
    (h : s.store.Refuses name externs m error ∨
      s.store.Overruns name externs m error) :
    ∃ t, ∀ bound, perform (bound + 1) inherited (.instantiate m name externs choice) s =
      .error error t := by
  rw [← (Session.ComesTo.openContext s inherited choice).store] at h
  have hends := h.elim Operation.prepare_of_refuses Operation.prepare_of_overruns
  cases hprepare : Operation.prepare m name externs
    (s.openContext inherited choice).2 with
  | ok result t => exact (hends.onOk hprepare).elim
  | error error' t =>
      obtain rfl := hends.onError hprepare
      exact ⟨t, perform_instantiate_of_prepare hprepare⟩

/-- After its preparation an instantiation runs the start function and gives back the
instance that it added. -/
theorem perform_instantiate_of_prepared
    {inst : ModuleInst} {start : Option UInt32} {t : Session}
    (h : Operation.prepare m name externs (s.openContext inherited choice).2 =
      .ok (inst, start) t) (bound : Nat) :
    perform (bound + 1) inherited (.instantiate m name externs choice) s =
      (do
        match start with
        | some function =>
            runStart name (invoke bound (s.openContext inherited choice).1 function [])
        | none => pure ()
        Response.module <$> Operation.added s.store.modules.size inst :
          Operation Response) t := by
  have hget : (get : Operation Session) (s.openContext inherited choice).2 =
      .ok (s.openContext inherited choice).2 (s.openContext inherited choice).2 := rfl
  rw [perform.eq_def, ← (Session.ComesTo.openContext s inherited choice).store]
  exact (bind_eq_of_eq_ok rfl).trans
    ((bind_eq_of_eq_ok hget).trans (bind_eq_of_eq_ok h))

theorem perform_instantiate_of_complete
    {inst : ModuleInst} {t : Session}
    (h : Operation.prepare m name externs (s.openContext inherited choice).2 =
      .ok (inst, none) t)
    (hinst : t.store.modules[s.store.modules.size]? = some inst) (bound : Nat) :
    perform (bound + 1) inherited (.instantiate m name externs choice) s =
      .ok (.module inst) t := by
  rw [perform_instantiate_of_prepared h]
  change EStateM.Result.ok
    (Response.module (t.store.modules[s.store.modules.size]?.getD inst)) t = _
  rw [hinst, Option.getD_some]

/-- Neither the module nor its segments are to blame. -/
def BlamesOther (error : Error) (_ : Session) : Prop :=
  ¬(error.IsRefusal ∨ error.IsOverrun)

theorem runStart_blamesOther
    {α : Type} {operation : Operation α} :
    Ends (runStart name operation) s (fun _ _ => True) BlamesOther := by
  unfold Ends runStart
  cases operation s with
  | ok => trivial
  | error error => cases error <;> exact not_or.mpr ⟨id, id⟩

/-- What follows the preparation of a module fails for reasons of its own. -/
theorem perform_instantiate_blamesOther
    {inst : ModuleInst} {start : Option UInt32}
    (h : Operation.prepare m name externs (s.openContext inherited choice).2 =
      .ok (inst, start) s') (bound : Nat) :
    Ends (perform (bound + 1) inherited (.instantiate m name externs choice)) s
      (fun _ _ => True) BlamesOther := by
  refine .of_eq (perform_instantiate_of_prepared h bound) ?_
  cases start with
  | none => trivial
  | some function => exact runStart_blamesOther.bind fun _ _ _ => trivial

theorem prepare_of_perform_instantiate
    {bound : Nat} (h : perform bound inherited (.instantiate m name externs choice) s =
      .error error s')
    (herror : error.IsRefusal ∨ error.IsOverrun) :
    Operation.prepare m name externs (s.openContext inherited choice).2 =
      .error error s' := by
  cases bound with
  | zero =>
      obtain ⟨rfl, -⟩ := EStateM.Result.error.inj h
      exact (herror.elim id id).elim
  | succ bound =>
      cases hprepare : Operation.prepare m name externs
        (s.openContext inherited choice).2 with
      | ok result t =>
          have hother := (perform_instantiate_blamesOther hprepare bound).onError h
          exact absurd herror hother
      | error error' t =>
          obtain ⟨rfl, rfl⟩ :=
            EStateM.Result.error.inj
              (h.symm.trans (perform_instantiate_of_prepare hprepare bound))
          rfl

end Engine

namespace Session

/-- A failed instantiation is atomic.  A module that the store refuses leaves the store
as it was.  A module one of whose segments does not fit leaves its definitions behind,
with empty tables and with memories that are zero, and nothing else has changed.  Either
failure comes about under every bound, even the one that leaves nothing for an
invocation: the engine is not invoked. -/
theorem failed_instantiation_atomic (s : Session) (m : Option Module) (name : String)
    (externs : List ExternVal) (inherited : ContextRef) (choice : ContextChoice) :
    (∀ error, s.store.Refuses name externs m error ∨
        s.store.Overruns name externs m error →
      ∃ s', ∀ bound,
        Engine.perform (bound + 1) inherited (.instantiate m name externs choice) s =
          .error error s') ∧
    ∀ bound error s',
      Engine.perform bound inherited (.instantiate m name externs choice) s =
        .error error s' →
      (error.IsRefusal → s.store.Refuses name externs m error ∧ s.ComesTo s.store s') ∧
      (error.IsOverrun → s.store.Overruns name externs m error ∧ ∃ module added inst,
        m = some module ∧ s.store.Adds module name externs s'.store added inst ∧
        s'.hostCalls = s.hostCalls) := by
  have hopened := Session.ComesTo.openContext s inherited choice
  have hstore := hopened.store
  constructor
  · intro error herror
    exact Engine.exists_perform_instantiate_eq_error herror
  · intro bound error s' hperform
    have hends := Operation.prepareEnds (s.openContext inherited choice).2
      name externs m
    constructor
    · intro hrefusal
      rw [Engine.prepare_of_perform_instantiate hperform (.inl hrefusal)] at hends
      cases hends with
      | refused hrefuses hs' =>
          rw [hstore] at hrefuses hs'
          exact ⟨hrefuses, hopened.trans hs'⟩
      | overrun | crashed | noEngine => exact hrefusal.elim
    · intro hoverrun
      rw [Engine.prepare_of_perform_instantiate hperform (.inr hoverrun)] at hends
      cases hends with
      | refused hrefuses => cases hrefuses <;> exact hoverrun.elim
      | @overrun module _ _ inst _ _ hadmits hsegments hs' =>
          rw [hstore] at hadmits
          obtain ⟨added, hadds⟩ :=
            Store.exists_adds hadmits.valid hadmits.link hadmits.allocate
          rw [← hs'.store] at hadds
          exact ⟨.segment hadmits hsegments, module, added, inst, rfl, hadds,
            (hopened.trans hs').hostCalls⟩
      | crashed | noEngine => exact hoverrun.elim

end Session

/-- A module whose second element segment, at the offset of one of its globals, does not
fit the table that it imports. -/
def Module.overlong : Module where
  types := [some ⟨[], []⟩, some ⟨[.i32], []⟩]
  imports := [some ⟨"host", "table", .table (some ⟨TableType.funcref, some ⟨1, none⟩⟩)⟩]
  functions := [1, 0]
  memories := [some ⟨1, some 2⟩]
  globals := [some ⟨some ⟨.i32, false⟩, some (.const .i32 1)⟩,
    some ⟨some ⟨.i32, true⟩, some (.globalGet 0)⟩]
  exports := [some ⟨.memory, "memory", 0⟩, some ⟨.func, "run", 1⟩,
    some ⟨.func, "again", 1⟩]
  elements := [some ⟨0, some (.const .i32 0), [0]⟩, some ⟨0, some (.globalGet 0), [1]⟩]
  code := [some ⟨[.i64], []⟩, some ⟨[], [.nop]⟩]
  data := [some ⟨0, some (.const .i32 0), [7]⟩]

namespace Session

def slotted : Session :=
  (({ store := ({} : Config).newStore false } : Session).step 1
    (.allocTable (some ⟨TableType.funcref, some ⟨1, none⟩⟩))).2

/-- The overlong module fails over its second segment, and the first one has not been
written. -/
theorem overlong_leaves_slot_empty :
    ∃ error s', (∀ bound, Engine.perform (bound + 1) .background
        (.instantiate (some .overlong) "overlong" [⟨.table, 0⟩] .background) slotted =
          .error error s') ∧
      slotted.store.Overruns "overlong" [⟨.table, 0⟩] (some .overlong) error ∧
      (∃ added inst, slotted.store.Adds .overlong "overlong" [⟨.table, 0⟩] s'.store
        added inst) ∧
      s'.store.tables.map (·.slots) = #[#[none]] ∧
      s'.store.functions.map (·.name) = #["overlong.$0", "overlong.run"] ∧
      s'.store.globals.map (·.value) = #[.ofU32 1, .ofU32 1] := by
  have hfails : (match Engine.perform 1 .background
      (.instantiate (some .overlong) "overlong" [⟨.table, 0⟩] .background) slotted with
      | .error (.instantiation _ (.segment _)) s' =>
            s'.store.tables.map (·.slots) == #[#[none]] &&
          s'.store.functions.map (·.name) == #["overlong.$0", "overlong.run"] &&
          s'.store.globals.map (·.value) == #[.ofU32 1, .ofU32 1]
      | _ => false) = true := by decide +kernel
  obtain ⟨hfailure, hatomic⟩ :=
    failed_instantiation_atomic slotted (some .overlong) "overlong" [⟨.table, 0⟩]
      .background .background
  split at hfails
  · rename_i s' hperform
    simp only [Bool.and_eq_true, beq_iff_eq] at hfails
    obtain ⟨⟨hslots, hnames⟩, hvalues⟩ := hfails
    obtain ⟨hoverruns, module, added, inst, hmodule, hadds, -⟩ :=
      (hatomic 1 _ s' hperform).2 trivial
    obtain rfl := Option.some.inj hmodule
    obtain ⟨t, ht⟩ := hfailure _ (.inr hoverruns)
    obtain ⟨-, rfl⟩ := EStateM.Result.error.inj (hperform.symm.trans (ht 0))
    exact ⟨_, s', ht, hoverruns, ⟨added, inst, hadds⟩, hslots, hnames, hvalues⟩
  · cases hfails

end Session

namespace Store

variable {s s' : Store} {m : Module} {name : String} {externs : List ExternVal}
  {inst : ModuleInst}

/-- An element segment is written into slots of its table: no sum of the offset and a
position wraps around or lies behind the last slot. -/
def ElementFits (s : Store) (inst : ModuleInst) (e : ElementSegment) : Prop :=
  ∃ offset addr t, s.segmentOffset inst e.offset = some offset ∧
    elementTarget inst e = some addr ∧
    s.tables[addr.toNat]? = some t ∧ ∀ i < e.init.length,
      (offset + UInt32.ofNat i).toNat = offset.toNat + i ∧
      offset.toNat + i < t.slots.size

theorem elementFits_of_check
    {e : ElementSegment} {index : Nat} {u : Unit}
    (h : s.checkElementSegment inst index (some e) = .ok u) : s.ElementFits inst e := by
  simp only [checkElementSegment, Attempt.bind_eq_ok, Attempt.present_eq_ok,
    Option.some.injEq, Attempt.require_eq_ok, decide_eq_true_eq] at h
  obtain ⟨_, rfl, offset, hoffset, addr, haddr, t, ht, hfit⟩ := h
  refine ⟨offset, addr, t, hoffset, haddr, ht, fun i hi => ?_⟩
  have hbound := t.size.toNat_lt
  have hsize : t.size.toNat ≤ t.slots.size := by
    rw [TableInst.size, UInt32.toNat_ofNat']
    exact Nat.mod_le _ _
  have hposition : (UInt32.ofNat i).toNat = i :=
    UInt32.toNat_ofNat_of_lt' (by rw [UInt32.size]; omega)
  rw [UInt32.toNat_add, hposition, Nat.mod_eq_of_lt (by omega)]
  exact ⟨rfl, by omega⟩

theorem elementFits_of_checkSegments
    {u : Unit} (h : s.checkSegments inst m = .ok u) :
    ∀ e, some e ∈ m.elements → s.ElementFits inst e := by
  intro e he
  obtain ⟨_, helements, -⟩ := Attempt.bind_eq_ok.mp h
  obtain ⟨index, hindex⟩ := List.getElem?_of_mem he
  exact elementFits_of_check (Attempt.forEach_eq_ok.mp helements index _ hindex)

end Store

namespace Operation

/-- The preparation of a module has come to its start function, if there is one, and
this can be called. -/
def ReachesStart (m : Module) (result : ModuleInst × Option UInt32)
    (s : Session) : Prop :=
  match m.start with
  | none => result.2 = none
  | some index =>
    ∃ function, result.2 = some function ∧
      result.1.functions[index.toNat]? = some function ∧
      function.toNat < s.store.functions.size ∧ s.store.engine ≠ none

theorem PrepareEnds.reachesStart
    {s s' : Session} {m : Module} {name : String} {externs : List ExternVal}
    {result : ModuleInst × Option UInt32}
    (h : PrepareEnds s name externs (some m) (.ok result s')) :
    ReachesStart m result s' := by
  cases h with
  | @prepared _ imports allocated inst applied start _ hadmits hsegments happly hstart
      hengine hs' =>
      unfold ReachesStart
      cases hindex : m.start with
      | none =>
          rw [hindex] at hstart
          exact hstart
      | some index =>
          obtain ⟨hsome, hengine⟩ := hengine (by simp [hindex])
          rw [hindex] at hstart
          obtain ⟨function, hfunction⟩ := Option.ne_none_iff_exists'.mp hsome
          have hlookup : inst.functions[index.toNat]? = some function :=
            hstart.symm.trans hfunction
          have hlink := Store.link_eq_ok_iff.mp hadmits.link
          have hcovers := Store.covers_of_allocate
            (Module.valid_of_validate hadmits.valid) hlink hadmits.allocate
          have hevolves : Store.Evolves .trivial False False allocated applied :=
            Store.evolves_of_applySegments happly (hcovers.range .func)
          have hlt := hcovers.range .func function (List.mem_of_getElem? hlookup)
          refine ⟨function, hfunction, hlookup, ?_, hs'.store ▸ hengine⟩
          rw [hs'.store]
          exact Nat.lt_of_lt_of_le hlt hevolves.extension.functions.size_le

end Operation

namespace Session

theorem Reachable.type_ne_none
    {law : ValueLaw} {total : Prop} {s : Session} (h : s.Reachable law total)
    (hlaw : law.isTyped) : ∀ f ∈ s.store.functions, f.type ≠ none := by
  obtain ⟨store, hnew, hleads⟩ := h
  exact (hleads.evolves hnew.lawful).type_ne_none hlaw (by simp [hnew.functions])

/-- Validation and instantiation never crash.  Validation ends regularly for any module
at all.  Where every function of the store has a type, as it is after any public
operations, the preparation of any module with any extern values comes to the start
function or fails for a reason; and once the segments have been checked, they are
written without a slot that is missing. -/
theorem instantiation_never_crashes :
    (∀ (m : Module) (features : Features), m.validate features ≠ .error .crash) ∧
    (∀ s : Session, s.Reachable .typed False → ∀ f ∈ s.store.functions, f.type ≠ none) ∧
    ∀ (s : Session) (m : Module) (name : String) (externs : List ExternVal),
      (∀ f ∈ s.store.functions, f.type ≠ none) → m.HasCountableData →
      Ends (Operation.prepare (some m) name externs) s (Operation.ReachesStart m)
        (fun error _ => error ≠ .crash) ∧
      ∀ imports allocated inst, s.store.Admits m name externs imports allocated inst →
        allocated.checkSegments inst m = .ok () →
          (∀ e, some e ∈ m.elements → allocated.ElementFits inst e) ∧
          ∃ applied, allocated.applySegments inst m = some applied := by
  refine ⟨Module.safe_validate, fun s h => h.type_ne_none trivial, ?_⟩
  intro s m name externs htypes hdata
  have hprepares : s.store.Prepares m name externs := Store.prepares htypes hdata
  constructor
  · have hends := @Operation.prepare_ends .trivial False True (some m) name externs s
      fun _ _ hm => Option.some.inj hm ▸ hprepares
    have houtcome := Operation.prepareEnds s name externs (some m)
    unfold Ends at hends ⊢
    split at hends
    · rename_i hprepare
      rw [hprepare] at houtcome
      exact houtcome.reachesStart
    · exact hends.2 trivial
  · intro imports allocated inst hadmits hsegments
    refine ⟨Store.elementFits_of_checkSegments hsegments,
      Option.isSome_iff_exists.mp ?_⟩
    exact hprepares.apply imports allocated inst hadmits.valid hadmits.link
      hadmits.allocate hsegments

end Session

/-- A module that imports a function, puts it into the last slot of a table of its own,
and has a start function. -/
def Module.filler : Module where
  types := [some ⟨[.i32], [.i32]⟩, some ⟨[], []⟩]
  imports := [some ⟨"host", "echo", .func 0⟩]
  functions := [1]
  tables := [some ⟨TableType.funcref, some ⟨2, none⟩⟩]
  code := [some ⟨[], []⟩]
  elements := [some ⟨0, some (.const .i32 1), [0]⟩]
  start := some 1

namespace Session

/-- The filler module comes to its start function, and its segment fits. -/
theorem filler_never_crashes :
    Ends (Operation.prepare (some .filler) "filler" [⟨.func, 0⟩]) relay
      (fun result s' => Operation.ReachesStart .filler result s' ∧
        ∃ imports allocated inst applied,
        relay.store.Admits .filler "filler" [⟨.func, 0⟩] imports allocated inst ∧
        (∀ e, some e ∈ Module.filler.elements → allocated.ElementFits inst e) ∧
        allocated.applySegments inst .filler = some applied)
      fun _ _ => False := by
  have hruns : (match Operation.prepare (some .filler) "filler" [⟨.func, 0⟩] relay with
      | .ok _ _ => true
      | .error _ _ => false) = true := by decide +kernel
  obtain ⟨-, htypes, hnever⟩ := instantiation_never_crashes
  have hdata : Module.filler.HasCountableData := nofun
  obtain ⟨hends, hfits⟩ := hnever relay .filler "filler" [⟨.func, 0⟩]
    (htypes relay (reachable_relay .typed False)) hdata
  have houtcome := Operation.prepareEnds relay "filler" [⟨.func, 0⟩] (some .filler)
  unfold Ends at hends ⊢
  split at hruns
  · rename_i hprepare
    rw [hprepare] at hends houtcome
    rw [hprepare]
    refine ⟨hends, ?_⟩
    cases houtcome with
    | prepared hadmits hsegments happly =>
        exact ⟨_, _, _, _, hadmits, (hfits _ _ _ hadmits hsegments).1, happly⟩
  · cases hruns

end Session
end WebAssembly
