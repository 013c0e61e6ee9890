import WebAssembly.Proofs.Linking

/-!
# Commands that need no engine

Each of them is answered with lawful values and changes the store by known steps,
whether it succeeds or fails.  Under a total law none of them crashes unless something
is left out.
-/

namespace WebAssembly

variable {law : ValueLaw} {guarded total : Prop}

namespace Session.Moves

variable {s s' : Session}

theorem refl (s : Session) : s.Moves law guarded total s :=
  ⟨.refl s.store, rfl⟩

theorem withStore
    {store : Store} (h : Store.Change law guarded total s.store store) :
    s.Moves law guarded total (s.withStore store) :=
  ⟨.tail (.refl s.store) h, rfl⟩

end Session.Moves

theorem Session.moves_cancel (s : Session) : s.Moves law guarded total s.cancel := by
  unfold Session.cancel
  split <;> exact ⟨.refl s.store, rfl⟩

theorem Session.moves_openContext (s : Session) (inherited : ContextRef)
    (choice : ContextChoice) :
    s.Moves law guarded total (s.openContext inherited choice).2 := by
  cases choice <;> exact ⟨.refl s.store, rfl⟩

namespace Operation

section Access

variable {α ε : Type} {s : Session} {Q : α → Session → Prop}
  {E : Error → Session → Prop}

theorem ends_read
    {access : Store → Except AccessError α} (hok : ∀ a, access s.store = .ok a → Q a s)
    (herror : ∀ cause, access s.store = .error cause → E (.access cause) s) :
    Ends (read access) s Q E := by
  unfold Ends read
  cases haccess : access s.store with
  | ok a => exact hok a haccess
  | error cause => exact herror cause haccess

theorem ends_write
    {access : Store → Except AccessError Store} {Q : Unit → Session → Prop}
    (hok : ∀ store, access s.store = .ok store → Q () (s.withStore store))
    (herror : ∀ cause, E (.access cause) s) : Ends (write access) s Q E := by
  unfold Ends write
  cases haccess : access s.store with
  | ok store => exact hok store haccess
  | error cause => exact herror cause

theorem ends_grow
    {access : Store → Except AccessError (Option (UInt32 × Store))}
    {Q : Option UInt32 → Session → Prop}
    (hgrown : ∀ size store, access s.store = .ok (some (size, store)) →
      Q (some size) (s.withStore store)) (hrefused : Q none s) (herror :
        ∀ cause, E (.access cause) s) : Ends (grow access) s Q E := by
  unfold Ends grow
  cases haccess : access s.store with
  | ok result =>
      cases result with
      | none => exact hrefused
      | some grown => exact hgrown grown.1 grown.2 haccess
  | error cause => exact herror cause

theorem ends_alloc
    {account : ε → Error} {attempt : Store → Attempt ε (UInt32 × Store)}
    {Q : UInt32 → Session → Prop}
    (hok : ∀ addr store, attempt s.store = .ok (addr, store) →
      Q addr (s.withStore store)) (hcause :
        ∀ cause, attempt s.store = .error (.cause cause) → E (account cause) s)
    (hcrash : attempt s.store = .error .crash → E .crash s) :
    Ends (alloc account attempt) s Q E := by
  refine Ends.get_bind (ends_ofAttempt_bind ?_ hcause hcrash)
  rintro ⟨addr, store⟩ hattempt
  exact hok addr store hattempt

theorem ends_present
    {entry : Option α} (hsome : ∀ a, entry = some a → Q a s)
    (hnone : entry = none → E .crash s) :
    Ends (present entry) s Q E := by
  cases entry with
  | none => exact hnone rfl
  | some a => exact hsome a rfl

theorem findExport_ends
    {module : UInt32} {name : String} {kind : ExternKind}
    {Q : ExternVal → Session → Prop} (hok : ∀ val, val.kind = kind → Q val s)
    (hexport : ∀ cause, E (.exported cause) s)
    (haccess : ∀ cause, E (.access cause) s) :
    Ends (findExport module name kind) s Q E := by
  refine Ends.bind (P := fun _ s' => s' = s) (ends_read (fun _ _ => rfl)
    fun cause _ => haccess cause) ?_
  rintro inst _ rfl
  unfold ModuleInst.findExport
  split
  · rename_i val hval
    split at hval
    · cases hval
    · split at hval
      · obtain rfl := Except.ok.inj hval
        exact hok _ ‹_›
      · cases hval
  · exact hexport _

end Access

end Operation

namespace Store

variable {s s' : Store}

theorem globalSet_eq_ok
    {addr : UInt32} {v : Val} (hv : law.Holds v) (h : s.globalSet addr v = .ok s') :
    Change law guarded total s s' := by
  obtain ⟨g, hglobal, h⟩ := Attempt.bind_eq_ok.mp h
  by_cases hmutable : g.type.isMutable = true
  · by_cases htype : v.type = g.type.value
    · obtain rfl : s.setGlobal addr { g with value := v } = s' := by
        simpa [hmutable, htype, Attempt.pure_eq_ok] using h
      exact .assign hglobal (fun _ => hmutable) htype hv
    · simp only [hmutable, Bool.not_true, Bool.false_eq_true, ↓reduceIte, ne_eq, htype,
        not_false_eq_true, Attempt.bind_eq_ok, Attempt.throw_ne_ok, false_and,
        exists_const] at h
  · simp [hmutable, Attempt.bind_eq_ok, Attempt.throw_ne_ok] at h

/-- The failure of an allocation of a global is never a crash once its type is given. -/
theorem allocGlobal_some_eq_error
    {type : GlobalType} {v : Val} {failure : Failure Error}
    (h : s.allocGlobal (some type) v = .error failure) :
    ∃ cause : Error, failure = .cause cause ∧ cause ≠ .crash := by
  unfold allocGlobal at h
  cases hcheck : type.value.check with
  | error failure' =>
      rcases failure' with fault | _
      · refine ⟨.fault fault, ?_, by simp⟩
        simpa [Attempt.present, hcheck, Attempt.mapCause, Attempt.fail, bind,
          Except.bind, eq_comm] using h
      · cases hvalue : type.value <;> simp [hvalue, ValueType.check,
          Attempt.fail] at hcheck
  | ok u =>
      by_cases htype : v.type = type.value
      · simp [Attempt.present, hcheck, Attempt.mapCause, Attempt.require, htype, bind,
          Except.bind, pure, Except.pure] at h
      · refine ⟨.access (.valueType v type.value), ?_, by simp⟩
        simpa [Attempt.present, hcheck, Attempt.mapCause, Attempt.require, htype,
          Attempt.fail, bind, Except.bind, eq_comm] using h

theorem safe_allocTable {type : Option TableType} : (s.allocTable type).Safe := by
  refine TableType.safe_check.bind fun _ hcheck => ?_
  obtain ⟨t, limits, rfl, -, hlimits, -⟩ := TableType.check_eq_ok_iff.mp hcheck
  refine (Attempt.safe_present (by simp)).bind fun t' ht' => ?_
  obtain rfl : t = t' := by simpa [Attempt.present_eq_ok] using ht'
  exact (Attempt.safe_present (by simp [hlimits])).bind fun _ _ => Attempt.safe_ok

theorem safe_allocMemory {limits : Option Limits} : (s.allocMemory limits).Safe :=
  safe_checkMemoryType.bind fun _ _ => Attempt.safe_ok

theorem refill_setIfInBounds
    {addr : UInt32} {t : TableInst} {index : Nat} {content : Option UInt32}
    (htable : s.table addr = .ok t) (hcontent : ∀ function, content = some function →
      function.toNat < s.functions.size) :
    Change law guarded total s
      (s.setTable addr { t with slots := t.slots.setIfInBounds index content }) := by
  refine .refill htable (by simp) fun i function hi => ?_
  rw [Array.getElem?_setIfInBounds] at hi
  by_cases hindex : index = i
  · simp only [hindex, ↓reduceIte, ite_eq_iff, Option.some.injEq, reduceCtorEq,
      and_false, or_false] at hi
    exact .inr (hcontent function hi.2)
  · exact .inl (by simpa [hindex] using hi)

theorem tableSet_eq_ok
    {addr index : UInt32} {content : Option UInt32}
    (h : s.tableSet addr index content = .ok s') :
    Change law guarded total s s' := by
  obtain ⟨t, htable, h⟩ := Attempt.bind_eq_ok.mp h
  by_cases hindex : t.slots.size ≤ index.toNat
  · simp [hindex, Attempt.bind_eq_ok, Attempt.throw_ne_ok] at h
  · simp only [hindex, ↓reduceIte] at h
    cases content with
    | none =>
        obtain rfl := Attempt.pure_eq_ok.mp h
        exact refill_setIfInBounds htable (by simp)
    | some function =>
        obtain ⟨f, hfunction, h⟩ := Attempt.bind_eq_ok.mp h
        obtain rfl := Attempt.pure_eq_ok.mp h
        refine refill_setIfInBounds htable ?_
        rintro _ ⟨⟩
        exact (Array.getElem?_eq_some_iff.mp (lookup_eq_ok_iff.mp hfunction)).1

theorem tableGrow_eq_ok
    {addr delta size : UInt32} (h : s.tableGrow addr delta = .ok (some (size, s'))) :
    Change law guarded total s s' := by
  obtain ⟨t, htable, h⟩ := Attempt.bind_eq_ok.mp h
  obtain ⟨grown, hgrow, hpair⟩ := Option.map_eq_some_iff.mp (Attempt.pure_eq_ok.mp h)
  obtain ⟨-, rfl⟩ := Prod.mk.inj hpair
  exact .growTable htable hgrow

theorem memoryWrite_eq_ok
    {addr offset : UInt32} {bytes : List UInt8}
    (h : s.memoryWrite addr offset bytes = .ok s') :
    Change law guarded total s s' := by
  obtain ⟨m, hmemory, h⟩ := Attempt.bind_eq_ok.mp h
  unfold MemInst.write? at h
  split at h
  · rename_i written hwritten
    split at hwritten
    · obtain rfl := Option.some.inj hwritten
      obtain rfl := Attempt.pure_eq_ok.mp h
      exact .splice hmemory
    · cases hwritten
  · exact absurd h Attempt.throw_ne_ok

theorem memoryGrow_eq_ok
    {addr delta size : UInt32} (h : s.memoryGrow addr delta = .ok (some (size, s'))) :
    Change law guarded total s s' := by
  obtain ⟨m, hmemory, h⟩ := Attempt.bind_eq_ok.mp h
  obtain ⟨grown, hgrow, hpair⟩ := Option.map_eq_some_iff.mp (Attempt.pure_eq_ok.mp h)
  obtain ⟨-, rfl⟩ := Prod.mk.inj hpair
  exact .growMemory hmemory hgrow

end Store

namespace Operation

/-- What an answer is like: the response is lawful and the session has moved by known
steps. -/
def Answers (law : ValueLaw) (guarded total : Prop) (s : Session) (response : Response)
    (s' : Session) : Prop :=
  response.Lawful law ∧ s.Moves law guarded total s'

/-- What a refusal is like: the session has moved by known steps.  It is no crash if
nothing is left out. -/
def Refuses (law : ValueLaw) (guarded total complete : Prop) (s : Session)
    (error : Error) (s' : Session) : Prop :=
  s.Moves law guarded total s' ∧ (total → complete → error ≠ .crash)

variable {s : Session}

theorem answer_allocFunction
    {name : String} {type : Option FuncType} {host : Option HostFunction}
    (hhost : FuncInst.HostLawful law total { kind := .host, type, name, host })
    {complete : Prop} :
    Ends (answer (.allocFunction name type host)) s (Answers law guarded total s)
      (Refuses law guarded total complete s) :=
  ⟨trivial, .withStore (.addFunction hhost)⟩

theorem answer_allocGlobal
    {type : Option GlobalType} {v : Val} (hv : law.Holds v) :
    Ends (answer (.allocGlobal type v)) s (Answers law guarded total s)
      (Refuses law guarded total (Command.IsComplete (.allocGlobal type v)) s) := by
  refine Ends.map (ends_alloc ?_ ?_ ?_)
  · intro addr store halloc
    exact ⟨trivial, .withStore (.addGlobal halloc hv)⟩
  · intro cause hcause
    refine ⟨.refl s, fun _ hcomplete => ?_⟩
    cases type with
    | none => exact hcomplete.elim
    | some type =>
        obtain ⟨cause', heq, hne⟩ := Store.allocGlobal_some_eq_error hcause
        obtain rfl : cause = cause' := by simpa using heq
        exact hne
  · intro hcrash
    refine ⟨.refl s, fun _ hcomplete => ?_⟩
    cases type with
    | none => exact hcomplete.elim
    | some type =>
        obtain ⟨cause', heq, -⟩ := Store.allocGlobal_some_eq_error hcrash
        cases heq

theorem refuses_access
    {complete : Prop} {cause : AccessError} :
    Refuses law guarded total complete s (.access cause) s :=
  ⟨.refl s, fun _ _ => by simp⟩

theorem answers_refl
    {response : Response} (h : response.Lawful law) :
    Answers law guarded total s response s :=
  ⟨h, .refl s⟩

/-- A command that needs no engine is answered lawfully and moves the session by known
steps. -/
theorem answer_ends
    {command : Command} (hcommand : command.Lawful law total) (hs : s.store.Lawful law)
    (htypes : total → ∀ f ∈ s.store.functions, f.type ≠ none) :
    Ends (answer command) s (Answers law guarded total s)
      (Refuses law guarded total command.IsComplete s) := by
  cases hcommand with
  | invoke | call => exact answers_refl trivial
  | allocGlobal hv => exact answer_allocGlobal hv
  | allocFunction hpresent htype hany htyped =>
      exact answer_allocFunction ⟨hpresent, htype, hany, htyped⟩
  | globalSet hv =>
      refine Ends.bind (P := fun _ s' => s.Moves law guarded total s') (ends_write ?_
        fun _ => refuses_access)
        fun _ s' hs' => ⟨trivial, hs'⟩
      exact fun store hstore => .withStore (Store.globalSet_eq_ok hv hstore)
  | instantiate => exact answers_refl trivial
  | plain hplain =>
      cases command with
      | findExport module name kind =>
          refine Ends.map (findExport_ends (fun _ _ => answers_refl trivial) ?_
            fun _ => refuses_access)
          exact fun _ => ⟨.refl s, fun _ _ => by simp⟩
      | allocTable type =>
          refine Ends.map (ends_alloc ?_ (fun _ _ => ⟨.refl s, fun _ _ => by simp⟩)
            fun hcrash => absurd hcrash Store.safe_allocTable)
          exact fun addr store halloc => ⟨trivial, .withStore (.addTable halloc)⟩
      | allocMemory limits =>
          refine Ends.map (ends_alloc ?_ (fun _ _ => ⟨.refl s, fun _ _ => by simp⟩)
            fun hcrash => absurd hcrash Store.safe_allocMemory)
          exact fun addr store halloc => ⟨trivial, .withStore (.addMemory halloc)⟩
      | globalGet addr =>
          refine Ends.map (ends_read ?_ fun _ _ => refuses_access)
          intro v hv
          obtain ⟨g, hg, hgv⟩ := Attempt.bind_eq_ok.mp hv
          obtain rfl := Attempt.pure_eq_ok.mp hgv
          exact answers_refl
            (hs.globals g (Array.mem_of_getElem? (Store.lookup_eq_ok_iff.mp hg)))
      | tableSize | tableGet | memorySize | memoryRead | viewTable | viewMemory
      | viewModule =>
          exact Ends.map (ends_read (fun _ _ => answers_refl trivial)
            fun _ _ => refuses_access)
      | tableSet =>
          refine Ends.bind (P := fun _ s' => s.Moves law guarded total s')
            (ends_write ?_ fun _ => refuses_access)
            fun _ s' hs' => ⟨trivial, hs'⟩
          exact fun store hstore => .withStore (Store.tableSet_eq_ok hstore)
      | memoryWrite =>
          refine Ends.bind (P := fun _ s' => s.Moves law guarded total s')
            (ends_write ?_ fun _ => refuses_access)
            fun _ s' hs' => ⟨trivial, hs'⟩
          exact fun store hstore => .withStore (Store.memoryWrite_eq_ok hstore)
      | tableGrow =>
          refine Ends.map (ends_grow ?_ (answers_refl trivial) fun _ => refuses_access)
          exact fun size store hstore =>
            ⟨trivial, .withStore (Store.tableGrow_eq_ok hstore)⟩
      | memoryGrow =>
          refine Ends.map (ends_grow ?_ (answers_refl trivial) fun _ => refuses_access)
          exact fun size store hstore =>
            ⟨trivial, .withStore (Store.memoryGrow_eq_ok hstore)⟩
      | memoryHasSize =>
          exact Ends.bind (ends_read (fun _ _ => .refl s) fun _ _ => refuses_access)
            fun _ s' hs' => ⟨trivial, hs'⟩
      | viewFunction addr =>
          refine Ends.bind (P := fun f s' => s' = s ∧ s.store.function addr = .ok f)
            (ends_read (fun _ hf => ⟨rfl, hf⟩) fun _ _ => refuses_access) ?_
          rintro f _ ⟨rfl, hf⟩
          refine Ends.map (ends_present (fun _ _ => answers_refl trivial) fun hnone =>
            ⟨.refl _, fun htotal _ => ?_⟩)
          have htype := htypes htotal f
            (Array.mem_of_getElem? (Store.lookup_eq_ok_iff.mp hf))
          exact absurd (by simpa [FuncInst.view?] using hnone) htype
      | viewGlobal =>
          refine Ends.map (ends_read ?_ fun _ _ => refuses_access)
          exact fun g hg => answers_refl
            (hs.globals g (Array.mem_of_getElem? (Store.lookup_eq_ok_iff.mp hg)))
      | counts => exact answers_refl trivial
      | cancel => exact ⟨trivial, s.moves_cancel⟩
      | _ => exact hplain.elim

end Operation
end WebAssembly
