import WebAssembly.Proofs.WellFormed

/-!
# Typed stores

A store is typed if every function of a module has a body that is derivable in a context
which the function's module instance realizes, and every host function keeps its
promise.  Each change of a store keeps it typed, as long as addresses do not wrap
around.
-/

namespace WebAssembly

/-- The function has a type, its module instance realizes a context, and its body is
derivable there. -/
def FuncInst.HasCode (s : Store) (f : FuncInst) : Prop :=
  ∃ type inst c, f.type = some type ∧ s.modules[f.module.toNat]? = some inst ∧
    s.Realizes c inst ∧
    BodyHasType (c.inFunction type f.locals) f.body [] type.results

/-- The function is what its kind says. -/
def FuncInst.Typed (law : ValueLaw) (total : Prop) (s : Store) (f : FuncInst) : Prop :=
  match f.kind with
  | .wasm => f.HasCode s
  | .host => f.HostLawful law total
  | .reserved _ => False

/-- The store is well-formed, its globals have values of their types, and its functions
are what their kinds say. -/
structure Store.Typed (law : ValueLaw) (total : Prop) (s : Store) : Prop where
  lawful : s.Lawful law
  wellFormed : s.WellFormed
  globals : s.GlobalsTyped
  functions : ∀ f ∈ s.functions, f.Typed law total s

theorem FuncInst.HasCode.of_extends
    {guarded : Prop} {s s' : Store} {f : FuncInst} (h : f.HasCode s)
    (hext : s.Extends guarded s') :
    f.HasCode s' := by
  obtain ⟨type, inst, c, htype, hinst, hrealizes, hbody⟩ := h
  obtain ⟨_, hinst', rfl⟩ := hext.modules _ _ hinst
  exact ⟨type, inst, c, htype, hinst', hext.realizes hrealizes, hbody⟩

theorem FuncInst.Typed.of_extends
    {law : ValueLaw} {guarded total : Prop} {s s' : Store} {f : FuncInst}
    (h : f.Typed law total s) (hext : s.Extends guarded s') : f.Typed law total s' := by
  unfold FuncInst.Typed at h ⊢
  split at h
  · exact h.of_extends hext
  · exact h
  · exact h

theorem FuncInst.Typed.type_ne_none
    {law : ValueLaw} {total : Prop} {s : Store} {f : FuncInst} (h : f.Typed law total s)
    (htotal : total) :
    f.type ≠ none := by
  unfold FuncInst.Typed at h
  split at h
  · obtain ⟨type, _, _, htype, -⟩ := h
    simp [htype]
  · exact Option.isSome_iff_ne_none.mp (h.isPresent htotal).1
  · exact h.elim

theorem Module.Valid.isNumeric
    {m : Module} {features : Features} {imports : List ExternType}
    (hvalid : m.Valid (.ofModule m features) imports) :
    (Context.ofModule m features).IsNumeric where
  types := by
    intro type htype
    obtain ⟨_, ⟨⟩, hnumeric⟩ := hvalid.types _ htype
    exact hnumeric
  globals := by
    intro type htype
    rw [Context.ofModule, Module.globalSpace_eq] at htype
    rcases List.mem_append.mp htype with himported | hown
    · obtain ⟨desc, hdesc, hglobal⟩ := List.mem_filterMap.mp himported
      obtain ⟨needed, hneeded⟩ :=
        Module.exists_hasType_of_mem (Module.forall₂_importDescs hvalid.imports) hdesc
      cases desc with
      | global entry =>
          obtain rfl : entry = some type := Option.some.inj hglobal
          cases needed with
          | global type' =>
              obtain ⟨⟨⟩, hnumber⟩ := hneeded
              exact hnumber
          | _ => exact hneeded.elim
      | _ => cases hglobal
    · obtain ⟨entry, hentry, htype⟩ := List.mem_map.mp hown
      obtain ⟨i, hi⟩ := List.getElem?_of_mem hentry
      obtain ⟨global, type', _, rfl, htype', hnumber, -⟩ := hvalid.globals i entry hi
      obtain rfl : type' = type := Option.some.inj (htype'.symm.trans htype)
      exact hnumber
  locals := numeric_nil
  labels := by simp [Context.ofModule]
  returns := numeric_nil

namespace Store

variable {law : ValueLaw} {guarded total : Prop} {s s' : Store} {m : Module}
  {name : String} {externs : List ExternVal} {inst : ModuleInst} {added : Additions}
  {imports : List ExternType}

theorem Allocation.hasCode
    (h : s.Allocation m name externs inst added)
    (hvalid : m.Valid (.ofModule m s.features) imports)
    (hinst : s'.modules[s.nextModule.toNat]? = some inst)
    (hrealizes : s'.Realizes (.ofModule m s.features) inst) :
    ∀ f ∈ added.functions, f.kind = .wasm ∧ f.HasCode s' := by
  intro f hf
  obtain ⟨position, index, code, entry, functionName, hindex, hcode, hentry, rfl⟩ :=
    h.exists_code f hf
  obtain ⟨code', type, hcode', htype, hlocals, hcheck⟩ :=
    hvalid.functions position index hindex
  obtain rfl : code = code' := by simpa [hcode] using hcode'
  obtain rfl : entry = some type := Option.some.inj (hentry.symm.trans htype)
  obtain ⟨_, ⟨⟩, hnumeric⟩ := hvalid.types _ (List.mem_of_getElem? htype)
  have hcontext := hvalid.isNumeric.inFunction hnumeric hlocals
  have hbody := (Context.decides code.body hcontext numeric_nil hnumeric.2).mp hcheck
  exact ⟨rfl, type, inst, _, rfl, h.addr ▸ hinst, hrealizes, hbody⟩

theorem Allocation.type_ne_none
    (h : s.Allocation m name externs inst added)
    (hvalid : m.Valid (.ofModule m s.features) imports) :
    ∀ f ∈ added.functions, f.type ≠ none := by
  intro f hf
  obtain ⟨position, index, code, entry, functionName, hindex, -, hentry, rfl⟩ :=
    h.exists_code f hf
  obtain ⟨_, type, -, htype, -⟩ := hvalid.functions position index hindex
  obtain rfl : entry = some type := Option.some.inj (hentry.symm.trans htype)
  exact nofun

/-- Where host functions come with their types, every function has one. -/
theorem Change.type_ne_none
    (h : Change law guarded total s s') (hlaw : law.isTyped)
    (hs : ∀ f ∈ s.functions, f.type ≠ none) : ∀ f ∈ s'.functions, f.type ≠ none := by
  cases h with
  | assign | splice | growMemory | refill | growTable => exact hs
  | addFunction hhost =>
      intro f hf
      rcases Array.mem_push.mp hf with hmem | rfl
      · exact hs f hmem
      · exact hhost.type_ne_none hlaw
  | addTable halloc =>
      obtain ⟨t, limits, -, -, -, rfl⟩ := allocTable_eq_ok halloc
      exact hs
  | addMemory halloc =>
      obtain ⟨limits, -, rfl⟩ := allocMemory_eq_ok halloc
      exact hs
  | addGlobal halloc =>
      obtain ⟨t, -, -, rfl⟩ := allocGlobal_eq_ok halloc
      exact hs
  | link hvalid _ _ halloc =>
      obtain ⟨added, hadded, rfl⟩ := exists_allocation halloc
      intro f hf
      rcases mem_append_list.mp hf with hold | hnew
      · exact hs f hold
      · exact hadded.type_ne_none (Module.valid_of_validate hvalid) f hnew

theorem Evolves.type_ne_none
    (h : Evolves law guarded total s s') (hlaw : law.isTyped)
    (hs : ∀ f ∈ s.functions, f.type ≠ none) : ∀ f ∈ s'.functions, f.type ≠ none := by
  induction h with
  | refl => exact hs
  | tail _ hchange ih => exact hchange.type_ne_none hlaw ih

theorem Typed.link
    (hs : s.Typed law total) (hvalid : m.validate s.features = .ok imports)
    (hlink : s.link imports externs = .ok ())
    (halloc : s.allocate m name externs = some (s', inst)) (haddr : s'.Addressable) :
    ∀ f ∈ s'.functions, f.Typed law total s' := by
  have hvalid := Module.valid_of_validate hvalid
  have hlink := link_eq_ok_iff.mp hlink
  have hext : s.Extends False s' := .allocate halloc
  obtain ⟨added, hadded, rfl⟩ := exists_allocation halloc
  have hmodule : (s.extend added).Extends False ((s.extend added).addModule inst) := by
    have hrefl : (s.extend added).Extends False (s.extend added) := .refl _
    exact { hrefl with modules := .push fun _ => rfl }
  have hrealizes := hmodule.realizes
    (hadded.realizes hvalid hlink hs.globals haddr.functions haddr.globals)
  have hinst : ((s.extend added).addModule inst).modules[s.nextModule.toNat]? =
      some inst := by
    have hsize := haddr.modules
    rw [addModule, Array.size_push] at hsize
    have hnext : s.nextModule.toNat = s.modules.size :=
      UInt32.toNat_ofNat_of_lt' (Nat.lt_of_succ_le hsize)
    rw [hnext]
    exact Array.getElem?_push_size
  intro f hf
  rcases mem_append_list.mp hf with hold | hnew
  · exact (hs.functions f hold).of_extends hext
  · obtain ⟨hkind, hcode⟩ := hadded.hasCode hvalid hinst hrealizes f hnew
    unfold FuncInst.Typed
    rw [hkind]
    exact hcode

/-- Every change keeps a store typed. -/
theorem Change.typed
    (h : Change law guarded total s s') (haddr : s'.Addressable)
    (hs : s.Typed law total) :
    s'.Typed law total := by
  have hlawful := h.lawful hs.lawful
  have hext := h.extension
  refine ⟨hlawful, h.wellFormed hs.wellFormed, h.globalsTyped haddr.globals hs.globals,
    ?_⟩
  have hold (f : FuncInst) (hf : f ∈ s.functions) : f.Typed law total s' :=
    (hs.functions f hf).of_extends hext
  cases h with
  | assign | splice | growMemory | refill | growTable => exact hold
  | addFunction hhost =>
      intro f hf
      rcases Array.mem_push.mp hf with hmem | rfl
      · exact hold f hmem
      · exact hhost
  | addTable halloc =>
      obtain ⟨t, limits, -, -, -, rfl⟩ := allocTable_eq_ok halloc
      exact hold
  | addMemory halloc =>
      obtain ⟨limits, -, rfl⟩ := allocMemory_eq_ok halloc
      exact hold
  | addGlobal halloc =>
      obtain ⟨t, -, -, rfl⟩ := allocGlobal_eq_ok halloc
      exact hold
  | link hvalid hlink _ halloc => exact hs.link hvalid hlink halloc haddr

theorem Evolves.typed
    (h : Evolves law guarded total s s') (haddr : s'.Addressable)
    (hs : s.Typed law total) :
    s'.Typed law total :=
  h.induct (fun _ _ => Extends.addressable)
    (fun _ _ haddr hchange => hchange.typed haddr) haddr hs

/-- A host function of the store has the name of the call and takes arguments of the
types that it was given. -/
def AdmitsCall (s : Store) (call : String × List Val) : Prop :=
  ∃ f ∈ s.functions, f.kind = .host ∧ f.name = call.1 ∧
    ∃ type, f.type = some type ∧ call.2.map Val.type = type.params

theorem AdmitsCall.of_extends
    {call : String × List Val} (h : s.AdmitsCall call) (hext : s.Extends guarded s') :
    s'.AdmitsCall call := by
  obtain ⟨f, hf, hcall⟩ := h
  obtain ⟨i, hi, rfl⟩ := Array.getElem_of_mem hf
  obtain ⟨_, hi', rfl⟩ := hext.functions i _ (Array.getElem?_eq_getElem hi)
  exact ⟨_, Array.mem_of_getElem? hi', hcall⟩

end Store

/-- The store of the session is typed and came from the base by guarded changes, and
host functions were called with arguments of their declared types only. -/
structure Session.Sound (law : ValueLaw) (total : Prop) (base : Store)
    (s : Session) : Prop where
  addressable : s.store.Addressable
  typed : s.store.Typed law total
  evolves : Store.Evolves law True total base s.store
  calls : ∀ call ∈ s.hostCalls, s.store.AdmitsCall call

namespace Session.Sound

variable {law : ValueLaw} {total : Prop} {base store : Store} {s s' : Session}

theorem moves
    (hs : s.Sound law total base) (h : s.Moves law True total s')
    (haddr : s'.store.Addressable) :
    s'.Sound law total base where
  addressable := haddr
  typed := h.store.typed haddr hs.typed
  evolves := hs.evolves.trans h.store
  calls := by
    intro call hcall
    rw [h.hostCalls] at hcall
    exact (hs.calls call hcall).of_extends h.store.extension

theorem change
    (hs : s.Sound law total base) (h : Store.Change law True total s.store store)
    (haddr : store.Addressable) :
    (s.withStore store).Sound law total base :=
  hs.moves ⟨.tail (.refl _) h, rfl⟩ haddr

/-- A host function of the store may be called with arguments of its declared types. -/
theorem hostCall
    {name : String} {params : List Val} (hs : s.Sound law total base)
    (h : s.store.AdmitsCall (name, params)) :
    (s.observe (.hostCall name params)).Sound law total base where
  addressable := hs.addressable
  typed := hs.typed
  evolves := hs.evolves
  calls := by
    intro call hcall
    have hcalls : call = (name, params) ∨ call ∈ s.hostCalls := by
      simpa [Session.hostCalls, Session.observe] using hcall
    rcases hcalls with rfl | hold
    · exact h
    · exact hs.calls call hold

end Session.Sound
end WebAssembly
