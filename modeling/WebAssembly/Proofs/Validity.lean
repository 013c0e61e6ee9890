import WebAssembly.Proofs.Checker

/-!
# Valid modules

What validation has checked once a module passes it, as one structure of facts that says
nothing of the order of the checks.  Validation itself never crashes: each entry that it
takes for granted was checked before.
-/

namespace WebAssembly

/-- The limits lie within a bound and are the right way round. -/
def Limits.Within (limits : Limits) (bound : UInt32) : Prop :=
  limits.min ≤ bound ∧ ∀ max, limits.max = some max → max ≤ bound ∧ limits.min ≤ max

theorem Limits.check_eq_ok_iff
    {limits : Option Limits} {bound : UInt32} {unit : SizeUnit} {u : Unit} :
    Limits.check limits bound unit = .ok u ↔ ∃ l, limits = some l ∧ l.Within bound := by
  simp only [Limits.check, Attempt.bind_eq_ok, Attempt.orFail_eq_ok,
    Attempt.require_eq_ok, exists_const, decide_eq_true_eq, Limits.Within]
  refine exists_congr fun l => and_congr_right fun _ => and_congr_right fun _ => ?_
  cases hmax : l.max with
  | none => simp [Attempt.pure_eq_ok]
  | some max =>
      simp [Attempt.bind_eq_ok, Attempt.require_eq_ok]

theorem Limits.safe_check
    {limits : Option Limits} {bound : UInt32} {unit : SizeUnit} :
    (Limits.check limits bound unit).Safe := by
  refine Attempt.safe_orFail.bind fun l _ => Attempt.safe_require.bind fun _ _ => ?_
  split
  · exact Attempt.safe_ok
  · exact Attempt.safe_require.bind fun _ _ => Attempt.safe_require

theorem TableType.check_eq_ok_iff
    {type : Option TableType} {u : Unit} :
    TableType.check type = .ok u ↔
      ∃ t limits, type = some t ∧ t.element = TableType.funcref ∧
        t.limits = some limits ∧
        limits.Within 0xffffffff := by
  simp only [TableType.check, Attempt.bind_eq_ok, Attempt.orFail_eq_ok,
    Attempt.require_eq_ok, exists_const, decide_eq_true_eq, Limits.check_eq_ok_iff]
  constructor
  · rintro ⟨t, htype, helement, limits, hlimits, hwithin⟩
    exact ⟨t, limits, htype, helement, hlimits, hwithin⟩
  · rintro ⟨t, limits, htype, helement, hlimits, hwithin⟩
    exact ⟨t, htype, helement, limits, hlimits, hwithin⟩

theorem TableType.safe_check
    {type : Option TableType} : (TableType.check type).Safe :=
  Attempt.safe_orFail.bind fun _ _ => Attempt.safe_require.bind
    fun _ _ => Limits.safe_check

theorem ValueType.safe_check {type : ValueType} : type.check.Safe := by
  cases type with
  | number => exact Attempt.safe_ok
  | any | reserved => exact Attempt.safe_fail

theorem ValueType.safe_checkAll {types : List ValueType} :
    (ValueType.checkAll types).Safe :=
  Attempt.safe_forEach fun _ _ _ _ => ValueType.safe_check

/-- A constant expression has a type under a context in which the first `visible`
globals may be read. -/
def Context.ConstHasType (c : Context) (visible : Nat)
    (type : ValueType) : ConstExpr → Prop
  | .const number _ => .number number = type
  | .globalGet index =>
    index.toNat < visible ∧ ∃ g, c.globals[index.toNat]? = some (some g) ∧
      g.isMutable = false ∧ g.value = type
  | .other _ => False

theorem Context.checkConst_eq_ok
    {c : Context} {expr : Option ConstExpr} {expected : ValueType} {visible : Nat}
    {u : Unit} (h : c.checkConst expr expected visible = .ok u) :
    ∃ e, expr = some e ∧ c.ConstHasType visible expected e := by
  obtain ⟨e, hexpr, h⟩ := Attempt.bind_eq_ok.mp h
  refine ⟨e, Attempt.orFail_eq_ok.mp hexpr, ?_⟩
  cases e with
  | const type bits =>
      simpa [Attempt.bind_eq_ok, Attempt.pure_eq_ok, Attempt.require_eq_ok,
        Context.ConstHasType] using h
  | globalGet index =>
      simp only [Attempt.bind_eq_ok, exists_const, Attempt.require_eq_ok,
        Bool.and_eq_true, decide_eq_true_eq, Context.globalType_eq_ok_iff,
        Bool.not_eq_true', Attempt.pure_eq_ok] at h
      obtain ⟨⟨hvisible, -⟩, g, hglobal, hmutable, _, rfl, rfl⟩ := h
      exact ⟨Index.toNat_lt_of_lt_ofNat hvisible, g, hglobal.getElem?, hmutable, rfl⟩
  | other opcode =>
      obtain ⟨_, hfail, -⟩ := Attempt.bind_eq_ok.mp h
      exact absurd hfail Attempt.fail_ne_ok

theorem exists_of_mem_left
    {α β : Type} {R : α → β → Prop} {first : List α} {second : List β}
    (h : List.Forall₂ R first second) {a : α} (ha : a ∈ first) :
    ∃ b ∈ second, R a b := by
  induction h with
  | nil => cases ha
  | cons hab _ ih =>
      rcases List.mem_cons.mp ha with rfl | ha
      · exact ⟨_, List.mem_cons_self, hab⟩
      · obtain ⟨b, hb, hR⟩ := ih ha
        exact ⟨b, List.mem_cons_of_mem _ hb, hR⟩

/-- Every entry that the checks of instructions take for granted is given. -/
structure Context.IsGiven (c : Context) : Prop where
  types : none ∉ c.types
  functions : ∀ index ∈ c.functions, index.toNat < c.types.length
  tables : none ∉ c.tables
  globals : none ∉ c.globals

namespace Context

variable {c : Context}

theorem safe_globalType
    {index : UInt32} (hglobals : c.globals[index.toNat]? ≠ some none) :
    (c.globalType index).Safe := by
  refine Attempt.safe_orFail.bind fun type htype => Attempt.safe_present ?_
  rintro rfl
  exact hglobals (Index.getElem?_of_lookup (Attempt.orFail_eq_ok.mp htype))

theorem IsGiven.getElem?_types
    {index : Nat} (hc : c.IsGiven) : c.types[index]? ≠ some none :=
  fun h => hc.types (List.mem_of_getElem? h)

theorem IsGiven.getElem?_globals
    {index : Nat} (hc : c.IsGiven) : c.globals[index]? ≠ some none :=
  fun h => hc.globals (List.mem_of_getElem? h)

theorem IsGiven.safe_functionType
    {index : UInt32} (hc : c.IsGiven) : (c.functionType index).Safe := by
  refine Attempt.safe_orFail.bind fun type htype => Attempt.safe_present ?_
  have hlookup := Index.getElem?_of_lookup (Attempt.orFail_eq_ok.mp htype)
  have hlt := hc.functions type (List.mem_of_getElem? hlookup)
  have hgiven := @IsGiven.getElem?_types c type.toNat hc
  rw [List.getElem?_eq_getElem hlt] at hgiven ⊢
  simpa using hgiven

theorem IsGiven.safe_checkTable (hc : c.IsGiven) : c.checkTable.Safe := by
  unfold checkTable
  split
  · exact Attempt.safe_fail
  · rename_i table rest htables
    refine (Attempt.safe_present ?_).bind fun _ _ => Attempt.safe_require
    rintro rfl
    exact hc.tables (by simp [htables])

theorem safe_checkBlockType {type : FuncType} : (c.checkBlockType type).Safe :=
  ValueType.safe_checkAll.bind fun _ _ => ValueType.safe_checkAll.bind fun _ _ =>
    Attempt.safe_require

theorem safe_label {depth : UInt32} : (c.label depth).Safe :=
  Attempt.safe_orFail

theorem safe_checkTargets
    {types : List ValueType} {default : UInt32} {labels : List UInt32} :
    (c.checkTargets types default labels).Safe := by
  induction labels with
  | nil => exact Attempt.safe_ok
  | cons label rest ih =>
      exact safe_label.bind fun _ _ => Attempt.safe_require.bind fun _ _ => ih

theorem IsGiven.inBlock
    {types : List ValueType} (hc : c.IsGiven) : (c.inBlock types).IsGiven :=
  ⟨hc.types, hc.functions, hc.tables, hc.globals⟩

mutual

theorem IsGiven.safe_effect
    (instr : Instr) {c : Context} (hc : c.IsGiven) (running : StackEffect) :
    (c.effect running instr).Safe := by
  cases instr with
  | unreachable | nop | ret | drop | select | const | binary => exact Attempt.safe_ok
  | block type body | loop type body =>
      exact safe_checkBlockType.bind fun _ _ =>
        (IsGiven.safe_accumulate body hc.inBlock _ _).bind fun _ _ =>
        Attempt.safe_ofExcept.bind fun _ _ => Attempt.safe_ok
  | ifElse type whenTrue whenFalse =>
      refine safe_checkBlockType.bind fun _ _ =>
        (IsGiven.safe_accumulate whenTrue hc.inBlock _ _).bind fun _ _ =>
        Attempt.safe_ofExcept.bind fun _ _ =>
          Attempt.Safe.bind (Attempt.Safe.mapCause ?_) fun _ _ => Attempt.safe_ok
      exact (IsGiven.safe_accumulate whenFalse hc.inBlock _ _).bind fun _ _ =>
        Attempt.safe_ofExcept
  | br | brIf => exact safe_label.bind fun _ _ => Attempt.safe_ok
  | brTable =>
      exact safe_label.bind fun _ _ => safe_checkTargets.bind fun _ _ => Attempt.safe_ok
  | call => exact hc.safe_functionType.bind fun _ _ => Attempt.safe_ok
  | callIndirect index =>
      refine hc.safe_checkTable.bind fun _ _ => Attempt.safe_orFail.bind
        fun type htype =>
        (Attempt.safe_present ?_).bind fun _ _ => Attempt.safe_ok
      rintro rfl
      exact hc.getElem?_types (Index.getElem?_of_lookup (Attempt.orFail_eq_ok.mp htype))
  | localGet | localSet | localTee =>
      exact Attempt.safe_orFail.bind fun _ _ => Attempt.safe_ok
  | globalGet =>
      exact (safe_globalType hc.getElem?_globals).bind fun _ _ => Attempt.safe_ok
  | globalSet =>
      exact (safe_globalType hc.getElem?_globals).bind fun _ _ =>
        Attempt.safe_require.bind fun _ _ =>
        Attempt.safe_ok
  | load | store =>
      exact Attempt.safe_require.bind fun _ _ => Attempt.safe_require.bind
        fun _ _ => Attempt.safe_ok
  | memorySize | memoryGrow =>
      exact Attempt.safe_require.bind fun _ _ => Attempt.safe_ok
  | unary op =>
      cases op with
      | signExtend => exact Attempt.safe_require.bind fun _ _ => Attempt.safe_ok
      | _ => exact Attempt.safe_ok
  | reserved => exact Attempt.safe_fail

theorem IsGiven.safe_accumulate
    (body : List Instr) {c : Context} (hc : c.IsGiven) (running : StackEffect)
    (position : Nat) :
    (c.accumulate running position body).Safe := by
  cases body with
  | nil => exact Attempt.safe_ok
  | cons instr rest =>
      refine Attempt.Safe.bind (Attempt.Safe.mapCause ?_) fun next _ =>
        IsGiven.safe_accumulate rest hc next (position + 1)
      exact (IsGiven.safe_effect instr hc running).bind fun _ _ => Attempt.safe_ofExcept

end

theorem safe_checkConst
    {expr : Option ConstExpr} {expected : ValueType} {visible : Nat}
    (hglobals : ∀ index < visible, c.globals[index]? ≠ some none) :
    (c.checkConst expr expected visible).Safe := by
  refine Attempt.safe_orFail.bind fun e _ => ?_
  cases e with
  | const => exact Attempt.safe_ok.bind fun _ _ => Attempt.safe_require
  | globalGet index =>
      refine Attempt.safe_require.bind fun _ hvisible => ?_
      have hlt : index.toNat < visible := by
        simp only [Attempt.require_eq_ok, Bool.and_eq_true,
          decide_eq_true_eq] at hvisible
        exact Index.toNat_lt_of_lt_ofNat hvisible.1
      exact (safe_globalType (hglobals _ hlt)).bind fun _ _ =>
        Attempt.safe_require.bind fun _ _ =>
        Attempt.safe_ok.bind fun _ _ => Attempt.safe_require
  | other => exact Attempt.safe_fail.bind fun _ _ => Attempt.safe_require

end Context

namespace ImportDesc

def function? : ImportDesc → Option UInt32
  | .func index => some index
  | _ => none

def table? : ImportDesc → Option (Option TableType)
  | .table type => some type
  | _ => none

def memory? : ImportDesc → Option (Option Limits)
  | .memory limits => some limits
  | _ => none

def global? : ImportDesc → Option (Option GlobalType)
  | .global type => some type
  | _ => none

variable {desc : ImportDesc}

theorem function?_ne_none : desc.function? ≠ none ↔ desc.kind = .func := by
  cases desc <;> simp [function?, kind]

theorem table?_ne_none : desc.table? ≠ none ↔ desc.kind = .table := by
  cases desc <;> simp [table?, kind]

theorem memory?_ne_none : desc.memory? ≠ none ↔ desc.kind = .memory := by
  cases desc <;> simp [memory?, kind]

theorem global?_ne_none : desc.global? ≠ none ↔ desc.kind = .global := by
  cases desc <;> simp [global?, kind]

end ImportDesc

/-- Every entry of a list of types is given and has number types. -/
def TypesGiven (types : List (Option FuncType)) : Prop :=
  ∀ type ∈ types, ∃ t, type = some t ∧ t.IsNumeric

namespace Module

/-- The description of an import asks for something of the given type. -/
def ImportHasType (m : Module) : ImportDesc → ExternType → Prop
  | .func index, .func type => m.types[index.toNat]? = some (some type)
  | .table type, .table type' => type = some type' ∧ type'.limits ≠ none
  | .memory limits, .memory limits' => limits = some limits'
  | .global type, .global type' => type = some type' ∧ type'.value.IsNumber
  | _, _ => False

/-- What validation has checked of a module, given the context of the module. -/
structure Valid (m : Module) (c : Context) (imports : List ExternType) : Prop where
  types : TypesGiven m.types
  imports : List.Forall₂ (fun entry type => ∃ i : Import, entry = some i ∧
    m.ImportHasType i.desc type)
    m.imports imports
  functionCount : m.functions.length = m.code.length
  tables : ∀ type ∈ m.tables, ∃ t limits, type = some t ∧
    t.element = TableType.funcref ∧
    t.limits = some limits ∧ limits.Within 0xffffffff
  memories : ∀ limits ∈ m.memories, ∃ l, limits = some l ∧ l.Within Page.maxCount
  globals : ∀ (i : Nat) entry, m.globals[i]? = some entry → ∃ global type init,
    entry = some global ∧
    global.type = some type ∧ type.value.IsNumber ∧ global.init = some init ∧
    c.ConstHasType (m.importCount .global + i) type.value init
  functions : ∀ (i : Nat) (index : UInt32), m.functions[i]? = some index → ∃ code type,
    m.code[i]? = some (some code) ∧
    m.types[index.toNat]? = some (some type) ∧ Numeric code.locals ∧
    c.checkFunction type code = .ok ()
  exports : ∀ entry ∈ m.exports, ∃ e size, entry = some e ∧
    spaceSize c e.kind = some size ∧
    e.index.toNat < size
  start : ∀ index : UInt32, m.start = some index → index.toNat < m.functionSpace.length
  elements : ∀ entry ∈ m.elements, ∃ e offset, entry = some e ∧
    e.table.toNat < c.tables.length ∧
    e.offset = some offset ∧ c.ConstHasType c.globals.length .i32 offset ∧
    ∀ index : UInt32, index ∈ e.init → index.toNat < c.functions.length
  data : ∀ entry ∈ m.data, ∃ d offset, entry = some d ∧
    d.memory.toNat < c.memories.length ∧
    d.offset = some offset ∧ c.ConstHasType c.globals.length .i32 offset

variable {m : Module} {features : Features}

theorem checkType_eq_ok
    {type : Option FuncType} {u : Unit} (h : checkType features type = .ok u) :
    ∃ t, type = some t ∧ t.IsNumeric := by
  simp only [checkType, Attempt.bind_eq_ok, exists_const, Attempt.orFail_eq_ok,
    ValueType.checkAll_eq_ok_iff] at h
  obtain ⟨t, htype, hparams, hresults, -⟩ := h
  exact ⟨t, htype, hparams, hresults⟩

theorem checkImport_eq_ok
    {entry : Option Import} {type : ExternType} (h : m.checkImport entry = .ok type) :
    ∃ i : Import, entry = some i ∧ m.ImportHasType i.desc type := by
  obtain ⟨i, hentry, h⟩ := Attempt.bind_eq_ok.mp h
  refine ⟨i, Attempt.orFail_eq_ok.mp hentry, ?_⟩
  cases hdesc : i.desc with
  | func index =>
      simp only [hdesc, Attempt.bind_eq_ok, Attempt.orFail_eq_ok, Attempt.present_eq_ok,
        Attempt.pure_eq_ok] at h
      obtain ⟨_, hindex, type, rfl, rfl⟩ := h
      exact Index.getElem?_of_lookup hindex
  | table type =>
      simp only [hdesc, Attempt.bind_eq_ok, Attempt.present_eq_ok,
        Attempt.pure_eq_ok] at h
      obtain ⟨_, hcheck, type', rfl, rfl⟩ := h
      obtain ⟨_, limits, ⟨⟩, -, hlimits, -⟩ := TableType.check_eq_ok_iff.mp hcheck
      exact ⟨rfl, by simp [hlimits]⟩
  | memory limits =>
      simp only [hdesc, Attempt.bind_eq_ok, Attempt.present_eq_ok,
        Attempt.pure_eq_ok] at h
      obtain ⟨_, -, limits', rfl, rfl⟩ := h
      rfl
  | global type =>
      simp only [hdesc, Attempt.bind_eq_ok, exists_const, Attempt.orFail_eq_ok,
        ValueType.check_eq_ok_iff, Attempt.pure_eq_ok] at h
      obtain ⟨type', rfl, hnumber, rfl⟩ := h
      exact ⟨rfl, hnumber⟩
  | reserved code =>
      rw [hdesc] at h
      exact absurd h Attempt.fail_ne_ok

theorem checkImports_eq_ok
    {index : Nat} {entries : List (Option Import)} {imports : List ExternType}
    (h : m.checkImports index entries = .ok imports) :
    List.Forall₂ (fun entry type => ∃ i : Import, entry = some i ∧
      m.ImportHasType i.desc type)
      entries imports := by
  induction entries generalizing index imports with
  | nil =>
      obtain rfl : [] = imports := by simpa [checkImports] using h
      exact .nil
  | cons entry rest ih =>
      simp only [checkImports, Attempt.bind_eq_ok, Check.inSection_eq_ok,
        Attempt.pure_eq_ok] at h
      obtain ⟨type, htype, types, htypes, rfl⟩ := h
      exact .cons (checkImport_eq_ok htype) (ih htypes)

theorem checkFunction_eq_ok
    {c : Context} {position : Nat} {index : UInt32} {u : Unit}
    (h : m.checkFunction c position index = .ok u) :
    ∃ code type, m.code[position]? = some (some code) ∧
      m.types[index.toNat]? = some (some type) ∧
      Numeric code.locals ∧ c.checkFunction type code = .ok () := by
  simp only [checkFunction, Attempt.bind_eq_ok, Attempt.present_eq_ok,
    Attempt.orFail_eq_ok, ValueType.checkAll_eq_ok_iff, exists_const,
    Option.join_eq_some_iff] at h
  obtain ⟨_, hcode, code, rfl, hlocals, type, htype, hcheck⟩ := h
  exact ⟨code, type, hcode, htype, hlocals, hcheck⟩

theorem checkGlobal_eq_ok
    {c : Context} {visible : Nat} {entry : Option Global} {u : Unit}
    (h : checkGlobal c visible entry = .ok u) :
    ∃ global type init, entry = some global ∧ global.type = some type ∧
      type.value.IsNumber ∧
      global.init = some init ∧ c.ConstHasType visible type.value init := by
  simp only [checkGlobal, Attempt.bind_eq_ok, exists_const, Attempt.orFail_eq_ok,
    ValueType.check_eq_ok_iff] at h
  obtain ⟨global, hentry, type, htype, hnumber, hconst⟩ := h
  obtain ⟨init, hinit, hhas⟩ := Context.checkConst_eq_ok hconst
  exact ⟨global, type, init, hentry, htype, hnumber, hinit, hhas⟩

theorem checkExports_eq_ok
    {c : Context} {seen : List String} {index : Nat} {entries : List (Option Export)}
    {u : Unit} (h : checkExports c seen index entries = .ok u) :
    ∀ entry ∈ entries, ∃ e size, entry = some e ∧ spaceSize c e.kind = some size ∧
      e.index.toNat < size := by
  induction entries generalizing seen index with
  | nil => simp
  | cons entry rest ih =>
      simp only [checkExports, Attempt.bind_eq_ok, Check.inSection_eq_ok,
        Attempt.orFail_eq_ok, Attempt.require_eq_ok, exists_const, decide_eq_true_eq,
        Attempt.pure_eq_ok] at h
      obtain ⟨_, ⟨e, hentry, -, size, hsize, hindex, -⟩, hrest⟩ := h
      exact List.forall_mem_cons.mpr
        ⟨⟨e, size, hentry, hsize, Index.toNat_lt_of_lt_ofNat hindex⟩, ih hrest⟩

theorem checkStart_eq_ok
    {u : Unit} (h : m.checkStart = .ok u) {index : UInt32}
    (hstart : m.start = some index) :
    index.toNat < m.functionSpace.length := by
  simp only [checkStart, hstart, Check.inSection_eq_ok, Attempt.bind_eq_ok,
    Attempt.orFail_eq_ok, typeOfFunction?, Option.bind_eq_bind,
    Option.bind_eq_some_iff] at h
  obtain ⟨_, ⟨_, hindex, -⟩, -⟩ := h
  exact (List.getElem?_eq_some_iff.mp (Index.getElem?_of_lookup hindex)).1

theorem checkElement_eq_ok
    {c : Context} {entry : Option ElementSegment} {u : Unit}
    (h : checkElement c entry = .ok u) :
    ∃ e offset, entry = some e ∧ e.table.toNat < c.tables.length ∧
      e.offset = some offset ∧
      c.ConstHasType c.globals.length .i32 offset ∧
      ∀ index : UInt32, index ∈ e.init → index.toNat < c.functions.length := by
  simp only [checkElement, Attempt.bind_eq_ok, Attempt.orFail_eq_ok,
    Attempt.require_eq_ok, exists_const, decide_eq_true_eq, Attempt.forEach_eq_ok] at h
  obtain ⟨e, hentry, -, htable, _, hconst, hinit⟩ := h
  obtain ⟨offset, hoffset, hhas⟩ := Context.checkConst_eq_ok hconst
  refine ⟨e, offset, hentry, Index.toNat_lt_of_lt_ofNat htable, hoffset, hhas,
    fun index hindex => ?_⟩
  obtain ⟨i, hi⟩ := List.getElem?_of_mem hindex
  exact Index.toNat_lt_of_lt_ofNat (hinit i index hi)

theorem checkData_eq_ok
    {c : Context} {entry : Option DataSegment} {u : Unit}
    (h : checkData c entry = .ok u) :
    ∃ d offset, entry = some d ∧ d.memory.toNat < c.memories.length ∧
      d.offset = some offset ∧
      c.ConstHasType c.globals.length .i32 offset := by
  simp only [checkData, Attempt.bind_eq_ok, Attempt.orFail_eq_ok, Attempt.require_eq_ok,
    exists_const, decide_eq_true_eq] at h
  obtain ⟨d, hentry, -, hmemory, hconst⟩ := h
  obtain ⟨offset, hoffset, hhas⟩ := Context.checkConst_eq_ok hconst
  exact ⟨d, offset, hentry, Index.toNat_lt_of_lt_ofNat hmemory, hoffset, hhas⟩

theorem checkEntries_mem
    {α : Type} {place : Section} {check : α → Check Unit} {index : Nat}
    {entries : List α} {u : Unit}
    (h : checkEntries place (fun _ => check) index entries = .ok u) :
    ∀ a ∈ entries, check a = .ok () := by
  intro a ha
  obtain ⟨i, hi⟩ := List.getElem?_of_mem ha
  exact checkEntries_eq_ok.mp h i a hi

/-- A module that passes validation is valid. -/
theorem valid_of_validate
    {imports : List ExternType} (h : m.validate features = .ok imports) :
    m.Valid (Context.ofModule m features) imports := by
  simp only [validate, checkFunctionSection, checkTables, checkMemories,
    Attempt.bind_eq_ok, Check.inSection_eq_ok, Attempt.require_eq_ok, decide_eq_true_eq,
    Attempt.pure_eq_ok] at h
  obtain ⟨_, htypes, imports', himports, _, ⟨_, hcount, -⟩, _, ⟨_, -, htables⟩, _,
      ⟨_, -, hmemories⟩, _, hglobals, _, hfunctions, _, hexports, _, hstart, _,
      helements, _, hdata, rfl⟩ := h
  exact {
    types := fun type htype => checkType_eq_ok (checkEntries_mem htypes type htype)
    imports := checkImports_eq_ok himports
    functionCount := hcount
    tables := fun type htype =>
      TableType.check_eq_ok_iff.mp (checkEntries_mem htables type htype)
    memories := fun limits hlimits =>
      Limits.check_eq_ok_iff.mp (checkEntries_mem hmemories limits hlimits)
    globals := fun i entry hentry =>
      checkGlobal_eq_ok (checkEntries_eq_ok.mp hglobals i entry hentry)
    functions := fun i index hindex => by
      have hcheck := checkEntries_eq_ok.mp hfunctions i index hindex
      rw [Nat.add_sub_cancel_left] at hcheck
      exact checkFunction_eq_ok hcheck
    exports := checkExports_eq_ok hexports
    start := fun index => checkStart_eq_ok hstart
    elements := fun entry hentry =>
      checkElement_eq_ok (checkEntries_mem helements entry hentry)
    data := fun entry hentry => checkData_eq_ok (checkEntries_mem hdata entry hentry) }

theorem forall₂_importDescs
    {entries : List (Option Import)} {imports : List ExternType}
    (h : List.Forall₂ (fun entry type => ∃ i : Import, entry = some i ∧
      m.ImportHasType i.desc type)
      entries imports) :
    List.Forall₂ m.ImportHasType (entries.reduceOption.map Import.desc) imports := by
  induction h with
  | nil => exact .nil
  | cons hentry _ ih =>
      obtain ⟨i, rfl, htype⟩ := hentry
      exact .cons htype ih

theorem exists_hasType_of_mem
    {imports : List ExternType} {desc : ImportDesc}
    (h : List.Forall₂ m.ImportHasType m.importDescs imports)
    (hdesc : desc ∈ m.importDescs) :
    ∃ type, m.ImportHasType desc type := by
  obtain ⟨type, -, htype⟩ := exists_of_mem_left h hdesc
  exact ⟨type, htype⟩

theorem functionSpace_eq (m : Module) :
    m.functionSpace = m.importDescs.filterMap ImportDesc.function? ++ m.functions :=
  rfl

theorem tableSpace_eq (m : Module) :
    m.tableSpace = m.importDescs.filterMap ImportDesc.table? ++ m.tables :=
  rfl

theorem memorySpace_eq (m : Module) :
    m.memorySpace = m.importDescs.filterMap ImportDesc.memory? ++ m.memories :=
  rfl

theorem globalSpace_eq (m : Module) :
    m.globalSpace = m.importDescs.filterMap ImportDesc.global? ++ m.globals.map
      (·.bind Global.type) :=
  rfl

theorem length_imported
    {α : Type} {pick : ImportDesc → Option α} {kind : ExternKind}
    (hpick : ∀ desc, pick desc ≠ none ↔ desc.kind = kind) :
    (m.importDescs.filterMap pick).length = m.importCount kind := by
  rw [importCount, List.length_filterMap_eq_countP]
  refine List.countP_congr fun desc _ => ?_
  rw [decide_eq_true_eq, ← hpick desc, ← Option.isSome_iff_ne_none]

theorem length_importedGlobals (m : Module) :
    (m.importDescs.filterMap ImportDesc.global?).length = m.importCount .global :=
  length_imported fun _ => ImportDesc.global?_ne_none

theorem given_globalSpace
    {imports : List ExternType} {visible : Nat}
    (h : List.Forall₂ m.ImportHasType m.importDescs imports)
    (hown : ∀ i entry, m.importCount .global + i < visible →
      m.globals[i]? = some entry →
      entry.bind Global.type ≠ none) :
    ∀ index < visible, m.globalSpace[index]? ≠ some none := by
  intro index hindex hnone
  rw [globalSpace_eq] at hnone
  rcases Nat.lt_or_ge index (m.importCount .global) with himported | hlater
  · rw [List.getElem?_append_left (by rwa [length_importedGlobals])] at hnone
    obtain ⟨desc, hdesc, hglobal⟩ := List.mem_filterMap.mp (List.mem_of_getElem? hnone)
    obtain ⟨type, htype⟩ := exists_hasType_of_mem h hdesc
    cases desc <;> cases type <;> simp_all [ImportHasType, ImportDesc.global?]
  · rw [List.getElem?_append_right (by rwa [length_importedGlobals]),
      length_importedGlobals, List.getElem?_map, Option.map_eq_some_iff] at hnone
    obtain ⟨entry, hentry, hbind⟩ := hnone
    exact hown _ entry (by omega) hentry hbind

theorem safe_checkImport
    {entry : Option Import} (htypes : TypesGiven m.types) :
    (m.checkImport entry).Safe := by
  refine Attempt.safe_orFail.bind fun i _ => ?_
  cases i.desc with
  | func index =>
      refine Attempt.safe_orFail.bind fun type htype => (Attempt.safe_present ?_).bind
        fun _ _ => Attempt.safe_ok
      have hlookup := Index.getElem?_of_lookup (Attempt.orFail_eq_ok.mp htype)
      obtain ⟨t, rfl, -⟩ := htypes type (List.mem_of_getElem? hlookup)
      simp
  | table type =>
      refine TableType.safe_check.bind fun _ hcheck => (Attempt.safe_present ?_).bind
        fun _ _ => Attempt.safe_ok
      obtain ⟨t, limits, rfl, -⟩ := TableType.check_eq_ok_iff.mp hcheck
      simp
  | memory limits =>
      refine Limits.safe_check.bind fun _ hcheck => (Attempt.safe_present ?_).bind
        fun _ _ => Attempt.safe_ok
      obtain ⟨l, rfl, -⟩ := Limits.check_eq_ok_iff.mp hcheck
      simp
  | global type =>
      exact Attempt.safe_orFail.bind fun _ _ => ValueType.safe_check.bind
        fun _ _ => Attempt.safe_ok
  | reserved => exact Attempt.safe_fail

theorem safe_checkImports
    {index : Nat} {entries : List (Option Import)} (htypes : TypesGiven m.types) :
    (m.checkImports index entries).Safe := by
  induction entries generalizing index with
  | nil => exact Attempt.safe_ok
  | cons entry rest ih =>
      exact (safe_checkImport htypes).mapCause.bind fun _ _ =>
        ih.bind fun _ _ => Attempt.safe_ok

theorem safe_checkExports
    {c : Context} {seen : List String} {index : Nat} {entries : List (Option Export)} :
    (checkExports c seen index entries).Safe := by
  induction entries generalizing seen index with
  | nil => exact Attempt.safe_ok
  | cons entry rest ih =>
      refine Attempt.Safe.bind (Attempt.Safe.mapCause ?_) fun _ _ => ih
      exact Attempt.safe_orFail.bind fun _ _ => Attempt.safe_require.bind fun _ _ =>
        Attempt.safe_orFail.bind fun _ _ => Attempt.safe_require.bind
          fun _ _ => Attempt.safe_ok

theorem safe_checkStart : m.checkStart.Safe := by
  unfold checkStart
  split
  · exact Attempt.safe_ok
  · refine Attempt.Safe.mapCause ?_
    exact Attempt.safe_orFail.bind fun _ _ => Attempt.safe_require.bind fun _ _ =>
      Attempt.safe_require

theorem safe_checkFunction
    {c : Context} {position : Nat} {index : UInt32} (hc : c.IsGiven)
    (hcode : position < m.code.length) (hindex : m.types[index.toNat]?.join ≠ none) :
    (m.checkFunction c position index).Safe := by
  refine (Attempt.safe_present (by simp [hcode])).bind fun _ _ =>
    Attempt.safe_orFail.bind fun code _ =>
    ValueType.safe_checkAll.bind fun _ _ => (Attempt.safe_present hindex).bind
      fun type _ => ?_
  have hin : (c.inFunction type code.locals).IsGiven :=
    ⟨hc.types, hc.functions, hc.tables, hc.globals⟩
  exact (hin.safe_accumulate code.body _ _).bind fun _ _ => Attempt.safe_ofExcept

/-- The context of a module whose sections up to its globals have passed is complete. -/
theorem isGiven_ofModule
    {imports : List ExternType} (htypes : TypesGiven m.types)
    (himports : List.Forall₂ m.ImportHasType m.importDescs imports)
    (hfunctions : ∀ index ∈ m.functions, index.toNat < m.types.length)
    (htables : none ∉ m.tables)
    (hglobals : ∀ entry ∈ m.globals, entry.bind Global.type ≠ none) :
    (Context.ofModule m features).IsGiven where
  types := by
    intro hnone
    obtain ⟨t, ht, -⟩ := htypes none hnone
    cases ht
  functions := by
    intro index hindex
    rw [Context.ofModule, functionSpace_eq] at hindex
    rcases List.mem_append.mp hindex with himported | hown
    · obtain ⟨desc, hdesc, hfunction⟩ := List.mem_filterMap.mp himported
      obtain ⟨type, htype⟩ := exists_hasType_of_mem himports hdesc
      cases desc with
      | func index' =>
          cases type with
          | func type =>
              obtain rfl : index' = index := by
                simpa [ImportDesc.function?] using hfunction
              exact (List.getElem?_eq_some_iff.mp htype).1
          | _ => exact htype.elim
      | _ => cases hfunction
    · exact hfunctions index hown
  tables := by
    intro hnone
    rw [Context.ofModule, tableSpace_eq] at hnone
    rcases List.mem_append.mp hnone with himported | hown
    · obtain ⟨desc, hdesc, htable⟩ := List.mem_filterMap.mp himported
      obtain ⟨type, htype⟩ := exists_hasType_of_mem himports hdesc
      cases desc <;> cases type <;> simp_all [ImportHasType, ImportDesc.table?]
    · exact htables hown
  globals := by
    intro hnone
    obtain ⟨index, hindex⟩ := List.getElem?_of_mem hnone
    have hvisible := @given_globalSpace m imports (index + 1) himports
      fun i entry _ hentry => hglobals entry (List.mem_of_getElem? hentry)
    exact hvisible index (Nat.lt_succ_self index) hindex

theorem checkFunctionSection_eq_ok
    {u : Unit} (h : m.checkFunctionSection = .ok u) :
    m.functions.length = m.code.length ∧ ∀ index ∈ m.functions,
      index.toNat < m.types.length := by
  simp only [checkFunctionSection, Attempt.bind_eq_ok, Check.inSection_eq_ok,
    Attempt.require_eq_ok, decide_eq_true_eq, exists_const] at h
  refine ⟨h.1, fun index hindex => ?_⟩
  have hcheck := checkEntries_mem h.2 index hindex
  simp only [Attempt.require_eq_ok, decide_eq_true_eq] at hcheck
  exact Index.toNat_lt_of_lt_ofNat hcheck

theorem safe_checkGlobal
    {c : Context} {visible : Nat} {entry : Option Global}
    (hglobals : ∀ index < visible, c.globals[index]? ≠ some none) :
    (checkGlobal c visible entry).Safe :=
  Attempt.safe_orFail.bind fun _ _ => Attempt.safe_orFail.bind fun _ _ =>
    ValueType.safe_check.bind fun _ _ =>
    Context.safe_checkConst hglobals

theorem safe_checkSegments
    {c : Context} (hc : c.IsGiven) :
    (∀ entry, (checkElement c entry).Safe) ∧ ∀ entry, (checkData c entry).Safe := by
  have hconst (expr : Option ConstExpr) :
      (c.checkConst expr .i32 c.globals.length).Safe :=
    Context.safe_checkConst fun _ _ => hc.getElem?_globals
  constructor
  · intro entry
    exact Attempt.safe_orFail.bind fun _ _ => Attempt.safe_require.bind fun _ _ =>
      Attempt.safe_require.bind fun _ _ => (hconst _).bind fun _ _ =>
        Attempt.safe_forEach fun _ _ _ _ => Attempt.safe_require
  · intro entry
    exact Attempt.safe_orFail.bind fun _ _ => Attempt.safe_require.bind fun _ _ =>
      Attempt.safe_require.bind fun _ _ => hconst _

/-- Validation does not crash. -/
theorem safe_validate (m : Module) (features : Features) :
    (m.validate features).Safe := by
  refine (safe_checkEntries fun _ _ _ _ => ?_).bind fun _ htypes => ?_
  · exact Attempt.safe_orFail.bind fun _ _ => ValueType.safe_checkAll.bind fun _ _ =>
      ValueType.safe_checkAll.bind fun _ _ => Attempt.safe_require
  have hgiven : TypesGiven m.types := fun type htype =>
    checkType_eq_ok (checkEntries_mem htypes type htype)
  refine (safe_checkImports hgiven).bind fun imports himports => ?_
  have himports := forall₂_importDescs (checkImports_eq_ok himports)
  refine Attempt.Safe.bind (Attempt.safe_require.mapCause.bind fun _ _ =>
    safe_checkEntries fun _ _ _ _ => Attempt.safe_require) fun _ hfunctions => ?_
  obtain ⟨hcount, hindexes⟩ := checkFunctionSection_eq_ok hfunctions
  refine Attempt.Safe.bind (Attempt.safe_require.mapCause.bind fun _ _ =>
    safe_checkEntries fun _ _ _ _ => TableType.safe_check) fun _ htables => ?_
  have htables : none ∉ m.tables := by
    intro hnone
    obtain ⟨_, -, htables⟩ := Attempt.bind_eq_ok.mp htables
    obtain ⟨t, limits, ht, -⟩ :=
      TableType.check_eq_ok_iff.mp (checkEntries_mem htables none hnone)
    cases ht
  refine Attempt.Safe.bind (Attempt.safe_require.mapCause.bind fun _ _ =>
    safe_checkEntries fun _ _ _ _ => Limits.safe_check) fun _ _ => ?_
  -- The initial value of a global reads imported globals and those whose check has just
  -- succeeded.
  refine (safe_checkEntries fun i entry _ hbefore => safe_checkGlobal
    (given_globalSpace himports fun j earlier hj hearlier => ?_)).bind
      fun _ hglobals => ?_
  · obtain ⟨global, type, init, rfl, htype, -⟩ :=
      checkGlobal_eq_ok (hbefore j earlier (by omega) hearlier)
    simp [htype]
  have hglobals : ∀ entry ∈ m.globals, entry.bind Global.type ≠ none := by
    intro entry hentry
    obtain ⟨i, hi⟩ := List.getElem?_of_mem hentry
    obtain ⟨global, type, init, rfl, htype, -⟩ :=
      checkGlobal_eq_ok (checkEntries_eq_ok.mp hglobals i entry hi)
    simp [htype]
  have hc := @isGiven_ofModule m features imports hgiven himports hindexes
    htables hglobals
  refine Attempt.Safe.bind (safe_checkEntries fun i index hi _ => ?_) fun _ _ => ?_
  · rw [Nat.add_sub_cancel_left]
    have hlt := (List.getElem?_eq_some_iff.mp hi).1
    refine safe_checkFunction hc (hcount ▸ hlt) ?_
    have htype := hindexes index (List.mem_of_getElem? hi)
    obtain ⟨t, ht, -⟩ := hgiven _ (List.getElem_mem htype)
    rw [List.getElem?_eq_getElem htype, ht]
    simp
  refine safe_checkExports.bind fun _ _ => safe_checkStart.bind fun _ _ => ?_
  obtain ⟨helement, hdata⟩ := safe_checkSegments hc
  exact (safe_checkEntries fun _ entry _ _ => helement entry).bind fun _ _ =>
    (safe_checkEntries fun _ entry _ _ => hdata entry).bind fun _ _ => Attempt.safe_ok

end Module
end WebAssembly
