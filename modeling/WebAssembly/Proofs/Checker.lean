import WebAssembly.Proofs.Attempt
import WebAssembly.Proofs.Principal

/-!
# The checker decides the typing rules

Each check of an instruction succeeds exactly under the side conditions of its rule, and
the running effect of a sequence stands for the stacks that the rules derive.  Hence a
body passes the checker exactly when it is derivable.
-/

namespace WebAssembly

theorem ValueType.check_eq_ok_iff
    {type : ValueType} {u : Unit} : type.check = .ok u ↔ type.IsNumber := by
  cases type <;> simp [ValueType.check, ValueType.IsNumber, Attempt.fail]

theorem ValueType.checkAll_eq_ok_iff
    {types : List ValueType} {u : Unit} :
    ValueType.checkAll types = .ok u ↔ Numeric types := by
  rw [ValueType.checkAll, Attempt.forEach_eq_ok]
  simp only [ValueType.check_eq_ok_iff, Numeric]
  constructor
  · intro h type htype
    obtain ⟨i, hi⟩ := List.getElem?_of_mem htype
    exact h i type hi
  · intro h i type hi
    exact h type (List.mem_of_getElem? hi)

/-! The signatures of the checker are the types and widths that the interpreter works
with. -/

theorem UnaryOp.effect_eq (op : UnaryOp) :
    op.effect = Context.fixed [.number op.operand] [.number op.result] := by
  cases op with
  | eqz width | int width | float width => cases width <;> rfl
  | signExtend extension => cases extension <;> rfl
  | convert conversion =>
      cases conversion with
      | truncate target source | convert target source =>
          cases target <;> cases source <;> rfl
      | floatBits width | bitsFloat width => cases width <;> rfl
      | wrap | extend | demote | promote => rfl

theorem BinaryOp.effect_eq (op : BinaryOp) :
    op.effect = Context.fixed [.number op.operand, .number op.operand]
      [.number op.result] := by
  cases op with
  | intCompare width | floatCompare width | int width | float width =>
      cases width <;> rfl

theorem LoadOp.access_eq (op : LoadOp) :
    op.access = ⟨.number op.type, op.byteCount⟩ := by
  cases op <;> rfl

theorem StoreOp.access_eq (op : StoreOp) :
    op.access = ⟨.number op.type, op.byteCount⟩ := by
  cases op <;> rfl

namespace Context

variable {c : Context}

theorem checkBlockType_eq_ok_iff
    {type : FuncType} {u : Unit} :
    c.checkBlockType type = .ok u ↔ c.AdmitsBlock type := by
  simp only [checkBlockType, Attempt.bind_eq_ok, exists_const,
    ValueType.checkAll_eq_ok_iff, Attempt.require_eq_ok, Bool.or_eq_true,
    Bool.and_eq_true, decide_eq_true_eq, AdmitsBlock, FuncType.IsNumeric, and_assoc]

theorem label_eq_ok_iff
    {depth : UInt32} {types : List ValueType} :
    c.label depth = .ok types ↔ Denotes c.labels depth types :=
  Attempt.orFail_eq_ok.trans Index.lookup_eq_some_iff

theorem functionType_eq_ok_iff
    {function : UInt32} {type : FuncType} :
    c.functionType function = .ok type ↔
      ∃ index, Denotes c.functions function index ∧
        c.types[index.toNat]? = some (some type) := by
  simp only [functionType, Attempt.bind_eq_ok, Attempt.orFail_eq_ok,
    Attempt.present_eq_ok, Option.join_eq_some_iff, Index.lookup_eq_some_iff, Denotes]

theorem globalType_eq_ok_iff
    {index : UInt32} {type : GlobalType} :
    c.globalType index = .ok type ↔ Denotes c.globals index (some type) := by
  simp only [globalType, Attempt.bind_eq_ok, Attempt.orFail_eq_ok,
    Attempt.present_eq_ok, Index.lookup_eq_some_iff]
  constructor
  · rintro ⟨_, hindex, rfl⟩
    exact hindex
  · intro hindex
    exact ⟨_, hindex, rfl⟩

theorem checkMemory_eq_ok_iff {u : Unit} : c.checkMemory = .ok u ↔ c.memories ≠ [] := by
  simp [checkMemory, Attempt.require_eq_ok]

theorem checkTable_eq_ok_iff {u : Unit} :
    c.checkTable = .ok u ↔
      ∃ table, c.tables.head? = some (some table) ∧
        table.element = TableType.funcref := by
  unfold checkTable
  split
  · rename_i htables
    simp [htables, Attempt.fail]
  · rename_i table _ htables
    simp only [Attempt.bind_eq_ok, Attempt.present_eq_ok, Attempt.require_eq_ok,
      decide_eq_true_eq, htables, List.head?_cons, Option.some.injEq]

theorem checkAlign_eq_ok_iff
    {arg : MemArg} {byteCount : Nat} {u : Unit} :
    checkAlign arg byteCount = .ok u ↔ arg.Aligned byteCount := by
  simp only [checkAlign, Attempt.require_eq_ok, Bool.and_eq_true, decide_eq_true_eq,
    MemArg.Aligned]

theorem IsNumeric.label
    {depth : UInt32} {types : List ValueType} (hc : c.IsNumeric)
    (hlabel : Denotes c.labels depth types) :
    Numeric types :=
  hc.labels types (List.mem_of_getElem? hlabel.getElem?)

theorem IsNumeric.local
    {index : UInt32} {type : ValueType} (hc : c.IsNumeric)
    (hlocal : Denotes c.locals index type) :
    type.IsNumber :=
  hc.locals type (List.mem_of_getElem? hlocal.getElem?)

theorem IsNumeric.type
    {index : Nat} {type : FuncType} (hc : c.IsNumeric)
    (htype : c.types[index]? = some (some type)) :
    type.IsNumeric :=
  hc.types type (List.mem_of_getElem? htype)

theorem IsNumeric.global
    {index : UInt32} {type : GlobalType} (hc : c.IsNumeric)
    (hglobal : Denotes c.globals index (some type)) : type.value.IsNumber :=
  hc.globals type (List.mem_of_getElem? hglobal.getElem?)

theorem listsMatch_eq_true_iff_of_numeric
    {first second : List ValueType} (hfirst : Numeric first)
    (hsecond : Numeric second) :
    StackEffect.listsMatch first second = true ↔ first = second := by
  rw [StackEffect.listsMatch_eq_true_iff,
    ← StackEffect.exists_forall₂_fills_iff_matches (StackEffect.known_of_numeric hfirst)
      (StackEffect.known_of_numeric hsecond)]
  simp only [StackEffect.forall₂_fills_numeric_iff hfirst,
    StackEffect.forall₂_fills_numeric_iff hsecond]
  simp

theorem checkTargets_eq_ok_iff
    {types : List ValueType} {default : UInt32} {labels : List UInt32}
    (hc : c.IsNumeric) (htypes : Numeric types) {u : Unit} :
    c.checkTargets types default labels = .ok u ↔
      ∀ label ∈ labels, Denotes c.labels label types := by
  induction labels with
  | nil => simp [checkTargets]
  | cons label rest ih =>
      simp only [checkTargets, Attempt.bind_eq_ok, exists_const, label_eq_ok_iff,
        Attempt.require_eq_ok, ih, List.forall_mem_cons]
      constructor
      · rintro ⟨target, htarget, hmatch, hrest⟩
        obtain rfl := (listsMatch_eq_true_iff_of_numeric (hc.label htarget)
            htypes).mp hmatch
        exact ⟨htarget, hrest⟩
      · rintro ⟨htarget, hrest⟩
        exact ⟨types, htarget,
          (listsMatch_eq_true_iff_of_numeric htypes htypes).mpr rfl, hrest⟩

/-- The checker accepts a sequence, under every context of number types, exactly when it
is derivable. -/
def Decides (body : List Instr) : Prop :=
  ∀ {c : Context} {params results : List ValueType},
    c.IsNumeric → Numeric params → Numeric results →
      (c.checkSequence params results body = .ok () ↔ BodyHasType c body params results)

theorem effect_block_eq_ok_iff
    {running effect : StackEffect} {type : Option FuncType} {body : List Instr}
    (hc : c.IsNumeric) (hbody : Decides body) :
    c.effect running (.block type body) = .ok effect ↔
      ∃ taken left, InstrHasType c (.block type body) taken left ∧
        effect = fixed taken left := by
  simp only [Context.effect, Attempt.bind_eq_ok, exists_const, checkBlockType_eq_ok_iff,
    Attempt.pure_eq_ok]
  constructor
  · rintro ⟨htype, inner, hinner, _, hresults, rfl⟩
    refine ⟨_, _, .block htype
      ((hbody (hc.inBlock htype.1.2) htype.1.1 htype.1.2).mp ?_), rfl⟩
    exact Attempt.bind_eq_ok.mpr ⟨inner, hinner, hresults⟩
  · rintro ⟨_, _, htyping, rfl⟩
    cases htyping with
    | block htype hsequence =>
        have hcheck := (hbody (hc.inBlock htype.1.2) htype.1.1 htype.1.2).mpr hsequence
        obtain ⟨inner, hinner, hresults⟩ := Attempt.bind_eq_ok.mp hcheck
        exact ⟨htype, inner, hinner, (), hresults, rfl⟩

theorem effect_loop_eq_ok_iff
    {running effect : StackEffect} {type : Option FuncType} {body : List Instr}
    (hc : c.IsNumeric) (hbody : Decides body) :
    c.effect running (.loop type body) = .ok effect ↔
      ∃ taken left, InstrHasType c (.loop type body) taken left ∧
        effect = fixed taken left := by
  simp only [Context.effect, Attempt.bind_eq_ok, exists_const, checkBlockType_eq_ok_iff,
    Attempt.pure_eq_ok]
  constructor
  · rintro ⟨htype, inner, hinner, _, hresults, rfl⟩
    refine ⟨_, _, .loop htype
      ((hbody (hc.inBlock htype.1.1) htype.1.1 htype.1.2).mp ?_), rfl⟩
    exact Attempt.bind_eq_ok.mpr ⟨inner, hinner, hresults⟩
  · rintro ⟨_, _, htyping, rfl⟩
    cases htyping with
    | loop htype hsequence =>
        have hcheck := (hbody (hc.inBlock htype.1.1) htype.1.1 htype.1.2).mpr hsequence
        obtain ⟨inner, hinner, hresults⟩ := Attempt.bind_eq_ok.mp hcheck
        exact ⟨htype, inner, hinner, (), hresults, rfl⟩

theorem effect_ifElse_eq_ok_iff
    {running effect : StackEffect} {type : Option FuncType}
    {whenTrue whenFalse : List Instr} (hc : c.IsNumeric) (htrue : Decides whenTrue)
    (hfalse : Decides whenFalse) :
    c.effect running (.ifElse type whenTrue whenFalse) = .ok effect ↔
      ∃ taken left, InstrHasType c (.ifElse type whenTrue whenFalse) taken left ∧
        effect = fixed taken left := by
  simp only [Context.effect, Attempt.bind_eq_ok, exists_const, checkBlockType_eq_ok_iff,
    Attempt.pure_eq_ok, Attempt.mapCause_eq_ok]
  constructor
  · rintro ⟨htype, inner, hinner, _, hresults, _, ⟨inner', hinner', hresults'⟩, rfl⟩
    refine ⟨_, _, .ifElse htype
      ((htrue (hc.inBlock htype.1.2) htype.1.1 htype.1.2).mp ?_)
      ((hfalse (hc.inBlock htype.1.2) htype.1.1 htype.1.2).mp ?_), rfl⟩
    · exact Attempt.bind_eq_ok.mpr ⟨inner, hinner, hresults⟩
    · exact Attempt.bind_eq_ok.mpr ⟨inner', hinner', hresults'⟩
  · rintro ⟨_, _, htyping, rfl⟩
    cases htyping with
    | ifElse htype hwhenTrue hwhenFalse =>
        have hcheck := (htrue (hc.inBlock htype.1.2) htype.1.1 htype.1.2).mpr hwhenTrue
        have hcheck' :=
          (hfalse (hc.inBlock htype.1.2) htype.1.1 htype.1.2).mpr hwhenFalse
        obtain ⟨inner, hinner, hresults⟩ := Attempt.bind_eq_ok.mp hcheck
        obtain ⟨inner', hinner', hresults'⟩ := Attempt.bind_eq_ok.mp hcheck'
        exact ⟨htype, inner, hinner, (), hresults, (), ⟨inner', hinner', hresults'⟩,
          rfl⟩

theorem effect_unary_eq_ok_iff
    {running effect : StackEffect} {op : UnaryOp} :
    c.effect running (.unary op) = .ok effect ↔
      (∀ extension, op = .signExtend extension → c.features.has .signExtension = true) ∧
        fixed [.number op.operand] [.number op.result] = effect := by
  rw [← op.effect_eq]
  cases op with
  | signExtend extension =>
      simp only [Context.effect, Attempt.bind_eq_ok, exists_const,
        Attempt.require_eq_ok, Attempt.pure_eq_ok, UnaryOp.signExtend.injEq, forall_eq']
  | _ => simp [Context.effect, Attempt.pure_eq_ok]

/-- An instruction that neither holds a body nor leaves some of its types open. -/
def IsSimple : Instr → Prop
  | .block _ _ | .loop _ _ | .ifElse _ _ _ | .unreachable | .br _ | .brTable _ _ | .ret
  | .drop | .select => False
  | _ => True

theorem hasType_of_effect
    {running effect : StackEffect} {instr : Instr} (hsimple : IsSimple instr)
    (h : c.effect running instr = .ok effect) :
    ∃ taken left, InstrHasType c instr taken left ∧ effect = fixed taken left := by
  cases instr with
  | unreachable | block | loop | ifElse | br | brTable | ret | drop | select =>
      exact hsimple.elim
  | nop =>
      obtain rfl : StackEffect.empty = effect := by simpa [Context.effect] using h
      exact ⟨_, _, .nop, rfl⟩
  | brIf label =>
      simp only [Context.effect, Attempt.bind_eq_ok, label_eq_ok_iff,
        Attempt.pure_eq_ok] at h
      obtain ⟨types, hlabel, rfl⟩ := h
      exact ⟨_, _, .brIf hlabel, rfl⟩
  | call function =>
      simp only [Context.effect, Attempt.bind_eq_ok, functionType_eq_ok_iff,
        Attempt.pure_eq_ok] at h
      obtain ⟨type, ⟨index, hfunction, htype⟩, rfl⟩ := h
      exact ⟨_, _, .call hfunction htype, rfl⟩
  | callIndirect index =>
      simp only [Context.effect, Attempt.bind_eq_ok, exists_const, checkTable_eq_ok_iff,
        Attempt.orFail_eq_ok, Attempt.present_eq_ok, Attempt.pure_eq_ok] at h
      obtain ⟨⟨table, htable, helement⟩, _, htype, type, rfl, rfl⟩ := h
      exact ⟨_, _, .callIndirect htable helement (Index.lookup_eq_some_iff.mp htype),
        rfl⟩
  | localGet index =>
      simp only [Context.effect, Attempt.bind_eq_ok, Attempt.orFail_eq_ok,
        Attempt.pure_eq_ok] at h
      obtain ⟨type, hlocal, rfl⟩ := h
      exact ⟨_, _, .localGet (Index.lookup_eq_some_iff.mp hlocal), rfl⟩
  | localSet index =>
      simp only [Context.effect, Attempt.bind_eq_ok, Attempt.orFail_eq_ok,
        Attempt.pure_eq_ok] at h
      obtain ⟨type, hlocal, rfl⟩ := h
      exact ⟨_, _, .localSet (Index.lookup_eq_some_iff.mp hlocal), rfl⟩
  | localTee index =>
      simp only [Context.effect, Attempt.bind_eq_ok, Attempt.orFail_eq_ok,
        Attempt.pure_eq_ok] at h
      obtain ⟨type, hlocal, rfl⟩ := h
      exact ⟨_, _, .localTee (Index.lookup_eq_some_iff.mp hlocal), rfl⟩
  | globalGet index =>
      simp only [Context.effect, Attempt.bind_eq_ok, globalType_eq_ok_iff,
        Attempt.pure_eq_ok] at h
      obtain ⟨type, hglobal, rfl⟩ := h
      exact ⟨_, _, .globalGet hglobal, rfl⟩
  | globalSet index =>
      simp only [Context.effect, Attempt.bind_eq_ok, exists_const, globalType_eq_ok_iff,
        Attempt.require_eq_ok, Attempt.pure_eq_ok] at h
      obtain ⟨type, hglobal, hmutable, rfl⟩ := h
      exact ⟨_, _, .globalSet hglobal hmutable, rfl⟩
  | load op arg =>
      simp only [Context.effect, Attempt.bind_eq_ok, exists_const,
        checkMemory_eq_ok_iff, checkAlign_eq_ok_iff, Attempt.pure_eq_ok,
        LoadOp.access_eq] at h
      obtain ⟨hmemory, halign, rfl⟩ := h
      exact ⟨_, _, .load hmemory halign, rfl⟩
  | store op arg =>
      simp only [Context.effect, Attempt.bind_eq_ok, exists_const,
        checkMemory_eq_ok_iff, checkAlign_eq_ok_iff, Attempt.pure_eq_ok,
        StoreOp.access_eq] at h
      obtain ⟨hmemory, halign, rfl⟩ := h
      exact ⟨_, _, .store hmemory halign, rfl⟩
  | memorySize =>
      simp only [Context.effect, Attempt.bind_eq_ok, exists_const,
        checkMemory_eq_ok_iff, Attempt.pure_eq_ok] at h
      obtain ⟨hmemory, rfl⟩ := h
      exact ⟨_, _, .memorySize hmemory, rfl⟩
  | memoryGrow =>
      simp only [Context.effect, Attempt.bind_eq_ok, exists_const,
        checkMemory_eq_ok_iff, Attempt.pure_eq_ok] at h
      obtain ⟨hmemory, rfl⟩ := h
      exact ⟨_, _, .memoryGrow hmemory, rfl⟩
  | const type bits =>
      obtain rfl : fixed [] [.number type] = effect := by simpa [Context.effect] using h
      exact ⟨_, _, .const, rfl⟩
  | unary op =>
      obtain ⟨hfeature, rfl⟩ := effect_unary_eq_ok_iff.mp h
      exact ⟨_, _, .unary hfeature, rfl⟩
  | binary op =>
      obtain rfl : op.effect = effect := by simpa [Context.effect] using h
      exact ⟨_, _, .binary, op.effect_eq⟩
  | reserved code => exact absurd h Attempt.fail_ne_ok

theorem effect_of_hasType
    {running : StackEffect} {instr : Instr} {taken left : List ValueType}
    (hsimple : IsSimple instr) (h : InstrHasType c instr taken left) :
    c.effect running instr = .ok (fixed taken left) := by
  cases h with
  | unreachable | block | loop | ifElse | br | brTable | ret | drop | select =>
      exact hsimple.elim
  | nop => rfl
  | brIf hlabel =>
      rw [Context.effect, label_eq_ok_iff.mpr hlabel]
      rfl
  | call hfunction htype =>
      rw [Context.effect, functionType_eq_ok_iff.mpr ⟨_, hfunction, htype⟩]
      rfl
  | callIndirect htable helement htype =>
      rw [Context.effect, @checkTable_eq_ok_iff c () |>.mpr ⟨_, htable, helement⟩,
        Index.lookup_eq_some_iff.mpr htype]
      rfl
  | localGet hlocal | localSet hlocal | localTee hlocal =>
      rw [Context.effect, Index.lookup_eq_some_iff.mpr hlocal]
      rfl
  | globalGet hglobal =>
      rw [Context.effect, globalType_eq_ok_iff.mpr hglobal]
      rfl
  | globalSet hglobal hmutable =>
      rw [Context.effect, globalType_eq_ok_iff.mpr hglobal]
      simp only [Attempt.bind_eq_ok, exists_const, Attempt.require_eq_ok]
      exact ⟨_, rfl, hmutable, rfl⟩
  | load hmemory halign | store hmemory halign =>
      simp only [Context.effect, Attempt.bind_eq_ok, exists_const,
        checkMemory_eq_ok_iff, checkAlign_eq_ok_iff, LoadOp.access_eq,
        StoreOp.access_eq]
      exact ⟨hmemory, halign, rfl⟩
  | memorySize hmemory | memoryGrow hmemory =>
      simp only [Context.effect, Attempt.bind_eq_ok, exists_const,
        checkMemory_eq_ok_iff]
      exact ⟨hmemory, rfl⟩
  | const => rfl
  | unary hfeature => exact effect_unary_eq_ok_iff.mpr ⟨hfeature, rfl⟩
  | @binary _ op => rw [Context.effect, op.effect_eq]

theorem numeric_of_hasType
    {instr : Instr} {taken left : List ValueType} (hc : c.IsNumeric)
    (h : InstrHasType c instr taken left) :
    Numeric taken ∧ Numeric left := by
  cases h with
  | unreachable htaken hleft => exact ⟨htaken, hleft⟩
  | nop => simp
  | block htype | loop htype => exact htype.1
  | ifElse htype => simpa [FuncType.IsNumeric] using htype.1
  | br hlabel htaken hleft =>
      exact ⟨numeric_append.mpr ⟨htaken, hc.label hlabel⟩, hleft⟩
  | brIf hlabel => simpa using hc.label hlabel
  | brTable hdefault hlabels htaken hleft =>
      refine ⟨numeric_append.mpr ⟨htaken, ?_⟩, hleft⟩
      simpa using hc.label hdefault
  | ret htaken hleft => exact ⟨numeric_append.mpr ⟨htaken, hc.returns⟩, hleft⟩
  | call hfunction htype => exact hc.type htype
  | callIndirect htable helement htype =>
      simpa [FuncType.IsNumeric] using hc.type htype.getElem?
  | drop htype => simpa using htype
  | select htype => simpa using htype
  | localGet hlocal | localSet hlocal | localTee hlocal => simpa using hc.local hlocal
  | globalGet hglobal | globalSet hglobal => simpa using hc.global hglobal
  | load | store | memorySize | memoryGrow | const | unary | binary => simp

/-- Some stack that the running effect admits, with operands of the instruction on top,
becomes the given one. -/
def Reaches (c : Context) (running : StackEffect) (instr : Instr)
    (types : List ValueType) : Prop :=
  ∃ below taken left, InstrHasType c instr taken left ∧
    running.Admits (below ++ taken) ∧ types = below ++ left

/-- The effect that the checker gives to an instruction reaches exactly the stacks of
its typing rule. -/
structure IsPrincipal (c : Context) (running : StackEffect) (instr : Instr) : Prop where
  reaches : ∀ types, c.Reaches running instr types ↔
    ∃ effect, c.effect running instr = .ok effect ∧ running.AdmitsAfter effect types
  known : ∀ effect, c.effect running instr = .ok effect →
    StackEffect.Known effect.results
  polymorphic : ∀ effect, c.effect running instr = .ok effect →
    (effect.polymorphic = true ↔ instr.Transfers)

theorem isPrincipal_of_fixed
    {running : StackEffect} {instr : Instr} (hc : c.IsNumeric)
    (hrunning : running.IsClosed) (htransfers : ¬instr.Transfers)
    (heffect : ∀ effect, c.effect running instr = .ok effect ↔
      ∃ taken left, InstrHasType c instr taken left ∧ effect = fixed taken left) :
    c.IsPrincipal running instr where
  reaches types := by
    constructor
    · rintro ⟨below, taken, left, htyping, hadmits, rfl⟩
      obtain ⟨htaken, hleft⟩ := numeric_of_hasType hc htyping
      refine ⟨fixed taken left, (heffect _).mpr ⟨taken, left, htyping, rfl⟩, ?_⟩
      exact (StackEffect.exists_admits_numeric_iff hrunning htaken hleft).mp ⟨below,
        hadmits, rfl⟩
    · rintro ⟨effect, hok, hafter⟩
      obtain ⟨taken, left, htyping, rfl⟩ := (heffect effect).mp hok
      obtain ⟨htaken, hleft⟩ := numeric_of_hasType hc htyping
      obtain ⟨below, hadmits, rfl⟩ :=
        (StackEffect.exists_admits_numeric_iff hrunning htaken hleft).mpr hafter
      exact ⟨below, taken, left, htyping, hadmits, rfl⟩
  known effect hok := by
    obtain ⟨taken, left, htyping, rfl⟩ := (heffect effect).mp hok
    exact StackEffect.known_of_numeric (numeric_of_hasType hc htyping).2
  polymorphic effect hok := by
    obtain ⟨taken, left, htyping, rfl⟩ := (heffect effect).mp hok
    simp [fixed, htransfers]

theorem isPrincipal_of_leaving
    {running : StackEffect} {instr : Instr} {P : List ValueType → Prop}
    (hrunning : running.IsClosed) (htransfers : instr.Transfers)
    (hnumeric : ∀ params, P params → Numeric params)
    (heffect : ∀ effect, c.effect running instr = .ok effect ↔
      ∃ params, P params ∧ effect = leaving params)
    (hrule : ∀ taken left, InstrHasType c instr taken left ↔
      ∃ above params, P params ∧ Numeric above ∧ Numeric left ∧
        taken = above ++ params) :
    c.IsPrincipal running instr where
  reaches types := by
    constructor
    · rintro ⟨below, taken, left, htyping, hadmits, rfl⟩
      obtain ⟨above, params, hparams, habove, hleft, rfl⟩ :=
        (hrule taken left).mp htyping
      refine ⟨leaving params, (heffect _).mpr ⟨params, hparams, rfl⟩, ?_⟩
      exact (StackEffect.exists_admits_leaving_iff hrunning
        (hnumeric params hparams)).mp
        ⟨below, above, left, habove, hleft, hadmits, rfl⟩
    · rintro ⟨effect, hok, hafter⟩
      obtain ⟨params, hparams, rfl⟩ := (heffect effect).mp hok
      obtain ⟨below, above, left, habove, hleft, hadmits, rfl⟩ :=
        (StackEffect.exists_admits_leaving_iff hrunning
          (hnumeric params hparams)).mpr hafter
      exact ⟨below, above ++ params, left,
        (hrule _ _).mpr ⟨above, params, hparams, habove, hleft, rfl⟩, hadmits, rfl⟩
  known effect hok := by
    obtain ⟨params, hparams, rfl⟩ := (heffect effect).mp hok
    simp [leaving, StackEffect.Known]
  polymorphic effect hok := by
    obtain ⟨params, hparams, rfl⟩ := (heffect effect).mp hok
    simp [leaving, htransfers]

theorem isPrincipal_drop
    {running : StackEffect} (hrunning : running.IsClosed) :
    c.IsPrincipal running .drop where
  reaches types := by
    simp only [Context.effect, Except.ok.injEq, exists_eq_left',
      ← StackEffect.exists_admits_drop_iff hrunning]
    constructor
    · rintro ⟨below, _, _, htyping, hadmits, rfl⟩
      cases htyping with
      | drop htype => exact ⟨below, _, htype, hadmits, List.append_nil below⟩
    · rintro ⟨below, type, htype, hadmits, rfl⟩
      exact ⟨types, [type], [], .drop htype, hadmits, (List.append_nil types).symm⟩
  known := by simp [Context.effect, fixed, StackEffect.Known]
  polymorphic := by simp [Context.effect, fixed, Instr.Transfers]

theorem isPrincipal_select
    {running : StackEffect} (hrunning : running.IsClosed) :
    c.IsPrincipal running .select where
  reaches types := by
    have hselect := @StackEffect.exists_admits_select_iff running types hrunning
    simp only [Context.effect, Except.ok.injEq, exists_eq_left']
    refine Iff.trans ?_ hselect
    constructor
    · rintro ⟨below, _, _, htyping, hadmits, rfl⟩
      cases htyping with
      | select htype => exact ⟨below, _, htype, hadmits, rfl⟩
    · rintro ⟨below, type, htype, hadmits, rfl⟩
      exact ⟨below, _, _, .select htype, hadmits, rfl⟩
  known := by
    rintro effect ⟨⟩
    rw [fixed, StackEffect.known_cons]
    refine ⟨?_, by simp [StackEffect.Known]⟩
    split
    · exact StackEffect.known_typeAt hrunning 2
    · exact StackEffect.known_typeAt hrunning 1
  polymorphic := by simp [Context.effect, fixed, Instr.Transfers]

theorem isPrincipal_unreachable
    {running : StackEffect} (hrunning : running.IsClosed) :
    c.IsPrincipal running .unreachable := by
  refine isPrincipal_of_leaving (P := fun params => params = []) hrunning trivial
    (by simp) ?_ ?_
  · simp [effect_unreachable, eq_comm]
  · intro taken left
    constructor
    · intro htyping
      cases htyping with
      | unreachable htaken hleft =>
          exact ⟨taken, [], rfl, htaken, hleft, (List.append_nil taken).symm⟩
    · rintro ⟨above, _, rfl, habove, hleft, rfl⟩
      exact .unreachable (by simpa using habove) hleft

theorem isPrincipal_br
    {running : StackEffect} {label : UInt32} (hc : c.IsNumeric)
    (hrunning : running.IsClosed) :
    c.IsPrincipal running (.br label) := by
  refine isPrincipal_of_leaving (P := fun params => Denotes c.labels label params)
    hrunning trivial (fun _ => hc.label) ?_ ?_
  · intro effect
    simp only [Context.effect, Attempt.bind_eq_ok, label_eq_ok_iff, Attempt.pure_eq_ok,
      @eq_comm _ effect]
  · intro taken left
    constructor
    · intro htyping
      cases htyping with
      | br hlabel htaken hleft => exact ⟨_, _, hlabel, htaken, hleft, rfl⟩
    · rintro ⟨above, types, hlabel, habove, hleft, rfl⟩
      exact .br hlabel habove hleft

theorem isPrincipal_brTable
    {running : StackEffect} {labels : List UInt32} {default : UInt32} (hc : c.IsNumeric)
    (hrunning : running.IsClosed) :
    c.IsPrincipal running (.brTable labels default) := by
  refine isPrincipal_of_leaving
    (P := fun params => ∃ types, Denotes c.labels default types ∧
      (∀ label ∈ labels, Denotes c.labels label types) ∧ params = types ++ [.i32])
    hrunning trivial ?_ ?_ ?_
  · rintro params ⟨types, hdefault, hlabels, rfl⟩
    simpa using hc.label hdefault
  · intro effect
    simp only [Context.effect, Attempt.bind_eq_ok, label_eq_ok_iff, Attempt.pure_eq_ok]
    constructor
    · rintro ⟨types, hdefault, _, htargets, rfl⟩
      exact ⟨_, ⟨types, hdefault, (checkTargets_eq_ok_iff hc (hc.label hdefault)).mp
        htargets, rfl⟩, rfl⟩
    · rintro ⟨_, ⟨types, hdefault, hlabels, rfl⟩, rfl⟩
      exact ⟨types, hdefault, (), (checkTargets_eq_ok_iff hc (hc.label hdefault)).mpr
        hlabels, rfl⟩
  · intro taken left
    constructor
    · intro htyping
      cases htyping with
      | brTable hdefault hlabels htaken hleft =>
          exact ⟨_, _, ⟨_, hdefault, hlabels, rfl⟩, htaken, hleft, rfl⟩
    · rintro ⟨above, _, ⟨types, hdefault, hlabels, rfl⟩, habove, hleft, rfl⟩
      exact .brTable hdefault hlabels habove hleft

theorem isPrincipal_ret
    {running : StackEffect} (hc : c.IsNumeric) (hrunning : running.IsClosed) :
    c.IsPrincipal running .ret := by
  refine isPrincipal_of_leaving (P := fun params => params = c.returns) hrunning
    trivial ?_ ?_ ?_
  · rintro _ rfl
    exact hc.returns
  · simp [effect_ret, eq_comm]
  · intro taken left
    constructor
    · intro htyping
      cases htyping with
      | ret htaken hleft => exact ⟨_, _, rfl, htaken, hleft, rfl⟩
    · rintro ⟨above, _, rfl, habove, hleft, rfl⟩
      exact .ret habove hleft

theorem accumulate_cons_eq_ok_iff
    {running next : StackEffect} {position : Nat} {instr : Instr} {rest : List Instr} :
    c.accumulate running position (instr :: rest) = .ok next ↔
      ∃ effect middle, c.effect running instr = .ok effect ∧
        running.andThen effect = .ok middle ∧
        c.accumulate middle (position + 1) rest = .ok next := by
  simp only [Context.accumulate, Attempt.bind_eq_ok, Attempt.mapCause_eq_ok,
    Attempt.ofExcept_eq_ok]
  constructor
  · rintro ⟨middle, ⟨effect, heffect, hmiddle⟩, hrest⟩
    exact ⟨effect, middle, heffect, hmiddle, hrest⟩
  · rintro ⟨effect, middle, heffect, hmiddle, hrest⟩
    exact ⟨middle, ⟨effect, heffect, hmiddle⟩, hrest⟩

theorem params_of_accumulate
    {running next : StackEffect} {position : Nat} {body : List Instr}
    (h : c.accumulate running position body = .ok next) (hnext : next.params = []) :
    running.params = [] := by
  induction body generalizing running position with
  | nil =>
      obtain rfl : running = next := by simpa [Context.accumulate] using h
      exact hnext
  | cons instr rest ih =>
      obtain ⟨effect, middle, -, hmiddle, hrest⟩ := accumulate_cons_eq_ok_iff.mp h
      exact StackEffect.params_of_andThen hmiddle (ih hrest)

/-- Every instruction of the sequence has a principal effect, whatever comes before
it. -/
def AllPrincipal (c : Context) (body : List Instr) : Prop :=
  ∀ instr ∈ body, ∀ running : StackEffect, running.IsClosed →
    c.IsPrincipal running instr

theorem isClosed_of_accumulate
    {running next : StackEffect} {position : Nat} {body : List Instr}
    (hbody : c.AllPrincipal body) (hrunning : running.IsClosed)
    (h : c.accumulate running position body = .ok next) (hnext : next.params = []) :
    next.IsClosed ∧
      (next.polymorphic = true ↔ running.polymorphic = true ∨ ∃ instr ∈ body,
        instr.Transfers) := by
  induction body generalizing running position with
  | nil =>
      obtain rfl : running = next := by simpa [Context.accumulate] using h
      simpa using hrunning
  | cons instr rest ih =>
      obtain ⟨hinstr, hrestPrincipal⟩ := List.forall_mem_cons.mp hbody
      obtain ⟨effect, middle, heffect, hmiddle, hrest⟩ := accumulate_cons_eq_ok_iff.mp h
      have hprincipal := hinstr running hrunning
      have hclosed := StackEffect.isClosed_of_andThen hmiddle hrunning
        (hprincipal.known effect heffect)
        (params_of_accumulate hrest hnext)
      obtain ⟨hnextClosed, hpolymorphic⟩ := ih hrestPrincipal hclosed hrest
      refine ⟨hnextClosed, ?_⟩
      rw [hpolymorphic, (StackEffect.andThen_eq_ok hmiddle).2.2, Bool.or_eq_true,
        hprincipal.polymorphic effect heffect, or_assoc, List.exists_mem_cons_iff]

theorem accumulate_admits_iff
    {running : StackEffect} {position : Nat} {body : List Instr}
    {types : List ValueType} (hbody : c.AllPrincipal body)
    (hrunning : running.IsClosed) :
    (∃ stack, running.Admits stack ∧ SequenceHasType c body stack types) ↔
      ∃ next, c.accumulate running position body = .ok next ∧ next.params = [] ∧
        next.Admits types := by
  induction body generalizing running position with
  | nil =>
      constructor
      · rintro ⟨stack, hadmits, ⟨⟩⟩
        exact ⟨running, rfl, hrunning.params, hadmits⟩
      · rintro ⟨_, ⟨⟩, -, hadmits⟩
        exact ⟨types, hadmits, .nil⟩
  | cons instr rest ih =>
      obtain ⟨hinstr, hrestPrincipal⟩ := List.forall_mem_cons.mp hbody
      have hprincipal := hinstr running hrunning
      constructor
      · rintro ⟨_, hadmits, ⟨⟩⟩
        rename_i below taken left htyping hrest
        obtain ⟨effect, heffect, middle, hmiddle, hparams, hmiddleAdmits⟩ :=
          (hprincipal.reaches (below ++ left)).mp ⟨below, taken, left, htyping,
            hadmits, rfl⟩
        have hclosed := StackEffect.isClosed_of_andThen hmiddle hrunning
          (hprincipal.known effect heffect) hparams
        obtain ⟨next, hnext, hnextAdmits⟩ :=
          (ih hrestPrincipal hclosed).mp ⟨_, hmiddleAdmits, hrest⟩
        exact ⟨next, accumulate_cons_eq_ok_iff.mpr ⟨effect, middle, heffect, hmiddle,
          hnext⟩, hnextAdmits⟩
      · rintro ⟨next, hnext, hparams, hnextAdmits⟩
        obtain ⟨effect, middle, heffect, hmiddle, hrest⟩ :=
          accumulate_cons_eq_ok_iff.mp hnext
        have hmiddleParams := params_of_accumulate hrest hparams
        have hclosed := StackEffect.isClosed_of_andThen hmiddle hrunning
          (hprincipal.known effect heffect) hmiddleParams
        obtain ⟨stack, hstack, hsequence⟩ :=
          (ih hrestPrincipal hclosed).mpr ⟨next, hrest, hparams, hnextAdmits⟩
        obtain ⟨below, taken, left, htyping, hadmits, rfl⟩ :=
          (hprincipal.reaches stack).mpr ⟨effect, heffect, middle, hmiddle,
            hmiddleParams, hstack⟩
        exact ⟨below ++ taken, hadmits, .cons htyping hsequence⟩

theorem checkSequence_eq_ok_iff
    {params results : List ValueType} {body : List Instr} (hbody : c.AllPrincipal body)
    (hparams : Numeric params) (hresults : Numeric results) :
    c.checkSequence params results body = .ok () ↔
      BodyHasType c body params results := by
  have hstart : StackEffect.IsClosed { results := params } :=
    ⟨rfl, StackEffect.known_of_numeric hparams⟩
  have hadmits (stack : List ValueType) :
      StackEffect.Admits { results := params } stack ↔ stack = params := by
    have hfills := @StackEffect.forall₂_fills_numeric_iff stack params hparams
    constructor
    · rintro ⟨below, top, rfl, -, htop, hbelow⟩
      rw [hbelow rfl]
      exact (StackEffect.forall₂_fills_numeric_iff hparams).mp htop
    · rintro rfl
      exact ⟨[], stack, rfl, numeric_nil, hfills.mpr rfl, fun _ => rfl⟩
  rw [checkSequence, Attempt.bind_eq_ok]
  constructor
  · rintro ⟨next, hnext, hcheck⟩
    have hcheck := Attempt.ofExcept_eq_ok.mp hcheck
    have hnextParams : next.params = [] := by
      by_contra hne
      simp [StackEffect.checkResults, hne] at hcheck
    obtain ⟨hclosed, hpolymorphic⟩ :=
      isClosed_of_accumulate hbody hstart hnext hnextParams
    obtain ⟨surplus, hsurplusAdmits, hsurplus⟩ :=
      (StackEffect.checkResults_eq_ok_iff hclosed hresults).mp hcheck
    obtain ⟨stack, hstack, hsequence⟩ := (accumulate_admits_iff hbody hstart).mpr
      ⟨next, hnext, hnextParams, hsurplusAdmits⟩
    obtain rfl := (hadmits stack).mp hstack
    refine .intro hsequence (hsurplus.imp_right fun hpoly => ?_)
    simpa using hpolymorphic.mp hpoly
  · rintro ⟨hsequence, hsurplus⟩
    rename_i surplus
    obtain ⟨next, hnext, hnextParams, hnextAdmits⟩ :=
      (accumulate_admits_iff hbody hstart).mp
      ⟨params, (hadmits params).mpr rfl, hsequence⟩
    obtain ⟨hclosed, hpolymorphic⟩ :=
      isClosed_of_accumulate hbody hstart hnext hnextParams
    refine ⟨next, hnext, Attempt.ofExcept_eq_ok.mpr ?_⟩
    refine (StackEffect.checkResults_eq_ok_iff hclosed hresults).mpr ⟨surplus,
      hnextAdmits, ?_⟩
    exact hsurplus.imp_right fun htransfers => hpolymorphic.mpr (.inr htransfers)

mutual

/-- Every instruction has a principal effect under every context of number types. -/
theorem isPrincipal
    (instr : Instr) {c : Context} (hc : c.IsNumeric) {running : StackEffect}
    (hrunning : running.IsClosed) :
    c.IsPrincipal running instr := by
  cases instr with
  | unreachable => exact isPrincipal_unreachable hrunning
  | br label => exact isPrincipal_br hc hrunning
  | brTable labels default => exact isPrincipal_brTable hc hrunning
  | ret => exact isPrincipal_ret hc hrunning
  | drop => exact isPrincipal_drop hrunning
  | select => exact isPrincipal_select hrunning
  | block type body =>
      exact isPrincipal_of_fixed hc hrunning id fun _ =>
        effect_block_eq_ok_iff hc (decides body)
  | loop type body =>
      exact isPrincipal_of_fixed hc hrunning id fun _ =>
        effect_loop_eq_ok_iff hc (decides body)
  | ifElse type whenTrue whenFalse =>
      exact isPrincipal_of_fixed hc hrunning id fun _ =>
        effect_ifElse_eq_ok_iff hc (decides whenTrue) (decides whenFalse)
  | nop | brIf | call | callIndirect | localGet | localSet | localTee | globalGet
  | globalSet | load | store
  | memorySize | memoryGrow | const | unary | binary | reserved =>
      refine isPrincipal_of_fixed hc hrunning id fun effect =>
        ⟨hasType_of_effect trivial, ?_⟩
      rintro ⟨taken, left, htyping, rfl⟩
      exact effect_of_hasType trivial htyping

/-- So does every instruction of a sequence. -/
theorem allPrincipal
    (body : List Instr) {c : Context} (hc : c.IsNumeric) : c.AllPrincipal body := by
  cases body with
  | nil => simp [AllPrincipal]
  | cons instr rest =>
      exact List.forall_mem_cons.mpr ⟨fun running hrunning =>
        isPrincipal instr hc hrunning, allPrincipal rest hc⟩

/-- The checker accepts exactly the derivable sequences. -/
theorem decides
    (body : List Instr) : Decides body :=
  fun hc hparams hresults =>
    checkSequence_eq_ok_iff (allPrincipal body hc) hparams hresults

end

end Context
end WebAssembly
