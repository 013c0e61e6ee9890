import WebAssembly.Validation.Body

/-!
# Typing rules

The declarative type system of bodies.  A rule relates an instruction to the operand
types that it takes and the result types that it leaves; the rules of instructions after
which control goes elsewhere, and of `drop` and `select`, leave some of these types
open.  A sequence composes its instructions exactly and leaves the stack below their
operands untouched.

Nothing here follows the checker: the rules guess types where it keeps wildcards.
-/

namespace WebAssembly

namespace ValueType

def IsNumber : ValueType → Prop
  | .number _ => True
  | _ => False

instance : DecidablePred IsNumber := fun type =>
  match type with
  | .number _ => .isTrue trivial
  | .any | .reserved _ => .isFalse id

@[simp] theorem isNumber_number (type : NumberType) : (number type).IsNumber := trivial

@[simp] theorem not_isNumber_any : ¬any.IsNumber := id

end ValueType

def Numeric (types : List ValueType) : Prop :=
  ∀ type ∈ types, type.IsNumber

instance : DecidablePred Numeric := fun types =>
  inferInstanceAs (Decidable (∀ type ∈ types, type.IsNumber))

@[simp] theorem numeric_nil : Numeric [] := by
  simp [Numeric]

@[simp] theorem numeric_cons
    {type : ValueType} {types : List ValueType} :
    Numeric (type :: types) ↔ type.IsNumber ∧ Numeric types := by
  simp [Numeric]

@[simp] theorem numeric_append
    {first second : List ValueType} :
    Numeric (first ++ second) ↔ Numeric first ∧ Numeric second := by
  simp [Numeric, or_imp, forall_and]

def FuncType.IsNumeric (type : FuncType) : Prop :=
  Numeric type.params ∧ Numeric type.results

instance : DecidablePred FuncType.IsNumeric := fun type =>
  inferInstanceAs (Decidable (Numeric type.params ∧ Numeric type.results))

namespace Context

/-- Every value type that the context holds is a number type. -/
structure IsNumeric (c : Context) : Prop where
  types : ∀ type, some type ∈ c.types → type.IsNumeric
  globals : ∀ type, some type ∈ c.globals → type.value.IsNumber
  locals : Numeric c.locals
  labels : ∀ types ∈ c.labels, Numeric types
  returns : Numeric c.returns

theorem IsNumeric.inFunction
    {c : Context} {type : FuncType} {locals : List ValueType}
    (hc : c.IsNumeric) (htype : type.IsNumeric) (hlocals : Numeric locals) :
    (c.inFunction type locals).IsNumeric where
  types := hc.types
  globals := hc.globals
  locals := numeric_append.mpr ⟨htype.1, hlocals⟩
  labels := by
    intro types htypes
    obtain rfl : types = type.results := by simpa [Context.inFunction] using htypes
    exact htype.2
  returns := htype.2

theorem IsNumeric.inBlock
    {c : Context} {types : List ValueType}
    (hc : c.IsNumeric) (htypes : Numeric types) :
    (c.inBlock types).IsNumeric where
  types := hc.types
  globals := hc.globals
  locals := hc.locals
  labels := by
    intro label hlabel
    rcases List.mem_cons.mp hlabel with rfl | hlabel
    · exact htypes
    · exact hc.labels label hlabel
  returns := hc.returns

/-- The signature of a structured instruction is admissible: number types only, and
parameters or several results only where the feature for them is on. -/
def AdmitsBlock (c : Context) (type : FuncType) : Prop :=
  type.IsNumeric ∧ (type.params = [] ∧ type.results.length ≤ 1 ∨
    c.features.has .multiValue = true)

end Context

/-- An index denotes an entry of an index space.  The length of the space is taken
modulo `2 ^ 32`, since indexes are 32-bit words. -/
def Denotes {α : Type} (entries : List α) (index : UInt32) (a : α) : Prop :=
  index.toNat < entries.length % UInt32.size ∧ entries[index.toNat]? = some a

namespace Denotes

variable {α : Type} {entries : List α} {index : UInt32} {a : α}

theorem getElem? (h : Denotes entries index a) : entries[index.toNat]? = some a := h.2

end Denotes

/-- The alignment of an access to `byteCount` bytes does not exceed their number. -/
def MemArg.Aligned (arg : MemArg) (byteCount : Nat) : Prop :=
  arg.align.toNat < 32 ∧ Nat.pow 2 arg.align.toNat ≤ byteCount

/-- Control never reaches the instruction after this one. -/
def Instr.Transfers : Instr → Prop
  | .unreachable | .br _ | .brTable _ _ | .ret => True
  | _ => False

mutual

/-- An instruction takes operands of the first types and leaves results of the second
ones, both with the top of the stack at the end. -/
inductive InstrHasType : Context → Instr → List ValueType → List ValueType → Prop
  | unreachable {c taken left} (htaken : Numeric taken) (hleft : Numeric left) :
    InstrHasType c .unreachable taken left
  | nop {c} : InstrHasType c .nop [] []
  | block {c type body}
    (htype : c.AdmitsBlock (blockSignature type))
    (hbody : BodyHasType (c.inBlock (blockSignature type).results) body
      (blockSignature type).params (blockSignature type).results) :
    InstrHasType c (.block type body) (blockSignature type).params
      (blockSignature type).results
  | loop {c type body}
    (htype : c.AdmitsBlock (blockSignature type))
    (hbody : BodyHasType (c.inBlock (blockSignature type).params) body
      (blockSignature type).params (blockSignature type).results) :
    InstrHasType c (.loop type body) (blockSignature type).params
      (blockSignature type).results
  | ifElse {c type whenTrue whenFalse}
    (htype : c.AdmitsBlock (blockSignature type))
    (htrue : BodyHasType (c.inBlock (blockSignature type).results) whenTrue
      (blockSignature type).params (blockSignature type).results)
    (hfalse : BodyHasType (c.inBlock (blockSignature type).results) whenFalse
      (blockSignature type).params (blockSignature type).results) :
    InstrHasType c (.ifElse type whenTrue whenFalse)
      ((blockSignature type).params ++ [.i32])
      (blockSignature type).results
  | br {c label types taken left}
    (hlabel : Denotes c.labels label types) (htaken : Numeric taken)
      (hleft : Numeric left) :
    InstrHasType c (.br label) (taken ++ types) left
  | brIf {c label types} (hlabel : Denotes c.labels label types) :
    InstrHasType c (.brIf label) (types ++ [.i32]) types
  | brTable {c labels default types taken left}
    (hdefault : Denotes c.labels default types)
    (hlabels : ∀ label ∈ labels, Denotes c.labels label types)
    (htaken : Numeric taken) (hleft : Numeric left) :
    InstrHasType c (.brTable labels default) (taken ++ (types ++ [.i32])) left
  | ret {c taken left} (htaken : Numeric taken) (hleft : Numeric left) :
    InstrHasType c .ret (taken ++ c.returns) left
  | call {c function index type}
    (hfunction : Denotes c.functions function index)
    (htype : c.types[index.toNat]? = some (some type)) :
    InstrHasType c (.call function) type.params type.results
  | callIndirect {c index type table}
    (htable : c.tables.head? = some (some table)) (helement : table.element =
      TableType.funcref)
    (htype : Denotes c.types index (some type)) :
    InstrHasType c (.callIndirect index) (type.params ++ [.i32]) type.results
  | drop {c type} (htype : type.IsNumber) : InstrHasType c .drop [type] []
  | select {c type} (htype : type.IsNumber) :
    InstrHasType c .select [type, type, .i32] [type]
  | localGet {c index type} (hlocal : Denotes c.locals index type) :
    InstrHasType c (.localGet index) [] [type]
  | localSet {c index type} (hlocal : Denotes c.locals index type) :
    InstrHasType c (.localSet index) [type] []
  | localTee {c index type} (hlocal : Denotes c.locals index type) :
    InstrHasType c (.localTee index) [type] [type]
  | globalGet {c index type} (hglobal : Denotes c.globals index (some type)) :
    InstrHasType c (.globalGet index) [] [type.value]
  | globalSet {c index type}
    (hglobal : Denotes c.globals index (some type)) (hmutable : type.isMutable = true) :
    InstrHasType c (.globalSet index) [type.value] []
  | load {c op arg} (hmemory : c.memories ≠ []) (halign : arg.Aligned op.byteCount) :
    InstrHasType c (.load op arg) [.i32] [.number op.type]
  | store {c op arg} (hmemory : c.memories ≠ []) (halign : arg.Aligned op.byteCount) :
    InstrHasType c (.store op arg) [.i32, .number op.type] []
  | memorySize {c} (hmemory : c.memories ≠ []) : InstrHasType c .memorySize [] [.i32]
  | memoryGrow {c} (hmemory : c.memories ≠ []) :
    InstrHasType c .memoryGrow [.i32] [.i32]
  | const {c type bits} : InstrHasType c (.const type bits) [] [.number type]
  | unary {c op}
    (hfeature : ∀ extension, op = .signExtend extension →
      c.features.has .signExtension = true) :
    InstrHasType c (.unary op) [.number op.operand] [.number op.result]
  | binary {c op} :
    InstrHasType c (.binary op) [.number op.operand, .number op.operand]
      [.number op.result]

/-- A sequence turns a stack of the first types into one of the second types. -/
inductive SequenceHasType :
    Context → List Instr → List ValueType → List ValueType → Prop
  | nil {c types} : SequenceHasType c [] types types
  | cons {c instr rest below taken left types}
    (hinstr : InstrHasType c instr taken left)
    (hrest : SequenceHasType c rest (below ++ left) types) :
    SequenceHasType c (instr :: rest) (below ++ taken) types

/-- A sequence turns the given parameters into the given results.  It may leave a
surplus below them, but only if control never reaches its end. -/
inductive BodyHasType : Context → List Instr → List ValueType → List ValueType → Prop
  | intro {c body params surplus results}
    (hsequence : SequenceHasType c body params (surplus ++ results))
    (hsurplus : surplus = [] ∨ ∃ instr ∈ body, instr.Transfers) :
    BodyHasType c body params results

end

end WebAssembly
