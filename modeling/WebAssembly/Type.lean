import WebAssembly.Text.Hex

/-!
# Types

Value types, function signatures, and the types of tables, memories, globals and
externs.

A module writes a value type or an extern kind as one byte and may hold any byte there,
so both types keep the bytes that denote nothing.  Checking rejects them later and names
the byte.
-/

namespace WebAssembly

/-- The four number types. -/
inductive NumberType
  | i32
  | i64
  | f32
  | f64
  deriving DecidableEq, Repr, Inhabited

namespace NumberType

def name : NumberType → String
  | .i32 => "i32"
  | .i64 => "i64"
  | .f32 => "f32"
  | .f64 => "f64"

end NumberType

/-- The type of a value: a number type, the wildcard that matches every type, or a byte
that denotes no type. -/
inductive ValueType
  | number (type : NumberType)
  | any
  | reserved (code : UInt8)
  deriving DecidableEq, Repr, Inhabited

namespace ValueType

@[match_pattern] abbrev i32 : ValueType := .number .i32
@[match_pattern] abbrev i64 : ValueType := .number .i64
@[match_pattern] abbrev f32 : ValueType := .number .f32
@[match_pattern] abbrev f64 : ValueType := .number .f64

/-- The byte that denotes the type in a module. -/
def code : ValueType → UInt8
  | .i32 => 0x7f
  | .i64 => 0x7e
  | .f32 => 0x7d
  | .f64 => 0x7c
  | .any => 0xff
  | .reserved code => code

/-- The type that a byte denotes. -/
def ofCode (code : UInt8) : ValueType :=
  if code = 0x7f then .i32
  else if code = 0x7e then .i64
  else if code = 0x7d then .f32
  else if code = 0x7c then .f64
  else if code = 0xff then .any
  else .reserved code

theorem code_ofCode (code : UInt8) : (ofCode code).code = code := by
  simp only [ofCode]
  repeat' split
  all_goals simp_all [ValueType.code]

/-- The name of the type in the text format, or `unknown` where it has none. -/
def name : ValueType → String
  | .number type => type.name
  | .any | .reserved _ => "unknown"

/-- The name of the type in a list of operand types, where the wildcard has a name of
its own. -/
def operandName : ValueType → String
  | .any => "any"
  | type => type.name

/-- Two types match when they are equal or one of them is the wildcard. -/
def Matches (a b : ValueType) : Prop :=
  a = b ∨ a = .any ∨ b = .any

instance (a b : ValueType) : Decidable (a.Matches b) :=
  inferInstanceAs (Decidable (_ ∨ _ ∨ _))

/-- A list of types in brackets, such as `[i32 any]`. -/
def listText (types : List ValueType) : String :=
  "[" ++ String.intercalate " " (types.map operandName) ++ "]"

end ValueType

/-- A function signature. -/
structure FuncType where
  params : List ValueType := []
  results : List ValueType := []
  deriving DecidableEq, Repr, Inhabited

namespace FuncType

/-- The signature in the form `[i32 i32] -> [i64]`. -/
def text (type : FuncType) : String :=
  ValueType.listText type.params ++ " -> " ++ ValueType.listText type.results

end FuncType

/-- Bounds on the size of a table, in slots, or of a memory, in pages. -/
structure Limits where
  min : UInt32
  max : Option UInt32 := none
  deriving DecidableEq, Repr, Inhabited

namespace Limits

/-- Whether something of the given size and declared maximum may stand where these
limits are asked for. -/
def admits (limits : Limits) (size : UInt32) (max : Option UInt32) : Bool :=
  limits.min ≤ size &&
    match limits.max, max with
    | none, _ => true
    | some _, none => false
    | some bound, some max => max ≤ bound

/-- The limits in braces, the maximum only where there is one. -/
def text (limits : Limits) : String :=
  match limits.max with
  | none => s!"\x7bmin: {limits.min}\x7d"
  | some max => s!"\x7bmin: {limits.min}, max: {max}\x7d"

end Limits

/-- The type of a table: the byte of its element type and its limits. -/
structure TableType where
  element : UInt8
  limits : Option Limits
  deriving DecidableEq, Repr, Inhabited

namespace TableType

/-- The byte of the only element type, a reference to a function. -/
def funcref : UInt8 := 0x70

end TableType

/-- The type of a global. -/
structure GlobalType where
  value : ValueType
  isMutable : Bool
  deriving DecidableEq, Repr, Inhabited

namespace GlobalType

def text (type : GlobalType) : String :=
  if type.isMutable then "(mut " ++ type.value.name ++ ")" else type.value.name

end GlobalType

/-- The kind of an import or export, or a byte that denotes none. -/
inductive ExternKind
  | func
  | table
  | memory
  | global
  | reserved (code : UInt8)
  deriving DecidableEq, Repr, Inhabited

namespace ExternKind

/-- The kind that a byte denotes. -/
def ofCode (code : UInt8) : ExternKind :=
  if code = 0 then .func
  else if code = 1 then .table
  else if code = 2 then .memory
  else if code = 3 then .global
  else .reserved code

/-- The byte that denotes the kind in a module. -/
def code : ExternKind → UInt8
  | .func => 0
  | .table => 1
  | .memory => 2
  | .global => 3
  | .reserved code => code

theorem code_ofCode (code : UInt8) : (ofCode code).code = code := by
  simp only [ofCode]
  repeat' split
  all_goals simp_all [ExternKind.code]

/-- The name of the kind in the text format, or its byte where it has none. -/
def name : ExternKind → String
  | .func => "func"
  | .table => "table"
  | .memory => "memory"
  | .global => "global"
  | .reserved code => Text.hexMarked code.toNat

def describe (kind : ExternKind) (description : String) : String :=
  kind.name ++ " " ++ description

end ExternKind

/-- The static type of an import or export. -/
inductive ExternType
  | func (type : FuncType)
  | table (type : TableType)
  | memory (limits : Limits)
  | global (type : GlobalType)
  deriving DecidableEq, Repr, Inhabited

namespace ExternType

def kind : ExternType → ExternKind
  | .func _ => .func
  | .table _ => .table
  | .memory _ => .memory
  | .global _ => .global

/-- The type without its kind; of a table, its limits. -/
def description : ExternType → String
  | .func type => type.text
  | .table type => (type.limits.map Limits.text).getD ""
  | .memory limits => limits.text
  | .global type => type.text

def text (type : ExternType) : String :=
  type.kind.describe type.description

end ExternType

/-- What satisfies an import: the kind and address of an instance. -/
structure ExternVal where
  kind : ExternKind
  addr : UInt32
  deriving DecidableEq, Repr, Inhabited

namespace ExternVal

/-- The kind and the address, such as `func@3`. -/
def text (val : ExternVal) : String :=
  s!"{val.kind.name}@{val.addr}"

end ExternVal
end WebAssembly
