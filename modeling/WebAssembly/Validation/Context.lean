import WebAssembly.Fault

/-!
# Validation contexts

What the checks of a module know: the features that are on, the index spaces of the
module and, within a function, its locals, labels and results.  Small checks of types
stand here too.
-/

namespace WebAssembly

/-- The knowledge under which instructions are checked. -/
structure Context where
  features : Features := Features.none
  types : List (Option FuncType) := []
  /-- The type index of each function. -/
  functions : List UInt32 := []
  tables : List (Option TableType) := []
  memories : List (Option Limits) := []
  globals : List (Option GlobalType) := []
  locals : List ValueType := []
  /-- The types that a branch to each enclosing label carries, innermost first. -/
  labels : List (List ValueType) := []
  returns : List ValueType := []
  deriving DecidableEq, Repr, Inhabited

namespace Context

def ofModule (m : Module) (features : Features) : Context where
  features := features
  types := m.types
  functions := m.functionSpace
  tables := m.tableSpace
  memories := m.memorySpace
  globals := m.globalSpace

/-- The context inside a function of the given type and locals. -/
def inFunction (c : Context) (type : FuncType) (locals : List ValueType) : Context :=
  { c with
    locals := type.params ++ locals, labels := [type.results], returns := type.results }

/-- The context inside a block to which branches carry the given types. -/
def inBlock (c : Context) (types : List ValueType) : Context :=
  { c with labels := types :: c.labels }

/-- The types that a branch to a label carries. -/
def label (c : Context) (depth : UInt32) : Check (List ValueType) :=
  Attempt.orFail (.labelIndex depth) (Index.lookup c.labels depth)

def functionType (c : Context) (index : UInt32) : Check FuncType := do
  let type ← Attempt.orFail (.functionIndex index) (Index.lookup c.functions index)
  Attempt.present c.types[type.toNat]?.join

def globalType (c : Context) (index : UInt32) : Check GlobalType := do
  let type ← Attempt.orFail (.globalIndex index) (Index.lookup c.globals index)
  Attempt.present type

end Context

namespace ValueType

def check : ValueType → Check Unit
  | .number _ => .ok ()
  | type => Attempt.fail (.valueType type.code)

def checkAll (types : List ValueType) : Check Unit :=
  Attempt.forEach (fun _ type => type.check) 0 types

end ValueType

namespace Limits

/-- Checks that limits are present, within a bound, and the right way round. -/
def check (limits : Option Limits) (bound : UInt32) (unit : SizeUnit) : Check Unit := do
  let limits ← Attempt.orFail .missingLimits limits
  Attempt.require (limits.min ≤ bound) (.minOver limits.min unit bound)
  match limits.max with
  | none => pure ()
  | some max =>
    Attempt.require (max ≤ bound) (.maxOver max unit bound)
    Attempt.require (limits.min ≤ max) (.minOverMax limits.min max)

def checkMemory (limits : Option Limits) : Check Unit :=
  check limits Page.maxCount .pages

end Limits

namespace TableType

def check (type : Option TableType) : Check Unit := do
  let type ← Attempt.orFail .missingTableType type
  Attempt.require (type.element = funcref) (.elementType type.element)
  Limits.check type.limits 0xffffffff .elements

end TableType

namespace Context

/-- Checks that a constant expression gives a value of the expected type and reads only
immutable globals among the first `visible` ones. -/
def checkConst (c : Context) (expr : Option ConstExpr) (expected : ValueType)
    (visible : Nat) : Check Unit := do
  let expr ← Attempt.orFail .missingConstant expr
  let actual ← match expr with
    | .const type _ => pure (.number type)
    | .globalGet index =>
      Attempt.require (index < UInt32.ofNat visible && index < Index.count c.globals)
        (.constantGlobalIndex index)
      let type ← c.globalType index
      Attempt.require (!type.isMutable) (.constantReadsMutable index)
      pure type.value
    | .other opcode => Attempt.fail (.notConstant opcode)
  Attempt.require (actual = expected) (.constantType actual expected)

end Context
end WebAssembly
