import WebAssembly.Error
import WebAssembly.Store.Memory
import WebAssembly.Store.Table

/-!
# Instances

The parts of a store that hold no functions: globals and module instances.
-/

namespace WebAssembly

/-- A global in a store. -/
structure GlobalInst where
  type : GlobalType
  value : Val
  deriving DecidableEq, Repr, Inhabited

namespace GlobalInst

def text (g : GlobalInst) : String :=
  "global(" ++ g.value.text ++ ")"

end GlobalInst

/-- An instantiated module.  Each list of addresses is an index space: imports first, in
their order, and then the module's own definitions. -/
structure ModuleInst where
  name : String
  addr : UInt32
  types : List (Option FuncType)
  functions : List UInt32
  tables : List UInt32
  memories : List UInt32
  globals : List UInt32
  exports : List (String × ExternVal)
  deriving DecidableEq, Repr, Inhabited

namespace ModuleInst

def findExport (m : ModuleInst) (name : String) (kind : ExternKind) :
    Except ExportError ExternVal :=
  match m.exports.lookup name with
  | none => .error (.missing name m.name)
  | some val =>
    if val.kind = kind then .ok val else .error (.kind name m.name val.kind kind)

end ModuleInst
end WebAssembly
