import WebAssembly.Validation.Effect

/-!
# Signatures of operators

What the checker knows about numeric operators and memory accesses: the effect of an
operator on the stack, and the type and the width of an access.
-/

namespace WebAssembly

namespace Context

/-- The effect that takes and leaves values of fixed types. -/
def fixed (params results : List ValueType) : StackEffect := { params, results }

/-- The effect after which control goes elsewhere. -/
def leaving (params : List ValueType) : StackEffect := { params, polymorphic := true }

end Context

open Context (fixed)

namespace Conversion

def effect : Conversion → StackEffect
  | .wrap => fixed [.i64] [.i32]
  | .truncate .w32 .w32 _ | .floatBits .w32 => fixed [.f32] [.i32]
  | .truncate .w32 .w64 _ => fixed [.f64] [.i32]
  | .extend _ => fixed [.i32] [.i64]
  | .truncate .w64 .w32 _ => fixed [.f32] [.i64]
  | .truncate .w64 .w64 _ | .floatBits .w64 => fixed [.f64] [.i64]
  | .convert .w32 .w32 _ | .bitsFloat .w32 => fixed [.i32] [.f32]
  | .convert .w32 .w64 _ => fixed [.i64] [.f32]
  | .demote => fixed [.f64] [.f32]
  | .convert .w64 .w32 _ => fixed [.i32] [.f64]
  | .convert .w64 .w64 _ | .bitsFloat .w64 => fixed [.i64] [.f64]
  | .promote => fixed [.f32] [.f64]

end Conversion

namespace UnaryOp

def effect : UnaryOp → StackEffect
  | .eqz .w32 => fixed [.i32] [.i32]
  | .eqz .w64 => fixed [.i64] [.i32]
  | .int .w32 _ => fixed [.i32] [.i32]
  | .int .w64 _ => fixed [.i64] [.i64]
  | .float .w32 _ => fixed [.f32] [.f32]
  | .float .w64 _ => fixed [.f64] [.f64]
  | .convert conversion => conversion.effect
  | .signExtend .i32From8 | .signExtend .i32From16 => fixed [.i32] [.i32]
  | .signExtend _ => fixed [.i64] [.i64]

end UnaryOp

namespace BinaryOp

/-- The effect of an operator on two numbers. -/
def effect : BinaryOp → StackEffect
  | .intCompare .w32 _ => fixed [.i32, .i32] [.i32]
  | .intCompare .w64 _ => fixed [.i64, .i64] [.i32]
  | .floatCompare .w32 _ => fixed [.f32, .f32] [.i32]
  | .floatCompare .w64 _ => fixed [.f64, .f64] [.i32]
  | .int .w32 _ => fixed [.i32, .i32] [.i32]
  | .int .w64 _ => fixed [.i64, .i64] [.i64]
  | .float .w32 _ => fixed [.f32, .f32] [.f32]
  | .float .w64 _ => fixed [.f64, .f64] [.f64]

end BinaryOp

/-- The type of the value that is accessed in memory, and the number of bytes. -/
structure Access where
  type : ValueType
  width : Nat
  deriving DecidableEq, Repr, Inhabited

namespace LoadOp

def access : LoadOp → Access
  | .i32 => ⟨.i32, 4⟩
  | .i64 => ⟨.i64, 8⟩
  | .f32 => ⟨.f32, 4⟩
  | .f64 => ⟨.f64, 8⟩
  | .i32From8 _ => ⟨.i32, 1⟩
  | .i32From16 _ => ⟨.i32, 2⟩
  | .i64From8 _ => ⟨.i64, 1⟩
  | .i64From16 _ => ⟨.i64, 2⟩
  | .i64From32 _ => ⟨.i64, 4⟩

end LoadOp

namespace StoreOp

def access : StoreOp → Access
  | .i32 => ⟨.i32, 4⟩
  | .i64 => ⟨.i64, 8⟩
  | .f32 => ⟨.f32, 4⟩
  | .f64 => ⟨.f64, 8⟩
  | .i32To8 => ⟨.i32, 1⟩
  | .i32To16 => ⟨.i32, 2⟩
  | .i64To8 => ⟨.i64, 1⟩
  | .i64To16 => ⟨.i64, 2⟩
  | .i64To32 => ⟨.i64, 4⟩

end StoreOp
end WebAssembly
