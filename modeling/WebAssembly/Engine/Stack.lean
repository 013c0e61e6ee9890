import WebAssembly.Error

/-!
# The stack of a run

Operands, labels and activations share one stack.  A label marks where a structured
instruction began, and an activation where a call did; each says how many operands an
exit to it carries.  Labels and activations act as barriers: operands are only taken
from above the first of them.
-/

namespace WebAssembly

/-- An entry of the stack. -/
inductive Entry
  | value (v : Val)
  | label (arity : Nat)
  | activation (arity : Nat)
  deriving DecidableEq, Repr, Inhabited

abbrev Stack := List Entry

namespace Stack

/-- Pushes operands in order, so that the last one is on top. -/
def pushAll (stack : Stack) : List Val → Stack
  | [] => stack
  | v :: rest => pushAll (.value v :: stack) rest

/-- Pops one operand. -/
def pop : Stack → Except Bug (Val × Stack)
  | .value v :: rest => .ok (v, rest)
  | _ => .error .noValue

/-- Pops operands and puts them in front of `acc`, in the order in which they were
pushed. -/
def popOnto (acc : List Val) : Nat → Stack → Except Bug (List Val × Stack)
  | 0, stack => .ok (acc, stack)
  | count + 1, .value v :: rest => popOnto (v :: acc) count rest
  | _ + 1, _ => .error .noValue

/-- Pops `count` operands and gives them in the order in which they were pushed. -/
def popMany (count : Nat) (stack : Stack) : Except Bug (List Val × Stack) :=
  popOnto [] count stack

/-- Pops an operand of the given type. -/
def popTyped (type : ValueType) (stack : Stack) : Except Bug (Val × Stack) :=
  match pop stack with
  | .ok (v, rest) => if v.type = type then .ok (v, rest) else .error (.wrongKind type v)
  | .error bug => .error bug

def popLabel : Stack → Except Bug Stack
  | .label _ :: rest => .ok rest
  | _ => .error .noLabel

/-- The arity of the label at a depth and the stack below it.  The search ends at an
activation. -/
def findLabel (target : UInt32) : Nat → Stack → Except Bug (Nat × Stack)
  | _, [] => .error (.labelMissing target)
  | depth, .value _ :: rest => findLabel target depth rest
  | 0, .label arity :: rest => .ok (arity, rest)
  | depth + 1, .label _ :: rest => findLabel target depth rest
  | _, .activation _ :: _ => .error (.labelOutside target)

/-- Leaves for a label: the operands that it carries are moved to where the label
stood. -/
def branch (target : UInt32) (stack : Stack) : Except Bug Stack :=
  match findLabel target target.toNat stack with
  | .error bug => .error bug
  | .ok (arity, below) =>
    match popMany arity stack with
    | .error bug => .error bug
    | .ok (values, _) => .ok (below.pushAll values)

def findActivation : Stack → Option (Nat × Stack)
  | [] => none
  | .activation arity :: rest => some (arity, rest)
  | _ :: rest => findActivation rest

/-- Leaves for the innermost activation: its results are moved to right above it. -/
def ret (stack : Stack) : Except Bug Stack :=
  match findActivation stack with
  | none => .error .returnOutside
  | some (arity, below) =>
    match popMany arity stack with
    | .error bug => .error bug
    | .ok (values, _) => .ok (pushAll (.activation arity :: below) values)

/-- Ends a call: its results are moved to where its activation stood. -/
def leave (function : String) (arity : Nat) (stack : Stack) : Except Bug Stack :=
  match popMany arity stack with
  | .error bug => .error bug
  | .ok (results, rest) =>
    match findActivation rest with
    | none => .error (.activationMissing function)
    | some (_, below) => .ok (below.pushAll results)

end Stack
end WebAssembly
