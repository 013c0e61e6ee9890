import WebAssembly.Fault

/-!
# Stack effects

The effect of an instruction or a sequence on the operand stack: the operands it takes
and the results it leaves.  After an unconditional transfer of control the stack below
the results is arbitrary, and the effect is polymorphic.
-/

namespace WebAssembly

/-- What happens to the operand stack.  Lists have the top of the stack at their end. -/
structure StackEffect where
  params : List ValueType := []
  results : List ValueType := []
  polymorphic : Bool := false
  deriving DecidableEq, Repr, Inhabited

namespace StackEffect

/-- The effect of a sequence without instructions. -/
def empty : StackEffect := {}

/-- Whether two lists of types match entry by entry as far as both reach. -/
def prefixesMatch : List ValueType → List ValueType → Bool
  | a :: as, b :: bs => a.Matches b && prefixesMatch as bs
  | _, _ => true

/-- Whether two lists of types have the same length and match entry by entry. -/
def listsMatch : List ValueType → List ValueType → Bool
  | [], [] => true
  | a :: as, b :: bs => a.Matches b && listsMatch as bs
  | _, _ => false

/-- One effect followed by another.  The operands of the second are taken from the
results of the first, from the top down; what is missing is taken from below the first,
unless it left an arbitrary stack. -/
def andThen (first second : StackEffect) : Except Fault StackEffect :=
  if prefixesMatch first.results.reverse second.params.reverse then
    .ok {
      params :=
        if first.polymorphic then first.params
        else second.params.take (second.params.length - first.results.length) ++
          first.params
      results :=
        if second.polymorphic then second.results
        else first.results.take (first.results.length - second.params.length) ++
          second.results
      polymorphic := first.polymorphic || second.polymorphic }
  else .error (.operands second.params first.results)

/-- Checks that a sequence takes nothing and leaves exactly the expected types.  On an
arbitrary stack only the results that the sequence hands out are compared, and any below
them are dropped. -/
def checkResults (effect : StackEffect) (expected : List ValueType) :
    Except Fault Unit :=
  if effect.params ≠ [] then .error (.missingOperands effect.params)
  else
    let shown := Nat.min effect.results.length expected.length
    let agrees :=
      if effect.polymorphic then
        listsMatch (effect.results.drop (effect.results.length - shown))
          (expected.drop (expected.length - shown))
      else listsMatch effect.results expected
    if agrees then .ok () else .error (.results expected effect.results)

/-- The type of the result that lies `depth` below the top, or the wildcard where none
is known. -/
def typeAt (effect : StackEffect) (depth : Nat) : ValueType :=
  effect.results.reverse[depth]?.getD .any

end StackEffect
end WebAssembly
