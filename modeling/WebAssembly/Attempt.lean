/-!
# Attempts

An attempt gives a value or fails.  It fails for a cause that its caller is told, or it
crashes: an entry is absent that earlier checks vouch for.  Crashes are kept apart so
that their absence can be stated.
-/

namespace WebAssembly

/-- Why an attempt fails. -/
inductive Failure (ε : Type)
  | cause (cause : ε)
  | crash
  deriving DecidableEq, Repr, Inhabited

abbrev Attempt (ε α : Type) := Except (Failure ε) α

namespace Attempt

variable {ε ε' α : Type}

def fail (cause : ε) : Attempt ε α :=
  .error (.cause cause)

/-- Crashes. -/
def crash : Attempt ε α :=
  .error .crash

def require (condition : Bool) (cause : ε) : Attempt ε Unit :=
  if condition then .ok () else fail cause

/-- An entry that must be present by earlier checks. -/
def present : Option α → Attempt ε α
  | some a => .ok a
  | none => crash

/-- An entry whose absence is a failure for the given cause. -/
def orFail (cause : ε) : Option α → Attempt ε α
  | some a => .ok a
  | none => fail cause

def ofExcept : Except ε α → Attempt ε α
  | .ok a => .ok a
  | .error cause => fail cause

def mapCause (f : ε → ε') : Attempt ε α → Attempt ε' α
  | .ok a => .ok a
  | .error (.cause cause) => fail (f cause)
  | .error .crash => crash

/-- Makes an attempt with every entry of a list and its position, counted from
`position`. -/
def forEach (attempt : Nat → α → Attempt ε Unit) (position : Nat) :
    List α → Attempt ε Unit
  | [] => .ok ()
  | a :: rest => do
    attempt position a
    forEach attempt (position + 1) rest

end Attempt
end WebAssembly
