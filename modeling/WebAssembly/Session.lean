import WebAssembly.Instantiation

/-!
# Sessions

A session is a store together with what surrounds it: the contexts under which calls
run, and the events that can be observed from outside.
-/

namespace WebAssembly

/-- An entry of the log. -/
inductive LogEntry
  | validated (module : String) (imports : Nat)
  | allocated (module : String) (addr : UInt32)
    (functions tables memories globals : Nat)
  | applied (module : String) (elements data : Nat)
  | starting (module : String) (function : UInt32)
  | trapped (cause : TrapCause) (backtrace : List String)
  deriving Inhabited

namespace LogEntry

def message : LogEntry → String
  | .validated .. => "validated module"
  | .allocated .. => "allocated module"
  | .applied .. => "applied segments"
  | .starting .. => "invoking start function"
  | .trapped .. => "trap"

end LogEntry

/-- Something that can be observed while operations run. -/
inductive Event
  | hostCall (function : String) (params : List Val)
  | log (entry : LogEntry)
  deriving Inhabited

/-- The context of a call: one that is never done, or one that was opened in the
session. -/
inductive ContextRef
  | background
  | opened (index : Nat)
  deriving DecidableEq, Repr, Inhabited

/-- A store with its surroundings. -/
structure Session where
  store : Store
  /-- The contexts that were opened; each is live or done for a reason. -/
  contexts : Array (Option DoneReason) := #[]
  /-- The latest context that can be canceled. -/
  latest : Option Nat := none
  /-- What was observed, newest first. -/
  events : List Event := []
  deriving Inhabited

namespace Session

def withStore (s : Session) (store : Store) : Session :=
  { s with store }

def observe (s : Session) (event : Event) : Session :=
  { s with events := event :: s.events }

def log (s : Session) (entry : LogEntry) : Session :=
  if s.store.logging then s.observe (.log entry) else s

def doneReason (s : Session) : ContextRef → Option DoneReason
  | .background => none
  | .opened index => s.contexts[index]?.join

def openContext (s : Session) (inherited : ContextRef) :
    ContextChoice → ContextRef × Session
  | .background => (.background, s)
  | .inherited => (inherited, s)
  | .canceled =>
    (.opened s.contexts.size, { s with contexts := s.contexts.push (some .canceled) })
  | .expired =>
    (.opened s.contexts.size,
      { s with
        contexts := s.contexts.push (some .deadlineExceeded), latest :=
          some s.contexts.size })
  | .cancelable =>
    (.opened s.contexts.size, { s with
      contexts := s.contexts.push none, latest := some s.contexts.size })

/-- Cancels the latest context that can be canceled; one that is done stays done for its
reason. -/
def cancel (s : Session) : Session :=
  match s.latest with
  | none => s
  | some index =>
    { s with contexts := s.contexts.modify index fun done => some (done.getD
      .canceled) }

end Session

/-- An operation on a session, which may fail and still have changed the session. -/
abbrev Operation (α : Type) := EStateM Error Session α

namespace Operation

def ofAttempt {ε α : Type} (account : ε → Error) : Attempt ε α → Operation α
  | .ok a => pure a
  | .error (.cause cause) => throw (account cause)
  | .error .crash => throw .crash

/-- An entry that must be present by earlier checks. -/
def present {α : Type} : Option α → Operation α
  | some a => pure a
  | none => throw .crash

def read {α : Type} (access : Store → Except AccessError α) : Operation α := fun s =>
  match access s.store with
  | .ok a => .ok a s
  | .error cause => .error (.access cause) s

def write (access : Store → Except AccessError Store) : Operation Unit := fun s =>
  match access s.store with
  | .ok store => .ok () (s.withStore store)
  | .error cause => .error (.access cause) s

/-- Grows something and gives its previous size, or nothing when growth is refused. -/
def grow (access : Store → Except AccessError (Option (UInt32 × Store))) :
    Operation (Option UInt32) := fun s =>
  match access s.store with
  | .ok (some (previous, store)) => .ok (some previous) (s.withStore store)
  | .ok none => .ok none s
  | .error cause => .error (.access cause) s

/-- Adds an instance and gives its address. -/
def alloc {ε : Type} (account : ε → Error)
    (attempt : Store → Attempt ε (UInt32 × Store)) : Operation UInt32 := do
  let (addr, store) ← ofAttempt account (attempt (← get).store)
  modify (·.withStore store)
  pure addr

/-- Logs an entry if the store is logging. -/
def log (entry : LogEntry) : Operation Unit :=
  modify (·.log entry)

/-- Validates, links and allocates a module and writes its segments.  It gives the
module instance, and the address of the start function if there is one. -/
def prepare (m : Option Module) (name : String) (externs : List ExternVal) :
    Operation (ModuleInst × Option UInt32) := do
  let m ← match m with
    | some m => pure m
    | none => throw .noModule
  let failed (cause : InstantiationError) : Error := .instantiation name cause
  let imports ← ofAttempt (failed ∘ .invalid) (m.validate (← get).store.features)
  log (.validated name imports.length)
  ofAttempt (failed ∘ .link) ((← get).store.link imports externs)
  ofAttempt (failed ∘ .invalid) ((← get).store.checkMemories m)
  let (store, inst) ← present ((← get).store.allocate m name externs)
  modify (·.withStore store)
  log (.allocated name inst.addr inst.functions.length inst.tables.length
    inst.memories.length inst.globals.length)
  ofAttempt (failed ∘ .segment) (store.checkSegments inst m)
  let store ← present (store.applySegments inst m)
  modify (·.withStore store)
  log (.applied name m.elements.length m.data.length)
  match m.start with
  | none => pure (inst, none)
  | some index =>
    let function ← present inst.functions[index.toNat]?
    log (.starting name function)
    if (← get).store.engine.isNone then throw (failed .noEngine)
    pure (inst, some function)

end Operation
end WebAssembly
