import Std.Data.HashSet
import WebAssembly.Toml.Statement

/-!
# Documents

Statements build a tree of tables.  A table comes into being by a header, by an
assignment, or implicitly, because a longer key runs through it; an implicit table may
be made explicit once.  Every other attempt to define a key again is a mistake.

A key that is taken for an array gives way when it is implicit: what is defined under it
then takes its place.  So a longer key may run through an array, and the array is gone.
-/

namespace WebAssembly
namespace Toml

/-- A part of the tree. -/
inductive Node
  | scalar (value : Scalar)
  | array
  /-- An array of tables, the latest one first. -/
  | tables (elements : List (List (String × Node)))
  | table (entries : List (String × Node))

instance : Inhabited Node := ⟨.array⟩

/-- The entries of a table, in the order in which they were made. -/
abbrev Entries := List (String × Node)

namespace Entries

def insert (entries : Entries) (name : String) (node : Node) : Entries :=
  if entries.any (·.1 = name) then
    entries.map fun e => if e.1 = name then (name, node) else e
  else entries ++ [(name, node)]

/-- The table at the end of a path; of an array of tables, the latest one. -/
def find (entries : Entries) : Key → Option Entries
  | [] => some entries
  | name :: rest =>
    match entries.lookup name with
    | some (.table inner) => find inner rest
    | some (.tables elements) => elements.head?.bind (find · rest)
    | _ => none

/-- Changes the table at the end of a path. -/
def update (entries : Entries) (change : Entries → Entries) : Key → Option Entries
  | [] => some (change entries)
  | name :: rest =>
    match entries.lookup name with
    | some (.table inner) => do
      let inner ← update inner change rest
      pure (entries.insert name (.table inner))
    | some (.tables elements) => do
      let latest ← update (← elements.head?) change rest
      pure (entries.insert name (.tables (latest :: elements.tail)))
    | _ => none

/-- How many names of a path lead to something that is there. -/
def reach (entries : Entries) : Key → Nat
  | [] => 0
  | name :: rest =>
    match entries.lookup name with
    | none => 0
    | some (.table inner) => reach inner rest + 1
    | some (.tables elements) => reach (elements.head?.getD []) rest + 1
    | some _ => 1

/-- Makes the tables along a path that are missing. -/
def extend (entries : Entries) : Key → Option Entries
  | [] => some entries
  | name :: rest =>
    match entries.lookup name with
    | none => do
      let inner ← extend [] rest
      pure (entries.insert name (.table inner))
    | some (.table inner) => do
      let inner ← extend inner rest
      pure (entries.insert name (.table inner))
    | some (.tables elements) => do
      let latest ← extend (← elements.head?) rest
      pure (entries.insert name (.tables (latest :: elements.tail)))
    | some _ => none

/-- Puts a node under a name of the table at the end of a path, and makes the tables
along the path that are missing. -/
def place (entries : Entries) (name : String) (node : Node) : Key → Option Entries
  | [] => some (entries.insert name node)
  | first :: rest => do
    let inner ← match entries.lookup first with
      | none => place [] name node rest
      | some (.table inner) => place inner name node rest
      | some _ => none
    pure (entries.insert first (.table inner))

end Entries

/-- A document under construction. -/
structure Draft where
  root : Entries := []
  /-- The tables that exist only because longer keys run through them. -/
  implicit : Std.HashSet Key := {}
  /-- The keys that are taken for arrays. -/
  arrays : Std.HashSet Key := {}
  /-- The inline tables that stand in the tree just as they were read, so that a later
  pair of an enclosing inline table changes them in the tree too. -/
  shared : Std.HashSet Key := {}
  /-- The keys that were written, latest first. -/
  keys : List Key := []
  deriving Inhabited

namespace Draft

def markImplicit (d : Draft) (key : Key) : Draft :=
  { d with implicit := d.implicit.insert key }

def markExplicit (d : Draft) (key : Key) : Draft :=
  { d with implicit := d.implicit.erase key }

def write (d : Draft) (path : Key) (name : String) (node : Node) : Option Draft := do
  let root ← d.root.update (·.insert name node) path
  pure { d with root }

/-- The key that is taken for what a value under a name is.  A value under the empty
name counts for the table around it, unless that is the whole document. -/
def kindKey (path : Key) (name : String) : Key :=
  if name = "" && path ≠ [] then path else path ++ [name]

/-- Notes whether a value under a name of the table at a path is an array. -/
def note (d : Draft) (path : Key) (name : String) (isArray : Bool) : Draft :=
  let key := kindKey path name
  { d with arrays := if isArray then d.arrays.insert key else d.arrays.erase key }

/-- Forgets that the tables at a key and below it are shared. -/
def detach (d : Draft) (key : Key) : Draft :=
  { d with shared := d.shared.filter (!key.isPrefixOf ·) }

/-- Defines a name of the table at a path.  A name that is defined already has to be
implicit, and becomes explicit; it is replaced if it is taken for an array and stays as
it is otherwise. -/
def define (d : Draft) (path : Key) (name : String) (node : Node) : Option Draft := do
  let entries ← d.root.find path
  let key := path ++ [name]
  if (entries.lookup name).isNone then d.write path name node
  else if key ∉ d.implicit then none
  else if key ∈ d.arrays then ((d.markExplicit key).detach key).write path name node
  else pure (d.markExplicit key)

/-- Makes the tables along a path that are missing, implicitly. -/
def establish (d : Draft) (path : Key) : Option Draft :=
  let present := d.root.reach path
  if present = path.length then some d
  else do
    let root ← d.root.extend path
    let made := (List.range (path.length - present)).map fun i =>
      path.take (present + i + 1)
    pure (made.foldl markImplicit { d with root })

def openTable (d : Draft) (key : Key) : Option Draft := do
  let d ← d.establish key.dropLast
  d.define key.dropLast (← key.getLast?) (.table [])

/-- Adds a table to the array of tables of a key. -/
def openElement (d : Draft) (key : Key) : Option Draft := do
  let d ← d.establish key.dropLast
  let name ← key.getLast?
  let entries ← d.root.find key.dropLast
  match entries.lookup name with
  | none => d.write key.dropLast name (.tables [[]])
  | some (.tables elements) =>
    (d.detach key).write key.dropLast name (.tables ([] :: elements))
  | _ => none

/-- Opens the tables along a dotted key, below a path. -/
def openDotted (d : Draft) (path : Key) : Key → Option Draft
  | [] => some d
  | name :: rest => do
    let key := path ++ [name]
    let d ← (d.markImplicit key).openTable key
    d.openDotted key rest

/-- Gives a name the value that was read for it.  An inline table that takes the place
of an array is shared. -/
def settle (d : Draft) (path : Key) (name : String) (node : Node) : Option Draft := do
  let key := path ++ [name]
  let replaces := d.arrays.contains key
  let d ← d.define path name node
  match node with
  | .scalar _ | .tables _ => pure (d.note path name false)
  | .array => pure (d.note path name true)
  | .table _ =>
    let shared := if replaces then d.shared.insert key else d.shared
    pure ({ d with shared }.note path name false)

/-- The first shared table along a path below another: its key, and the rest of the
path. -/
def firstShared (d : Draft) (path : Key) : Key → Option (Key × Key)
  | [] => none
  | name :: rest =>
    let key := path ++ [name]
    if key ∈ d.shared then some (key, rest) else d.firstShared key rest

/-- Puts a value into the inline table at a path, whose contents so far are `own`;
within a shared table it is put into the tree as well. -/
def record (d : Draft) (path : Key) (own : Entries) (below : Key) (name : String)
    (node : Node) : Option (Draft × Entries) :=
  match d.firstShared path below with
  | none => (own.place name node below).map fun own => (d, own)
  | some (key, rest) => do
    let inner ← (← d.root.find key).place name node rest
    let root ← d.root.update (fun _ => inner) key
    let within := key.drop path.length
    let own ← own.place (← within.getLast?) (.table inner) within.dropLast
    pure ({ d with root }, own)

mutual

/-- Reads a value of a key below a path; `inArray` tells whether it is an item of an
array. -/
def readValue (d : Draft) (path : Key) (name : String) (inArray : Bool) :
    Literal → Option (Draft × Node)
  | .scalar value => some (d, .scalar value)
  | .array items => do
    let d ← readItems (d.note path name true) path name items
    pure (d, .array)
  | .table pairs => do
    let key := path ++ [name]
    let d := d.markImplicit key
    let d ← if inArray then d.openElement key else d.openTable key
    let (d, own) ← readPairs d key [] pairs
    pure (d, .table own)

def readItems (d : Draft) (path : Key) (name : String) : List Literal → Option Draft
  | [] => some d
  | item :: rest => do
    let (d, _) ← readValue d path name true item
    readItems d path name rest

/-- Reads pairs below a path, into the tree and into the contents `own` of the inline
table that they are written in. -/
def readPairs (d : Draft) (path : Key) (own : Entries) :
    List Pair → Option (Draft × Entries)
  | [] => some (d, own)
  | .mk key value :: rest => do
    let name ← key.getLast?
    let below := key.dropLast
    let d ← d.openDotted path below
    let d := { d with keys := (path ++ key) :: d.keys }
    let (d, node) ← readValue d (path ++ below) name false value
    let d ← d.settle (path ++ below) name node
    let (d, own) ← d.record path own below name node
    readPairs d path own rest

end

/-- Follows a statement, given the key of the open table; gives the key of the table
that is open then. -/
def follow (d : Draft) (path : Key) : Statement → Option (Draft × Key)
  | .table key => do
    let d ← d.openTable key
    pure ({ d with keys := key :: d.keys }.note key "" false, key)
  | .element key => do
    let d ← d.openElement key
    pure ({ d with keys := key :: d.keys }.note key "" false, key)
  | .assign key value => do
    let (d, _) ← { d with shared := {} }.readPairs path [] [.mk key value]
    pure (d, path)

def followAll (d : Draft) (path : Key) : List Statement → Option Draft
  | [] => some d
  | first :: rest => do
    let (d, path) ← d.follow path first
    d.followAll path rest

end Draft

/-- A document: its tree, and the keys that were written, in order. -/
structure Document where
  root : Entries
  keys : List Key
  deriving Inhabited

namespace Document

def read? (text : String) : Option Document := do
  let draft ← Draft.followAll {} [] (← statements text)
  pure { root := draft.root, keys := draft.keys.reverse }

end Document
end Toml
end WebAssembly
