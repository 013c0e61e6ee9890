import WebAssembly.Config
import WebAssembly.Toml.Document

/-!
# Configuration files

A configuration can be written as a document.  Keys are recognised without regard to
case; a key that is not recognised is an error, which is found before the values are
looked at more closely.
-/

namespace WebAssembly

/-- Why a configuration file is refused. -/
inductive ConfigError
  /-- The text is no document, or a value has the wrong type. -/
  | document
  | unknownKey (key : Toml.Key)
  | negativeCeiling (n : Int)
  | unknownLevel (text : String)
  deriving DecidableEq, Repr, Inhabited

namespace ConfigError

def detail? : ConfigError → Option String
  | .document => none
  | .unknownKey key => some s!"unknown key {Text.quoted (Toml.Key.text key)}"
  | .negativeCeiling n => some s!"call-stack-ceiling {n} < 0"
  | .unknownLevel text => some s!"unrecognized level: {Text.quoted text}"

def message? (error : ConfigError) : Option String :=
  error.detail?.map ("invalid runtime config: " ++ ·)

end ConfigError

/-- A letter without its case.  Two letters beyond ASCII have the same lower case as one
within. -/
def foldedChar (c : Char) : Char :=
  if c = '\u017f' then 's' else if c = '\u212a' then 'k' else c.toLower

/-- Whether two texts agree without regard to case, the second one being in lower
case. -/
def agreesFolded (text lower : String) : Bool :=
  text.toList.map foldedChar = lower.toList

namespace LogLevel

/-- The lower case of a letter, as far as it can be a letter of a level's name. -/
def lowerChar (c : Char) : Char :=
  if c = '\u0130' then 'i' else c.toLower

/-- The level of a name, without regard to case. -/
def ofText? (text : String) : Option LogLevel :=
  let name := String.ofList (text.toList.map lowerChar)
  if name = "warning" then some .warn else all.find? (·.name = name)

end LogLevel

namespace Config

/-- A setting of a file. -/
inductive Setting
  | memoryCap
  | callStackCeiling
  | stepBudget
  | closeOnContextDone
  | logLevel
  | features
  deriving DecidableEq, Repr, Inhabited

namespace Setting

def named : List (String × Setting) :=
  [("memory-max-pages", .memoryCap), ("call-stack-ceiling", .callStackCeiling),
    ("step-budget", .stepBudget), ("close-on-context-done", .closeOnContextDone),
    ("log-level", .logLevel), ("features", .features)]

def ofName? (name : String) : Option Setting :=
  (named.find? fun e => agreesFolded name e.1).map (·.2)

def feature? (name : String) : Option Features :=
  if agreesFolded name "multi-value" then some .multiValue
  else if agreesFolded name "sign-extension-ops" then some .signExtension
  else none

/-- The keys that an entry of a file makes recognised. -/
def keysOf : String × Toml.Node → List Toml.Key
  | (name, node) =>
    match ofName? name, node with
    | none, _ => []
    | some .features, .table entries =>
      [name] :: (entries.filter fun e => (feature? e.1).isSome).map fun e => [name, e.1]
    | some _, _ => [[name]]

def keys (root : Toml.Entries) : List Toml.Key :=
  root.flatMap keysOf

end Setting

/-- A configuration as it is read: the text of its level is not looked at yet. -/
structure Draft where
  config : Config := {}
  level : String := ""
  deriving Inhabited

namespace Draft

def readFeatures (config : Config) : Toml.Entries → Option Config
  | [] => some config
  | (name, node) :: rest =>
    match Setting.feature? name with
    | none => readFeatures config rest
    | some feature =>
      match node with
      | .scalar (.boolean on) => readFeatures (config.withFeature feature on) rest
      | _ => none

def readSetting (d : Draft) : Setting → Toml.Node → Option Draft
  | .memoryCap, .scalar (.integer n) =>
    if 0 ≤ n && n < UInt32.size then
      some { d with config := d.config.withMemoryCap (UInt32.ofNat n.toNat) }
    else none
  | .callStackCeiling, .scalar (.integer n) =>
    some { d with config.callStackCeiling := n }
  | .stepBudget, .scalar (.integer n) =>
    some { d with config.stepBudget := UInt64.ofInt n }
  | .closeOnContextDone, .scalar (.boolean on) =>
    some { d with config.closeOnContextDone := on }
  | .logLevel, .scalar (.string text) => some { d with level := text }
  | .features, .table entries =>
    (readFeatures d.config entries).map fun config => { d with config }
  | _, _ => none

/-- Reads the settings of a file; what is not recognised is left out. -/
def readSettings (d : Draft) : Toml.Entries → Option Draft
  | [] => some d
  | (name, node) :: rest =>
    match Setting.ofName? name with
    | none => readSettings d rest
    | some setting => (d.readSetting setting node).bind (readSettings · rest)

end Draft

/-- The configuration of a level; without a name there is none. -/
def withLevel (config : Config) (text : String) : Except ConfigError Config :=
  if text = "" then .ok config
  else
    match LogLevel.ofText? text with
    | some level => .ok { config with logLevel := some level }
    | none => .error (.unknownLevel text)

def ofDocument (document : Toml.Document) : Except ConfigError Config :=
  match Draft.readSettings {} document.root with
  | none => .error .document
  | some draft =>
    let recognised := Setting.keys document.root
    match document.keys.find? (!recognised.contains ·) with
    | some key => .error (.unknownKey key)
    | none =>
      if draft.config.callStackCeiling < 0 then
        .error (.negativeCeiling draft.config.callStackCeiling)
      else draft.config.withLevel draft.level

def read (text : String) : Except ConfigError Config :=
  match Toml.Document.read? text with
  | none => .error .document
  | some document => ofDocument document

end Config
end WebAssembly
