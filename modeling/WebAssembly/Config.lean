import WebAssembly.Store.Basic

/-!
# Configurations

What a new store is made from: the features that are on, and the limits of its memories
and of its engine.
-/

namespace WebAssembly

/-- How much is written to a log. -/
inductive LogLevel
  | debug
  | info
  | warn
  | error
  | dpanic
  | panic
  | fatal
  deriving DecidableEq, Repr, Inhabited

namespace LogLevel

/-- The levels, the most talkative first. -/
def all : List LogLevel :=
  [.debug, .info, .warn, .error, .dpanic, .panic, .fatal]

def name : LogLevel → String
  | .debug => "debug"
  | .info => "info"
  | .warn => "warn"
  | .error => "error"
  | .dpanic => "dpanic"
  | .panic => "panic"
  | .fatal => "fatal"

end LogLevel

/-- A configuration. -/
structure Config where
  features : Features := Features.none
  /-- The largest number of pages of a memory. -/
  memoryCap : UInt32 := Page.maxCount
  /-- The largest number of active calls; zero stands for a default. -/
  callStackCeiling : Int := 0
  /-- The largest number of instructions of one run; zero stands for no bound. -/
  stepBudget : UInt64 := 0
  /-- Whether a run ends when its context is done. -/
  closeOnContextDone : Bool := false
  logLevel : Option LogLevel := none
  deriving DecidableEq, Repr, Inhabited

namespace Config

/-- The configuration with another cap on memories; no cap is above the largest number
of pages. -/
def withMemoryCap (config : Config) (pages : UInt32) : Config :=
  { config with memoryCap := min pages Page.maxCount }

def withFeature (config : Config) (feature : Features) (on : Bool) : Config :=
  { config with features := config.features.set feature on }

def engine (config : Config) (logging : Bool) : EngineConfig where
  callStackCeiling := config.callStackCeiling
  stepBudget := config.stepBudget
  closeOnContextDone := config.closeOnContextDone
  logging := logging

def newStore (config : Config) (logging : Bool) : Store where
  engine := some (config.engine logging)
  features := config.features
  memoryCap := config.memoryCap
  logging := logging

end Config
end WebAssembly
