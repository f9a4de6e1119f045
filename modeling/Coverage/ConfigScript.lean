/-
# Configuration scripts

What a plug-in does to the configuration is a script: it asks for options and
overwrites options, one after the other, and may let every step depend on the
answers so far. A script cannot do anything else to a configuration.
-/
import Coverage.Config

namespace Coverage

/-- A finite exchange with a configuration that ends with a result. -/
inductive ConfigScript (α : Type) where
  | done (result : α)
  | get (name : String) (next : Except OptionError OptionValue → ConfigScript α)
  | set (name : String) (value : OptionValue) (next : Except OptionError Unit → ConfigScript α)

namespace ConfigScript

variable {α β : Type}

/-- Run a script on a configuration. A step that is refused changes nothing. -/
def run : ConfigScript α → Config → α × Config
  | done result, config => (result, config)
  | get name next, config => (next (config.get name)).run config
  | set name value next, config =>
    match config.set name value with
    | .ok config => (next (.ok ())).run config
    | .error error => (next (.error error)).run config

/-- Continue with the result of a script. -/
def bind : ConfigScript α → (α → ConfigScript β) → ConfigScript β
  | done result, f => f result
  | get name next, f => get name fun answer => (next answer).bind f
  | set name value next, f => set name value fun answer => (next answer).bind f

/-- Change the result of a script. -/
def map (f : α → β) (script : ConfigScript α) : ConfigScript β := script.bind fun a => done (f a)

/-- A script that also gives the values it was told, in order. -/
def withAnswers : ConfigScript α → ConfigScript (α × List OptionValue)
  | done result => done (result, [])
  | get name next => get name fun answer =>
    (next answer).withAnswers.map fun (result, values) =>
      (result, answer.toOption.toList ++ values)
  | set name value next => set name value fun answer => (next answer).withAnswers

end ConfigScript

end Coverage
