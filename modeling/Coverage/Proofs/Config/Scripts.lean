/-
# What a script can do to a configuration

A script reaches a configuration through two questions, and only one of them writes.
That one is refused for a name that is not recognized and for a value of another
kind, so the table of kinds comes out as it went in, and the tables of the plug-in
modules are out of reach. Both facts hold of every answer that a script makes its
next step depend on, by induction on the script.

A script that keeps account of what it was told runs as before.
-/
import Coverage.ConfigScript
import Coverage.Proofs.Data.Lookups

namespace Coverage

namespace Config

/-- The recognized options, each with the kind of its value. -/
def kinds (config : Config) : SortedMap String OptionKind := config.options.mapValues (·.kind)

/-- The options with a kind are the recognized ones. -/
theorem keys_kinds (config : Config) : config.kinds.keys = config.optionNames :=
  SortedMap.keys_mapValues ..

/-- Two configurations with the same recognized options, of the same kinds, and the same
options of plug-in modules. Only values may be different. -/
structure SameShape (config other : Config) : Prop where
  kinds : other.kinds = config.kinds
  modules : other.modules = config.modules

namespace SameShape

variable {config other last : Config}

/-- A configuration has its own shape. -/
theorem refl (config : Config) : config.SameShape config := ⟨rfl, rfl⟩

/-- What two writings leave alone each, they leave alone together. -/
theorem trans (h₁ : config.SameShape other) (h₂ : other.SameShape last) : config.SameShape last :=
  ⟨h₂.kinds.trans h₁.kinds, h₂.modules.trans h₁.modules⟩

/-- Configurations of one shape recognize the same options. -/
theorem optionNames (h : config.SameShape other) : other.optionNames = config.optionNames := by
  rw [← keys_kinds, ← keys_kinds, h.kinds]

end SameShape

/-- A value that is accepted is of the kind of the value before. -/
theorem sameShape_of_set {config later : Config} {name : String} {value : OptionValue}
    (h : config.set name value = .ok later) : config.SameShape later := by
  rw [set] at h
  split at h
  · cases h
  · next old hold =>
    split at h
    · next hkind =>
      cases h
      exact ⟨SortedMap.mapValues_alter_of_get? hold hkind.symm, rfl⟩
    · cases h

end Config

namespace ConfigScript

variable {α β : Type}

/-- A script changes values only. -/
theorem sameShape_run (script : ConfigScript α) (config : Config) :
    config.SameShape (script.run config).2 := by
  induction script generalizing config with
  | done => exact .refl config
  | get name next ih => exact ih _ config
  | set name value next ih =>
    rw [run]
    cases hset : config.set name value with
    | ok later => exact (Config.sameShape_of_set hset).trans (ih _ later)
    | error => exact ih _ config

/-- A run changes values only, whatever its result. -/
theorem sameShape_of_run {script : ConfigScript α} {config later : Config} {result : α}
    (h : script.run config = (result, later)) : config.SameShape later := by
  have hshape := script.sameShape_run config
  rwa [h] at hshape

/-- A script goes on with the answer and the configuration that the first one came to. -/
theorem run_bind (script : ConfigScript α) (f : α → ConfigScript β) (config : Config) :
    (script.bind f).run config = (f (script.run config).1).run (script.run config).2 := by
  induction script generalizing config with
  | done => rfl
  | get name next ih => exact ih _ config
  | set name value next ih =>
    rw [bind, run, run]
    cases config.set name value with
    | ok later => exact ih _ later
    | error => exact ih _ config

/-- To change the result of a script changes nothing else of it. -/
theorem run_map (f : α → β) (script : ConfigScript α) (config : Config) :
    (script.map f).run config = (f (script.run config).1, (script.run config).2) :=
  run_bind script _ config

/-- To keep account of the answers changes neither the result nor the configuration. -/
theorem exists_run_withAnswers (script : ConfigScript α) (config : Config) :
    ∃ values, script.withAnswers.run config =
      (((script.run config).1, values), (script.run config).2) := by
  induction script generalizing config with
  | done => exact ⟨[], rfl⟩
  | get name next ih =>
    obtain ⟨values, hvalues⟩ := ih (config.get name) config
    refine ⟨(config.get name).toOption.toList ++ values, ?_⟩
    rw [withAnswers, run, run_map, hvalues, run]
  | set name value next ih =>
    rw [withAnswers, run, run]
    cases config.set name value with
    | ok later => exact ih _ later
    | error => exact ih _ config

end ConfigScript

end Coverage
