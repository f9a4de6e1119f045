/-
# Loading plug-in modules

Loading goes in two phases. First every module starts, in order, with its own
options, and registers its plug-ins; a module that fails, or that registers
nothing, ends the load. Then every configurer adjusts the configuration once, in
the order of registration, up to the first that fails. What a configurer did
before it failed stays done.
-/
import Coverage.Registry.Basic

namespace Coverage

variable {σ : Type}

namespace Registry

/-- Run configurers in order until one fails. -/
def configureWith :
    List (RegistryEntry σ) → Config → σ → Except Failure Unit × Config × σ
  | [], config, world => (.ok (), config, world)
  | entry :: rest, config, world =>
    match (entry.plugin.configure world).run config with
    | ((.ok (), world), config) => configureWith rest config world
    | ((.error cause, world), config) =>
      (.error (.hook entry.name .configure cause), config, world)

/-- Let every configurer adjust a configuration. -/
def configure (registry : Registry σ) (config : Config) (world : σ) :
    Except Failure Unit × Config × σ :=
  configureWith (registry.withCapability .configurer) config world

/-- Start modules in order until one fails. -/
def startAll (config : Config) :
    List (PluginModule σ) → Registry σ → σ → Except Failure (Registry σ) × σ
  | [], registry, world => (.ok registry, world)
  | plugins :: rest, registry, world =>
    match plugins.start (config.pluginOptions plugins.name) world with
    | (_, .error cause, world) => (.error (.initialization plugins.name cause), world)
    | (registrations, .ok (), world) =>
      if registrations.isEmpty then (.error (.noPluginsDefined plugins.name), world)
      else startAll config rest (registry.registerAll plugins.name registrations) world

/-- Start all modules, then let every configurer adjust the configuration. -/
def load (modules : List (PluginModule σ)) (config : Config) (world : σ) :
    Except Failure (Registry σ) × Config × σ :=
  match startAll config modules ∅ world with
  | (.error failure, world) => (.error failure, config, world)
  | (.ok registry, world) =>
    match registry.configure config world with
    | (.error failure, config, world) => (.error failure, config, world)
    | (.ok (), config, world) => (.ok registry, config, world)

end Registry

end Coverage
