/-
# How a load ends

A load goes as far as its first failure. `Loads` says how far that is: which modules
were started, what they registered, which configurers ran, and what came of it. It is
put together from runs without a failure, `StartsAll` and `Configures`, and from the
one start or the one hook that fails after them.

A load with modules that keep a record does the same and ends with the record of all
starts and all hooks, so the modules and the configurers of `Loads` are the ones that
ran, each once and in this order, and no other hook was called. No load changes the
shape of the configuration, since configurers only run scripts.
-/
import Coverage.Proofs.Config.Scripts
import Coverage.Proofs.Registry.Asking
import Coverage.Proofs.Registry.Representation
import Coverage.Registry.Load

namespace Coverage

variable {σ : Type}

open Registration (objects)

/-- What a start registers, as registrations by its module. -/
def PluginModule.registrations (plugins : PluginModule σ)
    (registered : List (Capability × Plugin σ)) : List (Registration σ) :=
  registered.map fun r => ⟨plugins.name, r.1, r.2⟩

namespace Registry

theorem registerAll_eq (registry : Registry σ) (plugins : PluginModule σ)
    (registered : List (Capability × Plugin σ)) :
    registry.registerAll plugins.name registered =
      registry.registerEach (plugins.registrations registered) := by
  rw [registerAll, registerEach, PluginModule.registrations, List.foldl_map]

/-! ## Starting modules -/

/-- Modules that start one after the other, each with the options that are stored for it. Every
start succeeds and registers something, be it an object that is there already. -/
inductive StartsAll (config : Config) :
    List (PluginModule σ) → σ → List (Registration σ) → σ → Prop
  | nil {world : σ} : StartsAll config [] world [] world
  | cons {plugins : PluginModule σ} {rest : List (PluginModule σ)}
      {registered : List (Capability × Plugin σ)} {later : List (Registration σ)}
      {world world₁ world₂ : σ} :
      plugins.start (config.pluginOptions plugins.name) world = (registered, .ok (), world₁) →
      registered ≠ [] → StartsAll config rest world₁ later world₂ →
      StartsAll config (plugins :: rest) world (plugins.registrations registered ++ later) world₂

/-- A start that ends a load. -/
inductive StartFails (config : Config) (plugins : PluginModule σ) (world : σ) :
    Failure → σ → Prop
  /-- The start fails, whatever it registered before. -/
  | failed {registered : List (Capability × Plugin σ)} {cause : Failure} {world' : σ} :
    plugins.start (config.pluginOptions plugins.name) world = (registered, .error cause, world') →
    StartFails config plugins world (.initialization plugins.name cause) world'
  /-- The start succeeds without a registration. -/
  | nothing {world' : σ} :
    plugins.start (config.pluginOptions plugins.name) world = ([], .ok (), world') →
    StartFails config plugins world (.noPluginsDefined plugins.name) world'

theorem StartsAll.startAll_append {config : Config} {before : List (PluginModule σ)}
    {registrations : List (Registration σ)} {world world' : σ}
    (h : StartsAll config before world registrations world') (after : List (PluginModule σ))
    (registry : Registry σ) :
    startAll config (before ++ after) registry world =
      startAll config after (registry.registerEach registrations) world' := by
  induction h generalizing registry with
  | nil => rfl
  | cons hstart hsome _ ih =>
    rw [List.cons_append, startAll, hstart]
    have hcount : ¬ List.isEmpty _ = true := fun hempty => hsome (List.isEmpty_iff.1 hempty)
    simp only [if_neg hcount, registerAll_eq, ih, registerEach_append]

theorem StartsAll.startAll_eq {config : Config} {modules : List (PluginModule σ)}
    {registrations : List (Registration σ)} {world world' : σ}
    (h : StartsAll config modules world registrations world') (registry : Registry σ) :
    startAll config modules registry world =
      (.ok (registry.registerEach registrations), world') := by
  have hall := h.startAll_append [] registry
  rwa [List.append_nil, startAll] at hall

theorem StartFails.startAll_cons {config : Config} {plugins : PluginModule σ} {world world' : σ}
    {failure : Failure} (h : StartFails config plugins world failure world')
    (after : List (PluginModule σ)) (registry : Registry σ) :
    startAll config (plugins :: after) registry world = (.error failure, world') := by
  cases h with
  | failed hstart => rw [startAll, hstart]
  | nothing hstart =>
    rw [startAll, hstart]
    rfl

/-- Either all modules start, or there is a first one that ends the load. -/
theorem exists_startsAll (config : Config) (modules : List (PluginModule σ)) (world : σ) :
    (∃ registrations world', StartsAll config modules world registrations world') ∨
    ∃ before plugins after registrations failure world₁ world₂,
      modules = before ++ plugins :: after ∧
      StartsAll config before world registrations world₁ ∧
      StartFails config plugins world₁ failure world₂ := by
  induction modules generalizing world with
  | nil => exact .inl ⟨[], world, .nil⟩
  | cons plugins rest ih =>
    rcases hstart : plugins.start (config.pluginOptions plugins.name) world with
      ⟨registered, _ | _, world₁⟩
    · exact .inr ⟨[], plugins, rest, [], _, world, world₁, rfl, .nil, .failed hstart⟩
    by_cases hsome : registered = []
    · subst hsome
      exact .inr ⟨[], plugins, rest, [], _, world, world₁, rfl, .nil, .nothing hstart⟩
    obtain ⟨later, world₂, hlater⟩ | ⟨before, last, after, later, failure, world₂, world₃, rfl,
      hbefore, hfails⟩ := ih world₁
    · exact .inl ⟨_, world₂, .cons hstart hsome hlater⟩
    · exact .inr ⟨plugins :: before, last, after, _, failure, world₂, world₃, rfl,
        .cons hstart hsome hbefore, hfails⟩

/-! ## Running configurers -/

/-- Configurers that run one after the other, none of which fails. -/
inductive Configures : List (RegistryEntry σ) → Config → σ → Config → σ → Prop
  | nil {config : Config} {world : σ} : Configures [] config world config world
  | cons {entry : RegistryEntry σ} {rest : List (RegistryEntry σ)} {config config₁ config₂ : Config}
      {world world₁ world₂ : σ} :
      (entry.plugin.configure world).run config = ((.ok (), world₁), config₁) →
      Configures rest config₁ world₁ config₂ world₂ →
      Configures (entry :: rest) config world config₂ world₂

namespace Configures

variable {entries : List (RegistryEntry σ)} {config config' : Config} {world world' : σ}

theorem configureWith_append (h : Configures entries config world config' world')
    (after : List (RegistryEntry σ)) :
    configureWith (entries ++ after) config world = configureWith after config' world' := by
  induction h with
  | nil => rfl
  | cons hrun _ ih => rw [List.cons_append, configureWith, hrun, ← ih]

theorem configureWith_eq (h : Configures entries config world config' world') :
    configureWith entries config world = (.ok (), config', world') := by
  have hall := h.configureWith_append []
  rwa [List.append_nil, configureWith] at hall

theorem sameShape (h : Configures entries config world config' world') :
    config.SameShape config' := by
  induction h with
  | nil => exact .refl _
  | cons hrun _ ih => exact (ConfigScript.sameShape_of_run hrun).trans ih

end Configures

/-- Either all configurers run, or there is a first one that fails. -/
theorem exists_configures (entries : List (RegistryEntry σ)) (config : Config) (world : σ) :
    (∃ config' world', Configures entries config world config' world') ∨
    ∃ before entry after config₁ config₂ world₁ world₂ cause,
      entries = before ++ entry :: after ∧ Configures before config world config₁ world₁ ∧
      (entry.plugin.configure world₁).run config₁ = ((.error cause, world₂), config₂) := by
  induction entries generalizing config world with
  | nil => exact .inl ⟨config, world, .nil⟩
  | cons entry rest ih =>
    rcases hrun : (entry.plugin.configure world).run config with ⟨⟨cause | _, world₁⟩, config₁⟩
    · exact .inr ⟨[], entry, rest, config, config₁, world, world₁, cause, rfl, .nil, hrun⟩
    obtain ⟨config₂, world₂, hrest⟩ | ⟨before, last, after, config₂, config₃, world₂, world₃, cause,
      rfl, hbefore, hfails⟩ := ih config₁ world₁
    · exact .inl ⟨config₂, world₂, .cons hrun hrest⟩
    · exact .inr ⟨entry :: before, last, after, config₂, config₃, world₂, world₃, cause, rfl,
        .cons hrun hbefore, hfails⟩

/-! ## Loading -/

/-- The configurers that registrations make, in the order in which they run. -/
def configurersOf (registrations : List (Registration σ)) : List (RegistryEntry σ) :=
  ((∅ : Registry σ).registerEach registrations).withCapability .configurer

/-- Configurers come in the order in which their objects were first registered to configure. -/
theorem identities_configurersOf (registrations : List (Registration σ)) :
    (configurersOf registrations).map (·.plugin.identity) =
      objects (registrations.filter (·.capability = .configurer)) :=
  (represents_registerEach registrations).listed .configurer

/-- How a load of modules ends: the modules that were started, what the successful ones
registered, the configurers that ran, and the outcome. -/
inductive Loads (modules : List (PluginModule σ)) (config : Config) (world : σ) :
    List (PluginModule σ) → List (Registration σ) → List (RegistryEntry σ) →
      Except Failure (Registry σ) × Config × σ → Prop
  /-- A module ends the load. No later one starts, no configurer runs, and the configuration is
  as it was. -/
  | startFails {before after : List (PluginModule σ)} {plugins : PluginModule σ}
      {registrations : List (Registration σ)} {failure : Failure} {world₁ world₂ : σ} :
      modules = before ++ plugins :: after →
      StartsAll config before world registrations world₁ →
      StartFails config plugins world₁ failure world₂ →
      Loads modules config world (before ++ [plugins]) registrations []
        (.error failure, config, world₂)
  /-- A configurer fails. No later one runs, and what it did before it failed stays done. -/
  | configurerFails {registrations : List (Registration σ)} {before after : List (RegistryEntry σ)}
      {entry : RegistryEntry σ} {config₁ config₂ : Config} {world₁ world₂ world₃ : σ}
      {cause : Failure} :
      StartsAll config modules world registrations world₁ →
      configurersOf registrations = before ++ entry :: after →
      Configures before config world₁ config₁ world₂ →
      (entry.plugin.configure world₂).run config₁ = ((.error cause, world₃), config₂) →
      Loads modules config world modules registrations (before ++ [entry])
        (.error (.hook entry.name .configure cause), config₂, world₃)
  /-- Nothing fails, and every configurer runs. -/
  | done {registrations : List (Registration σ)} {config₁ : Config} {world₁ world₂ : σ} :
      StartsAll config modules world registrations world₁ →
      Configures (configurersOf registrations) config world₁ config₁ world₂ →
      Loads modules config world modules registrations (configurersOf registrations)
        (.ok ((∅ : Registry σ).registerEach registrations), config₁, world₂)

namespace Loads

variable {modules started : List (PluginModule σ)} {config : Config} {world : σ}
  {registrations : List (Registration σ)} {configured : List (RegistryEntry σ)}
  {outcome : Except Failure (Registry σ) × Config × σ}

theorem load_eq (h : Loads modules config world started registrations configured outcome) :
    load modules config world = outcome := by
  cases h with
  | startFails hsplit hbefore hfails =>
    rw [load, hsplit, hbefore.startAll_append, hfails.startAll_cons]
  | configurerFails hstarts hsplit hbefore hfails =>
    rw [load, hstarts.startAll_eq]
    dsimp only
    rw [configure, ← configurersOf, hsplit, hbefore.configureWith_append, configureWith, hfails]
  | done hstarts hconfigures =>
    rw [load, hstarts.startAll_eq]
    dsimp only
    rw [configure, ← configurersOf, hconfigures.configureWith_eq]

/-- A load changes values of options only. -/
theorem sameShape (h : Loads modules config world started registrations configured outcome) :
    config.SameShape outcome.2.1 := by
  cases h with
  | startFails => exact .refl config
  | configurerFails _ _ hbefore hfails =>
    exact hbefore.sameShape.trans (ConfigScript.sameShape_of_run hfails)
  | done _ hconfigures => exact hconfigures.sameShape

/-- Configurers run in the order in which their objects were first registered to configure. -/
theorem configured_prefix
    (h : Loads modules config world started registrations configured outcome) :
    configured <+: configurersOf registrations := by
  cases h with
  | startFails => exact List.nil_prefix
  | @configurerFails _ before after entry _ _ _ _ _ _ _ hsplit =>
    exact ⟨after, by rw [hsplit, List.append_assoc, List.singleton_append]⟩
  | done => exact List.prefix_rfl

/-- Where a load succeeds, every configurer ran. -/
theorem configured_eq {registry : Registry σ}
    (h : Loads modules config world started registrations configured outcome)
    (hok : outcome.1 = .ok registry) : configured = configurersOf registrations := by
  cases h with
  | startFails => cases hok
  | configurerFails => cases hok
  | done => rfl

end Loads

/-- Every load ends in one of these ways. -/
theorem exists_loads (modules : List (PluginModule σ)) (config : Config) (world : σ) :
    ∃ started registrations configured outcome,
      Loads modules config world started registrations configured outcome := by
  obtain ⟨registrations, world₁, hstarts⟩ | ⟨_, _, _, _, _, _, _, hsplit, hbefore, hfails⟩ :=
    exists_startsAll config modules world
  · obtain ⟨_, _, hconfigures⟩ | ⟨_, _, _, _, _, _, _, _, hsplit, hbefore, hfails⟩ :=
      exists_configures (configurersOf registrations) config world₁
    · exact ⟨_, _, _, _, .done hstarts hconfigures⟩
    · exact ⟨_, _, _, _, .configurerFails hstarts hsplit hbefore hfails⟩
  · exact ⟨_, _, _, _, .startFails hsplit hbefore hfails⟩

end Registry

/-! ## Modules that keep a record -/

/-- The same registration with a plug-in that keeps a record. -/
def Registration.recorded (r : Registration σ) : Registration (Recorded σ) :=
  ⟨r.moduleName, r.capability, r.plugin.recorded⟩

/-- Whether a call tells what a plug-in was answered, and is no call of a hook. -/
def Call.isTold : Call → Bool
  | told .. => true
  | _ => false

namespace Registry

@[simp]
theorem size_recorded (registry : Registry σ) : registry.recorded.size = registry.size :=
  List.length_map _

@[simp]
theorem freshName_recorded (registry : Registry σ) (name : String) :
    registry.recorded.freshName name = registry.freshName name := by
  have hnames : registry.recorded.names = registry.names := by
    rw [names, recorded, List.map_map]
    rfl
  rw [freshName, hnames, size_recorded, freshName]

theorem place_recorded (registry : Registry σ) (name : String) (plugin : Plugin σ) :
    registry.recorded.place name plugin.recorded =
      ((registry.place name plugin).1.recorded, (registry.place name plugin).2) := by
  have hposition : registry.recorded.position? plugin.recorded = registry.position? plugin := by
    rw [position?, recorded, List.findIdx?_map]
    rfl
  rw [place, hposition, place]
  cases registry.position? plugin with
  | some i => rfl
  | none =>
    dsimp only
    rw [freshName_recorded, size_recorded, recorded, recorded, List.map_append]
    rfl

theorem register_recorded (registry : Registry σ) (moduleName : String) (capability : Capability)
    (plugin : Plugin σ) :
    registry.recorded.register moduleName capability plugin.recorded =
      (registry.register moduleName capability plugin).recorded := by
  have htype : plugin.recorded.typeName = plugin.typeName := rfl
  rw [register, htype, place_recorded, register]
  cases capability <;> rfl

/-- Registrations of recorded plug-ins make the recorded registry. -/
theorem registerEach_recorded (registry : Registry σ) (registrations : List (Registration σ)) :
    registry.recorded.registerEach (registrations.map .recorded) =
      (registry.registerEach registrations).recorded := by
  induction registrations generalizing registry with
  | nil => rfl
  | cons r registrations ih =>
    rw [registerEach, List.map_cons, List.foldl_cons, Registration.recorded, register_recorded]
    exact ih _

theorem configurersOf_recorded (registrations : List (Registration σ)) :
    configurersOf (registrations.map .recorded) =
      (configurersOf registrations).map RegistryEntry.recorded := by
  rw [configurersOf, configurersOf, ← withCapability_recorded, ← registerEach_recorded]
  rfl

/-- The start of a recorded module. -/
theorem start_recorded {plugins : PluginModule σ} {options : PluginOptions} {world world' : σ}
    {registered : List (Capability × Plugin σ)} {answer : Except Failure Unit}
    (h : plugins.start options world = (registered, answer, world')) (calls : List Call) :
    plugins.recorded.start options ⟨world, calls⟩ =
      (registered.map fun r => (r.1, r.2.recorded), answer,
        ⟨world', calls ++ [.start plugins.name options]⟩) := by
  simp only [PluginModule.recorded, h]

/-- The calls of modules that start. -/
def startCalls (config : Config) (modules : List (PluginModule σ)) : List Call :=
  modules.map fun plugins => .start plugins.name (config.pluginOptions plugins.name)

theorem StartsAll.recorded {config : Config} {modules : List (PluginModule σ)}
    {registrations : List (Registration σ)} {world world' : σ}
    (h : StartsAll config modules world registrations world') (calls : List Call) :
    StartsAll config (modules.map .recorded) ⟨world, calls⟩ (registrations.map .recorded)
      ⟨world', calls ++ startCalls config modules⟩ := by
  induction h generalizing calls with
  | nil =>
    have hcalls : calls ++ startCalls config ([] : List (PluginModule σ)) = calls :=
      List.append_nil calls
    rw [hcalls]
    exact .nil
  | @cons plugins rest registered later _ _ _ hstart hsome _ ih =>
    have hrest := ih (calls ++ [.start plugins.name (config.pluginOptions plugins.name)])
    rw [List.append_assoc] at hrest
    have hregistrations :
        (plugins.registrations registered).map Registration.recorded =
          plugins.recorded.registrations (registered.map fun r => (r.1, r.2.recorded)) := by
      rw [PluginModule.registrations, PluginModule.registrations, List.map_map, List.map_map]
      rfl
    rw [List.map_append, hregistrations]
    refine .cons (start_recorded hstart calls) ?_ hrest
    exact fun hempty => hsome (List.map_eq_nil_iff.1 hempty)

theorem StartFails.recorded {config : Config} {plugins : PluginModule σ} {failure : Failure}
    {world world' : σ} (h : StartFails config plugins world failure world') (calls : List Call) :
    StartFails config plugins.recorded ⟨world, calls⟩ failure
      ⟨world', calls ++ startCalls config [plugins]⟩ := by
  cases h with
  | failed hstart => exact .failed (start_recorded hstart calls)
  | nothing hstart => exact .nothing (start_recorded hstart calls)

/-- The run of a recorded configurer. -/
theorem exists_run_recorded {entry : RegistryEntry σ} {config config' : Config} {world world' : σ}
    {answer : Except Failure Unit}
    (h : (entry.plugin.configure world).run config = ((answer, world'), config'))
    (calls : List Call) :
    ∃ values : List OptionValue, (entry.recorded.plugin.configure ⟨world, calls⟩).run config =
      ((answer, ⟨world', calls ++ .configure entry.plugin.identity ::
        values.map (.told entry.plugin.identity)⟩), config') := by
  obtain ⟨values, hvalues⟩ := (entry.plugin.configure world).exists_run_withAnswers config
  refine ⟨values, ?_⟩
  rw [RegistryEntry.recorded, Plugin.recorded, ConfigScript.run_map, hvalues, h]

/-- The calls of configurers that run. -/
def configureCalls (entries : List (RegistryEntry σ)) : List Call :=
  entries.map fun entry => .configure entry.plugin.identity

/-- Of what a configurer leaves in a record, only its call is no answer. -/
theorem filter_configure (identity : String) (values : List OptionValue) :
    (Call.configure identity :: values.map (Call.told identity)).filter (!·.isTold) =
      [Call.configure identity] := by
  rw [List.filter_cons_of_pos rfl, List.cons_eq_cons]
  refine ⟨rfl, List.filter_eq_nil_iff.2 fun call hcall => ?_⟩
  obtain ⟨value, -, rfl⟩ := List.mem_map.1 hcall
  simp [Call.isTold]

theorem Configures.recorded {entries : List (RegistryEntry σ)} {config config' : Config}
    {world world' : σ} (h : Configures entries config world config' world') (calls : List Call) :
    ∃ made, Configures (entries.map .recorded) config ⟨world, calls⟩ config'
        ⟨world', calls ++ made⟩ ∧
      made.filter (!·.isTold) = configureCalls entries := by
  induction h generalizing calls with
  | nil => exact ⟨[], (List.append_nil calls).symm ▸ .nil, rfl⟩
  | @cons entry rest _ _ _ _ _ _ hrun _ ih =>
    obtain ⟨values, hrecorded⟩ := exists_run_recorded hrun calls
    obtain ⟨made, hrest, hmade⟩ := ih (calls ++ .configure entry.plugin.identity ::
      values.map (.told entry.plugin.identity))
    rw [List.append_assoc] at hrest
    refine ⟨_, .cons hrecorded hrest, ?_⟩
    rw [List.filter_append, filter_configure, hmade]
    rfl

/-- A load of recorded modules goes the same way, and records the starts and the hooks. -/
theorem Loads.recorded {modules started : List (PluginModule σ)} {config : Config} {world : σ}
    {registrations : List (Registration σ)} {configured : List (RegistryEntry σ)}
    {answer : Except Failure (Registry σ)} {config' : Config} {world' : σ}
    (h : Loads modules config world started registrations configured (answer, config', world'))
    (calls : List Call) :
    ∃ made, Loads (modules.map .recorded) config ⟨world, calls⟩ (started.map .recorded)
        (registrations.map .recorded) (configured.map .recorded)
        (answer.map .recorded, config', ⟨world', calls ++ made⟩) ∧
      made.filter (!·.isTold) = startCalls config started ++ configureCalls configured := by
  have hstartCalls (modules : List (PluginModule σ)) :
      (startCalls config modules).filter (!·.isTold) = startCalls config modules := by
    refine List.filter_eq_self.2 fun call hcall => ?_
    obtain ⟨plugins, -, rfl⟩ := List.mem_map.1 hcall
    rfl
  cases h with
  | @startFails before after plugins _ _ _ _ hsplit hbefore hfails =>
    have hlast := hfails.recorded (calls ++ startCalls config before)
    rw [List.append_assoc] at hlast
    have hcalls : startCalls config before ++ startCalls config [plugins] =
        startCalls config (before ++ [plugins]) := (List.map_append ..).symm
    rw [hcalls] at hlast
    refine ⟨startCalls config (before ++ [plugins]), ?_, ?_⟩
    · rw [List.map_append]
      have hrecorded : modules.map PluginModule.recorded =
          before.map .recorded ++ plugins.recorded :: after.map .recorded := by
        rw [hsplit, List.map_append, List.map_cons]
      exact .startFails hrecorded (hbefore.recorded calls) hlast
    · rw [hstartCalls]
      exact (List.append_nil _).symm
  | @configurerFails _ before after entry _ _ _ _ _ cause hstarts hsplit hbefore hfails =>
    obtain ⟨made, hconfigured, hmade⟩ := hbefore.recorded (calls ++ startCalls config modules)
    obtain ⟨values, hlast⟩ :=
      exists_run_recorded hfails (calls ++ startCalls config modules ++ made)
    rw [List.append_assoc] at hconfigured
    rw [List.append_assoc, List.append_assoc] at hlast
    refine ⟨startCalls config modules ++ made ++ .configure entry.plugin.identity ::
      values.map (.told entry.plugin.identity), ?_, ?_⟩
    · rw [List.map_append]
      have hrecorded : configurersOf (registrations.map Registration.recorded) =
          before.map .recorded ++ entry.recorded :: after.map .recorded := by
        rw [configurersOf_recorded, hsplit, List.map_append, List.map_cons]
      exact .configurerFails (hstarts.recorded calls) hrecorded hconfigured hlast
    · rw [List.filter_append, List.filter_append, hstartCalls, hmade, filter_configure,
        configureCalls, configureCalls, List.map_append, List.append_assoc]
      rfl
  | done hstarts hconfigures =>
    obtain ⟨made, hconfigured, hmade⟩ := hconfigures.recorded (calls ++ startCalls config modules)
    rw [List.append_assoc] at hconfigured
    refine ⟨startCalls config modules ++ made, ?_, ?_⟩
    · have hdone := Loads.done (hstarts.recorded calls)
        (configurersOf_recorded registrations ▸ hconfigured)
      have hregistry : (∅ : Registry (Recorded σ)).registerEach (registrations.map .recorded) =
          ((∅ : Registry σ).registerEach registrations).recorded :=
        registerEach_recorded ∅ registrations
      rw [configurersOf_recorded, hregistry] at hdone
      exact hdone
    · rw [List.filter_append, hstartCalls, hmade]

/-- A load goes as far as its first failure, and how far that is can be told from the record of
the calls: the modules that started, each with the options that are stored for it, then the
configurers, each once and in the order in which their objects were first registered to
configure, and all of them when the load succeeds. Whatever happens, the configuration keeps its
options, their kinds and the options of the modules. -/
theorem load_stops_at_first_failure (modules : List (PluginModule σ)) (config : Config)
    (world : σ) :
    ∃ started registrations configured,
      Loads modules config world started registrations configured (load modules config world) ∧
      (configured.map (·.plugin.identity) <+:
        objects (registrations.filter (·.capability = .configurer)) ∧
      ∀ registry, (load modules config world).1 = .ok registry →
        configured.map (·.plugin.identity) =
          objects (registrations.filter (·.capability = .configurer))) ∧
      ((load modules config world).2.1.optionNames = config.optionNames ∧
        (load modules config world).2.1.kinds = config.kinds ∧
        (load modules config world).2.1.modules = config.modules) ∧
      ∀ calls, ∃ made,
        load (modules.map .recorded) config ⟨world, calls⟩ =
          ((load modules config world).1.map .recorded, (load modules config world).2.1,
            ⟨(load modules config world).2.2, calls ++ made⟩) ∧
        made.filter (!·.isTold) = startCalls config started ++ configureCalls configured := by
  obtain ⟨started, registrations, configured, outcome, hloads⟩ :=
    exists_loads modules config world
  rw [hloads.load_eq]
  have hshape := hloads.sameShape
  refine ⟨started, registrations, configured, hloads, ⟨?_, fun registry hok => ?_⟩,
    ⟨hshape.optionNames, hshape.kinds, hshape.modules⟩, fun calls => ?_⟩
  · rw [← identities_configurersOf]
    exact hloads.configured_prefix.map _
  · rw [hloads.configured_eq hok, identities_configurersOf]
  · obtain ⟨answer, config', world'⟩ := outcome
    obtain ⟨made, hrecorded, hmade⟩ := hloads.recorded calls
    exact ⟨made, hrecorded.load_eq, hmade⟩

end Registry

end Coverage
