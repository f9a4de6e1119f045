/-
# The registry of plug-ins

The registry keeps every plug-in object once, under a display name that no other
one has, and lists for each capability the plug-ins that were registered for
it, in the order of first registration. Entries are only ever added.

A display name is made of a module name and a type name. When it is taken, the
first free one of `name#2`, `name#3` and so on is used: as many candidates as
there are entries, and one more, always hold a free one.
-/
import Coverage.Plugin

namespace Coverage

variable {σ : Type}

/-- A plug-in under its display name. -/
structure RegistryEntry (σ : Type) where
  name : String
  plugin : Plugin σ

/-- All registered plug-ins. The lists of the capabilities hold positions of entries. -/
structure Registry (σ : Type) where
  entries : List (RegistryEntry σ)
  fileTracers : List Nat
  configurers : List Nat
  contextSwitchers : List Nat

namespace Registry

/-- No plug-ins. -/
instance : EmptyCollection (Registry σ) := ⟨⟨[], [], [], []⟩⟩

instance : Inhabited (Registry σ) := ⟨∅⟩

/-- The positions of the entries with a capability. -/
def positions (registry : Registry σ) : Capability → List Nat
  | .fileTracer => registry.fileTracers
  | .configurer => registry.configurers
  | .dynamicContext => registry.contextSwitchers

/-- The entries with a capability, in the order of first registration. -/
def withCapability (registry : Registry σ) (capability : Capability) : List (RegistryEntry σ) :=
  (registry.positions capability).filterMap fun i => registry.entries[i]?

/-- The number of plug-ins. -/
def size (registry : Registry σ) : Nat := registry.entries.length

/-- Whether there is no plug-in. -/
def isEmpty (registry : Registry σ) : Bool := registry.entries.isEmpty

/-- The display names, in the order of first registration. -/
def names (registry : Registry σ) : List String := registry.entries.map (·.name)

/-- The plug-in with a display name. -/
def get? (registry : Registry σ) (name : String) : Option (Plugin σ) :=
  (registry.entries.find? (·.name = name)).map (·.plugin)

/-- Whether a plug-in claims files. -/
def hasFileTracers (registry : Registry σ) : Bool := !registry.fileTracers.isEmpty

/-- Whether a plug-in names contexts. -/
def hasContextSwitchers (registry : Registry σ) : Bool := !registry.contextSwitchers.isEmpty

/-! ## Registration -/

/-- A name followed by a number. -/
def numbered (name : String) (n : Nat) : String := name ++ "#" ++ toString n

/-- The names to try, of which one more than `taken` are different. -/
def candidates (name : String) (taken : Nat) : List String :=
  name :: (List.range taken).map fun i => numbered name (i + 2)

/-- The first candidate that no entry has. -/
def freshName (registry : Registry σ) (name : String) : String :=
  ((candidates name registry.size).find? fun candidate => candidate ∉ registry.names).getD name

/-- The position of a plug-in object. -/
def position? (registry : Registry σ) (plugin : Plugin σ) : Option Nat :=
  registry.entries.findIdx? (·.plugin.identity = plugin.identity)

/-- Add a plug-in object, unless it is there, and give its position. -/
def place (registry : Registry σ) (name : String) (plugin : Plugin σ) : Registry σ × Nat :=
  match registry.position? plugin with
  | some i => (registry, i)
  | none =>
    ({ registry with entries := registry.entries ++ [⟨registry.freshName name, plugin⟩] },
      registry.size)

/-- Add a position at the end of a list, unless it is there. -/
def addOnce (positions : List Nat) (i : Nat) : List Nat :=
  if i ∈ positions then positions else positions ++ [i]

/-- List an entry under a capability. -/
def grant (registry : Registry σ) (capability : Capability) (i : Nat) : Registry σ :=
  match capability with
  | .fileTracer => { registry with fileTracers := addOnce registry.fileTracers i }
  | .configurer => { registry with configurers := addOnce registry.configurers i }
  | .dynamicContext => { registry with contextSwitchers := addOnce registry.contextSwitchers i }

/-- Register a plug-in of a module for a capability. -/
def register (registry : Registry σ) (moduleName : String) (capability : Capability)
    (plugin : Plugin σ) : Registry σ :=
  let (registry, i) := registry.place (moduleName ++ "." ++ plugin.typeName) plugin
  registry.grant capability i

/-- Register several plug-ins of a module. -/
def registerAll (registry : Registry σ) (moduleName : String)
    (registrations : List (Capability × Plugin σ)) : Registry σ :=
  registrations.foldl
    (fun registry registration => registry.register moduleName registration.1 registration.2)
    registry

/-! ## Debugging text -/

/-- How a registry shows in a debugging text. -/
def debugText (registry : Registry σ) : String :=
  String.join
    ["Plugins \x7b names: [", ", ".intercalate (registry.names.map Text.quote),
      "], file_tracers: ", toString registry.fileTracers.length,
      ", configurers: ", toString registry.configurers.length,
      ", context_switchers: ", toString registry.contextSwitchers.length, " \x7d"]

/-- What every plug-in tells about itself, by display name. -/
def systemInfo (registry : Registry σ) : List (String × List (String × String)) :=
  registry.entries.map fun entry => (entry.name, entry.plugin.systemInfo)

/-- Spaces in front of a text, up to a number of characters. -/
def padLeft (width : Nat) (text : String) : String :=
  String.ofList (List.replicate (width - text.length) ' ') ++ text

/-- The block of one plug-in: a headline and a line for every pair, with the keys
padded to the longest one, which is measured in bytes. -/
def systemInfoBlock (name : String) (info : List (String × String)) : List String :=
  let width := (info.map fun pair => pair.1.utf8ByteSize).max?.getD 0
  ("-- sys: " ++ name ++ " --\n") ::
    if info.isEmpty then ["    -none-\n"]
    else info.map fun pair => "    " ++ padLeft width pair.1 ++ ": " ++ pair.2 ++ "\n"

/-- What every plug-in tells about itself, as text. -/
def renderSystemInfo (registry : Registry σ) : String :=
  String.join (registry.systemInfo.flatMap fun (name, info) => systemInfoBlock name info)

end Registry

end Coverage
