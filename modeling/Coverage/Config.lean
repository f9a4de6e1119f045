/-
# Configuration

A configuration recognizes a table of options, each with a value, and keeps a
table of texts for every plug-in module. Plug-ins see the option table only
through two questions: `Config.get`, and `Config.set`, which refuses a name that
is not recognized and a value of another kind.
-/
import Coverage.OptionValue
import Coverage.SortedMap
import Coverage.Text.Quoted

namespace Coverage

/-- Why an option could not be read or written. -/
inductive OptionError where
  /-- The option is not recognized. -/
  | unknownOption (name : String)
  /-- The value is of another kind than the option. -/
  | kindMismatch (name : String) (expected found : OptionKind)
deriving DecidableEq, Repr

/-- The wording of an error. -/
def OptionError.message : OptionError → String
  | unknownOption name => "No such option: " ++ Text.quote name
  | kindMismatch name expected found =>
    "Option " ++ Text.quote name ++ " expects a " ++ expected.name ++ " value, got " ++ found.name

/-- The options of one plug-in module: texts by name. -/
structure PluginOptions where
  options : SortedMap String String

namespace PluginOptions

instance : EmptyCollection PluginOptions := ⟨⟨∅⟩⟩

instance : Inhabited PluginOptions := ⟨∅⟩

/-- The options of a list of names and texts; of two with one name the later one counts. -/
def ofList (l : List (String × String)) : PluginOptions := ⟨SortedMap.ofList l⟩

/-- The names and texts, ascending by name. -/
def toList (options : PluginOptions) : List (String × String) := options.options.toList

/-- The text of an option. -/
def get? (options : PluginOptions) (name : String) : Option String := options.options.get? name

/-- The number of options. -/
def size (options : PluginOptions) : Nat := options.options.size

/-- Whether there are no options. -/
def isEmpty (options : PluginOptions) : Bool := options.options.isEmpty

end PluginOptions

/-- The configuration of a measurement run. -/
structure Config where
  /-- The recognized options. -/
  options : SortedMap String OptionValue
  /-- The options of each plug-in module. -/
  modules : SortedMap String PluginOptions

namespace Config

/-- The expression that marks lines to leave out of reports. -/
def excludeLines : String := "#\\s*(pragma|PRAGMA)[:\\s]?\\s*(no|NO)\\s*(cover|COVER)"

/-- The options that every run recognizes, with their first values. -/
def standardOptions : List (String × OptionValue) :=
  [("run:branch", .bool false),
    ("run:dynamic_context", .string ""),
    ("run:source", .list []),
    ("run:omit", .list []),
    ("run:debug", .list []),
    ("report:exclude_lines", .list [excludeLines]),
    ("report:partial_branches", .list []),
    ("report:precision", .int 0),
    ("report:show_missing", .bool false)]

/-- The configuration that every run starts from. -/
def standard : Config := ⟨SortedMap.ofList standardOptions, ∅⟩

instance : Inhabited Config := ⟨standard⟩

/-- Recognize an option, with its first value. -/
def define (config : Config) (name : String) (value : OptionValue) : Config :=
  { config with options := config.options.insert name value }

/-- The names of all recognized options, ascending. -/
def optionNames (config : Config) : List String := config.options.keys

/-- The value of a recognized option. -/
def get (config : Config) (name : String) : Except OptionError OptionValue :=
  match config.options.get? name with
  | some value => .ok value
  | none => .error (.unknownOption name)

/-- Overwrite a recognized option by a value of the same kind. -/
def set (config : Config) (name : String) (value : OptionValue) : Except OptionError Config :=
  match config.options.get? name with
  | none => .error (.unknownOption name)
  | some old =>
    if old.kind = value.kind then .ok (config.define name value)
    else .error (.kindMismatch name old.kind value.kind)

/-- Whether branches are measured. -/
def branch (config : Config) : Bool :=
  match config.options.get? "run:branch" with
  | some (.bool b) => b
  | _ => false

/-- The options of a plug-in module; none when they were never set. -/
def pluginOptions (config : Config) (moduleName : String) : PluginOptions :=
  (config.modules.get? moduleName).getD ∅

/-- Set the options of a plug-in module. -/
def setPluginOptions (config : Config) (moduleName : String) (options : PluginOptions) : Config :=
  { config with modules := config.modules.insert moduleName options }

end Config

end Coverage
