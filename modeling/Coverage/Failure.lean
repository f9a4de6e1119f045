/-
# Failures

A failure says what went wrong, and may have another failure as its cause. The
failure of a plug-in hook names the plug-in and the hook, and keeps what the
plug-in said beneath it.
-/
import Coverage.Config
import Coverage.Glob.Pattern
import Coverage.Path.Basic

namespace Coverage

/-- The questions that a plug-in, or one of its tracers, can fail to answer. -/
inductive HookName where
  | fileTracer
  | fileReporter
  | dynamicContext
  | findExecutableFiles
  | configure
  | dynamicSourceFilename
  | lineNumberRange
deriving DecidableEq, Repr

/-- The name of a hook in messages. -/
def HookName.text : HookName → String
  | fileTracer => "file_tracer"
  | fileReporter => "file_reporter"
  | dynamicContext => "dynamic_context"
  | findExecutableFiles => "find_executable_files"
  | configure => "configure"
  | dynamicSourceFilename => "dynamic_source_filename"
  | lineNumberRange => "line_number_range"

/-- What can go wrong. -/
inductive Failure where
  /-- A plug-in's own words. -/
  | reported (message : String)
  /-- A plug-in has no reporter for a file that it claimed. -/
  | missingReporter (plugin : String) (filename : Path)
  /-- The start of a plug-in module registered nothing. -/
  | noPluginsDefined (moduleName : String)
  /-- No plug-in has the recorded name. -/
  | unknownPlugin (plugin : String)
  /-- A hook of a plug-in failed. -/
  | hook (plugin : String) (name : HookName) (cause : Failure)
  /-- An option could not be read or written. -/
  | option (error : OptionError)
  /-- The start of a plug-in module failed. -/
  | initialization (moduleName : String) (cause : Failure)
  /-- A source file could not be read. -/
  | unreadable (filename : Path)
  /-- A source file is no text. -/
  | invalidText (filename : Path)
  /-- A glob pattern has a fault. The cause shows the pattern as it was read. -/
  | invalidPattern (pattern : String) (cause : Failure)
  /-- The fault of a glob pattern. -/
  | globFault (glob : String) (fault : Glob.Fault)
  /-- The options of a plug-in module are not written properly. -/
  | invalidPluginOptions
deriving Repr, DecidableEq

namespace Failure

/-- The wording of a failure, without its cause. -/
def message : Failure → String
  | reported message => message
  | missingReporter plugin filename =>
    "Plugin " ++ Text.quote plugin ++ " did not provide a file reporter for " ++
      Text.quote filename.text
  | noPluginsDefined moduleName =>
    "Plugin module " ++ Text.quote moduleName ++ " didn't define any plugins"
  | unknownPlugin plugin => "No plugin named " ++ Text.quote plugin ++ " is registered"
  | hook plugin name _ => "Plugin " ++ Text.quote plugin ++ " failed in " ++ name.text ++ "()"
  | option error => error.message
  | initialization moduleName _ =>
    "Plugin module " ++ Text.quote moduleName ++ " failed to initialize"
  | unreadable filename => "Failed to read " ++ filename.text
  | invalidText filename => filename.text ++ " is not valid UTF-8"
  | invalidPattern pattern _ => "Invalid glob pattern " ++ Text.quote pattern
  | globFault glob fault => "error parsing glob '" ++ glob ++ "': " ++ fault.message
  | invalidPluginOptions => "Failed to parse plugin options JSON"

/-- The failure beneath a failure. -/
def cause? : Failure → Option Failure
  | hook _ _ cause => some cause
  | initialization _ cause => some cause
  | invalidPattern _ cause => some cause
  | _ => none

/-- The wordings of the failures beneath a failure, from the top down. -/
def causes : Failure → List String
  | hook _ _ cause => cause.message :: cause.causes
  | initialization _ cause => cause.message :: cause.causes
  | invalidPattern _ cause => cause.message :: cause.causes
  | _ => []

end Failure

end Coverage
