import FeatureTree.Log.Severity
import FeatureTree.Text.WhiteSpace
/-!
# Settings

How much is logged, and the language of a feature that names none. Both
can come from two variables of the environment or from the host program.
A language is trimmed and must leave something; settings change as a
whole or not at all.
-/

namespace FeatureTree

/-- What a host program can choose. -/
structure Settings where
  severity : Severity := .info
  language : String := "en"
  deriving DecidableEq

/-- Why a value was not taken. -/
inductive SettingError where
  /-- No severity has this name. -/
  | unknownSeverity (given : String)
  /-- Nothing is left of the language. -/
  | emptyLanguage
  deriving DecidableEq

namespace SettingError

/-- What is wrong with the value. -/
def cause : SettingError → String
  | .unknownSeverity given =>
    "unknown log level '" ++ given ++ "', expected one of: trace, debug, info, warn, error"
  | .emptyLanguage => "default language must not be empty"

/-- The error in words. -/
def message (e : SettingError) : String :=
  "invalid configuration: " ++ e.cause

end SettingError

/-- The values of the two variables as the environment holds them, in
bytes; `none` where a variable is not set. -/
structure Environment where
  severity : Option ByteArray := none
  language : Option ByteArray := none

/-- The text of a variable; one that is not text counts as not set. -/
def Environment.text (value : Option ByteArray) : Option String :=
  value.bind String.fromUTF8?

namespace Settings

/-- The severity that a value names. -/
def readSeverity (value : String) : Except SettingError Severity :=
  match Severity.named? value with
  | some s => .ok s
  | none => .error (.unknownSeverity value)

/-- The language in a value: its text without the white space around
it. -/
def readLanguage (value : String) : Except SettingError String :=
  if trim value = "" then .error .emptyLanguage else .ok (trim value)

/-- A value read where there is one, and `default` where there is
none. -/
def readOr {α : Type} (read : String → Except SettingError α) (default : α) :
    Option String → Except SettingError α
  | some value => read value
  | none => .ok default

/-- The settings that an environment asks for, the severity read first;
a variable that is not set leaves the default. -/
def ofEnvironment (env : Environment) : Except SettingError Settings := do
  let defaults : Settings := {}
  let severity ← readOr readSeverity defaults.severity (Environment.text env.severity)
  let language ← readOr readLanguage defaults.language (Environment.text env.language)
  return { severity, language }

/-- The settings with another severity. -/
def setSeverity (s : Settings) (severity : Severity) : Settings :=
  { s with severity }

/-- The settings with what a host program gives in their place. -/
def override (s : Settings) (severity : Option Severity) (language : Option String) :
    Except SettingError Settings := do
  let language ← readOr readLanguage s.language language
  return { severity := severity.getD s.severity, language }

/-- One way to change settings. -/
inductive Change where
  /-- Back to the defaults. -/
  | reset
  /-- What the environment asks for. -/
  | environment (env : Environment)
  /-- The values given, over those there are. -/
  | override (severity : Option Severity) (language : Option String)
  /-- Another severity. -/
  | severity (severity : Severity)

/-- The settings after a change, or why it is refused. -/
def change (s : Settings) : Change → Except SettingError Settings
  | .reset => .ok {}
  | .environment env => ofEnvironment env
  | .override severity language => s.override severity language
  | .severity severity => .ok (s.setSeverity severity)

/-- The settings after a change; a refused one changes nothing. -/
def adopt (s : Settings) (c : Change) : Settings :=
  match s.change c with
  | .ok s' => s'
  | .error _ => s

end Settings

end FeatureTree
