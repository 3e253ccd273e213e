import DepositSync.Settings.Application
import DepositSync.Text.Utf8
import DepositSync.Yaml.Reading

/-!
# DepositSync.Settings.Load

Where the settings come from: a settings file, then the environment, then a check. A file that is
not there is no error when the program starts, every setting has a default; and an environment
variable that is blank counts as not set.
-/

namespace DepositSync

/-- What is found where the settings file should be. -/
inductive SettingsFile where
  | missing
  | directory
  | content (bytes : List UInt8)
  deriving DecidableEq, Repr, Inhabited

/-- Why a settings file cannot be read. -/
inductive FileFailure where
  | notFound
  | isDirectory
  | notText
  deriving DecidableEq, Repr, Inhabited

/-- The failure as text. -/
def FileFailure.message : FileFailure → String
  | .notFound => "No such file or directory (os error 2)"
  | .isDirectory => "Is a directory (os error 21)"
  | .notText => "stream did not contain valid UTF-8"

/-- Why there are no settings. -/
inductive SettingsError where
  /-- The file cannot be read. -/
  | unreadable (why : FileFailure)
  /-- The file is not YAML, or a setting is of the wrong kind. -/
  | malformed
  /-- The settings cannot be used. -/
  | invalid (complaint : String)
  deriving DecidableEq, Repr, Inhabited

/-- The error of settings that cannot be used, as text. -/
def invalidMessage (complaint : String) : String :=
  s!"invalid config: {complaint}"

namespace SettingsFile

/-- The text of the file. -/
def text : SettingsFile → Except FileFailure String
  | .missing => .error .notFound
  | .directory => .error .isDirectory
  | .content bytes => match Text.Utf8.text? bytes with
    | some s => .ok s
    | none => .error .notText

end SettingsFile

namespace Settings

/-- The settings of a text in YAML. -/
def ofYaml (s : String) : Except SettingsError Settings :=
  (Yaml.readText Settings.read s).mapError fun _ => .malformed

/-- The settings of a file. -/
def ofFile (file : SettingsFile) : Except SettingsError Settings := do
  ofYaml (← file.text.mapError .unreadable)

/-- The settings of a file, or the defaults if there is no file. -/
def ofFileOrStandard : SettingsFile → Except SettingsError Settings
  | .missing => .ok standard
  | file => ofFile file

/-- The settings, if nothing is wrong with them. -/
def checked (s : Settings) : Except SettingsError Settings :=
  match s.check with
  | none => .ok s
  | some complaint => .error (.invalid complaint)

/-- The settings of the running program: the file's, with what the environment overrides, checked.
-/
def load (file : SettingsFile) (environment : String → Option String) :
    Except SettingsError Settings := do
  let s ← ofFileOrStandard file
  (s.override fun name => Text.nonBlank (environment name)).checked

end Settings

end DepositSync
