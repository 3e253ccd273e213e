import DepositSync.CommandLine
import DepositSync.Script

/-!
# DepositSync.Main

The program. It reads the settings and does what it is asked to. It is linked to no network, so
that every connection fails as on a machine that is not connected.
-/

open DepositSync

/-- Where the settings file is, unless the environment says something else. -/
def standardSettingsPath : String := "config/application.yaml"

/-- What is at the path. -/
def readSettingsFile (path : String) : IO SettingsFile := do
  match ← (IO.FS.readBinFile path).toBaseIO with
  | .ok bytes => return .content bytes.toList
  | .error (.noFileOrDirectory ..) => return .missing
  | .error (.inappropriateType ..) => return .directory
  | .error e => throw e

/-- The values of the environment variables that change settings. -/
def readEnvironment : IO (List (String × String)) :=
  Settings.variableNames.filterMapM fun name => do
    return (← IO.getEnv name).map fun value => (name, value)

/-- Says what went wrong. -/
def complain (message : String) (code : UInt32) : IO UInt32 := do
  IO.eprintln message
  return code

/-- Does what is asked for. -/
def execute (command : Command) (settings : Settings) : IO UInt32 := do
  match (Script.offline.run (command.perform settings) settings.vendor.emptyCache).1 with
  | some (result, _) =>
    result.printed.forM IO.println
    match result.failure with
    | none => return 0
    | some e => complain e.message 1
  | none => complain CommandError.beyondCalendar.message 1

def main (words : List String) : IO UInt32 := do
  match Command.ofWords? words with
  | none => complain Command.usage 2
  | some command =>
    let path := (← IO.getEnv "FDM_CONFIG").getD standardSettingsPath
    let file ← readSettingsFile path
    let environment ← readEnvironment
    match Settings.load file (fun name => environment.lookup name) with
    | .ok settings => execute command settings
    | .error e => complain s!"loading configuration: {e.message}" 1
