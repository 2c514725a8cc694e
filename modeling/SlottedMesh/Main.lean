import SlottedMesh.CommandLine
import SlottedMesh.Settings.Load
import SlottedMesh.Trial

/-!
# Running a trial from a shell

Reads the settings, runs the trial and prints what is found.  All that is decided is decided by the
modules imported here.
-/

namespace SlottedMesh

/-- The content of a file, if it can be read. -/
def readContent (path : String) : IO (Option ByteArray) := do
  try
    return some (← IO.FS.readBinFile path)
  catch _ =>
    return none

/-- Run the slots of a trial one after another, each as long as it is set to if `pause` says so. -/
def runSlots (c : CommandLine) (slotLength : UInt32) (t : Trial) : IO Trial := do
  let mut t := t
  for slot in [0:c.slots] do
    if c.keepsPace then
      IO.sleep (slotLength / 1000)
    t := t.step c.slots slot
  return t

/-- Run the trial that the command line asks for; the result is the exit code. -/
def runCommand (c : CommandLine) : IO UInt32 := do
  let mut held := HeldSettings.initial
  if let some path := c.settingsFile then
    let (loaded, result) := held.load (← readContent path)
    if let .error e := result then
      IO.eprintln ("Failed to load configuration: " ++ e.message path)
      return 1
    held := loaded
  let settings := { held.settings with nodeId := c.nodeId.getD held.settings.nodeId }
  match Trial.start settings with
  | .error e =>
    IO.eprintln ("Simulation failed: " ++ e.message)
    return 1
  | .ok t =>
    let t ← runSlots c settings.schedule.slotLength t
    for finding in t.findings c.slots do
      IO.println finding.text
    return 0

end SlottedMesh

/-- Run the trial that the arguments ask for. -/
def main (arguments : List String) : IO UInt32 := do
  match SlottedMesh.CommandLine.parse arguments with
  | .ok c => SlottedMesh.runCommand c
  | .error e =>
    IO.eprintln ("error: " ++ e.message)
    return 2
