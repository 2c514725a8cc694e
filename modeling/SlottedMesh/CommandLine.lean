import SlottedMesh.Text.Numeral

/-!
# The command line

What a trial is told when it is started from a shell: the file with the settings, how many slots to
run, the id to use in the place of the one that is set, and whether to keep the pace of the slots.
-/

namespace SlottedMesh

/-- What a trial is told when it is started. -/
structure CommandLine where
  /-- The file with the settings; without one the standard settings are used. -/
  settingsFile : Option String
  /-- How many slots to run. -/
  slots : Nat
  /-- The id of the node in the place of the one that is set. -/
  nodeId : Option UInt16
  /-- Let each slot last as long as it is set to. -/
  keepsPace : Bool
deriving DecidableEq

namespace CommandLine

/-- Why a command line is refused. -/
inductive UsageError where
  /-- No option has this name. -/
  | unknown (argument : String)
  /-- The option needs a value. -/
  | missingValue (option : String)
  /-- The value is no number that the option takes. -/
  | badNumber (option value : String)
deriving DecidableEq

/-- What is told about the refusal. -/
def UsageError.message : UsageError → String
  | .unknown argument => "unexpected argument \"" ++ argument ++ "\""
  | .missingValue option => "a value is required for " ++ option
  | .badNumber option value => "invalid value \"" ++ value ++ "\" for " ++ option

/-- What is used unless it is told otherwise. -/
def standard : CommandLine := ⟨none, 20000, none, false⟩

/-- The number below `bound` that an option is given. -/
def number (option value : String) (bound : Nat) : Except UsageError Nat :=
  match Numeral.read? 10 value.toList with
  | some n => if n < bound then .ok n else .error (.badNumber option value)
  | none => .error (.badNumber option value)

/-- Take the value of an option into account. -/
def set (c : CommandLine) (option value : String) : Except UsageError CommandLine :=
  match option with
  | "-c" | "--config" => .ok { c with settingsFile := some value }
  | "-s" | "--slots" => (number option value UInt64.size).map ({ c with slots := · })
  | "-n" | "--node-id" =>
    (number option value UInt16.size).map fun n => { c with nodeId := some (.ofNat n) }
  | _ => .error (.unknown option)

/-- Whether an option has a value. -/
def takesValue (option : String) : Bool :=
  option ∈ ["-c", "--config", "-s", "--slots", "-n", "--node-id"]

/-- Take the arguments into account, one option after another. -/
def readFrom (c : CommandLine) : List String → Except UsageError CommandLine
  | [] => .ok c
  | option :: arguments =>
    if option = "-p" ∨ option = "--pace" then readFrom { c with keepsPace := true } arguments
    else if takesValue option then
      match arguments with
      | [] => .error (.missingValue option)
      | value :: arguments => do readFrom (← c.set option value) arguments
    else .error (.unknown option)

/-- The command line in the arguments. -/
def parse (arguments : List String) : Except UsageError CommandLine := standard.readFrom arguments

end CommandLine

end SlottedMesh
