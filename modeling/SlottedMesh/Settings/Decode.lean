import SlottedMesh.Settings.Basic
import SlottedMesh.Yaml.Node

/-!
# Settings in a document

How the nodes of a document are read as settings.  A section is a mapping of keys, of which unknown
ones mean nothing and known ones may be there once; what is left out keeps its standard value, and
a section or list without content is an empty one.  Only a scalar without quotes is a number or a
truth value, while any scalar is a text.
-/

namespace SlottedMesh.Settings

open Yaml (Node)

/-- Why a node of a document is not what a setting needs. -/
inductive DecodeError where
  /-- The node is no mapping. -/
  | notMapping
  /-- The node is no sequence. -/
  | notSequence
  /-- The node is no scalar. -/
  | notScalar
  /-- The scalar is no number below the bound. -/
  | notNumber (bound : Nat)
  /-- The scalar is no truth value. -/
  | notTruthValue
  /-- The scalar is none of the words that the setting knows. -/
  | unknownWord (word : String)
  /-- A key is there twice. -/
  | duplicateKey (key : String)
  /-- A key is not there. -/
  | missingKey (key : String)
  /-- The key of a mapping is no scalar. -/
  | keyNotScalar
deriving DecidableEq

/-- Read a node as a value. -/
abbrev Decoder (α : Type) := Node → Except DecodeError α

/-! ## Scalars -/

/-- The number that a text stands for: decimal without needless zeros, or after `0x`, `0o` or `0b`
in base 16, 8 or 2; perhaps after a plus sign. -/
def readNumber? (cs : List Char) : Option Nat :=
  let digits := match cs with
    | '+' :: ds => ds
    | ds => ds
  match digits with
  | '0' :: 'x' :: ds => Numeral.read? 16 ds
  | '0' :: 'o' :: ds => Numeral.read? 8 ds
  | '0' :: 'b' :: ds => Numeral.read? 2 ds
  | '0' :: _ :: _ => none
  | ds => Numeral.read? 10 ds

/-- A number below `bound`. -/
def number (bound : Nat) : Decoder Nat
  | .scalar text true =>
    match readNumber? text.toList with
    | some n => if n < bound then .ok n else .error (.notNumber bound)
    | none => .error (.notNumber bound)
  | _ => .error (.notNumber bound)

/-- A number of eight bits. -/
def byte : Decoder UInt8 := fun n => return .ofNat (← number UInt8.size n)

/-- A number of sixteen bits. -/
def number16 : Decoder UInt16 := fun n => return .ofNat (← number UInt16.size n)

/-- A number of thirty-two bits. -/
def number32 : Decoder UInt32 := fun n => return .ofNat (← number UInt32.size n)

/-- A number of sixty-four bits. -/
def number64 : Decoder UInt64 := fun n => return .ofNat (← number UInt64.size n)

/-- A truth value. -/
def truthValue : Decoder Bool
  | .scalar text true =>
    if text ∈ ["true", "True", "TRUE"] then .ok true
    else if text ∈ ["false", "False", "FALSE"] then .ok false
    else .error .notTruthValue
  | _ => .error .notTruthValue

/-- A text, as it is written. -/
def text : Decoder String
  | .scalar text _ => .ok text
  | _ => .error .notScalar

/-- One of several words, each with its meaning. -/
def word {α : Type} (words : List (String × α)) : Decoder α := fun n => do
  let w ← text n
  match words.lookup w with
  | some x => return x
  | none => throw (.unknownWord w)

/-! ## Collections -/

/-- A value that may be left out or be said to be none. -/
def optional {α : Type} (decode : Decoder α) : Decoder (Option α)
  | .scalar text true =>
    if text ∈ ["", "~", "null", "Null", "NULL"] then .ok none
    else some <$> decode (.scalar text true)
  | n => some <$> decode n

/-- A list; one without content is empty. -/
def list {α : Type} (decode : Decoder α) : Decoder (List α)
  | .sequence items => items.mapM decode
  | .scalar "" true => .ok []
  | _ => .error .notSequence

/-- The entries of a section, whose keys are scalars; a section without content is empty. -/
def entries : Decoder (List (String × Node))
  | .mapping pairs => pairs.mapM fun (key, value) =>
    match key with
    | .scalar text _ => .ok (text, value)
    | _ => .error .keyNotScalar
  | .scalar "" true => .ok []
  | _ => .error .notMapping

/-- The value under a key that may be left out. -/
def key? {α : Type} (fields : List (String × Node)) (key : String) (decode : Decoder α) :
    Except DecodeError (Option α) :=
  match fields.filter (·.1 = key) with
  | [] => .ok none
  | [(_, n)] => some <$> decode n
  | _ => .error (.duplicateKey key)

/-- The value under a key, or what it is if it is left out. -/
def keyOr {α : Type} (fields : List (String × Node)) (key : String) (standard : α)
    (decode : Decoder α) : Except DecodeError α := do
  return (← key? fields key decode).getD standard

/-- The value under a key that must be there. -/
def requiredKey {α : Type} (fields : List (String × Node)) (key : String) (decode : Decoder α) :
    Except DecodeError α := do
  match ← key? fields key decode with
  | some x => return x
  | none => throw (.missingKey key)

/-! ## Sections -/

/-- The settings of a schedule. -/
def scheduleSettings : Decoder ScheduleSettings := fun n => do
  let s ← entries n
  let standard := standardSchedule
  return { maxFrames := ← keyOr s "max_slotframes" standard.maxFrames (number UInt64.size)
           maxLinks := ← keyOr s "max_links" standard.maxLinks (number UInt64.size)
           slotLength := ← keyOr s "slot_duration_us" standard.slotLength number32
           channels := ← keyOr s "hopping_sequence" standard.channels
             fun n => List.toArray <$> list byte n }

/-- The settings of a routing. -/
def routingSettings : Decoder RoutingSettings := fun n => do
  let s ← entries n
  let standard := standardRouting
  return { objective := ← keyOr s "objective_function" standard.objective
             (word [("hop_etx", .hopCount), ("pdr", .deliveryRatio)])
           rankIncrease := ← keyOr s "min_hoprankinc" standard.rankIncrease number16
           band := ← keyOr s "etx_threshold" standard.band number16
           hysteresis := ← keyOr s "hysteresis" standard.hysteresis number16
           advertised := ← keyOr s "metric_container" standard.advertised
             (word [("none", .none), ("etx", .transmissions), ("energy", .energy)]) }

/-- A fixed link. -/
def fixedLink : Decoder FixedLink := fun n => do
  let s ← entries n
  return { txIndex := ← requiredKey s "tx_index" number16
           rxIndex := ← requiredKey s "rx_index" number16
           timeslot := ← requiredKey s "timeslot" number16 }

/-- A plan of cells. -/
def cellPlan : Decoder CellPlan := fun n => do
  let s ← entries n
  let standard := CellPlan.standard
  return { ownership := ← keyOr s "mode" standard.ownership
             (word [("sender_based", .sender), ("receiver_based", .receiver)])
           beaconPeriod := ← keyOr s "eb_period" standard.beaconPeriod number16
           sharedPeriod := ← keyOr s "common_shared_period" standard.sharedPeriod (optional number16)
           unicastPeriod := ← keyOr s "unicast_period" standard.unicastPeriod number16
           spillPeriod := ← keyOr s "unicast_period2" standard.spillPeriod (optional number16)
           sharesLentCells := ← keyOr s "unicast_shared" standard.sharesLentCells truthValue
           leaseLifetime := ← keyOr s "lease_lifetime_secs" standard.leaseLifetime
             fun n => Interval.ofSeconds <$> number64 n
           fixedLinks := ← keyOr s "static_links" standard.fixedLinks (list fixedLink) }

/-- A node of the deployment with its address as it is written. -/
def deployedNode : Decoder (UInt16 × String) := fun n => do
  let s ← entries n
  return (← requiredKey s "id" number16, ← requiredKey s "mac" text)

/-- A shuffle of indices. -/
def shuffle : Decoder Shuffle := fun n => do
  let s ← entries n
  return { multiplier := ← requiredKey s "multiplier" number16
           modulus := ← requiredKey s "modulus" number16 }

/-- The nodes of the deployment and the shuffle of their indices. -/
def deployment : Decoder (List (UInt16 × String) × Option Shuffle) := fun n => do
  let s ← entries n
  return (← keyOr s "nodes" [] (list deployedNode),
    ← keyOr s "index_shuffle" none (optional shuffle))

/-- The id of the node. -/
def nodeSection : Decoder UInt16 := fun n => do
  keyOr (← entries n) "id" standard.nodeId number16

/-- Settings as a document has them: the addresses of the deployment are not read yet, and the
directory of the settings has no nodes. -/
structure Draft where
  /-- The settings without the nodes of the deployment. -/
  settings : Settings
  /-- Id and address of the nodes of the deployment, as they are written. -/
  nodes : List (UInt16 × String)

/-- The settings in a document. -/
def document : Decoder Draft := fun n => do
  let s ← entries n
  let (nodes, shuffle) ← keyOr s "deployment" ([], none) deployment
  return { nodes
           settings :=
            { nodeId := ← keyOr s "node" standard.nodeId nodeSection
              schedule := ← keyOr s "schedule" standardSchedule scheduleSettings
              routing := ← keyOr s "rpl" standardRouting routingSettings
              plan := ← keyOr s "orchestra" .standard cellPlan
              directory := ⟨[], shuffle⟩ } }

end SlottedMesh.Settings
