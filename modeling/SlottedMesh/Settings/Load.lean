import SlottedMesh.Settings.Decode

/-!
# Loading settings

Settings are loaded from the content of a file.  A file that cannot be read, is no document, does
not describe settings or describes settings with problems is refused, and the settings that were
there before stay.
-/

namespace SlottedMesh

namespace Settings

/-- Why the content of a file is refused. -/
inductive LoadError where
  /-- There is no content, or it is no text. -/
  | unreadable
  /-- The text is no document. -/
  | malformed (reason : Yaml.SyntaxError)
  /-- The document does not describe settings. -/
  | mistyped (reason : DecodeError)
  /-- A node of the deployment has no proper address. -/
  | invalidAddress (id : UInt16) (reason : MalformedAddress)
  /-- The settings have a problem. -/
  | invalid (problem : Problem)

/-- What is told about a file that is refused, the widest context first. -/
def LoadError.message (path : String) : LoadError → String
  | .unreadable => "Cannot open configuration file: " ++ path
  | .malformed _ => "Failed to parse YAML file: " ++ path
  | .mistyped _ => "Failed to parse YAML file: " ++ path
  | .invalidAddress id reason =>
    "Invalid configuration in " ++ path ++ ": deployment node " ++ toString id ++ ": "
      ++ reason.message
  | .invalid problem => "Invalid configuration in " ++ path ++ ": " ++ problem.message

/-- A node of the deployment with its address read. -/
def resolveNode (node : UInt16 × String) : Except LoadError (UInt16 × Address) :=
  match Address.parse node.2 with
  | .ok a => .ok (node.1, a)
  | .error e => .error (.invalidAddress node.1 e)

/-- The settings with the addresses of the deployment read. -/
def Draft.resolve (d : Draft) : Except LoadError Settings := do
  let nodes ← d.nodes.mapM resolveNode
  return { d.settings with directory := { d.settings.directory with nodes } }

/-- The settings in a text. -/
def ofText (text : String) : Except LoadError Settings := do
  let n ← (Yaml.Node.parse text).mapError .malformed
  let draft ← (document n).mapError .mistyped
  let s ← draft.resolve
  s.validate.mapError .invalid
  return s

/-- The settings in the content of a file; there is none if the file cannot be read. -/
def ofContent (content : Option ByteArray) : Except LoadError Settings :=
  match content.bind String.fromUTF8? with
  | none => .error .unreadable
  | some text => ofText text

end Settings

/-- The settings that a node holds, and whether they were loaded from a file. -/
structure HeldSettings where
  /-- The settings. -/
  settings : Settings
  /-- They were loaded from a file. -/
  isLoaded : Bool

namespace HeldSettings

/-- The settings before anything is loaded. -/
def initial : HeldSettings := ⟨.standard, false⟩

/-- Load settings in the place of those that are held, unless they are refused. -/
def load (h : HeldSettings) (content : Option ByteArray) :
    HeldSettings × Except Settings.LoadError Unit :=
  match Settings.ofContent content with
  | .ok settings => (⟨settings, true⟩, .ok ())
  | .error e => (h, .error e)

end HeldSettings

end SlottedMesh
