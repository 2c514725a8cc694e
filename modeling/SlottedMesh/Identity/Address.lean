import SlottedMesh.Text.Numeral
import SlottedMesh.Text.Pieces

/-!
# Link-layer addresses

A node's address is eight bytes.  Its text is eight pieces with colons between; it is written with
two lower-case digits a piece and read more freely, each piece being a hexadecimal numeral below
256, of any length and with an optional plus sign.
-/

namespace SlottedMesh

/-- An eight-byte link-layer address. -/
structure Address where
  /-- The bytes, first one first. -/
  bytes : Vector UInt8 8
deriving DecidableEq

/-- Why a text is refused as an address; it keeps the text. -/
structure MalformedAddress where
  /-- The text that was refused. -/
  text : String
deriving DecidableEq

/-- What is told about the refusal. -/
def MalformedAddress.message (e : MalformedAddress) : String :=
  "invalid link-layer address '" ++ e.text ++ "' (expected 8 colon-separated hex bytes)"

namespace Address

/-- The address of no node, which is also the broadcast address. -/
def null : Address := ⟨.replicate 8 0⟩

/-- The address whose last byte is `b` and whose other bytes are zero. -/
def ofLastByte (b : UInt8) : Address := ⟨#v[0, 0, 0, 0, 0, 0, 0, b]⟩

instance : Inhabited Address := ⟨null⟩

/-- Whether this is the address of no node. -/
def isNull (a : Address) : Bool := a = null

/-- The last byte. -/
def lastByte (a : Address) : UInt8 := a.bytes[7]

/-- The short address: the last two bytes. -/
def short (a : Address) : UInt8 × UInt8 := (a.bytes[6], a.bytes[7])

/-! ## Text -/

/-- A byte as two hexadecimal digits. -/
def writeByte (b : UInt8) : List Char := Numeral.fixedWidth 16 2 b.toNat

/-- The byte that a piece stands for: a hexadecimal numeral below 256, perhaps after a plus sign. -/
def readByte? (piece : List Char) : Option UInt8 :=
  let digits := match piece with
    | '+' :: ds => ds
    | ds => ds
  (Numeral.read? 16 digits).bind fun n => if n < 256 then some (.ofNat n) else none

/-- The text of an address. -/
def text (a : Address) : String :=
  String.ofList (Pieces.join ':' (a.bytes.toList.map writeByte))

/-- The address that a text stands for: exactly eight pieces, each of them a byte. -/
def parse (s : String) : Except MalformedAddress Address :=
  match (Pieces.split ':' s.toList).mapM readByte? with
  | some bytes =>
    if h : bytes.length = 8 then .ok ⟨⟨bytes.toArray, by simpa using h⟩⟩ else .error ⟨s⟩
  | none => .error ⟨s⟩

end Address

end SlottedMesh
