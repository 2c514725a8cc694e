import SlottedMesh.Identity.Address
import SlottedMesh.Proofs.Text.Numeral
import SlottedMesh.Proofs.Text.Pieces

/-!
# Which texts are addresses

A piece of an address is a hexadecimal numeral, perhaps after a plus sign (`IsPiece`).  Of the texts
that are cut at colons into eight such pieces, none of them above 255, each is read as the address
of these eight bytes, and no other text is read (`parse_eq_ok_iff`).  Many texts may be read as one
address, but only one of them is canonical: eight pieces of two lower-case digits each
(`IsCanonical`).  That is the one which is written (`isCanonical_text`, `eq_text_of_isCanonical`).

`parse_grammar` is the main statement.
-/

namespace SlottedMesh.Address

open Numeral Pieces

variable {piece : List Char} {b : UInt8} {s : String} {a : Address} {n : Nat}

/-! ## Pieces -/

/-- The piece is a hexadecimal numeral of `n`, perhaps after a plus sign. -/
def IsPiece (piece : List Char) (n : Nat) : Prop :=
  ∃ digits, (piece = digits ∨ piece = '+' :: digits) ∧ IsHexNumeral digits n

/-- A plus sign is no digit, and so a piece that begins with it has its digits behind it. -/
theorem isPiece_plus_iff {digits : List Char} :
    IsPiece ('+' :: digits) n ↔ IsHexNumeral digits n := by
  constructor
  · rintro ⟨ds, rfl | hds, hn⟩
    · obtain ⟨-, values, hvalues, -⟩ := hn
      obtain ⟨d, -, hd, -⟩ := List.forall₂_cons_left_iff.1 hvalues
      exact absurd (digit?_of_isHexDigit hd) (by simp [digit?, value?])
    · rw [List.cons.inj hds |>.2]
      exact hn
  · exact fun hn => ⟨digits, .inr rfl, hn⟩

/-- Without a plus sign in front a piece is a hexadecimal numeral. -/
theorem isPiece_iff (hplus : ∀ digits, piece ≠ '+' :: digits) :
    IsPiece piece n ↔ IsHexNumeral piece n := by
  constructor
  · rintro ⟨digits, rfl | hdigits, hn⟩
    · exact hn
    · exact absurd hdigits (hplus digits)
  · exact fun hn => ⟨piece, .inl rfl, hn⟩

/-- A number is a byte if there is room for it. -/
theorem byte?_eq_some_iff : (if n < 256 then some (UInt8.ofNat n) else none) = some b ↔
    n = b.toNat := by
  constructor
  · intro h
    split at h
    · rename_i hn
      rw [← Option.some.inj h, UInt8.toNat_ofNat', Nat.mod_eq_of_lt hn]
    · cases h
  · rintro rfl
    rw [if_pos b.toNat_lt, UInt8.ofNat_toNat]

/-- A piece is read as a byte if it is a numeral of that byte. -/
theorem readByte?_eq_some_iff : readByte? piece = some b ↔ IsPiece piece b.toNat := by
  have hread (digits : List Char) :
      ((read? 16 digits).bind fun n => if n < 256 then some (UInt8.ofNat n) else none) = some b ↔
        IsHexNumeral digits b.toNat := by
    simp only [Option.bind_eq_some_iff, byte?_eq_some_iff, read?_sixteen_eq_some_iff,
      exists_eq_right]
  unfold readByte?
  split
  · rw [isPiece_plus_iff]
    exact hread _
  · rename_i hplus
    rw [isPiece_iff hplus]
    exact hread _

/-- What is written for a byte is a numeral of it. -/
theorem isPiece_writeByte (b : UInt8) : IsPiece (writeByte b) b.toNat :=
  ⟨writeByte b, .inl rfl, read?_sixteen_eq_some_iff.1
    (read?_fixedWidth (by decide) (by decide) (by decide) b.toNat_lt)⟩

/-- A byte is written with two digits. -/
theorem length_writeByte (b : UInt8) : (writeByte b).length = 2 := length_fixedWidth _ _ _

/-- They are digits or small letters. -/
theorem mem_lowerDigits_of_mem_writeByte {c : Char} (hc : c ∈ writeByte b) : c ∈ lowerDigits :=
  mem_lowerDigits_of_mem_fixedWidth hc

/-- Two lower-case digits that are read as a byte are those that are written for it. -/
theorem eq_writeByte (hlength : piece.length = 2) (hlower : ∀ c ∈ piece, c ∈ lowerDigits)
    (hpiece : IsPiece piece b.toNat) : piece = writeByte b := by
  have hall : ∀ i j : Fin 16, readByte? [lowerDigits[i], lowerDigits[j]] =
      some (UInt8.ofNat (16 * i + j)) ∧
        writeByte (UInt8.ofNat (16 * i + j)) = [lowerDigits[i], lowerDigits[j]] := by
    decide +kernel
  obtain ⟨x, y, rfl⟩ := List.length_eq_two.1 hlength
  obtain ⟨i, hi, rfl⟩ := List.getElem_of_mem (hlower x (by simp))
  obtain ⟨j, hj, rfl⟩ := List.getElem_of_mem (hlower y (by simp))
  obtain ⟨hread, hwrite⟩ := hall ⟨i, hi⟩ ⟨j, hj⟩
  rw [← Option.some.inj (hread.symm.trans (readByte?_eq_some_iff.2 hpiece))]
  exact hwrite.symm

/-! ## Addresses -/

/-- The text can be read as an address: it is cut at colons into eight pieces, each of them a
numeral of a number that is 255 at most. -/
def IsReadable (s : String) : Prop :=
  (s.toList.splitOn ':').length = 8 ∧ ∀ piece ∈ s.toList.splitOn ':', ∃ n ≤ 255, IsPiece piece n

/-- The text has the canonical form: eight pieces of two lower-case digits each. -/
def IsCanonical (s : String) : Prop :=
  (s.toList.splitOn ':').length = 8 ∧
    ∀ piece ∈ s.toList.splitOn ':', piece.length = 2 ∧ ∀ c ∈ piece, c ∈ lowerDigits

/-- An address is told by its bytes. -/
theorem toList_bytes_inj {a a' : Address} : a.bytes.toList = a'.bytes.toList ↔ a = a' := by
  constructor
  · intro h
    obtain ⟨bytes⟩ := a
    obtain ⟨bytes'⟩ := a'
    exact congrArg mk (Vector.toList_inj.1 h)
  · rintro rfl
    rfl

/-- The texts of an address: eight pieces, each a numeral of the byte in its place. -/
theorem parse_eq_ok_iff : parse s = .ok a ↔
    List.Forall₂ (fun piece b => IsPiece piece b.toNat) (s.toList.splitOn ':') a.bytes.toList := by
  simp only [← readByte?_eq_some_iff]
  rw [← mapM_eq_some_iff, ← split_eq_splitOn, parse]
  split
  · rename_i bytes hbytes
    rw [hbytes, Option.some.injEq]
    split
    · rw [Except.ok.injEq, ← toList_bytes_inj]
      rfl
    · rename_i hlength
      refine ⟨nofun, fun h => absurd ?_ hlength⟩
      rw [h, Vector.length_toList]
  · rename_i hnone
    rw [hnone]
    exact ⟨nofun, nofun⟩

/-- A piece is of a number up to 255 if it is of a byte. -/
theorem isPiece_le_iff : (∃ n ≤ 255, IsPiece piece n) ↔ ∃ b : UInt8, IsPiece piece b.toNat := by
  constructor
  · rintro ⟨n, hn, hpiece⟩
    refine ⟨.ofNat n, ?_⟩
    rwa [UInt8.toNat_ofNat', Nat.mod_eq_of_lt (by omega)]
  · rintro ⟨b, hpiece⟩
    exact ⟨b.toNat, Nat.le_of_lt_succ b.toNat_lt, hpiece⟩

/-- What can be read is read. -/
theorem exists_parse_iff : (∃ a, parse s = .ok a) ↔ IsReadable s := by
  simp only [parse_eq_ok_iff, IsReadable, isPiece_le_iff]
  rw [← exists_forall₂_iff]
  constructor
  · rintro ⟨a, ha⟩
    exact ⟨ha.length_eq.trans (Vector.length_toList), _, ha⟩
  · rintro ⟨hlength, bytes, hbytes⟩
    exact ⟨⟨⟨bytes.toArray, hbytes.length_eq.symm.trans hlength⟩⟩, hbytes⟩

/-- What is not read is refused, and quoted. -/
theorem parse_eq_error (h : ∀ a, parse s ≠ .ok a) : parse s = .error ⟨s⟩ := by
  rcases hparse : parse s with e | a
  · unfold parse at hparse
    split at hparse
    · split at hparse
      · cases hparse
      · cases hparse
        rfl
    · cases hparse
      rfl
  · exact absurd hparse (h a)

/-- The text of an address has pieces. -/
theorem map_writeByte_ne_nil (a : Address) : a.bytes.toList.map writeByte ≠ [] := by simp

/-- The pieces of a text are the bytes as they are written. -/
theorem splitOn_text (a : Address) :
    a.text.toList.splitOn ':' = a.bytes.toList.map writeByte := by
  have hcolon : ∀ piece ∈ a.bytes.toList.map writeByte, ':' ∉ piece := by
    refine List.forall_mem_map.2 fun b _ hc => ?_
    exact absurd (mem_lowerDigits_of_mem_writeByte hc) (by decide)
  rw [text, String.toList_ofList, splitOn_join hcolon (map_writeByte_ne_nil a)]

/-- What is written is read back. -/
theorem parse_text (a : Address) : parse a.text = .ok a := by
  rw [parse_eq_ok_iff, splitOn_text, List.forall₂_map_left_iff, List.forall₂_same]
  exact fun b _ => isPiece_writeByte b

/-- The text of an address is canonical. -/
theorem isCanonical_text (a : Address) : IsCanonical a.text := by
  rw [IsCanonical, splitOn_text]
  refine ⟨by simp, List.forall_mem_map.2 fun b _ => ?_⟩
  exact ⟨length_writeByte b, fun c => mem_lowerDigits_of_mem_writeByte⟩

/-- Eight pieces of two characters, and seven colons. -/
theorem length_text (a : Address) : a.text.length = 23 := by
  have htwo : ∀ piece ∈ a.bytes.toList.map writeByte, piece.length = 2 :=
    List.forall_mem_map.2 fun b _ => length_writeByte b
  have hlength := length_join ':' htwo (map_writeByte_ne_nil a)
  rw [List.length_map, Vector.length_toList] at hlength
  rw [text, String.length_ofList]
  exact Nat.succ.inj hlength

/-- The canonical text of an address is the one that is written. -/
theorem eq_text_of_isCanonical (hs : IsCanonical s) (h : parse s = .ok a) : s = a.text := by
  have hpieces := (List.forall₂_and_left _ _).2 ⟨hs.2, parse_eq_ok_iff.1 h⟩
  have hwritten : List.Forall₂ (fun piece b => piece = writeByte b) (s.toList.splitOn ':')
      a.bytes.toList :=
    hpieces.imp fun _ _ ⟨⟨hlength, hlower⟩, hpiece⟩ => eq_writeByte hlength hlower hpiece
  rw [← List.forall₂_map_right_iff, List.forall₂_eq_eq_eq, ← splitOn_text] at hwritten
  exact String.toList_inj.1 (splitOn_inj hwritten)

/-- **Reading and writing addresses.**  What is written for an address is read as that address.  A
text is read if it is cut at colons into eight pieces, each of which is a hexadecimal numeral of a
number up to 255, perhaps after a plus sign; then the bytes are these numbers in their order, and
what is written for them is the one canonical text that is read as the same address, of 23
characters.  Any other text is refused with an error that holds it unchanged. -/
theorem parse_grammar :
    (∀ a : Address, parse a.text = .ok a) ∧
    ∀ s : String,
      ((∃ a, parse s = .ok a) ↔ IsReadable s) ∧
      (∀ a, parse s = .ok a →
        List.Forall₂ (fun piece b => IsPiece piece b.toNat) (s.toList.splitOn ':')
          a.bytes.toList ∧
        parse a.text = .ok a ∧ IsCanonical a.text ∧ a.text.length = 23 ∧
        ∀ t, IsCanonical t → parse t = .ok a → t = a.text) ∧
      (¬IsReadable s → parse s = .error ⟨s⟩) := by
  refine ⟨parse_text, fun s => ⟨exists_parse_iff, fun a ha => ?_, fun hs => ?_⟩⟩
  · exact ⟨parse_eq_ok_iff.1 ha, parse_text a, isCanonical_text a, length_text a,
      fun t => eq_text_of_isCanonical⟩
  · exact parse_eq_error fun a ha => hs (exists_parse_iff.1 ⟨a, ha⟩)

/-! An address as it may be typed, and a text that lacks a piece. -/

/-- The address. -/
def typedAddress : Address := ⟨#v[0, 21, 141, 0, 0, 54, 1, 255]⟩

/-- Both texts are read as the address, the canonical one is its text, and the third is refused with
what was typed. -/
theorem parse_grammar_typedAddress :
    parse "0:+15:8D:0:0:0036:1:fF" = .ok typedAddress ∧
      parse "00:15:8d:00:00:36:01:ff" = .ok typedAddress ∧
      IsCanonical "00:15:8d:00:00:36:01:ff" ∧
      "00:15:8d:00:00:36:01:ff" = typedAddress.text ∧
      ¬IsReadable "00:15:8d:00:00:36:01" ∧
      parse "00:15:8d:00:00:36:01" = .error ⟨"00:15:8d:00:00:36:01"⟩ := by
  have htyped : parse "0:+15:8D:0:0:0036:1:fF" = .ok typedAddress := by decide +kernel
  have hcanonical : parse "00:15:8d:00:00:36:01:ff" = .ok typedAddress := by decide +kernel
  have htext : typedAddress.text = "00:15:8d:00:00:36:01:ff" := by decide +kernel
  have hform : IsCanonical "00:15:8d:00:00:36:01:ff" := htext ▸ isCanonical_text typedAddress
  have hshort : ¬IsReadable "00:15:8d:00:00:36:01" := fun h => absurd h.1 (by decide +kernel)
  obtain ⟨-, hparse⟩ := parse_grammar
  obtain ⟨-, hread, -⟩ := hparse "0:+15:8D:0:0:0036:1:fF"
  obtain ⟨-, -, -, -, hunique⟩ := hread typedAddress htyped
  obtain ⟨-, -, hrefused⟩ := hparse "00:15:8d:00:00:36:01"
  exact ⟨htyped, hcanonical, hform, hunique _ hform hcanonical, hshort, hrefused hshort⟩

end SlottedMesh.Address
