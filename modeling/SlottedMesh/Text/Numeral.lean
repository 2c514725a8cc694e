/-!
# Numerals

Digits in a base up to sixteen, in both directions: `digit?` and `read?` take text to a number,
`fixedWidth` writes a number with a given count of digits.  Reading accepts upper and lower case
and any number of leading zeros; writing uses lower case.
-/

namespace SlottedMesh.Numeral

/-- The value of a digit, whatever the base: `0` to `9`, then letters of either case from ten. -/
def value? (c : Char) : Option Nat :=
  if '0' ≤ c ∧ c ≤ '9' then some (c.toNat - '0'.toNat)
  else if 'a' ≤ c ∧ c ≤ 'z' then some (c.toNat - 'a'.toNat + 10)
  else if 'A' ≤ c ∧ c ≤ 'Z' then some (c.toNat - 'A'.toNat + 10)
  else none

/-- The value of a digit of `base`; none if the character is no digit of that base. -/
def digit? (base : Nat) (c : Char) : Option Nat :=
  (value? c).filter (· < base)

/-- Continue a numeral of value `acc` with further digits. -/
def readFrom? (base : Nat) (acc : Nat) : List Char → Option Nat
  | [] => some acc
  | c :: cs => (digit? base c).bind fun d => readFrom? base (acc * base + d) cs

/-- The value of a numeral: one digit of `base` or more, and nothing else. -/
def read? (base : Nat) : List Char → Option Nat
  | [] => none
  | c :: cs => readFrom? base 0 (c :: cs)

/-- The character for a digit below sixteen, letters in lower case. -/
def digitChar (d : Nat) : Char := d.digitChar

/-- The last `width` digits of `n` in `base`, most significant first. -/
def fixedWidth (base : Nat) : Nat → Nat → List Char
  | 0, _ => []
  | width + 1, n => fixedWidth base width (n / base) ++ [digitChar (n % base)]

/-- A numeral of fixed width has that many digits. -/
@[simp] theorem length_fixedWidth (base width n : Nat) :
    (fixedWidth base width n).length = width := by
  induction width generalizing n with
  | zero => rfl
  | succ width ih => simp [fixedWidth, ih]

end SlottedMesh.Numeral
