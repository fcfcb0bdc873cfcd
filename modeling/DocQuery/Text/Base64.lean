/-!
# Base 64

Bytes as text, three bytes to four characters. An `Alphabet` is a pair of characters for the last two digits and whether the last
group is filled up. Reading is strict: it accepts only what writing produces, so a text stands for one byte string at most.
-/

namespace DocQuery.Text.Base64

/-- What tells one variant of the encoding from another. -/
structure Alphabet where
  /-- The digit for 62. -/
  sixtyTwo : Char
  /-- The digit for 63. -/
  sixtyThree : Char
  /-- Whether the last group is filled up to four characters. -/
  filled : Bool
  deriving DecidableEq, Repr

/-- The usual alphabet, the last group filled up with equals signs. -/
def standard : Alphabet := ⟨'+', '/', true⟩

/-- The alphabet for addresses and file names, the last group left short. -/
def urlSafe : Alphabet := ⟨'-', '_', false⟩

/-- The digit for a number below 64. -/
def digit (a : Alphabet) (n : Nat) : Char :=
  if n < 26 then Char.ofNat (0x41 + n)
  else if n < 52 then Char.ofNat (0x61 + (n - 26))
  else if n < 62 then Char.ofNat (0x30 + (n - 52))
  else if n = 62 then a.sixtyTwo
  else a.sixtyThree

/-- The number a digit stands for. -/
def value? (a : Alphabet) (c : Char) : Option Nat :=
  if 0x41 ≤ c.toNat ∧ c.toNat ≤ 0x5A then some (c.toNat - 0x41)
  else if 0x61 ≤ c.toNat ∧ c.toNat ≤ 0x7A then some (c.toNat - 0x61 + 26)
  else if 0x30 ≤ c.toNat ∧ c.toNat ≤ 0x39 then some (c.toNat - 0x30 + 52)
  else if c = a.sixtyTwo then some 62
  else if c = a.sixtyThree then some 63
  else none

/-- The filling of a group that lacks `n` characters. -/
def filling (a : Alphabet) (n : Nat) : List Char :=
  if a.filled then List.replicate n '=' else []

/-- The text of a byte string. -/
def encode (a : Alphabet) : List UInt8 → List Char
  | b₀ :: b₁ :: b₂ :: rest =>
    let n := b₀.toNat * 65536 + b₁.toNat * 256 + b₂.toNat
    digit a (n / 262144) :: digit a (n / 4096 % 64) :: digit a (n / 64 % 64) :: digit a (n % 64) :: encode a rest
  | [b₀, b₁] =>
    let n := b₀.toNat * 256 + b₁.toNat
    [digit a (n / 1024), digit a (n / 16 % 64), digit a (n % 16 * 4)] ++ filling a 1
  | [b₀] => [digit a (b₀.toNat / 4), digit a (b₀.toNat % 4 * 16)] ++ filling a 2
  | [] => []

/-- The last group: two or three digits whose unused low bits are zero, then the filling. -/
def decodeLast (a : Alphabet) (cs : List Char) : Option (List UInt8) :=
  match cs with
  | [] => some []
  | c₀ :: c₁ :: rest => do
    let v₀ ← value? a c₀
    let v₁ ← value? a c₁
    if rest = filling a 2 then
      if v₁ % 16 = 0 then some [UInt8.ofNat (v₀ * 4 + v₁ / 16)] else none
    else
      match rest with
      | c₂ :: rest' => do
        let v₂ ← value? a c₂
        if rest' = filling a 1 ∧ v₂ % 4 = 0 then
          let n := v₀ * 4096 + v₁ * 64 + v₂
          some [UInt8.ofNat (n / 1024), UInt8.ofNat (n / 4 % 256)]
        else none
      | [] => none
  | _ => none

/-- A whole group of four digits. -/
def decodeGroup (a : Alphabet) (c₀ c₁ c₂ c₃ : Char) : Option (List UInt8) := do
  let v₀ ← value? a c₀
  let v₁ ← value? a c₁
  let v₂ ← value? a c₂
  let v₃ ← value? a c₃
  let n := v₀ * 262144 + v₁ * 4096 + v₂ * 64 + v₃
  some [UInt8.ofNat (n / 65536), UInt8.ofNat (n / 256 % 256), UInt8.ofNat (n % 256)]

/-- The byte string a text stands for. -/
def decode (a : Alphabet) : List Char → Option (List UInt8)
  | c₀ :: c₁ :: c₂ :: c₃ :: rest =>
    match decodeGroup a c₀ c₁ c₂ c₃ with
    | some bytes => (decode a rest).map (bytes ++ ·)
    | none => if rest = [] then decodeLast a [c₀, c₁, c₂, c₃] else none
  | cs => decodeLast a cs

/-- Why a text is not the written form of a byte string. Offsets and bytes are those of the text in UTF-8. -/
inductive Fault where
  | byte (offset : Nat) (b : UInt8)
  | length
  | lastSymbol (offset : Nat) (b : UInt8)
  | padding
  deriving DecidableEq, Repr

/-- The explanation of a fault. -/
def Fault.message : Fault → String
  | .byte offset b => "Invalid byte " ++ toString b.toNat ++ ", offset " ++ toString offset ++ "."
  | .length => "Encoded text cannot have a 6-bit remainder."
  | .lastSymbol offset b => "Invalid last symbol " ++ toString b.toNat ++ ", offset " ++ toString offset ++ "."
  | .padding => "Invalid padding"

/-- Whether a byte is a digit of the alphabet. -/
def isDigit (a : Alphabet) (b : UInt8) : Bool := (value? a (Char.ofNat b.toNat)).isSome

/-- The first fault of a text that does not decode: a length no byte string has, then a byte that is no digit in its place, then
the filling, then the unused bits of the last digit. -/
def diagnose (a : Alphabet) (bs : List UInt8) : Fault :=
  let equals : UInt8 := 0x3D
  let last := bs.getLast?.getD 0
  let digits := bs.takeWhile (isDigit a)
  if bs.length % 4 = 1 then
    if last ≠ equals ∧ !isDigit a last then .byte (bs.length - 1) last else .length
  else
    match bs.dropWhile (isDigit a) with
    | [] => if a.filled ∧ bs.length % 4 ≠ 0 then .padding else .lastSymbol (bs.length - 1) last
    | b :: rest =>
      if b = equals ∧ rest.all (· == equals) ∧ 2 ≤ digits.length % 4 ∧ digits.length % 4 + rest.length < 4 then
        if a.filled ∧ bs.length % 4 = 0 then .lastSymbol (digits.length - 1) (digits.getLast?.getD 0) else .padding
      else .byte digits.length b

end DocQuery.Text.Base64
