import DocQuery.Text.Base64
import Mathlib.Tactic

/-!
# The codec of base 64

What `encode` writes is the text that six bits to a digit spell, and `decode` gives back the bytes of such a text and of no other
one. `Spells` says what that text is without saying how it is computed.
-/

namespace DocQuery.Text.Base64

/-! ## Reading what was written -/

/-- The digit for a number stands for that number. -/
theorem value?_digit {n : Nat} (h : n < 64) : value? urlSafe (digit urlSafe n) = some n := by
  have hall : ∀ n : Fin 64, value? urlSafe (digit urlSafe n) = some n.val := by decide
  exact hall ⟨n, h⟩

/-- The three bytes of a group. -/
theorem decodeGroup_digits {n : Nat} (h : n < 16777216) :
    decodeGroup urlSafe (digit urlSafe (n / 262144)) (digit urlSafe (n / 4096 % 64)) (digit urlSafe (n / 64 % 64))
        (digit urlSafe (n % 64)) =
      some [UInt8.ofNat (n / 65536), UInt8.ofNat (n / 256 % 256), UInt8.ofNat (n % 256)] := by
  have hsum : n / 262144 * 262144 + n / 4096 % 64 * 4096 + n / 64 % 64 * 64 + n % 64 = n := by omega
  have h₀ := value?_digit (show n / 262144 < 64 by omega)
  have h₁ := value?_digit (show n / 4096 % 64 < 64 by omega)
  have h₂ := value?_digit (show n / 64 % 64 < 64 by omega)
  have h₃ := value?_digit (show n % 64 < 64 by omega)
  simp only [decodeGroup, h₀, h₁, h₂, h₃, Option.bind_eq_bind, Option.bind_some, hsum]

/-- The last group is left short. -/
theorem filling_urlSafe (n : Nat) : filling urlSafe n = [] := rfl

/-- Two bytes in three digits. -/
theorem decodeLast_two {n : Nat} (h : n < 65536) :
    decodeLast urlSafe [digit urlSafe (n / 1024), digit urlSafe (n / 16 % 64), digit urlSafe (n % 16 * 4)] =
      some [UInt8.ofNat (n / 256), UInt8.ofNat (n % 256)] := by
  have h₀ := value?_digit (show n / 1024 < 64 by omega)
  have h₁ := value?_digit (show n / 16 % 64 < 64 by omega)
  have h₂ := value?_digit (show n % 16 * 4 < 64 by omega)
  have hbits : n % 16 * 4 % 4 = 0 := by omega
  have hsum : n / 1024 * 4096 + n / 16 % 64 * 64 + n % 16 * 4 = n * 4 := by omega
  have hfirst : n * 4 / 1024 = n / 256 := by omega
  have hsecond : n * 4 / 4 % 256 = n % 256 := by omega
  simp only [decodeLast, h₀, h₁, h₂, filling_urlSafe, Option.bind_eq_bind, Option.bind_some, reduceCtorEq, if_false, hbits,
    and_self, if_true, hsum, hfirst, hsecond]

/-- One byte in two digits. -/
theorem decodeLast_one {n : Nat} (h : n < 256) :
    decodeLast urlSafe [digit urlSafe (n / 4), digit urlSafe (n % 4 * 16)] = some [UInt8.ofNat n] := by
  have h₀ := value?_digit (show n / 4 < 64 by omega)
  have h₁ := value?_digit (show n % 4 * 16 < 64 by omega)
  have hbits : n % 4 * 16 % 16 = 0 := by omega
  have hsum : n / 4 * 4 + n % 4 * 16 / 16 = n := by omega
  simp only [decodeLast, h₀, h₁, filling_urlSafe, Option.bind_eq_bind, Option.bind_some, hbits, if_true, hsum]

/-- Bytes are read back. -/
theorem decode_encode (bs : List UInt8) : decode urlSafe (encode urlSafe bs) = some bs := by
  induction bs using encode.induct with
  | case1 b₀ b₁ b₂ rest ih =>
    have h₀ := b₀.toNat_lt
    have h₁ := b₁.toNat_lt
    have h₂ := b₂.toNat_lt
    have hgroup := decodeGroup_digits (show b₀.toNat * 65536 + b₁.toNat * 256 + b₂.toNat < 16777216 by omega)
    have hfirst : (b₀.toNat * 65536 + b₁.toNat * 256 + b₂.toNat) / 65536 = b₀.toNat := by omega
    have hsecond : (b₀.toNat * 65536 + b₁.toNat * 256 + b₂.toNat) / 256 % 256 = b₁.toNat := by omega
    have hthird : (b₀.toNat * 65536 + b₁.toNat * 256 + b₂.toNat) % 256 = b₂.toNat := by omega
    rw [hfirst, hsecond, hthird] at hgroup
    simp only [encode, decode, hgroup, ih, UInt8.ofNat_toNat]
    rfl
  | case2 b₀ b₁ =>
    have h₀ := b₀.toNat_lt
    have h₁ := b₁.toNat_lt
    have hlast := decodeLast_two (show b₀.toNat * 256 + b₁.toNat < 65536 by omega)
    have hfirst : (b₀.toNat * 256 + b₁.toNat) / 256 = b₀.toNat := by omega
    have hsecond : (b₀.toNat * 256 + b₁.toNat) % 256 = b₁.toNat := by omega
    rw [hfirst, hsecond, UInt8.ofNat_toNat, UInt8.ofNat_toNat] at hlast
    exact hlast
  | case3 b₀ =>
    have hlast := decodeLast_one b₀.toNat_lt
    rw [UInt8.ofNat_toNat] at hlast
    exact hlast
  | case4 => rfl

/-! ## Writing what was read -/

/-- The digit of a number that a character stands for is that character. -/
theorem digit_of_value? {c : Char} {v : Nat} (h : value? urlSafe c = some v) : v < 64 ∧ digit urlSafe v = c := by
  unfold value? at h
  split at h
  case isTrue hupper =>
    obtain rfl := Option.some.inj h
    have hback : 0x41 + (c.toNat - 0x41) = c.toNat := by omega
    exact ⟨by omega, by rw [digit, if_pos (by omega), hback, Char.ofNat_toNat]⟩
  split at h
  case isTrue hlower =>
    obtain rfl := Option.some.inj h
    have hback : 0x61 + (c.toNat - 0x61 + 26 - 26) = c.toNat := by omega
    exact ⟨by omega, by rw [digit, if_neg (by omega), if_pos (by omega), hback, Char.ofNat_toNat]⟩
  split at h
  case isTrue hnumeral =>
    obtain rfl := Option.some.inj h
    have hback : 0x30 + (c.toNat - 0x30 + 52 - 52) = c.toNat := by omega
    exact ⟨by omega, by rw [digit, if_neg (by omega), if_neg (by omega), if_pos (by omega), hback, Char.ofNat_toNat]⟩
  split at h
  case isTrue hminus =>
    obtain rfl := Option.some.inj h
    exact ⟨by omega, hminus.symm⟩
  split at h
  case isTrue hline =>
    obtain rfl := Option.some.inj h
    exact ⟨by omega, hline.symm⟩
  cases h

/-- A number below 256 is the number of its byte. -/
theorem toNat_ofNat_mod (n : Nat) : (UInt8.ofNat (n % 256)).toNat = n % 256 :=
  UInt8.toNat_ofNat_of_lt' (Nat.mod_lt n (by decide))

/-- The three bytes of a group are written as that group. -/
theorem encode_of_decodeGroup {c₀ c₁ c₂ c₃ : Char} {bs : List UInt8} (h : decodeGroup urlSafe c₀ c₁ c₂ c₃ = some bs)
    (rest : List UInt8) : encode urlSafe (bs ++ rest) = c₀ :: c₁ :: c₂ :: c₃ :: encode urlSafe rest := by
  simp only [decodeGroup, Option.bind_eq_bind, Option.bind_eq_some_iff, Option.some.injEq] at h
  obtain ⟨v₀, h₀, v₁, h₁, v₂, h₂, v₃, h₃, rfl⟩ := h
  obtain ⟨hlt₀, rfl⟩ := digit_of_value? h₀
  obtain ⟨hlt₁, rfl⟩ := digit_of_value? h₁
  obtain ⟨hlt₂, rfl⟩ := digit_of_value? h₂
  obtain ⟨hlt₃, rfl⟩ := digit_of_value? h₃
  have hsum (n : Nat) : n / 65536 * 65536 + n / 256 % 256 * 256 + n % 256 = n := by omega
  generalize hn : v₀ * 262144 + v₁ * 4096 + v₂ * 64 + v₃ = n
  have hbyte : n / 65536 < 256 := by omega
  simp only [List.cons_append, List.nil_append, encode, UInt8.toNat_ofNat_of_lt' hbyte, toNat_ofNat_mod, hsum]
  have hfirst : n / 262144 = v₀ := by omega
  have hsecond : n / 4096 % 64 = v₁ := by omega
  have hthird : n / 64 % 64 = v₂ := by omega
  have hfourth : n % 64 = v₃ := by omega
  rw [hfirst, hsecond, hthird, hfourth]

/-- The bytes of a last group are written as that group. -/
theorem encode_of_decodeLast {cs : List Char} {bs : List UInt8} (h : decodeLast urlSafe cs = some bs) :
    encode urlSafe bs = cs := by
  match cs with
  | [] =>
    obtain rfl := Option.some.inj h
    rfl
  | [_] => cases h
  | [c₀, c₁] =>
    simp only [decodeLast, filling_urlSafe, Option.bind_eq_bind, Option.bind_eq_some_iff, if_true,
      Option.ite_none_right_eq_some, Option.some.injEq] at h
    obtain ⟨v₀, h₀, v₁, h₁, hbits, rfl⟩ := h
    obtain ⟨hlt₀, rfl⟩ := digit_of_value? h₀
    obtain ⟨hlt₁, rfl⟩ := digit_of_value? h₁
    have hbyte : v₀ * 4 + v₁ / 16 < 256 := by omega
    have hfirst : (v₀ * 4 + v₁ / 16) / 4 = v₀ := by omega
    have hsecond : (v₀ * 4 + v₁ / 16) % 4 * 16 = v₁ := by omega
    simp only [encode, UInt8.toNat_ofNat_of_lt' hbyte, filling_urlSafe, List.append_nil, hfirst, hsecond]
  | c₀ :: c₁ :: c₂ :: rest =>
    have hne : ¬ (c₂ :: rest = filling urlSafe 2) := List.cons_ne_nil c₂ rest
    simp only [decodeLast, hne, Option.bind_eq_bind, Option.bind_eq_some_iff, if_false, Option.ite_none_right_eq_some,
      Option.some.injEq] at h
    obtain ⟨v₀, h₀, v₁, h₁, v₂, h₂, ⟨hrest, hbits⟩, rfl⟩ := h
    obtain ⟨hlt₀, rfl⟩ := digit_of_value? h₀
    obtain ⟨hlt₁, rfl⟩ := digit_of_value? h₁
    obtain ⟨hlt₂, rfl⟩ := digit_of_value? h₂
    rw [hrest, filling_urlSafe]
    have hsum (n : Nat) : n / 1024 * 256 + n / 4 % 256 = n / 4 := by omega
    generalize hn : v₀ * 4096 + v₁ * 64 + v₂ = n
    have hbyte : n / 1024 < 256 := by omega
    have hfirst : n / 4 / 1024 = v₀ := by omega
    have hsecond : n / 4 / 16 % 64 = v₁ := by omega
    have hthird : n / 4 % 16 * 4 = v₂ := by omega
    simp only [encode, UInt8.toNat_ofNat_of_lt' hbyte, toNat_ofNat_mod, hsum, filling_urlSafe, List.append_nil, hfirst, hsecond,
      hthird]

/-- Four characters that are no group are no last group either. -/
theorem decodeLast_four (c₀ c₁ c₂ c₃ : Char) : decodeLast urlSafe [c₀, c₁, c₂, c₃] = none := by
  simp only [decodeLast, filling_urlSafe, reduceCtorEq, if_false, false_and, Option.bind_eq_bind,
    Option.bind_fun_none]

/-- A text that is read is the one that is written. -/
theorem encode_of_decode {cs : List Char} {bs : List UInt8} (h : decode urlSafe cs = some bs) : encode urlSafe bs = cs := by
  induction cs using decode.induct urlSafe generalizing bs with
  | case1 c₀ c₁ c₂ c₃ rest bytes hgroup ih =>
    rw [decode, hgroup] at h
    obtain ⟨more, hrest, rfl⟩ := Option.map_eq_some_iff.1 h
    rw [encode_of_decodeGroup hgroup, ih hrest]
  | case2 c₀ c₁ c₂ c₃ hgroup =>
    rw [decode, hgroup] at h
    simp only [if_true, decodeLast_four, reduceCtorEq] at h
  | case3 c₀ c₁ c₂ c₃ rest hgroup hne =>
    rw [decode, hgroup] at h
    simp only [hne, if_false, reduceCtorEq] at h
  | case4 cs hshort =>
    rw [decode] at h
    · exact encode_of_decodeLast h
    · exact hshort

/-! ## What a text spells -/

/-- The digits in the order of their numbers. -/
def alphabet : Vector Char 64 :=
  ⟨"ABCDEFGHIJKLMNOPQRSTUVWXYZabcdefghijklmnopqrstuvwxyz0123456789-_".toList.toArray, by decide⟩

/-- The lowest bits of a number, the highest of them first. -/
def bits : Nat → Nat → List Bool
  | 0, _ => []
  | width + 1, n => bits width (n / 2) ++ [decide (n % 2 = 1)]

/-- A text spells a byte string when the bits of its digits, six each, are the bits of the bytes, eight each, with fewer zeros at
the end than one more digit has. Nothing stands in the text but digits, so nothing fills up the last group. -/
def Spells (cs : List Char) (bs : List UInt8) : Prop :=
  ∃ (vs : List (Fin 64)) (spare : Nat), cs = vs.map alphabet.get ∧ spare < 6 ∧
    vs.flatMap (fun v : Fin 64 => bits 6 v.val) = bs.flatMap (fun b => bits 8 b.toNat) ++ List.replicate spare false

/-- The digits are those of the alphabet. -/
theorem alphabet_get (v : Fin 64) : alphabet.get v = digit urlSafe v := by
  have hall : ∀ v : Fin 64, alphabet.get v = digit urlSafe v := by decide +kernel
  exact hall v

theorem length_bits (width n : Nat) : (bits width n).length = width := by
  induction width generalizing n with
  | zero => rfl
  | succ width ih => rw [bits, List.length_append, ih, List.length_singleton]

/-- The bits of a number in two parts. -/
theorem bits_add (high low n : Nat) : bits (high + low) n = bits high (n / 2 ^ low) ++ bits low n := by
  induction low generalizing n with
  | zero => rw [Nat.add_zero, Nat.pow_zero, Nat.div_one, bits, List.append_nil]
  | succ low ih => rw [← Nat.add_assoc, bits, ih, bits, List.append_assoc, Nat.div_div_eq_div_mul, Nat.pow_succ']

/-- Only the lowest bits count. -/
theorem bits_mod (width n : Nat) : bits width (n % 2 ^ width) = bits width n := by
  induction width generalizing n with
  | zero => rfl
  | succ width ih =>
    have hlow : n % 2 ^ (width + 1) % 2 = n % 2 := Nat.mod_mod_of_dvd n (dvd_pow_self 2 (Nat.succ_ne_zero width))
    have hhigh : n % 2 ^ (width + 1) / 2 = n / 2 % 2 ^ width := by
      rw [Nat.pow_succ', Nat.mod_mul_right_div_self]
    rw [bits, hlow, hhigh, ih, bits]

/-- The bits tell the numbers of their width apart. -/
theorem bits_injective {width n m : Nat} (hn : n < 2 ^ width) (hm : m < 2 ^ width) (h : bits width n = bits width m) : n = m := by
  induction width generalizing n m with
  | zero => omega
  | succ width ih =>
    rw [Nat.pow_succ] at hn hm
    rw [bits, bits] at h
    obtain ⟨hhigh, hlow⟩ := List.append_inj h (by rw [length_bits, length_bits])
    have hhalf := ih (by omega) (by omega) hhigh
    have hparity : n % 2 = 1 ↔ m % 2 = 1 := decide_eq_decide.1 (List.singleton_inj.1 hlow)
    omega

/-- The bits of two digits. -/
theorem bits_two (n : Nat) : bits 6 (n / 64) ++ bits 6 (n % 64) = bits 12 n := by
  have hlast : bits 6 (n % 64) = bits 6 n := bits_mod 6 n
  have hadd : bits 12 n = bits 6 (n / 64) ++ bits 6 n := bits_add 6 6 n
  rw [hlast, hadd]

/-- The bits of three digits. -/
theorem bits_three (n : Nat) : bits 6 (n / 4096) ++ (bits 6 (n / 64 % 64) ++ bits 6 (n % 64)) = bits 18 n := by
  have hmiddle : bits 6 (n / 64 % 64) = bits 6 (n / 64) := bits_mod 6 (n / 64)
  have hadd : bits 18 n = bits 6 (n / 4096) ++ bits 12 n := bits_add 6 12 n
  rw [hmiddle, bits_two, hadd]

/-- The bits of four digits. -/
theorem bits_four (n : Nat) :
    bits 6 (n / 262144) ++ (bits 6 (n / 4096 % 64) ++ (bits 6 (n / 64 % 64) ++ bits 6 (n % 64))) = bits 24 n := by
  have hsecond : bits 6 (n / 4096 % 64) = bits 6 (n / 4096) := bits_mod 6 (n / 4096)
  have hadd : bits 24 n = bits 6 (n / 262144) ++ bits 18 n := bits_add 6 18 n
  rw [hsecond, bits_three, hadd]

/-- The bits of two bytes. -/
theorem bits_bytes (b₀ b₁ : UInt8) : bits 8 b₀.toNat ++ bits 8 b₁.toNat = bits 16 (b₀.toNat * 256 + b₁.toNat) := by
  have hlt := b₁.toNat_lt
  have hhigh : (b₀.toNat * 256 + b₁.toNat) / 2 ^ 8 = b₀.toNat := by omega
  have hlow : (b₀.toNat * 256 + b₁.toNat) % 2 ^ 8 = b₁.toNat := by omega
  have hlast : bits 8 (b₀.toNat * 256 + b₁.toNat) = bits 8 b₁.toNat := by rw [← bits_mod 8, hlow]
  have hadd := bits_add 8 8 (b₀.toNat * 256 + b₁.toNat)
  rw [hhigh, hlast] at hadd
  exact hadd.symm

/-- The bits of three bytes. -/
theorem bits_group (b₀ b₁ b₂ : UInt8) :
    bits 8 b₀.toNat ++ (bits 8 b₁.toNat ++ bits 8 b₂.toNat) =
      bits 24 (b₀.toNat * 65536 + b₁.toNat * 256 + b₂.toNat) := by
  have hlt := b₂.toNat_lt
  have hhigh : (b₀.toNat * 65536 + b₁.toNat * 256 + b₂.toNat) / 2 ^ 8 = b₀.toNat * 256 + b₁.toNat := by omega
  have hlow : (b₀.toNat * 65536 + b₁.toNat * 256 + b₂.toNat) % 2 ^ 8 = b₂.toNat := by omega
  have hlast : bits 8 (b₀.toNat * 65536 + b₁.toNat * 256 + b₂.toNat) = bits 8 b₂.toNat := by rw [← bits_mod 8, hlow]
  have hadd := bits_add 16 8 (b₀.toNat * 65536 + b₁.toNat * 256 + b₂.toNat)
  rw [hhigh, hlast, ← bits_bytes, List.append_assoc] at hadd
  exact hadd.symm

/-- The bits of a number with zeros after it. -/
theorem bits_shift (width spare n : Nat) : bits (width + spare) (n * 2 ^ spare) = bits width n ++ List.replicate spare false := by
  induction spare with
  | zero => rw [Nat.add_zero, Nat.pow_zero, Nat.mul_one, List.replicate_zero, List.append_nil]
  | succ spare ih =>
    have hdouble : n * 2 ^ (spare + 1) = 2 * (n * 2 ^ spare) := by ring
    have hhalf : n * 2 ^ (spare + 1) / 2 = n * 2 ^ spare := by omega
    have heven : ¬ n * 2 ^ (spare + 1) % 2 = 1 := by omega
    rw [← Nat.add_assoc, bits, hhalf, ih, decide_eq_false heven, List.append_assoc, ← List.replicate_succ']

/-- Digits and the numbers they stand for. -/
theorem digit_eq_alphabet {n : Nat} (h : n < 64) : digit urlSafe n = alphabet.get ⟨n, h⟩ := (alphabet_get ⟨n, h⟩).symm

/-- What is written spells the bytes. -/
theorem spells_encode (bs : List UInt8) : Spells (encode urlSafe bs) bs := by
  induction bs using encode.induct with
  | case1 b₀ b₁ b₂ rest ih =>
    obtain ⟨vs, spare, hcs, hspare, hbits⟩ := ih
    have h₀ := b₀.toNat_lt
    have h₁ := b₁.toNat_lt
    have h₂ := b₂.toNat_lt
    have hgroup := bits_group b₀ b₁ b₂
    generalize hn : b₀.toNat * 65536 + b₁.toNat * 256 + b₂.toNat = n at hgroup
    have hfirst : n / 262144 < 64 := by omega
    refine ⟨⟨n / 262144, hfirst⟩ :: ⟨n / 4096 % 64, by omega⟩ :: ⟨n / 64 % 64, by omega⟩ :: ⟨n % 64, by omega⟩ :: vs, spare, ?_,
      hspare, ?_⟩
    · simp only [encode, hn, hcs, List.map_cons, ← digit_eq_alphabet]
    · have hdigits := congrArg (· ++ vs.flatMap (fun v : Fin 64 => bits 6 v.val)) ((bits_four n).trans hgroup.symm)
      simpa only [List.flatMap_cons, hbits, List.append_assoc] using hdigits
  | case2 b₀ b₁ =>
    have h₀ := b₀.toNat_lt
    have h₁ := b₁.toNat_lt
    have hbytes := bits_bytes b₀ b₁
    generalize hn : b₀.toNat * 256 + b₁.toNat = n at hbytes
    have hthree := bits_three (n * 4)
    have hshift : bits 18 (n * 4) = bits 16 n ++ List.replicate 2 false := bits_shift 16 2 n
    have hfirst : n * 4 / 4096 = n / 1024 := by omega
    have hsecond : n * 4 / 64 % 64 = n / 16 % 64 := by omega
    have hthird : n * 4 % 64 = n % 16 * 4 := by omega
    rw [hfirst, hsecond, hthird, hshift, ← hbytes] at hthree
    refine ⟨[⟨n / 1024, by omega⟩, ⟨n / 16 % 64, by omega⟩, ⟨n % 16 * 4, by omega⟩], 2, ?_, by decide, ?_⟩
    · simp only [encode, hn, filling_urlSafe, List.append_nil, List.map_cons, List.map_nil, ← digit_eq_alphabet]
    · simpa only [List.flatMap_cons, List.flatMap_nil, List.append_nil] using hthree
  | case3 b₀ =>
    have h₀ := b₀.toNat_lt
    have htwo := bits_two (b₀.toNat * 16)
    have hshift : bits 12 (b₀.toNat * 16) = bits 8 b₀.toNat ++ List.replicate 4 false := bits_shift 8 4 b₀.toNat
    have hfirst : b₀.toNat * 16 / 64 = b₀.toNat / 4 := by omega
    have hsecond : b₀.toNat * 16 % 64 = b₀.toNat % 4 * 16 := by omega
    rw [hfirst, hsecond, hshift] at htwo
    refine ⟨[⟨b₀.toNat / 4, by omega⟩, ⟨b₀.toNat % 4 * 16, by omega⟩], 4, ?_, by decide, ?_⟩
    · simp only [encode, filling_urlSafe, List.append_nil, List.map_cons, List.map_nil, ← digit_eq_alphabet]
    · simpa only [List.flatMap_cons, List.flatMap_nil, List.append_nil] using htwo
  | case4 => exact ⟨[], 0, rfl, by decide, rfl⟩

/-- Digits with the same bits are the same. -/
theorem flatMap_bits_injective {vs ws : List (Fin 64)}
    (h : vs.flatMap (fun v : Fin 64 => bits 6 v.val) = ws.flatMap (fun v : Fin 64 => bits 6 v.val))
    (hlen : vs.length = ws.length) : vs = ws := by
  induction vs generalizing ws with
  | nil =>
    cases ws with
    | nil => rfl
    | cons w ws => cases hlen
  | cons v vs ih =>
    cases ws with
    | nil => cases hlen
    | cons w ws =>
      simp only [List.flatMap_cons] at h
      obtain ⟨hhead, htail⟩ := List.append_inj h (by rw [length_bits, length_bits])
      have hval := bits_injective v.isLt w.isLt hhead
      rw [Fin.ext hval, ih htail (Nat.succ.inj hlen)]

/-- The number of bits of digits or of bytes. -/
theorem length_flatMap_bits {α : Type} (width : Nat) (f : α → Nat) (xs : List α) :
    (xs.flatMap (fun x => bits width (f x))).length = width * xs.length := by
  induction xs with
  | nil => rfl
  | cons x xs ih => rw [List.flatMap_cons, List.length_append, length_bits, ih, List.length_cons, Nat.mul_succ, Nat.add_comm]

/-- One text spells a byte string. -/
theorem Spells.unique {cs ds : List Char} {bs : List UInt8} (hc : Spells cs bs) (hd : Spells ds bs) : cs = ds := by
  obtain ⟨vs, j, rfl, hj, hvs⟩ := hc
  obtain ⟨ws, k, rfl, hk, hws⟩ := hd
  have hvlen := congrArg List.length hvs
  have hwlen := congrArg List.length hws
  rw [length_flatMap_bits 6 Fin.val, List.length_append, length_flatMap_bits 8 UInt8.toNat, List.length_replicate] at hvlen hwlen
  have hlen : vs.length = ws.length := by omega
  have hspare : j = k := by omega
  rw [flatMap_bits_injective (by rw [hvs, hws, hspare]) hlen]

/-- The text that spells a byte string is the one that is written. -/
theorem encode_eq_iff {cs : List Char} {bs : List UInt8} : encode urlSafe bs = cs ↔ Spells cs bs := by
  constructor
  · rintro rfl
    exact spells_encode bs
  · exact (spells_encode bs).unique

end DocQuery.Text.Base64
