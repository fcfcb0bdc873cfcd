import DocQuery.Decimal.Binary64
import Mathlib.Algebra.Order.Floor.Semifield
import Mathlib.Data.Int.Log
import Mathlib.Data.Rat.Floor
import Mathlib.Tactic

/-!
# Rounding to the nearest rank

The rank nearest to a quotient depends on the rational number that the quotient is, and not on how it is written
(`nearestRank_eq`). The value of a rank has that rank (`rankOf_rankValue`), and what is too large or too small for a finite number
has a rank beyond all finite ones or rank zero.
-/

namespace DocQuery.Decimal

/-! ## The nearest integer -/

/-- The integer nearest to a rational number, the even one where two are equally near. -/
def roundEven (q : ℚ) : ℕ :=
  if q - ⌊q⌋₊ < 1 / 2 then ⌊q⌋₊
  else if 1 / 2 < q - ⌊q⌋₊ then ⌊q⌋₊ + 1
  else if ⌊q⌋₊ % 2 = 0 then ⌊q⌋₊ else ⌊q⌋₊ + 1

theorem divNearest_eq (num : ℕ) {den : ℕ} (h : 0 < den) : divNearest num den = roundEven (num / den) := by
  have hpos : (0 : ℚ) < den := by exact_mod_cast h
  have hfract : (num : ℚ) / den - (num / den : ℕ) = (num % den : ℕ) / den := by
    have hsplit : (num : ℚ) = den * (num / den : ℕ) + (num % den : ℕ) := by exact_mod_cast (Nat.div_add_mod num den).symm
    rw [eq_div_iff hpos.ne', sub_mul, div_mul_cancel₀ _ hpos.ne']
    linarith
  have hbelow : (num : ℚ) / den - (num / den : ℕ) < 1 / 2 ↔ 2 * (num % den) < den := by
    rw [hfract, div_lt_iff₀ hpos, ← Nat.cast_lt (α := ℚ), Nat.cast_mul, Nat.cast_ofNat]
    constructor <;> intro h <;> linarith
  have habove : 1 / 2 < (num : ℚ) / den - (num / den : ℕ) ↔ den < 2 * (num % den) := by
    rw [hfract, lt_div_iff₀ hpos, ← Nat.cast_lt (α := ℚ), Nat.cast_mul, Nat.cast_ofNat]
    constructor <;> intro h <;> linarith
  simp only [divNearest, roundEven, Nat.floor_div_eq_div, hbelow, habove]

theorem roundEven_natCast (n : ℕ) : roundEven n = n := by
  rw [roundEven, Nat.floor_natCast, sub_self, if_pos (by norm_num)]

/-- Rounding does not fall below an integer that it starts from or above. -/
theorem le_roundEven {n : ℕ} {q : ℚ} (h : (n : ℚ) ≤ q) : n ≤ roundEven q := by
  have := Nat.le_floor h
  unfold roundEven
  split_ifs <;> omega

/-- Rounding does not rise above an integer that it starts from or below. -/
theorem roundEven_le {n : ℕ} {q : ℚ} (h0 : 0 ≤ q) (h : q ≤ n) : roundEven q ≤ n := by
  have hfloor : ⌊q⌋₊ ≤ n := Nat.floor_le_of_le h
  rcases hfloor.lt_or_eq with hlt | heq
  · unfold roundEven
    split_ifs <;> omega
  · have hself := Nat.floor_le h0
    rw [heq] at hself
    rw [le_antisymm h hself, roundEven_natCast]

/-- What is less than a half is rounded to zero. -/
theorem roundEven_of_lt_half {q : ℚ} (h : q < 1 / 2) : roundEven q = 0 := by
  have hfloor : ⌊q⌋₊ = 0 := Nat.floor_eq_zero.2 (by linarith)
  rw [roundEven, hfloor, if_pos (by simpa using h)]

/-! ## Powers of two -/

/-- Dividing by a power of two does so. -/
theorem scaleDown_ratio (num : ℕ) {den : ℕ} (h : 0 < den) (e : ℤ) :
    0 < (scaleDown num den e).2 ∧
      ((scaleDown num den e).1 : ℚ) / (scaleDown num den e).2 = num / den / 2 ^ e := by
  cases e with
  | ofNat k =>
    refine ⟨Nat.mul_pos h (Nat.pow_pos (by decide)), ?_⟩
    simp only [scaleDown, Nat.pow_eq, Int.ofNat_eq_natCast, zpow_natCast]
    push_cast
    rw [div_div]
  | negSucc k =>
    refine ⟨h, ?_⟩
    simp only [scaleDown, Nat.pow_eq, zpow_negSucc]
    push_cast
    rw [div_inv_eq_mul]
    ring

/-- A scaled quotient is at least one exactly if the quotient is at least the power of two. -/
theorem scaleDown_le_iff (num : ℕ) {den : ℕ} (h : 0 < den) (e : ℤ) :
    (scaleDown num den e).2 ≤ (scaleDown num den e).1 ↔ (2 : ℚ) ^ e ≤ num / den := by
  obtain ⟨hpos, hratio⟩ := scaleDown_ratio num h e
  have hden : (0 : ℚ) < (scaleDown num den e).2 := by exact_mod_cast hpos
  have htwo : (0 : ℚ) < 2 ^ e := by positivity
  rw [← Nat.cast_le (α := ℚ), ← one_le_div hden, hratio, one_le_div htwo]

theorem zpow_le_iff {q : ℚ} (h : 0 < q) (e : ℤ) : (2 : ℚ) ^ e ≤ q ↔ e ≤ Int.log 2 q := by
  simpa using Int.zpow_le_iff_le_log (b := 2) (by decide) (x := e) h

theorem lt_zpow_iff {q : ℚ} (h : 0 < q) (e : ℤ) : q < (2 : ℚ) ^ e ↔ Int.log 2 q < e := by
  rw [← not_le, zpow_le_iff h, not_le]

/-- The exponent of the greatest power of two below a quotient is its logarithm. -/
theorem ratioLog2_eq {num den : ℕ} (hn : 0 < num) (hd : 0 < den) : ratioLog2 num den = Int.log 2 (num / den : ℚ) := by
  have hnum : (0 : ℚ) < num := by exact_mod_cast hn
  have hden : (0 : ℚ) < den := by exact_mod_cast hd
  have hq : (0 : ℚ) < num / den := by positivity
  have hnl : (2 : ℚ) ^ (num.log2 : ℤ) ≤ num := by exact_mod_cast Nat.log2_self_le hn.ne'
  have hnu : (num : ℚ) < 2 ^ ((num.log2 : ℤ) + 1) := by exact_mod_cast Nat.lt_log2_self (n := num)
  have hdl : (2 : ℚ) ^ (den.log2 : ℤ) ≤ den := by exact_mod_cast Nat.log2_self_le hd.ne'
  have hdu : (den : ℚ) < 2 ^ ((den.log2 : ℤ) + 1) := by exact_mod_cast Nat.lt_log2_self (n := den)
  have hlow : (2 : ℚ) ^ ((num.log2 : ℤ) - den.log2 - 1) ≤ num / den := by
    rw [le_div_iff₀ hden]
    calc (2 : ℚ) ^ ((num.log2 : ℤ) - den.log2 - 1) * den
        ≤ 2 ^ ((num.log2 : ℤ) - den.log2 - 1) * 2 ^ ((den.log2 : ℤ) + 1) := by gcongr
      _ = 2 ^ (num.log2 : ℤ) := by rw [← zpow_add₀ (by norm_num)]; congr 1; ring
      _ ≤ num := hnl
  have hhigh : (num / den : ℚ) < 2 ^ ((num.log2 : ℤ) - den.log2 + 1) := by
    rw [div_lt_iff₀ hden]
    calc (num : ℚ) < 2 ^ ((num.log2 : ℤ) + 1) := hnu
      _ = 2 ^ ((num.log2 : ℤ) - den.log2 + 1) * 2 ^ (den.log2 : ℤ) := by
        rw [← zpow_add₀ (by norm_num)]; congr 1; ring
      _ ≤ 2 ^ ((num.log2 : ℤ) - den.log2 + 1) * den := by gcongr
  have hlower := (zpow_le_iff hq _).1 hlow
  have hupper := (lt_zpow_iff hq _).1 hhigh
  simp only [ratioLog2, scaleDown_le_iff num hd, zpow_le_iff hq]
  split_ifs <;> omega

/-- The significand that a positive number is rounded to has at most 53 bits, or is the next power of two. -/
theorem roundEven_le_binade {q : ℚ} (h : 0 < q) {power : ℤ} (hpower : Int.log 2 q - 52 ≤ power) :
    roundEven (q / 2 ^ power) ≤ 2 * binade := by
  refine roundEven_le (by positivity) ?_
  rw [div_le_iff₀ (by positivity)]
  calc q ≤ 2 ^ (Int.log 2 q + 1) := ((lt_zpow_iff h _).2 (Int.lt_succ _)).le
    _ ≤ 2 ^ (53 + power) := zpow_le_zpow_right₀ (by norm_num) (by omega)
    _ = ((2 * binade : ℕ) : ℚ) * 2 ^ power := by rw [zpow_add₀ (by norm_num)]; norm_num [binade]

/-- The significand that a positive number is rounded to has 53 bits where the exponent is not bounded below. -/
theorem binade_le_roundEven {q : ℚ} (h : 0 < q) : binade ≤ roundEven (q / 2 ^ (Int.log 2 q - 52)) := by
  refine le_roundEven ?_
  rw [le_div_iff₀ (by positivity)]
  calc ((binade : ℕ) : ℚ) * 2 ^ (Int.log 2 q - 52) = 2 ^ (52 : ℤ) * 2 ^ (Int.log 2 q - 52) := by norm_num [binade]
    _ = 2 ^ Int.log 2 q := by rw [← zpow_add₀ (by norm_num)]; congr 1; ring
    _ ≤ q := (zpow_le_iff h _).2 le_rfl

/-! ## The nearest rank -/

/-- The rank nearest to a nonnegative rational number. -/
def rankOf (q : ℚ) : ℕ :=
  if q = 0 then 0
  else
    let power : ℤ := max (Int.log 2 q - 52) (-1074)
    (power + 1074).toNat * binade + roundEven (q / 2 ^ power)

/-- The rank nearest to a quotient is the one nearest to the rational number that it is. -/
theorem nearestRank_eq (num : ℕ) {den : ℕ} (h : 0 < den) : nearestRank num den = rankOf (num / den) := by
  have hden : (den : ℚ) ≠ 0 := by exact_mod_cast h.ne'
  rw [nearestRank, rankOf]
  by_cases hn : num = 0
  · rw [if_pos hn, if_pos (by rw [hn]; simp)]
  · have hq : (num : ℚ) / den ≠ 0 := div_ne_zero (by exact_mod_cast hn) hden
    rw [if_neg hn, if_neg hq]
    simp only [ratioLog2_eq (Nat.pos_of_ne_zero hn) h]
    obtain ⟨hpos, hratio⟩ := scaleDown_ratio num h (max (Int.log 2 (num / den : ℚ) - 52) (-1074))
    rw [divNearest_eq _ hpos, hratio]

/-! ## Ranks and their values -/

/-- The value of a rank. -/
def rankValue (r : ℕ) : ℚ := rankSignificand r * 2 ^ rankExponent r

/-- A logarithm by its two bounds. -/
theorem log_eq {q : ℚ} {e : ℤ} (h : (2 : ℚ) ^ e ≤ q) (h' : q < 2 ^ (e + 1)) : Int.log 2 q = e := by
  have hq : 0 < q := lt_of_lt_of_le (by positivity) h
  have hle := (zpow_le_iff hq e).1 h
  have hlt := (lt_zpow_iff hq (e + 1)).1 h'
  omega

/-- Below the first binade a multiple of the least positive number has that multiple for its rank. -/
theorem rankOf_subnormal {m : ℕ} (h : m < binade) : rankOf (m * 2 ^ (-1074 : ℤ)) = m := by
  rw [rankOf]
  by_cases h0 : m = 0
  · rw [h0, if_pos (by simp)]
  · have hpos : (0 : ℚ) < m := by exact_mod_cast Nat.pos_of_ne_zero h0
    have hlt : (m : ℚ) * 2 ^ (-1074 : ℤ) < 2 ^ (52 - 1074 : ℤ) := by
      have hm : (m : ℚ) < 2 ^ (52 : ℤ) := by exact_mod_cast h
      rw [sub_eq_add_neg, zpow_add₀ (by norm_num)]
      exact mul_lt_mul_of_pos_right hm (by positivity)
    have hlog := (lt_zpow_iff (by positivity) _).1 hlt
    have hpower : max (Int.log 2 ((m : ℚ) * 2 ^ (-1074 : ℤ)) - 52) (-1074) = -1074 := by omega
    rw [if_neg (by positivity)]
    simp only [hpower]
    rw [mul_div_cancel_right₀ _ (by positivity), roundEven_natCast]
    simp

/-- A significand of 53 bits times a power of two has its place in the binade of that power for its rank. -/
theorem rankOf_normal {m : ℕ} {k : ℤ} (h : binade ≤ m) (h' : m < 2 * binade) (hk : -1074 ≤ k) :
    rankOf (m * 2 ^ k) = (k + 1074).toNat * binade + m := by
  have hm : (2 : ℚ) ^ (52 : ℤ) ≤ m := by exact_mod_cast h
  have hm' : (m : ℚ) < 2 ^ (53 : ℤ) := by exact_mod_cast h'
  have hlow : (2 : ℚ) ^ (52 + k) ≤ m * 2 ^ k := by
    rw [zpow_add₀ (by norm_num)]
    gcongr
  have hhigh : (m : ℚ) * 2 ^ k < 2 ^ (52 + k + 1) := by
    rw [show (52 + k + 1 : ℤ) = 53 + k by ring, zpow_add₀ (by norm_num)]
    gcongr
  have hpower : max (52 + k - 52) (-1074) = k := by omega
  have hpos : (0 : ℚ) < m * 2 ^ k := lt_of_lt_of_le (by positivity) hlow
  rw [rankOf, if_neg hpos.ne', log_eq hlow hhigh]
  simp only [hpower]
  rw [mul_div_cancel_right₀ _ (by positivity), roundEven_natCast]

/-- The value of a rank has that rank. -/
theorem rankOf_rankValue (r : ℕ) : rankOf (rankValue r) = r := by
  rw [rankValue, rankSignificand, rankExponent]
  split
  · next hr => exact rankOf_subnormal hr
  · next hr =>
    have hdiv : 1 ≤ r / binade := (Nat.one_le_div_iff (by decide)).2 (Nat.not_lt.1 hr)
    have hmod : r % binade < binade := Nat.mod_lt _ (by decide)
    have hsplit := Nat.div_add_mod r binade
    have hk : (((r / binade : ℕ) : ℤ) - 1075 + 1074).toNat = r / binade - 1 := by omega
    have hle : binade ≤ binade * (r / binade) := Nat.le_mul_of_pos_right _ hdiv
    rw [rankOf_normal (Nat.le_add_right _ _) (by omega) (by omega), hk, Nat.sub_mul, Nat.mul_comm (r / binade)]
    omega

/-- What is positive but far below the least positive number has rank zero. -/
theorem rankOf_of_small {q : ℚ} (h0 : 0 < q) (h : q < 2 ^ (-1076 : ℤ)) : rankOf q = 0 := by
  have hlog := (lt_zpow_iff h0 _).1 h
  have hpower : max (Int.log 2 q - 52) (-1074) = -1074 := by omega
  rw [rankOf, if_neg h0.ne']
  simp only [hpower]
  rw [roundEven_of_lt_half]
  · simp
  · rw [div_lt_iff₀ (by positivity)]
    calc q < 2 ^ (-1076 : ℤ) := h
      _ = 2 ^ (-2 : ℤ) * 2 ^ (-1074 : ℤ) := by rw [← zpow_add₀ (by norm_num)]; norm_num
      _ ≤ 1 / 2 * 2 ^ (-1074 : ℤ) := by gcongr; norm_num

/-- What is at least two to the power 1024 is beyond all finite numbers. -/
theorem rankLimit_le_rankOf {q : ℚ} (h : (2 : ℚ) ^ (1024 : ℤ) ≤ q) : rankLimit ≤ rankOf q := by
  have h0 : 0 < q := lt_of_lt_of_le (by positivity) h
  have hlog := (zpow_le_iff h0 _).1 h
  have hpower : max (Int.log 2 q - 52) (-1074) = Int.log 2 q - 52 := by omega
  rw [rankOf, if_neg h0.ne']
  simp only [hpower]
  have hfactor : 2046 ≤ (Int.log 2 q - 52 + 1074).toNat := by omega
  calc rankLimit = 2046 * binade + binade := by decide
    _ ≤ _ := Nat.add_le_add (Nat.mul_le_mul_right _ hfactor) (binade_le_roundEven h0)

/-- What is less than two to the power 1023 is nearest to a finite number. -/
theorem rankOf_lt_rankLimit {q : ℚ} (h0 : 0 ≤ q) (h : q < 2 ^ (1023 : ℤ)) : rankOf q < rankLimit := by
  rcases h0.eq_or_lt with rfl | hpos
  · rw [rankOf, if_pos rfl]
    decide
  · have hlog := (lt_zpow_iff hpos _).1 h
    rw [rankOf, if_neg hpos.ne']
    simp only
    generalize hp : max (Int.log 2 q - 52) (-1074) = power
    have hround : roundEven (q / 2 ^ power) ≤ 2 * binade := roundEven_le_binade hpos (by omega)
    have hfactor : (power + 1074).toNat ≤ 2044 := by omega
    calc (power + 1074).toNat * binade + roundEven (q / 2 ^ power) ≤ 2044 * binade + 2 * binade :=
          Nat.add_le_add (Nat.mul_le_mul_right _ hfactor) hround
      _ < rankLimit := by decide

end DocQuery.Decimal
