import DocQuery.Proofs.Decimal.Rounding

/-!
# The order of integers by their nearest numbers

Integers are compared by the positions of the binary64 numbers nearest to them. Rounding keeps the order (`integerPosition_mono`),
but integers beyond 53 bits may have one nearest number. An integer of less than 53 bits shares its nearest number with no other
integer (`apart_of_lt`).
-/

namespace DocQuery.Decimal

/-! ## Rounding keeps the order -/

/-- Rounding to an integer leads to the integer below or to the next one. -/
theorem floor_le_roundEven (q : ℚ) : ⌊q⌋₊ ≤ roundEven q ∧ roundEven q ≤ ⌊q⌋₊ + 1 := by
  unfold roundEven
  split_ifs <;> omega

/-- Rounding to an integer keeps the order. -/
theorem roundEven_mono {p q : ℚ} (h : p ≤ q) : roundEven p ≤ roundEven q := by
  have hfloor : ⌊p⌋₊ ≤ ⌊q⌋₊ := Nat.floor_mono h
  rcases hfloor.lt_or_eq with hlt | heq
  · exact (floor_le_roundEven p).2.trans (Nat.succ_le_of_lt hlt |>.trans (floor_le_roundEven q).1)
  · unfold roundEven
    rw [← heq]
    split_ifs <;> first | omega | (exfalso; linarith)

/-- The nearest rank keeps the order. -/
theorem rankOf_mono {p q : ℚ} (h0 : 0 ≤ p) (h : p ≤ q) : rankOf p ≤ rankOf q := by
  rcases h0.eq_or_lt with rfl | hp
  · rw [rankOf, if_pos rfl]
    exact Nat.zero_le _
  · have hq : 0 < q := hp.trans_le h
    have hlog : Int.log 2 p ≤ Int.log 2 q := Int.log_mono_right hp h
    rw [rankOf, rankOf, if_neg hp.ne', if_neg hq.ne']
    simp only
    generalize hk : max (Int.log 2 p - 52) (-1074) = k
    generalize hl : max (Int.log 2 q - 52) (-1074) = l
    have hle : k ≤ l := by omega
    rcases hle.lt_or_eq with hlt | rfl
    · -- the greater number lies in a later binade, which begins where that of the other ends
      have hpower : l = Int.log 2 q - 52 := by omega
      have hfirst := roundEven_le_binade hp (by omega : Int.log 2 p - 52 ≤ k)
      have hsecond := binade_le_roundEven hq
      rw [← hpower] at hsecond
      have hfactor : (k + 1074).toNat + 1 ≤ (l + 1074).toNat := by omega
      calc (k + 1074).toNat * binade + roundEven (p / 2 ^ k) ≤ (k + 1074).toNat * binade + 2 * binade :=
            Nat.add_le_add_left hfirst _
        _ = ((k + 1074).toNat + 1) * binade + binade := by ring
        _ ≤ (l + 1074).toNat * binade + roundEven (q / 2 ^ l) := Nat.add_le_add (Nat.mul_le_mul_right _ hfactor) hsecond
    · exact Nat.add_le_add_left (roundEven_mono (div_le_div_of_nonneg_right h (by positivity))) _

/-! ## Natural numbers -/

theorem rankOf_zero : rankOf 0 = 0 := if_pos rfl

/-- A significand of 53 bits times a power of two is the value of a rank. -/
theorem rankValue_normal {m : ℕ} {k : ℤ} (h : binade ≤ m) (h' : m < 2 * binade) (hk : -1074 ≤ k) :
    rankValue ((k + 1074).toNat * binade + m) = m * 2 ^ k := by
  obtain ⟨n, rfl⟩ := Nat.exists_eq_add_of_le h
  have hn : n < binade := by omega
  have hdiv : ((k + 1074).toNat * binade + (binade + n)) / binade = (k + 1074).toNat + 1 := by
    rw [← Nat.add_assoc, ← Nat.succ_mul, Nat.mul_comm, Nat.mul_add_div (by decide), Nat.div_eq_of_lt hn, Nat.add_zero]
  have hmod : ((k + 1074).toNat * binade + (binade + n)) % binade = n := by
    rw [← Nat.add_assoc, ← Nat.succ_mul, Nat.mul_comm, Nat.mul_add_mod, Nat.mod_eq_of_lt hn]
  have hlarge : ¬(k + 1074).toNat * binade + (binade + n) < binade := by omega
  have hexponent : ((((k + 1074).toNat + 1 : ℕ) : ℤ) - 1075) = k := by omega
  rw [rankValue, rankSignificand, rankExponent, if_neg hlarge, if_neg hlarge, hdiv, hmod, hexponent]

/-- A natural number of up to 53 bits, and the next one, is the value of a rank. -/
theorem exists_rankValue {n : ℕ} (h : n ≤ 2 ^ 53) : ∃ r, rankValue r = n := by
  rcases Nat.eq_zero_or_pos n with rfl | hpos
  · exact ⟨0, by simp [rankValue, rankSignificand, binade]⟩
  · rcases h.lt_or_eq with hlt | rfl
    · have hlog : n.log2 < 53 := (Nat.log2_lt hpos.ne').2 hlt
      have hself : 2 ^ n.log2 ≤ n := Nat.log2_self_le hpos.ne'
      have hnext : n < 2 ^ (n.log2 + 1) := Nat.lt_log2_self
      have hlow : binade ≤ n * 2 ^ (52 - n.log2) := by
        calc binade = 2 ^ n.log2 * 2 ^ (52 - n.log2) := by rw [← pow_add, Nat.add_sub_of_le (by omega)]; rfl
          _ ≤ n * 2 ^ (52 - n.log2) := Nat.mul_le_mul_right _ hself
      have hhigh : n * 2 ^ (52 - n.log2) < 2 * binade := by
        calc n * 2 ^ (52 - n.log2) < 2 ^ (n.log2 + 1) * 2 ^ (52 - n.log2) := Nat.mul_lt_mul_of_pos_right hnext (by positivity)
          _ = 2 * binade := by rw [← pow_add, show n.log2 + 1 + (52 - n.log2) = 53 by omega]; rfl
      refine ⟨_, (rankValue_normal hlow hhigh (by omega : -1074 ≤ -((52 - n.log2 : ℕ) : ℤ))).trans ?_⟩
      rw [zpow_neg, zpow_natCast]
      push_cast
      exact mul_inv_cancel_right₀ (by positivity) _
    · exact ⟨_, (rankValue_normal (m := binade) (k := 1) le_rfl (by decide) (by decide)).trans (by norm_num [binade])⟩

/-- Different natural numbers of which one has less than 53 bits have different nearest ranks. -/
theorem rankOf_lt {m n : ℕ} (h : m < n) (hm : m < 2 ^ 53) : rankOf m < rankOf n := by
  obtain ⟨r, hr⟩ := exists_rankValue hm.le
  obtain ⟨s, hs⟩ := exists_rankValue (Nat.succ_le_of_lt hm)
  have hne : rankOf m ≠ rankOf (m.succ : ℕ) := by
    intro heq
    rw [← hr, ← hs, rankOf_rankValue, rankOf_rankValue] at heq
    rw [heq, hs] at hr
    exact absurd hr (by exact_mod_cast (Nat.lt_succ_self m).ne')
  have hle : rankOf m ≤ rankOf (m.succ : ℕ) := rankOf_mono (by positivity) (by exact_mod_cast (Nat.le_succ m))
  have hnext : rankOf (m.succ : ℕ) ≤ rankOf n := rankOf_mono (by positivity) (by exact_mod_cast Nat.succ_le_of_lt h)
  exact (hle.lt_of_ne hne).trans_le hnext

/-! ## Integers -/

theorem integerPosition_natCast (n : ℕ) : integerPosition n = rankOf n := by
  rw [integerPosition, if_neg (by omega), Int.natAbs_natCast, nearestRank_eq _ Nat.one_pos, Nat.cast_one, div_one]

theorem integerPosition_neg (n : ℕ) : integerPosition (-n) = -(rankOf n : ℤ) := by
  rw [← integerPosition_natCast, integerPosition, integerPosition, Int.natAbs_neg, Int.natAbs_natCast,
    if_neg (by omega : ¬(n : ℤ) < 0)]
  split
  · rfl
  · next h =>
    obtain rfl : n = 0 := by omega
    rfl

/-- Integers of which one has less than 53 bits stand as they are ordered. -/
theorem integerPosition_lt {a b : ℤ} (h : a < b) (hs : a.natAbs < 2 ^ 53 ∨ b.natAbs < 2 ^ 53) :
    integerPosition a < integerPosition b := by
  obtain ⟨m, rfl | rfl⟩ := Int.eq_nat_or_neg a <;> obtain ⟨n, rfl | rfl⟩ := Int.eq_nat_or_neg b
  · have hlt := rankOf_lt (by omega : m < n) (by omega)
    rw [integerPosition_natCast, integerPosition_natCast]
    omega
  · omega
  · rw [integerPosition_neg, integerPosition_natCast]
    rcases Nat.eq_zero_or_pos m with rfl | hm
    · have hlt := rankOf_lt (by omega : 0 < n) (by decide)
      rw [Nat.cast_zero, rankOf_zero] at hlt ⊢
      omega
    · have hlt := rankOf_lt hm (by decide)
      omega
  · have hlt := rankOf_lt (by omega : n < m) (by omega)
    rw [integerPosition_neg, integerPosition_neg]
    omega

/-- Integers never stand the other way about. -/
theorem integerPosition_mono {a b : ℤ} (h : a ≤ b) : integerPosition a ≤ integerPosition b := by
  have hranks : ∀ {m n : ℕ}, m ≤ n → rankOf m ≤ rankOf n := fun h => rankOf_mono (Nat.cast_nonneg _) (Nat.cast_le.2 h)
  obtain ⟨m, rfl | rfl⟩ := Int.eq_nat_or_neg a <;> obtain ⟨n, rfl | rfl⟩ := Int.eq_nat_or_neg b
  · have hle := hranks (by omega : m ≤ n)
    rw [integerPosition_natCast, integerPosition_natCast]
    omega
  · obtain ⟨rfl, rfl⟩ : m = 0 ∧ n = 0 := by omega
    exact le_rfl
  · rw [integerPosition_neg, integerPosition_natCast]
    omega
  · have hle := hranks (by omega : n ≤ m)
    rw [integerPosition_neg, integerPosition_neg]
    omega

/-- Whether two integers have different nearest numbers, if they are different. -/
def Apart (a b : ℤ) : Prop := integerPosition a = integerPosition b → a = b

instance (a b : ℤ) : Decidable (Apart a b) := inferInstanceAs (Decidable (_ → _))

/-- An integer of less than 53 bits is apart from all others. -/
theorem apart_of_lt {a b : ℤ} (h : a.natAbs < 2 ^ 53 ∨ b.natAbs < 2 ^ 53) : Apart a b := by
  intro heq
  by_contra hne
  rcases lt_or_gt_of_ne hne with hlt | hgt
  · exact (integerPosition_lt hlt h).ne heq
  · exact (integerPosition_lt hgt h.symm).ne' heq

/-- Integers that are apart compare as their positions do. -/
theorem compare_integerPosition {a b : ℤ} (h : Apart a b) : compare (integerPosition a) (integerPosition b) = compare a b := by
  rcases lt_trichotomy a b with hlt | rfl | hgt
  · have hpositions : integerPosition a < integerPosition b :=
      (integerPosition_mono hlt.le).lt_of_ne fun heq => hlt.ne (h heq)
    rw [compare_lt_iff_lt.2 hlt, compare_lt_iff_lt.2 hpositions]
  · rw [compare_eq_iff_eq.2 rfl, compare_eq_iff_eq.2 rfl]
  · have hpositions : integerPosition b < integerPosition a :=
      (integerPosition_mono hgt.le).lt_of_ne fun heq => hgt.ne' (h heq.symm)
    rw [compare_gt_iff_gt.2 hgt, compare_gt_iff_gt.2 hpositions]

end DocQuery.Decimal
