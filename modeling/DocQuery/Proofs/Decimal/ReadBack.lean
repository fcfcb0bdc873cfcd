import DocQuery.Proofs.Decimal.Digits
import DocQuery.Proofs.Decimal.Rounding

/-!
# Numbers are read back as written

The shortest decimal of a rank has that rank, and every way in which a style writes it is a numeral of the same value. So a finite
number is read back from either style (`decimal?_write`). A number in the style of documents is never taken for an integer; one in
the style of attributes may be, and then it compares like that integer (`integerPosition_of_integer?`).
-/

namespace DocQuery.Decimal

open DocQuery.Text (isAsciiDigit)

/-! ## Decimals -/

namespace Scientific

/-- The value of a decimal. -/
def value (d : Scientific) : ℚ := d.digits * 10 ^ d.exponent

theorem ratio_eq (d : Scientific) : 0 < d.ratio.2 ∧ (d.ratio.1 : ℚ) / d.ratio.2 = d.value := by
  obtain ⟨n, e⟩ := d
  cases e with
  | ofNat k => exact ⟨Nat.one_pos, by simp [ratio, value]⟩
  | negSucc k => exact ⟨Nat.pow_pos (by decide), by simp [ratio, value, div_eq_mul_inv]⟩

/-- The rank of a decimal is the one nearest to its value. -/
theorem rank_eq (d : Scientific) : d.rank = rankOf d.value := by
  obtain ⟨hpos, hratio⟩ := d.ratio_eq
  rw [rank, nearestRank_eq _ hpos, hratio]

/-- Dropping trailing zeros does not change the value. -/
theorem value_trim (fuel : ℕ) (d : Scientific) : (trim fuel d).value = d.value := by
  induction fuel generalizing d with
  | zero => rfl
  | succ fuel ih =>
    rw [trim]
    split
    · next h =>
      have hsplit : (d.digits : ℚ) = 10 * (d.digits / 10 : ℕ) := by exact_mod_cast (by omega : d.digits = 10 * (d.digits / 10))
      rw [ih, value, value, zpow_add₀ (by norm_num), hsplit]
      ring
    · rfl

end Scientific

/-- A candidate reads back as its rank. -/
theorem rank_of_candidate? {tie : Tie} {r : ℕ} {e : ℤ} {d : Scientific} (h : candidate? tie r e = some d) : d.rank = r := by
  simp only [candidate?] at h
  generalize (neighbours (rankRatio r).1 (rankRatio r).2 e).1 = below at h
  generalize (neighbours (rankRatio r).1 (rankRatio r).2 e).2.1 = above at h
  generalize (neighbours (rankRatio r).1 (rankRatio r).2 e).2.2 = lean at h
  cases hb : decide (below.rank = r) <;> cases ha : decide (above.rank = r) <;> rw [hb, ha] at h
  · cases h
  · cases h; exact of_decide_eq_true ha
  · cases h; exact of_decide_eq_true hb
  · have hb := of_decide_eq_true hb
    have ha := of_decide_eq_true ha
    cases lean with
    | lt => cases h; exact hb
    | gt => cases h; exact ha
    | eq =>
      simp only at h
      split at h <;> cases h
      · exact hb
      · exact ha

/-- The exact decimal of a rank has the value of the rank. -/
theorem value_exactDecimal (r : ℕ) : (exactDecimal r).value = rankValue r := by
  rw [exactDecimal, rankValue, Scientific.value]
  cases rankExponent r with
  | ofNat k => simp
  | negSucc k =>
    have hpow : (10 : ℚ) ^ (k + 1) = 5 ^ (k + 1) * 2 ^ (k + 1) := by rw [← mul_pow]; norm_num
    have hexp : (-((k : ℤ) + 1)) = Int.negSucc k := by omega
    simp only [hexp, Nat.pow_eq, zpow_negSucc, hpow]
    push_cast
    field_simp

/-- The shortest decimal of a rank has that rank. -/
theorem rankOf_shortest (tie : Tie) (r : ℕ) : rankOf (shortest tie r).value = r := by
  rw [shortest]
  split
  · next d h =>
    obtain ⟨n, -, hn⟩ := List.exists_of_findSome?_eq_some h
    rw [Scientific.value_trim, ← Scientific.rank_eq, rank_of_candidate? hn]
  · rw [value_exactDecimal, rankOf_rankValue]

/-! ## Numerals -/

/-- The bounds that a number's count of digits sets. -/
theorem digitCount_bounds {n : ℕ} (h : n ≠ 0) : 10 ^ (digitCount n - 1) ≤ n ∧ n < 10 ^ digitCount n := by
  have hpos : 0 < digitCount n := Nat.length_toDigits_pos
  refine ⟨?_, (Nat.length_toDigits_le_iff (by decide) hpos).1 le_rfl⟩
  by_cases hone : digitCount n = 1
  · rw [hone]
    exact Nat.pos_of_ne_zero h
  · rw [← not_lt]
    intro hlt
    have := (Nat.length_toDigits_le_iff (b := 10) (by decide) (by omega)).2 hlt
    rw [digitCount] at this hpos
    omega

theorem two_pow_le_ten_pow : (2 : ℚ) ^ (1024 : ℤ) ≤ 10 ^ (310 : ℤ) := by
  have h : (2 : ℕ) ^ 1024 ≤ 10 ^ 310 := by decide +kernel
  exact_mod_cast h

theorem ten_pow_le_two_pow : (10 : ℚ) ^ (-330 : ℤ) ≤ 2 ^ (-1076 : ℤ) := by
  have h : (2 : ℕ) ^ 1076 ≤ 10 ^ 330 := by decide +kernel
  rw [zpow_neg, zpow_neg]
  exact inv_anti₀ (by positivity) (by exact_mod_cast h)

/-- A decimal of a finite number is read as the rank nearest to its value. -/
theorem decimalRank_eq {n : ℕ} {e : ℤ} (h : rankOf (n * 10 ^ e) < rankLimit) : decimalRank n e = rankOf (n * 10 ^ e) := by
  rw [decimalRank]
  by_cases hn : n = 0
  · rw [if_pos hn, hn, rankOf, if_pos (by simp)]
  · obtain ⟨hlow, hhigh⟩ := digitCount_bounds hn
    have hcount : 0 < digitCount n := Nat.length_toDigits_pos
    have hlow' : (10 : ℚ) ^ ((digitCount n : ℤ) - 1) ≤ n := by
      have : (digitCount n : ℤ) - 1 = (digitCount n - 1 : ℕ) := by omega
      rw [this, zpow_natCast]
      exact_mod_cast hlow
    have hhigh' : (n : ℚ) < 10 ^ (digitCount n : ℤ) := by exact_mod_cast hhigh
    rw [if_neg hn]
    simp only
    split_ifs with htop hbottom
    · -- too large: the rank would be beyond all finite ones
      refine absurd (rankLimit_le_rankOf ?_) (not_le.2 h)
      calc (2 : ℚ) ^ (1024 : ℤ) ≤ 10 ^ (310 : ℤ) := two_pow_le_ten_pow
        _ ≤ 10 ^ ((digitCount n : ℤ) - 1 + e) := zpow_le_zpow_right₀ (by norm_num) (by omega)
        _ = 10 ^ ((digitCount n : ℤ) - 1) * 10 ^ e := zpow_add₀ (by norm_num) _ _
        _ ≤ n * 10 ^ e := by gcongr
    · -- too small: the rank is zero
      have hpos : (0 : ℚ) < n := by exact_mod_cast Nat.pos_of_ne_zero hn
      refine (rankOf_of_small (by positivity) ?_).symm
      calc (n : ℚ) * 10 ^ e < 10 ^ (digitCount n : ℤ) * 10 ^ e := by gcongr
        _ = 10 ^ ((digitCount n : ℤ) + e) := (zpow_add₀ (by norm_num) _ _).symm
        _ ≤ 10 ^ (-330 : ℤ) := zpow_le_zpow_right₀ (by norm_num) (by omega)
        _ ≤ 2 ^ (-1076 : ℤ) := ten_pow_le_two_pow
    · exact Scientific.rank_eq ⟨n, e⟩

namespace Numeral

/-- The value of a numeral. -/
def value (n : Numeral) : ℚ := digitsValue 0 (n.whole ++ n.fraction) * 10 ^ (n.power - n.fraction.length)

/-- A numeral whose value has a finite rank is read as the number of that rank. -/
theorem nearest?_eq {n : Numeral} {x : Binary64} (h : rankOf n.value = x.rank) : n.nearest? x.negative = some x := by
  have hfinite : rankOf n.value < rankLimit := h ▸ x.rank_lt
  rw [value, digitsValue_append] at h hfinite
  rw [nearest?]
  simp only [decimalRank_eq hfinite, h, Binary64.ofRank?, dif_pos x.rank_lt]

end Numeral

/-! ## Reading what was written -/

/-- Digits before something else are all of the digits at the beginning. -/
theorem span_digits {ds rest : List Char} (h : ∀ c ∈ ds, isAsciiDigit c = true)
    (hr : ∀ c ∈ rest.head?, isAsciiDigit c = false) :
    (ds ++ rest).takeWhile isAsciiDigit = ds ∧ (ds ++ rest).dropWhile isAsciiDigit = rest := by
  rw [List.takeWhile_append_of_pos h, List.dropWhile_append_of_pos h]
  cases rest with
  | nil => simp
  | cons c rest => simp [hr c rfl]

/-- What may stand after the digits of a numeral: nothing, or a power of ten. -/
def PowerText (cs : List Char) (power : ℤ) : Prop :=
  power? cs = some power ∧ ∀ c ∈ cs.head?, isAsciiDigit c = false ∧ c ≠ '.'

theorem powerText_nil : PowerText [] 0 := ⟨rfl, fun _ h => by cases h⟩

/-- The power of ten of an exponential text. -/
theorem powerText_exponent (power : ℤ) :
    PowerText ('e' :: (if power < 0 then '-' else '+') :: naturalText power.natAbs) power := by
  refine ⟨?_, fun c hc => by cases hc; exact ⟨rfl, by decide⟩⟩
  rw [power?, if_pos (Or.inl rfl)]
  split
  · next h =>
    have := integer?_integerText power
    rwa [integerText, if_pos h] at this
  · next h =>
    rw [integer?_plus (all_isAsciiDigit_naturalText _) (naturalText_ne_nil _), digitsValue_naturalText,
      Int.natAbs_of_nonneg (not_lt.1 h)]

/-- Digits without a point are a numeral. -/
theorem numeral?_whole {ds cs : List Char} {power : ℤ} (h : ∀ c ∈ ds, isAsciiDigit c = true) (hne : ds ≠ [])
    (hp : PowerText cs power) : numeral? (ds ++ cs) = some ⟨ds, [], power⟩ := by
  obtain ⟨htake, hdrop⟩ := span_digits h fun c hc => (hp.2 c hc).1
  rw [numeral?, htake, hdrop]
  cases cs with
  | nil => simp [hne, hp.1]
  | cons c cs =>
    have hdot := (hp.2 c rfl).2
    split
    · next heq => exact absurd (List.cons.inj heq).1 hdot
    · simp [hne, hp.1]

/-- Digits with a point among them are a numeral. -/
theorem numeral?_point {ds es cs : List Char} {power : ℤ} (h : ∀ c ∈ ds, isAsciiDigit c = true) (hne : ds ≠ [])
    (he : ∀ c ∈ es, isAsciiDigit c = true) (hp : PowerText cs power) :
    numeral? (ds ++ '.' :: (es ++ cs)) = some ⟨ds, es, power⟩ := by
  have hpoint : ∀ c ∈ ('.' :: (es ++ cs)).head?, isAsciiDigit c = false := fun c hc => by cases hc; rfl
  obtain ⟨htake, hdrop⟩ := span_digits h hpoint
  obtain ⟨htake', hdrop'⟩ := span_digits he fun c hc => (hp.2 c hc).1
  rw [numeral?, htake, hdrop]
  simp [htake', hdrop', hne, hp.1]

theorem isAsciiDigit_replicate (k : ℕ) : ∀ c ∈ List.replicate k '0', isAsciiDigit c = true := by
  intro c hc
  rw [List.eq_of_mem_replicate hc]
  rfl

section

variable {ds : List Char} {point : ℤ} (h : ∀ c ∈ ds, isAsciiDigit c = true)

include h in
/-- Digits after a point and zeros are a numeral of their value. -/
theorem fraction_reads (hp : point ≤ 0) :
    ∃ n, numeral? ('0' :: '.' :: (List.replicate (-point).toNat '0' ++ ds)) = some n ∧
      n.value = digitsValue 0 ds * 10 ^ (point - ds.length) := by
  have hone : ∀ c ∈ ['0'], isAsciiDigit c = true := List.forall_mem_singleton.2 rfl
  have hall : ∀ c ∈ List.replicate (-point).toNat '0' ++ ds, isAsciiDigit c = true :=
    fun c hc => (List.mem_append.1 hc).elim (isAsciiDigit_replicate _ c) (h c)
  have hread := numeral?_point hone (List.cons_ne_nil '0' []) hall powerText_nil
  rw [List.append_nil] at hread
  refine ⟨_, hread, ?_⟩
  have hvalue : digitsValue 0 (['0'] ++ (List.replicate (-point).toNat '0' ++ ds)) = digitsValue 0 ds := by
    rw [digitsValue_append, digitsValue_append, digitsValue_replicate]
    rfl
  have hpower : (0 : ℤ) - (List.replicate (-point).toNat '0' ++ ds).length = point - ds.length := by
    rw [List.length_append, List.length_replicate]
    omega
  rw [Numeral.value, hvalue, hpower]

include h in
/-- Digits and zeros before a point, which may be left out, are a numeral of their value. -/
theorem whole_reads (keepsPoint : Bool) (hne : ds ≠ []) (hp : ds.length ≤ point) :
    ∃ n, numeral? (ds ++ List.replicate (point - ds.length).toNat '0' ++ if keepsPoint then ['.', '0'] else []) = some n ∧
      n.value = digitsValue 0 ds * 10 ^ (point - ds.length) := by
  have hall : ∀ c ∈ ds ++ List.replicate (point - ds.length).toNat '0', isAsciiDigit c = true :=
    fun c hc => (List.mem_append.1 hc).elim (h c) (isAsciiDigit_replicate _ c)
  have hvalue : (digitsValue 0 (ds ++ List.replicate (point - ds.length).toNat '0') : ℚ) =
      digitsValue 0 ds * 10 ^ (point - ds.length) := by
    rw [digitsValue_append, digitsValue_replicate]
    have hpower : (10 : ℚ) ^ (point - ds.length) = 10 ^ (point - ds.length).toNat := by
      rw [← zpow_natCast, Int.toNat_of_nonneg (by omega)]
    rw [hpower]
    push_cast
    ring
  cases keepsPoint with
  | false =>
    have hread := numeral?_whole hall (by simp [hne]) powerText_nil
    refine ⟨_, hread, ?_⟩
    rw [Numeral.value, List.append_nil, hvalue]
    simp
  | true =>
    have hone : ∀ c ∈ ['0'], isAsciiDigit c = true := List.forall_mem_singleton.2 rfl
    have hread := numeral?_point hall (by simp [hne]) hone powerText_nil
    refine ⟨_, hread, ?_⟩
    have hten : ∀ m, digitsValue m ['0'] = 10 * m := fun m => rfl
    rw [Numeral.value, digitsValue_append, hten, Nat.cast_mul, hvalue]
    simp
    ring

include h in
/-- Digits with a point among them are a numeral of their value. -/
theorem mixed_reads (hp : 0 < point) (hlt : point < ds.length) :
    ∃ n, numeral? (ds.take point.toNat ++ ['.'] ++ ds.drop point.toNat) = some n ∧
      n.value = digitsValue 0 ds * 10 ^ (point - ds.length) := by
  have htake : ∀ c ∈ ds.take point.toNat, isAsciiDigit c = true := fun c hc => h c (List.mem_of_mem_take hc)
  have hdrop : ∀ c ∈ ds.drop point.toNat, isAsciiDigit c = true := fun c hc => h c (List.mem_of_mem_drop hc)
  have hne : ds.take point.toNat ≠ [] := by
    rw [ne_eq, List.take_eq_nil_iff, not_or, ← List.length_eq_zero_iff]
    omega
  have hread := numeral?_point htake hne hdrop powerText_nil
  rw [List.append_nil] at hread
  refine ⟨_, by simpa using hread, ?_⟩
  have hpower : (0 : ℤ) - (ds.drop point.toNat).length = point - ds.length := by
    rw [List.length_drop]
    omega
  rw [Numeral.value, List.take_append_drop, hpower]

include h in
/-- Digits around a point are a numeral of their value, wherever the point stands. -/
theorem positional_reads (keepsPoint : Bool) (point : ℤ) (hne : ds ≠ []) :
    ∃ n, numeral? (positional keepsPoint ds point) = some n ∧
      n.value = digitsValue 0 ds * 10 ^ (point - ds.length) := by
  rw [positional]
  split
  · next hp => exact fraction_reads h hp
  · next hp =>
    split
    · next hle => exact whole_reads h keepsPoint hne hle
    · next hlt => exact mixed_reads h (Int.not_le.1 hp) (Int.not_le.1 hlt)

end

/-- One digit, the others as a fraction and a power of ten are a numeral of their value. -/
theorem exponential_reads {ds : List Char} (power : ℤ) (h : ∀ c ∈ ds, isAsciiDigit c = true) (hne : ds ≠ []) :
    ∃ n, numeral? (exponential ds power) = some n ∧ n.value = digitsValue 0 ds * 10 ^ (power + 1 - ds.length) := by
  obtain ⟨c, ds, rfl⟩ := List.exists_cons_of_ne_nil hne
  have hc : ∀ d ∈ [c], isAsciiDigit d = true := fun d hd => h d (by simp_all)
  rw [exponential]
  cases ds with
  | nil =>
    have hread := numeral?_whole hc (by simp) (powerText_exponent power)
    refine ⟨_, by simpa using hread, ?_⟩
    simp [Numeral.value]
  | cons d ds =>
    have hread := numeral?_point hc (by simp) (fun e he => h e (List.mem_cons_of_mem c he)) (powerText_exponent power)
    refine ⟨_, by simpa using hread, ?_⟩
    have hpower : power - ((d :: ds).length : ℤ) = power + 1 - ((c :: d :: ds).length : ℤ) := by
      simp only [List.length_cons]
      omega
    rw [Numeral.value, hpower]
    rfl

/-- A magnitude is written as a numeral of the value that singles it out. -/
theorem writeRank_reads (style : Style) (r : ℕ) :
    ∃ n, numeral? (style.writeRank r) = some n ∧ rankOf n.value = r := by
  rw [Style.writeRank]
  split
  · next h =>
    have hone : ∀ c ∈ ['0'], isAsciiDigit c = true := List.forall_mem_singleton.2 rfl
    obtain ⟨n, hread, hvalue⟩ := positional_reads hone style.keepsPoint 1 (List.cons_ne_nil '0' [])
    refine ⟨n, hread, ?_⟩
    have hzero : digitsValue 0 ['0'] = 0 := rfl
    rw [hvalue, hzero, h, rankOf, if_pos (by simp)]
  · have hdigits : ∀ c ∈ naturalText (shortest style.tie r).digits, isAsciiDigit c = true :=
      fun c => isAsciiDigit_of_mem_naturalText
    have hne := naturalText_ne_nil (shortest style.tie r).digits
    have hvalue : ∀ e : ℤ, e = (shortest style.tie r).exponent →
        rankOf (digitsValue 0 (naturalText (shortest style.tie r).digits) * 10 ^ e) = r := by
      rintro e rfl
      rw [digitsValue_naturalText]
      exact rankOf_shortest style.tie r
    have hplain : ∃ n, numeral? (positional style.keepsPoint (naturalText (shortest style.tie r).digits)
        ((naturalText (shortest style.tie r).digits).length + (shortest style.tie r).exponent)) = some n ∧
        rankOf n.value = r := by
      obtain ⟨n, hread, hn⟩ := positional_reads hdigits style.keepsPoint
        ((naturalText (shortest style.tie r).digits).length + (shortest style.tie r).exponent) hne
      exact ⟨n, hread, by rw [hn]; exact hvalue _ (by ring)⟩
    simp only
    split
    · split
      · exact hplain
      · obtain ⟨n, hread, hn⟩ := exponential_reads
          ((naturalText (shortest style.tie r).digits).length + (shortest style.tie r).exponent - 1) hdigits hne
        exact ⟨n, hread, by rw [hn]; exact hvalue _ (by ring)⟩
    · exact hplain

/-- A numeral begins with no sign. -/
theorem head_of_numeral? {cs : List Char} {n : Numeral} (h : numeral? cs = some n) (rest : List Char) :
    cs ≠ '-' :: rest ∧ cs ≠ '+' :: rest := by
  constructor <;> rintro rfl <;> exact absurd h (by simp [numeral?, isAsciiDigit])

/-- A finite number is read back from any style. -/
theorem decimal?_write (style : Style) (x : Binary64) : decimal? (style.write x) = some x := by
  obtain ⟨n, hread, hrank⟩ := writeRank_reads style x.rank
  have hnearest := Numeral.nearest?_eq hrank
  rw [Style.write]
  cases hneg : x.negative with
  | true =>
    rw [hneg] at hnearest
    simp only [if_true, List.singleton_append, decimal?, hread, Option.bind_some, hnearest]
  | false =>
    rw [hneg] at hnearest
    simp only [Bool.false_eq_true, if_false, List.nil_append]
    rw [decimal?]
    · rw [hread, Option.bind_some, hnearest]
    · exact fun rest => (head_of_numeral? hread rest).1
    · exact fun rest => (head_of_numeral? hread rest).2

/-! ## Numbers that could be taken for integers -/

/-- A natural number that is finite as a decimal has the rank nearest to it. -/
theorem decimalRank_natural {n : ℕ} (h : decimalRank n 0 < rankLimit) : decimalRank n 0 = nearestRank n 1 := by
  rw [decimalRank] at h ⊢
  split
  · next h0 => rw [h0]; rfl
  · next h0 =>
    rw [if_neg h0] at h
    simp only at h ⊢
    split_ifs at h ⊢
    · exact absurd h (lt_irrefl _)
    · omega
    · simp [Scientific.rank, Scientific.ratio]

/-- Digits by themselves are read as the rank nearest to the natural number. -/
theorem rank_of_digits {ds : List Char} (h : ds.all isAsciiDigit = true) (hne : ds ≠ []) {negative : Bool} {x : Binary64}
    (hx : (numeral? ds).bind (Numeral.nearest? negative) = some x) :
    x.negative = negative ∧ x.rank = nearestRank (digitsValue 0 ds) 1 := by
  have hread := numeral?_whole (List.all_eq_true.1 h) hne powerText_nil
  rw [List.append_nil] at hread
  rw [hread, Option.bind_some, Numeral.nearest?] at hx
  simp only [Binary64.ofRank?, Option.dite_none_right_eq_some, Option.some.injEq] at hx
  obtain ⟨hlt, rfl⟩ := hx
  exact ⟨rfl, decimalRank_natural hlt⟩

/-- The digits of a natural number below two to the power 1023 are read as the number nearest to it. -/
theorem decimal?_naturalText {n : ℕ} (h : (n : ℚ) < 2 ^ (1023 : ℤ)) : decimal? (naturalText n) = some (.ofNat n) := by
  have hdigits := all_isAsciiDigit_naturalText n
  have hrank : nearestRank n 1 = rankOf n := by rw [nearestRank_eq n Nat.one_pos, Nat.cast_one, div_one]
  have hlimit : rankOf (n * 10 ^ (0 : ℤ)) < rankLimit := by
    rw [zpow_zero, mul_one]
    exact rankOf_lt_rankLimit n.cast_nonneg h
  have hdecimal : decimalRank n 0 = nearestRank n 1 := by rw [decimalRank_eq hlimit, zpow_zero, mul_one, hrank]
  have hfinite : nearestRank n 1 < rankLimit := hdecimal ▸ decimalRank_eq hlimit ▸ hlimit
  have hread := numeral?_whole (List.all_eq_true.1 hdigits) (naturalText_ne_nil n) powerText_nil
  rw [List.append_nil] at hread
  rw [decimal?]
  · simp only [hread, Option.bind_some, Numeral.nearest?, digitsValue_naturalText]
    have hmin : min (nearestRank n 1) (rankLimit - 1) = nearestRank n 1 := Nat.min_eq_left (by omega)
    simp [digitsValue, hdecimal, Binary64.ofRank?, hfinite, Binary64.ofNat, hmin]
  · exact fun rest => (ne_sign_of_digits hdigits rest).1
  · exact fun rest => (ne_sign_of_digits hdigits rest).2

/-- What is an integer and a decimal at once stands at the same place as either. -/
theorem integerPosition_of_integer? {cs : List Char} {i : ℤ} {x : Binary64} (hi : integer? cs = some i)
    (hx : decimal? cs = some x) : integerPosition i = x.position := by
  have hnatural : ∀ n : ℕ, integerPosition n = nearestRank n 1 := fun n => by
    rw [integerPosition, if_neg (by omega), Int.natAbs_natCast]
  have hnegative : ∀ n : ℕ, integerPosition (-n) = -(nearestRank n 1 : ℤ) := fun n => by
    rw [integerPosition, Int.natAbs_neg, Int.natAbs_natCast]
    split
    · rfl
    · next h =>
      obtain rfl : n = 0 := by omega
      rfl
  obtain ⟨ds, hd, hne, ⟨rfl, rfl⟩ | ⟨rfl, rfl⟩ | ⟨rfl, rfl⟩⟩ := digits_of_integer? hi
  · obtain ⟨hs, hr⟩ := rank_of_digits hd hne hx
    rw [hnegative, Binary64.position, hs, hr, if_pos rfl]
  · obtain ⟨hs, hr⟩ := rank_of_digits hd hne hx
    rw [hnatural, Binary64.position, hs, hr, if_neg Bool.false_ne_true]
  · rw [decimal?] at hx
    · obtain ⟨hs, hr⟩ := rank_of_digits hd hne hx
      rw [hnatural, Binary64.position, hs, hr, if_neg Bool.false_ne_true]
    · exact fun rest => (ne_sign_of_digits hd rest).1
    · exact fun rest => (ne_sign_of_digits hd rest).2

/-- What has a point or a mark of an exponent in it is no integer. -/
theorem integer?_eq_none {cs : List Char} {c : Char} (hm : c ∈ cs) (hc : c = '.' ∨ c = 'e') : integer? cs = none := by
  cases h : integer? cs with
  | none => rfl
  | some i =>
    have hdigit : isAsciiDigit c = false ∧ c ≠ '-' ∧ c ≠ '+' := by rcases hc with rfl | rfl <;> decide
    obtain ⟨ds, hd, -, ⟨rfl, -⟩ | ⟨rfl, -⟩ | ⟨rfl, -⟩⟩ := digits_of_integer? h
    · have := List.all_eq_true.1 hd c ((List.mem_cons.1 hm).resolve_left hdigit.2.1)
      rw [hdigit.1] at this
      cases this
    · have := List.all_eq_true.1 hd c ((List.mem_cons.1 hm).resolve_left hdigit.2.2)
      rw [hdigit.1] at this
      cases this
    · have := List.all_eq_true.1 hd c hm
      rw [hdigit.1] at this
      cases this

/-- Digits around a point that is kept have it in them. -/
theorem point_mem_positional (ds : List Char) (point : ℤ) : '.' ∈ positional true ds point := by
  rw [positional]
  split
  · simp
  · split <;> simp

/-- A magnitude is written around a point or with an exponent. -/
theorem writeRank_cases (style : Style) (r : ℕ) :
    ∃ ds point, style.writeRank r = positional style.keepsPoint ds point ∨ style.writeRank r = exponential ds point := by
  rw [Style.writeRank]
  split
  · exact ⟨_, _, Or.inl rfl⟩
  · simp only
    split
    · split
      · exact ⟨_, _, Or.inl rfl⟩
      · exact ⟨_, _, Or.inr rfl⟩
    · exact ⟨_, _, Or.inl rfl⟩

/-- A number in the style of documents is not taken for an integer. -/
theorem integer?_write_document (x : Binary64) : integer? (Style.document.write x) = none := by
  obtain ⟨ds, point, h | h⟩ := writeRank_cases .document x.rank
  · have hm : '.' ∈ Style.document.writeRank x.rank := h ▸ point_mem_positional ds point
    exact integer?_eq_none (List.mem_append_right _ hm) (Or.inl rfl)
  · have hm : 'e' ∈ Style.document.writeRank x.rank := by rw [h]; simp [exponential]
    exact integer?_eq_none (List.mem_append_right _ hm) (Or.inr rfl)

end DocQuery.Decimal
