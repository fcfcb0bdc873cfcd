import DocQuery.Text.Casing
import Mathlib.Data.List.Forall2

/-!
# Parts of a text in small letters

A text is lowered character by character, but for the capital sigma, whose small form depends on the letters around it. So a part
of a text is lowered inside the text as it is alone, unless one of its sigmas ends a word in the one place and not in the other.
Main statements: `SameSigmas.infix` for a part whose sigmas keep their forms, `SteadyBefore.same` for the parts whose sigmas keep
them in every text, and `not_infix_append` and `not_infix_cons` for the others, which are lost in some text.
-/

namespace DocQuery.Text

/-! ## Lowering between other characters -/

/-- Whether a sigma ends a word, given what stands before it, nearest first, and behind it. -/
def endsWord (before behind : List Char) : Bool := meetsCased before && !meetsCased behind

/-- The small form of a sigma between other characters. -/
def sigmaAt (before behind : List Char) : Char := if endsWord before behind then finalSigma else smallSigma

/-- The small form of one character between others. -/
def lowerAt (before : List Char) (c : Char) (behind : List Char) : List Char :=
  if c = capitalSigma then [sigmaAt before behind] else lowerChar c

/-- The small form of some characters, given those before them, nearest first, and behind them. -/
def lowerBetween (before : List Char) : List Char → List Char → List Char
  | [], _ => []
  | c :: cs, behind => lowerAt before c (cs ++ behind) ++ lowerBetween (c :: before) cs behind

/-- A text is lowered with nothing behind it. -/
theorem lowerAfter_eq (before cs : List Char) : lowerAfter before cs = lowerBetween before cs [] := by
  induction cs generalizing before with
  | nil => rfl
  | cons c cs ih =>
    rw [lowerAfter, lowerBetween, ih, List.append_nil]
    rfl

/-- Two parts are lowered one after the other, each with the other one next to it. -/
theorem lowerBetween_append (before xs ys behind : List Char) :
    lowerBetween before (xs ++ ys) behind =
      lowerBetween before xs (ys ++ behind) ++ lowerBetween (xs.reverse ++ before) ys behind := by
  induction xs generalizing before with
  | nil => rfl
  | cons x xs ih =>
    rw [List.cons_append, lowerBetween, lowerBetween, ih, List.append_assoc, List.append_assoc, List.reverse_cons,
      List.append_assoc, List.singleton_append]

/-- The form of a sigma decides nothing about the number of characters. -/
theorem length_lowerAt (before before' : List Char) (c : Char) (behind behind' : List Char) :
    (lowerAt before c behind).length = (lowerAt before' c behind').length := by
  unfold lowerAt
  split <;> rfl

/-- A character has the same small form in two places exactly if it is no sigma or one of the same form. -/
theorem lowerAt_eq_iff {before before' : List Char} {c : Char} {behind behind' : List Char} :
    lowerAt before c behind = lowerAt before' c behind' ↔
      (c = capitalSigma → sigmaAt before behind = sigmaAt before' behind') := by
  by_cases hc : c = capitalSigma <;> simp [lowerAt, hc]

/-! ## The sigmas of a part -/

/-- A statement about every sigma of a part, by what the part has before and behind it. -/
def ForallSigmas (part : List Char) (p : List Char → List Char → Prop) : Prop :=
  ∀ a b, part = a ++ capitalSigma :: b → p a b

/-- Nothing has no sigmas. -/
theorem forallSigmas_nil (p : List Char → List Char → Prop) : ForallSigmas [] p :=
  fun a b h => absurd h.symm (List.append_ne_nil_of_right_ne_nil a (List.cons_ne_nil _ b))

/-- The sigmas of a part are its first character, if that is one, and those of the rest. -/
theorem forallSigmas_cons {c : Char} {part : List Char} {p : List Char → List Char → Prop} :
    ForallSigmas (c :: part) p ↔ (c = capitalSigma → p [] part) ∧ ForallSigmas part fun a b => p (c :: a) b := by
  constructor
  · intro h
    exact ⟨fun hc => h [] part (by rw [hc, List.nil_append]), fun a b hb => h (c :: a) b (by rw [hb, List.cons_append])⟩
  · rintro ⟨hhead, hrest⟩ a b hb
    cases a with
    | nil =>
      obtain ⟨rfl, rfl⟩ := List.cons.inj hb
      exact hhead rfl
    | cons x a =>
      obtain ⟨rfl, htail⟩ := List.cons.inj hb
      exact hrest a b htail

instance decidableForallSigmas (part : List Char) (p : List Char → List Char → Prop) [∀ a b, Decidable (p a b)] :
    Decidable (ForallSigmas part p) :=
  match part with
  | [] => isTrue (forallSigmas_nil p)
  | c :: part =>
    have := decidableForallSigmas part fun a b => p (c :: a) b
    decidable_of_iff' _ forallSigmas_cons

/-- A part is lowered alike in two places exactly if each of its sigmas has the same form in both. -/
theorem lowerBetween_eq_iff (part : List Char) {before before' behind behind' : List Char} :
    lowerBetween before part behind = lowerBetween before' part behind' ↔
      ForallSigmas part fun a b =>
        sigmaAt (a.reverse ++ before) (b ++ behind) = sigmaAt (a.reverse ++ before') (b ++ behind') := by
  induction part generalizing before before' with
  | nil => exact iff_of_true rfl (forallSigmas_nil _)
  | cons c part ih =>
    have hblocks : lowerBetween before (c :: part) behind = lowerBetween before' (c :: part) behind' ↔
        lowerAt before c (part ++ behind) = lowerAt before' c (part ++ behind') ∧
          lowerBetween (c :: before) part behind = lowerBetween (c :: before') part behind' :=
      ⟨fun h => List.append_inj h (length_lowerAt ..), fun ⟨h, hs⟩ => congrArg₂ _ h hs⟩
    rw [hblocks, lowerAt_eq_iff, ih, forallSigmas_cons]
    simp only [List.reverse_cons, List.append_assoc, List.singleton_append, List.reverse_nil, List.nil_append]

/-- Where no sigma changes but from one form to the other, the characters change only so. -/
theorem forall₂_lowerBetween {p q : Char} (part : List Char) {before before' behind behind' : List Char}
    (h : ForallSigmas part fun a b =>
      sigmaAt (a.reverse ++ before) (b ++ behind) = sigmaAt (a.reverse ++ before') (b ++ behind') ∨
        sigmaAt (a.reverse ++ before) (b ++ behind) = p ∧ sigmaAt (a.reverse ++ before') (b ++ behind') = q) :
    List.Forall₂ (fun x y => x = y ∨ x = p ∧ y = q) (lowerBetween before part behind) (lowerBetween before' part behind') := by
  induction part generalizing before before' with
  | nil => exact .nil
  | cons c part ih =>
    obtain ⟨hhead, hrest⟩ := forallSigmas_cons.1 h
    have hat : List.Forall₂ (fun x y => x = y ∨ x = p ∧ y = q) (lowerAt before c (part ++ behind))
        (lowerAt before' c (part ++ behind')) := by
      unfold lowerAt
      split
      · next hc => exact .cons (hhead hc) .nil
      · exact List.forall₂_same.2 fun _ _ => Or.inl rfl
    refine List.rel_append hat (ih ?_)
    simpa only [List.reverse_cons, List.append_assoc, List.singleton_append] using hrest

/-- Characters that may turn into another one do not become more. -/
theorem count_le_of_forall₂ {p q : Char} (hpq : p ≠ q) {xs ys : List Char}
    (h : List.Forall₂ (fun x y => x = y ∨ x = p ∧ y = q) xs ys) : ys.count p ≤ xs.count p := by
  induction h with
  | nil => exact Nat.le_refl _
  | cons hxy _ ih =>
    rcases hxy with rfl | ⟨rfl, rfl⟩
    · simpa [List.count_cons] using ih
    · rw [List.count_cons_self, List.count_cons_of_ne hpq.symm]
      exact Nat.le_succ_of_le ih

/-- Characters some of which turn into another one become fewer. -/
theorem count_lt_of_forall₂ {p q : Char} (hpq : p ≠ q) {xs ys : List Char}
    (h : List.Forall₂ (fun x y => x = y ∨ x = p ∧ y = q) xs ys) (hne : xs ≠ ys) : ys.count p < xs.count p := by
  induction h with
  | nil => exact absurd rfl hne
  | cons hxy hrest ih =>
    rcases hxy with rfl | ⟨rfl, rfl⟩
    · have hlt := ih fun heq => hne (congrArg _ heq)
      simpa [List.count_cons] using hlt
    · rw [List.count_cons_self, List.count_cons_of_ne hpq.symm]
      exact Nat.lt_succ_of_le (count_le_of_forall₂ hpq hrest)

/-! ## Parts whose sigmas keep their forms -/

/-- Whether each sigma of a part has the same form in a text, between what stands before and behind the part, as in the part
alone. -/
def SameSigmas (pre part post : List Char) : Prop :=
  ForallSigmas part fun a b => sigmaAt (a.reverse ++ pre.reverse) (b ++ post) = sigmaAt a.reverse b

instance (pre part post : List Char) : Decidable (SameSigmas pre part post) := decidableForallSigmas _ _

/-- A part is lowered in a text as it is alone exactly if its sigmas keep their forms. -/
theorem lowerBetween_eq_lowerAfter_iff {pre part post : List Char} :
    lowerBetween pre.reverse part post = lowerAfter [] part ↔ SameSigmas pre part post := by
  rw [lowerAfter_eq, lowerBetween_eq_iff, SameSigmas]
  simp only [List.append_nil]

/-- A text is lowered part by part. -/
theorem lowerAfter_parts (pre part post : List Char) :
    lowerAfter [] (pre ++ part ++ post) =
      lowerBetween [] pre (part ++ post) ++ lowerBetween pre.reverse part post ++ lowerBetween (pre ++ part).reverse post [] := by
  rw [lowerAfter_eq, lowerBetween_append, lowerBetween_append, List.append_nil, List.append_nil, List.append_nil]

/-- A part whose sigmas keep their forms stays a part. -/
theorem SameSigmas.infix {pre part post : List Char} (h : SameSigmas pre part post) :
    lowerAfter [] part <:+: lowerAfter [] (pre ++ part ++ post) := by
  rw [lowerAfter_parts, lowerBetween_eq_lowerAfter_iff.2 h]
  exact ⟨_, _, rfl⟩

/-- A beginning whose sigmas keep their forms stays one. -/
theorem SameSigmas.prefix {part post : List Char} (h : SameSigmas [] part post) :
    lowerAfter [] part <+: lowerAfter [] (part ++ post) := by
  have hparts := lowerAfter_parts [] part post
  rw [lowerBetween_eq_lowerAfter_iff.2 h] at hparts
  rw [← List.nil_append part, hparts]
  exact ⟨_, rfl⟩

/-! ## Parts whose sigmas keep their forms everywhere -/

/-- Whether casing looks through all characters. -/
def isIgnored (cs : List Char) : Bool := cs.all fun c => inRanges caseIgnorableRanges c.toNat

/-- Casing looks through a character or stops at it. -/
theorem meetsCased_cons (c : Char) (cs : List Char) :
    meetsCased (c :: cs) = if inRanges caseIgnorableRanges c.toNat then meetsCased cs else inRanges casedRanges c.toNat := by
  cases h : inRanges caseIgnorableRanges c.toNat <;> simp [meetsCased, h]

/-- Casing meets what stands behind some characters only if it looks through all of them. -/
theorem meetsCased_append (xs ys : List Char) :
    meetsCased (xs ++ ys) = if isIgnored xs then meetsCased ys else meetsCased xs := by
  induction xs with
  | nil => rfl
  | cons x xs ih =>
    rw [List.cons_append, meetsCased_cons, meetsCased_cons, isIgnored, List.all_cons, ih]
    cases inRanges caseIgnorableRanges x.toNat <;> simp [isIgnored]

/-- Nothing is met among characters that casing looks through. -/
theorem meetsCased_of_isIgnored {cs : List Char} (h : isIgnored cs = true) : meetsCased cs = false := by
  have happend := meetsCased_append cs []
  rw [List.append_nil, if_pos h] at happend
  exact happend

/-- The order of characters does not matter to whether all are looked through. -/
theorem isIgnored_reverse (cs : List Char) : isIgnored cs.reverse = isIgnored cs := List.all_reverse

/-- A part of which no sigma turns from a final one into a small one, whatever stands behind the part: where casing looks through
all that follows a sigma, it meets no letter before it. -/
def SteadyBehind (part : List Char) : Prop :=
  ForallSigmas part fun a b => isIgnored b = true → meetsCased a.reverse = false

/-- A part of which no sigma turns from a small one into a final one, whatever stands before the part: where casing looks through
all that precedes a sigma, it meets a letter behind it. -/
def SteadyBefore (part : List Char) : Prop :=
  ForallSigmas part fun a b => isIgnored a = true → meetsCased b = true

instance (part : List Char) : Decidable (SteadyBehind part) := decidableForallSigmas _ _

instance (part : List Char) : Decidable (SteadyBefore part) := decidableForallSigmas _ _

/-- The form of a sigma tells whether it ends a word. -/
theorem sigmaAt_eq_iff {before before' behind behind' : List Char} :
    sigmaAt before behind = sigmaAt before' behind' ↔ endsWord before behind = endsWord before' behind' := by
  have hne : finalSigma ≠ smallSigma := by decide
  unfold sigmaAt
  cases endsWord before behind <;> cases endsWord before' behind' <;> simp [hne, hne.symm]

/-- Without a sigma there is none that changes. -/
theorem forallSigmas_of_not_mem {part : List Char} (h : capitalSigma ∉ part) (p : List Char → List Char → Prop) :
    ForallSigmas part p :=
  fun a _ hb => absurd (hb ▸ List.mem_append_right a List.mem_cons_self) h

/-- The sigmas of a beginning keep their forms, if they do so whatever stands behind. -/
theorem SteadyBehind.same {part : List Char} (h : SteadyBehind part) (post : List Char) : SameSigmas [] part post := by
  intro a b hb
  rw [sigmaAt_eq_iff, endsWord, endsWord, List.reverse_nil, List.append_nil, meetsCased_append b post]
  cases hignored : isIgnored b with
  | false => rfl
  | true => rw [h a b hb hignored, Bool.false_and, Bool.false_and]

/-- The sigmas of a part keep their forms, if they do so whatever stands before and behind. -/
theorem SteadyBefore.same {part : List Char} (h : SteadyBefore part) (hbehind : SteadyBehind part) (pre post : List Char) :
    SameSigmas pre part post := by
  intro a b hb
  have hbegin : sigmaAt (a.reverse ++ [].reverse) (b ++ post) = sigmaAt a.reverse b := hbehind.same post a b hb
  rw [List.reverse_nil, List.append_nil] at hbegin
  rw [← hbegin, sigmaAt_eq_iff, endsWord, endsWord, meetsCased_append a.reverse, isIgnored_reverse]
  cases hignored : isIgnored a with
  | false => rfl
  | true =>
    have hmeets : meetsCased b = true := h a b hb hignored
    have hopen : isIgnored b = false := Bool.eq_false_iff.2 fun hb => by rw [meetsCased_of_isIgnored hb] at hmeets; cases hmeets
    rw [meetsCased_append, hopen, if_neg Bool.false_ne_true, hmeets, Bool.not_true, Bool.and_false, Bool.and_false]

/-! ## Parts that get lost -/

/-- What has turned into another text only by replacing one character is no longer there between characters of other kinds. -/
theorem not_infix_of_forall₂ {p q : Char} (hpq : p ≠ q) {xs ys left right : List Char}
    (h : List.Forall₂ (fun x y => x = y ∨ x = p ∧ y = q) xs ys) (hne : xs ≠ ys) (hleft : p ∉ left) (hright : p ∉ right) :
    ¬xs <:+: left ++ ys ++ right := by
  intro hinfix
  have hlt := count_lt_of_forall₂ hpq h hne
  have hle := hinfix.sublist.count_le p
  rw [List.count_append, List.count_append, List.count_eq_zero_of_not_mem hleft, List.count_eq_zero_of_not_mem hright,
    Nat.zero_add, Nat.add_zero] at hle
  exact Nat.not_le.2 hlt hle

/-- Casing stops at the letter A. -/
theorem meetsCased_letter (cs : List Char) : meetsCased ('A' :: cs) = true := by
  have hstops : inRanges caseIgnorableRanges 'A'.toNat = false := by decide +kernel
  rw [meetsCased_cons, hstops]
  rfl

/-- A part that is not steady is lost before a letter: alone it has a final sigma that is a small one there. -/
theorem not_infix_append {part : List Char} (h : ¬SteadyBehind part) :
    ¬lowerAfter [] part <:+: lowerAfter [] (part ++ ['A']) := by
  have hforms : List.Forall₂ (fun x y => x = y ∨ x = finalSigma ∧ y = smallSigma) (lowerBetween [] part [])
      (lowerBetween [] part ['A']) := by
    refine forall₂_lowerBetween part fun a b _ => ?_
    simp only [List.append_nil, sigmaAt, endsWord, meetsCased_append b, meetsCased_letter]
    cases isIgnored b with
    | false => exact Or.inl rfl
    | true => cases meetsCased a.reverse && !meetsCased b <;> simp
  have hne : lowerBetween [] part [] ≠ lowerBetween [] part ['A'] := by
    intro heq
    refine h fun a b hb hignored => ?_
    have hsame := (lowerBetween_eq_iff part).1 heq a b hb
    simp only [sigmaAt_eq_iff, List.append_nil, endsWord, meetsCased_append b, meetsCased_letter, if_pos hignored,
      meetsCased_of_isIgnored hignored] at hsame
    simpa using hsame
  have hwhole : lowerAfter [] (part ++ ['A']) = [] ++ lowerBetween [] part ['A'] ++ ['a'] := lowerAfter_parts [] part ['A']
  rw [hwhole, lowerAfter_eq]
  exact not_infix_of_forall₂ (by decide) hforms hne (by decide) (by decide)

/-- A part that is not steady is lost behind a letter: alone it has a small sigma that is a final one there. -/
theorem not_infix_cons {part : List Char} (h : ¬SteadyBefore part) :
    ¬lowerAfter [] part <:+: lowerAfter [] (['A'] ++ part) := by
  have hforms : List.Forall₂ (fun x y => x = y ∨ x = smallSigma ∧ y = finalSigma) (lowerBetween [] part [])
      (lowerBetween ['A'] part []) := by
    refine forall₂_lowerBetween part fun a b _ => ?_
    simp only [List.append_nil, sigmaAt, endsWord, meetsCased_append a.reverse, meetsCased_letter]
    cases hignored : isIgnored a.reverse with
    | false => exact Or.inl rfl
    | true =>
      rw [meetsCased_of_isIgnored hignored]
      cases meetsCased b <;> simp
  have hne : lowerBetween [] part [] ≠ lowerBetween ['A'] part [] := by
    intro heq
    refine h fun a b hb hignored => ?_
    have hsame := (lowerBetween_eq_iff part).1 heq a b hb
    rw [← isIgnored_reverse] at hignored
    simp only [sigmaAt_eq_iff, List.append_nil, endsWord, meetsCased_append a.reverse, meetsCased_letter, if_pos hignored,
      meetsCased_of_isIgnored hignored] at hsame
    simpa using hsame
  have hparts := lowerAfter_parts ['A'] part []
  have hwhole : lowerAfter [] (['A'] ++ part) = ['a'] ++ lowerBetween ['A'] part [] ++ [] := by
    rw [List.append_nil] at hparts
    exact hparts
  rw [hwhole, lowerAfter_eq]
  exact not_infix_of_forall₂ (by decide) hforms hne (by decide) (by decide)

end DocQuery.Text
