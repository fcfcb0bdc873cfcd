import DocQuery.Json.Order
import DocQuery.Proofs.Decimal.ReadBack
import DocQuery.Proofs.Json.Printed
import DocQuery.Proofs.Json.Quoted

/-!
# Different values have different texts

The first character of a text tells the type of its value, and what follows tells where the value ends: a quoted text at its quote, an
array or an object at what closes it, and a number where neither a digit nor a mark of a number goes on. So texts that agree are those
of one value, member by member in their order (`text_injective`), whether or not the text is one that is parsed back.
-/

namespace DocQuery.Json

open DocQuery.Text (isAsciiDigit)

/-- What may stand after the text of a value: nothing, or something that does not go on with a number. -/
def Apart (rest : List Char) : Prop := ∀ c ∈ rest.head?, isAsciiDigit c = false ∧ c ∉ Decimal.marks

theorem apart_nil : Apart [] := by simp [Apart]

theorem apart_cons {c : Char} (hdigit : isAsciiDigit c = false) (hmark : c ∉ Decimal.marks) (rest : List Char) : Apart (c :: rest) := by
  simp [Apart, hdigit, hmark]

/-- Different numbers have different texts. -/
theorem numberChars_injective : Function.Injective numberChars := by
  intro m n h
  cases m with
  | int i =>
    cases n with
    | int j =>
      have hvalue : some i.val = some j.val := by
        rw [← Decimal.integer?_integerText i.val, ← Decimal.integer?_integerText j.val]
        exact congrArg Decimal.integer? h
      rw [Subtype.ext (Option.some.inj hvalue)]
    | float x =>
      have hinteger := Decimal.integer?_write_document x
      rw [show Decimal.Style.document.write x = _ from h.symm, numberChars, Decimal.integer?_integerText] at hinteger
      cases hinteger
  | float x =>
    cases n with
    | int i =>
      have hinteger := Decimal.integer?_write_document x
      rw [show Decimal.Style.document.write x = _ from h, numberChars, Decimal.integer?_integerText] at hinteger
      cases hinteger
    | float y =>
      have hvalue : some x = some y := by
        rw [← Decimal.decimal?_write .document x, ← Decimal.decimal?_write .document y]
        exact congrArg Decimal.decimal? h
      rw [Option.some.inj hvalue]

/-- The text of a number ends where the number does. -/
theorem numberChars_append {m n : Number} {rest others : List Char} (hr : Apart rest) (ho : Apart others)
    (h : numberChars m ++ rest = numberChars n ++ others) : m = n ∧ rest = others := by
  have hcut : ∀ (n : Number) {rest : List Char}, Apart rest →
      (numberChars n ++ rest).takeWhile (fun c => isAsciiDigit c || decide (c ∈ Decimal.marks)) = numberChars n := by
    intro n rest hr
    rw [List.takeWhile_append_of_pos fun c hc => by simpa using mem_numberChars hc]
    cases rest with
    | nil => simp
    | cons c rest =>
      obtain ⟨hdigit, hmark⟩ := hr c rfl
      simp [hdigit, hmark]
  have hchars : numberChars m = numberChars n := by rw [← hcut m hr, h, hcut n ho]
  exact ⟨numberChars_injective hchars, List.append_cancel_left (hchars ▸ h)⟩

/-- A quoted text ends at its closing quote. -/
theorem quote_append {cs ds rest others : List Char} (h : quote cs ++ rest = quote ds ++ others) : cs = ds ∧ rest = others := by
  have hparts := readParts_quoted cs rest
  have hsame : cs.flatMap escapeChar ++ '"' :: rest = ds.flatMap escapeChar ++ '"' :: others := by
    simpa [quote] using h
  rw [hsame, readParts_quoted] at hparts
  obtain ⟨hmap, hrest⟩ := Prod.mk.inj (Option.some.inj hparts)
  exact ⟨((List.map_inj_right fun _ _ he => partOf_injective he).1 hmap).symm, hrest.symm⟩

/-- The rank of the type whose texts begin with a character, if there is one. -/
def rankOfFirst (c : Char) : Nat :=
  if isAsciiDigit c = true ∨ c ∈ Decimal.marks then 3
  else if c = 'n' then 1
  else if c = 't' ∨ c = 'f' then 2
  else if c = '"' then 4
  else if c = '[' then 5
  else if c = '\x7b' then 6
  else 0

/-- The first character of a text tells the type of the value. -/
theorem exists_first (j : Json) : ∃ c cs, chars j = c :: cs ∧ rankOfFirst c = typeRank (some j) := by
  cases j with
  | null => exact ⟨_, _, rfl, rfl⟩
  | bool b => cases b <;> exact ⟨_, _, rfl, rfl⟩
  | num n =>
    have hne : numberChars n ≠ [] := by
      intro hnil
      cases n with
      | int i =>
        have hread := Decimal.integer?_integerText i.val
        rw [show Decimal.integerText i.val = [] from hnil] at hread
        cases hread
      | float x =>
        have hread := Decimal.decimal?_write .document x
        rw [show Decimal.Style.document.write x = [] from hnil] at hread
        cases hread
    obtain ⟨c, cs, hcs⟩ := List.exists_cons_of_ne_nil hne
    exact ⟨c, cs, hcs, if_pos (mem_numberChars (hcs ▸ List.mem_cons_self))⟩
  | str s => exact ⟨_, _, rfl, rfl⟩
  | arr items => exact ⟨_, _, rfl, rfl⟩
  | obj members => exact ⟨_, _, rfl, rfl⟩

/-- Values whose texts begin alike are of one type. -/
theorem typeRank_eq {a b : Json} {rest others : List Char} (h : chars a ++ rest = chars b ++ others) :
    typeRank (some a) = typeRank (some b) := by
  obtain ⟨c, cs, hc, hrank⟩ := exists_first a
  obtain ⟨d, ds, hd, hrank'⟩ := exists_first b
  rw [hc, hd] at h
  rw [← hrank, ← hrank', (List.cons.inj h).1]

/-- The text of a value begins with nothing that closes an array. -/
theorem ne_close (j : Json) (rest others : List Char) : chars j ++ rest ≠ ']' :: others := by
  intro h
  obtain ⟨c, cs, hc, hrank⟩ := exists_first j
  rw [hc] at h
  rw [(List.cons.inj h).1] at hrank
  cases j <;> cases hrank

/-- The items of an array are the first one and those after commas. -/
theorem itemsChars_cons (j : Json) (items : List Json) :
    itemsChars (j :: items) = chars j ++ items.flatMap fun k => ',' :: chars k := by
  induction items generalizing j with
  | nil => simp [itemsChars]
  | cons k items ih => simp [itemsChars, ih]

/-- The members of an object are the first one and those after commas. -/
theorem membersChars_cons (e : String × Json) (members : List (String × Json)) :
    membersChars (e :: members) =
      quote e.1.toList ++ ':' :: (chars e.2 ++ members.flatMap fun e => ',' :: (quote e.1.toList ++ ':' :: chars e.2)) := by
  induction members generalizing e with
  | nil => simp [membersChars]
  | cons k members ih => simp [membersChars, ih]

/-- What follows an item stands apart from it. -/
theorem apart_items (items : List Json) (rest : List Char) :
    Apart ((items.flatMap fun k => ',' :: chars k) ++ ']' :: rest) := by
  cases items with
  | nil => exact apart_cons (by decide) (by decide) _
  | cons j items => exact apart_cons (by decide) (by decide) _

/-- What follows a member stands apart from it. -/
theorem apart_members (members : List (String × Json)) (rest : List Char) :
    Apart ((members.flatMap fun e => ',' :: (quote e.1.toList ++ ':' :: chars e.2)) ++ '\x7d' :: rest) := by
  cases members with
  | nil => exact apart_cons (by decide) (by decide) _
  | cons e members => exact apart_cons (by decide) (by decide) _

mutual

/-- A text that stands apart from what follows it determines its value, and where it ends. -/
theorem chars_append : ∀ (a b : Json) {rest others : List Char}, Apart rest → Apart others →
    chars a ++ rest = chars b ++ others → a = b ∧ rest = others
  | .null, b, rest, others, _, _, h => by
    have hrank := typeRank_eq h
    cases b with
    | null => exact ⟨rfl, List.append_cancel_left h⟩
    | _ => cases hrank
  | .bool x, b, rest, others, _, _, h => by
    have hrank := typeRank_eq h
    cases b with
    | bool y =>
      cases x <;> cases y
      · exact ⟨rfl, List.append_cancel_left h⟩
      · cases (List.cons.inj h).1
      · cases (List.cons.inj h).1
      · exact ⟨rfl, List.append_cancel_left h⟩
    | _ => cases hrank
  | .num m, b, rest, others, hr, ho, h => by
    have hrank := typeRank_eq h
    cases b with
    | num n =>
      obtain ⟨rfl, hrest⟩ := numberChars_append hr ho h
      exact ⟨rfl, hrest⟩
    | _ => cases hrank
  | .str s, b, rest, others, _, _, h => by
    have hrank := typeRank_eq h
    cases b with
    | str t =>
      obtain ⟨hst, hrest⟩ := quote_append h
      exact ⟨congrArg Json.str (String.toList_injective hst), hrest⟩
    | _ => cases hrank
  | .arr as, b, rest, others, _, _, h => by
    have hrank := typeRank_eq h
    cases b with
    | arr bs =>
      simp only [chars, List.cons_append, List.append_assoc, List.cons.injEq, true_and, List.nil_append] at h
      obtain ⟨rfl, hrest⟩ := itemsChars_append as bs h
      exact ⟨rfl, hrest⟩
    | _ => cases hrank
  | .obj as, b, rest, others, _, _, h => by
    have hrank := typeRank_eq h
    cases b with
    | obj bs =>
      simp only [chars, List.cons_append, List.append_assoc, List.cons.injEq, true_and, List.nil_append] at h
      obtain ⟨rfl, hrest⟩ := membersChars_append as bs h
      exact ⟨rfl, hrest⟩
    | _ => cases hrank

/-- The items of an array are determined by their text up to the bracket that closes it. -/
theorem itemsChars_append : ∀ (as bs : List Json) {rest others : List Char},
    itemsChars as ++ ']' :: rest = itemsChars bs ++ ']' :: others → as = bs ∧ rest = others
  | [], [], rest, others, h => ⟨rfl, (List.cons.inj h).2⟩
  | [], b :: bs, rest, others, h => by
    rw [itemsChars_cons, List.append_assoc] at h
    exact absurd h.symm (ne_close b _ _)
  | a :: as, [], rest, others, h => by
    rw [itemsChars_cons, List.append_assoc] at h
    exact absurd h (ne_close a _ _)
  | a :: as, b :: bs, rest, others, h => by
    rw [itemsChars_cons, itemsChars_cons, List.append_assoc, List.append_assoc] at h
    obtain ⟨rfl, hmore⟩ := chars_append a b (apart_items as rest) (apart_items bs others) h
    obtain ⟨rfl, hrest⟩ := moreItems_append as bs hmore
    exact ⟨rfl, hrest⟩

/-- So are those after the first one. -/
theorem moreItems_append : ∀ (as bs : List Json) {rest others : List Char},
    (as.flatMap fun k => ',' :: chars k) ++ ']' :: rest = (bs.flatMap fun k => ',' :: chars k) ++ ']' :: others →
      as = bs ∧ rest = others
  | [], [], rest, others, h => ⟨rfl, (List.cons.inj h).2⟩
  | [], b :: bs, rest, others, h => by cases (List.cons.inj h).1
  | a :: as, [], rest, others, h => by cases (List.cons.inj h).1
  | a :: as, b :: bs, rest, others, h => by
    simp only [List.flatMap_cons, List.cons_append, List.append_assoc, List.cons.injEq, true_and] at h
    obtain ⟨rfl, hmore⟩ := chars_append a b (apart_items as rest) (apart_items bs others) h
    obtain ⟨rfl, hrest⟩ := moreItems_append as bs hmore
    exact ⟨rfl, hrest⟩

/-- The members of an object are determined by their text up to the brace that closes it. -/
theorem membersChars_append : ∀ (as bs : List (String × Json)) {rest others : List Char},
    membersChars as ++ '\x7d' :: rest = membersChars bs ++ '\x7d' :: others → as = bs ∧ rest = others
  | [], [], rest, others, h => ⟨rfl, (List.cons.inj h).2⟩
  | [], b :: bs, rest, others, h => by
    rw [membersChars_cons] at h
    cases (List.cons.inj h).1
  | a :: as, [], rest, others, h => by
    rw [membersChars_cons] at h
    cases (List.cons.inj h).1
  | (k, a) :: as, (l, b) :: bs, rest, others, h => by
    simp only [membersChars_cons, List.append_assoc, List.cons_append] at h
    obtain ⟨hname, hvalue⟩ := quote_append h
    obtain ⟨rfl, hmore⟩ := chars_append a b (apart_members as rest) (apart_members bs others) (List.cons.inj hvalue).2
    obtain ⟨rfl, hrest⟩ := moreMembers_append as bs hmore
    exact ⟨by rw [String.toList_injective hname], hrest⟩

/-- So are those after the first one. -/
theorem moreMembers_append : ∀ (as bs : List (String × Json)) {rest others : List Char},
    (as.flatMap fun e => ',' :: (quote e.1.toList ++ ':' :: chars e.2)) ++ '\x7d' :: rest =
      (bs.flatMap fun e => ',' :: (quote e.1.toList ++ ':' :: chars e.2)) ++ '\x7d' :: others → as = bs ∧ rest = others
  | [], [], rest, others, h => ⟨rfl, (List.cons.inj h).2⟩
  | [], b :: bs, rest, others, h => by cases (List.cons.inj h).1
  | a :: as, [], rest, others, h => by cases (List.cons.inj h).1
  | (k, a) :: as, (l, b) :: bs, rest, others, h => by
    simp only [List.flatMap_cons, List.cons_append, List.append_assoc, List.cons.injEq, true_and] at h
    obtain ⟨hname, hvalue⟩ := quote_append h
    obtain ⟨rfl, hmore⟩ := chars_append a b (apart_members as rest) (apart_members bs others) (List.cons.inj hvalue).2
    obtain ⟨rfl, hrest⟩ := moreMembers_append as bs hmore
    exact ⟨by rw [String.toList_injective hname], hrest⟩

end

/-- Different values have different texts. -/
theorem chars_injective : Function.Injective chars := fun a b h =>
  (chars_append a b apart_nil apart_nil (congrArg (· ++ []) h)).1

theorem text_injective : Function.Injective text := fun _ _ h => chars_injective (String.ofList_injective h)

end DocQuery.Json
