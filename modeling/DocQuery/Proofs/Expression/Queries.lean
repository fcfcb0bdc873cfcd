import DocQuery.Proofs.Expression.Texts

/-!
# Lists and whole queries

Attributes, sort keys and assignments are written one after the other with commas between them, and are read back as the list of
them. A query is put together from such lists and a formula, and is read back part by part (`parseQuery_of_written`).
-/

namespace DocQuery.Expression

open DocQuery.Text (equalIgnoringCase)

/-- How items are written with commas between them, given how each of them is. -/
inductive Separated {α : Type} (item : List Token → α → Prop) : List Token → List α → Prop where
  | last {ts : List Token} {a : α} : item ts a → Separated item ts [a]
  | cons {ts us : List Token} {a : α} {more : List α} :
      item ts a → Separated item us more → Separated item (ts ++ .comma :: us) (a :: more)

/-- Tokens that cannot go on a list: neither a part of a term nor a comma. -/
def AfterList (rest : List Token) : Prop := AfterTerm rest ∧ ∀ t ∈ rest.head?, t ≠ .comma

theorem afterList_nil : AfterList [] := ⟨afterTerm_nil, fun _ ht => by simp at ht⟩

theorem afterList_word (s : String) (rest : List Token) : AfterList (.word s :: rest) :=
  ⟨afterTerm_word s rest, fun t ht => by cases ht; exact Token.noConfusion⟩

/-- A keyword is recognized. -/
theorem keyword?_self (k : String) (rest : List Token) : keyword? k (.word k :: rest) = some rest :=
  keyword?_word (by simp [equalIgnoringCase]) rest

/-- Another keyword is not. -/
theorem keyword?_ne {a b : String} (h : a.toList.map Text.asciiLower ≠ b.toList.map Text.asciiLower) (rest : List Token) :
    keyword? b (.word a :: rest) = none :=
  keyword?_other (by simp [equalIgnoringCase]) h rest

namespace Separated

variable {α : Type} {item : List Token → α → Prop}

/-- A list has a comma for every item but the first. -/
theorem length_le {ts : List Token} {list : List α} (h : Separated item ts list) : list.length ≤ ts.length + 1 := by
  induction h with
  | last _ => simp
  | cons _ _ ih => rw [List.length_append, List.length_cons, List.length_cons]; omega

/-- Items with commas between them are read back by a reader that reads one item and, after a comma, goes on. -/
theorem reads {read : List Token → Except Fault (α × List Token)}
    {readAll : Nat → List Token → Except Fault (List α × List Token)}
    (hstep : ∀ fuel ts, readAll (fuel + 1) ts = (do
      let (a, rest) ← read ts
      match rest with
      | .comma :: rest =>
        let (more, rest) ← readAll fuel rest
        .ok (a :: more, rest)
      | rest => .ok ([a], rest)))
    (hitem : ∀ ts a rest, item ts a → AfterTerm rest → read (ts ++ rest) = .ok (a, rest))
    {ts : List Token} {list : List α} (h : Separated item ts list) :
    ∀ fuel rest, list.length ≤ fuel → AfterList rest → readAll fuel (ts ++ rest) = .ok (list, rest) := by
  induction h with
  | @last ts a ha =>
    intro fuel rest hf hr
    obtain ⟨n, rfl⟩ := Nat.exists_eq_add_of_le' (show 1 ≤ fuel from hf)
    rw [hstep, hitem ts a rest ha hr.1]
    cases rest with
    | nil => rfl
    | cons t rest => cases t <;> first | rfl | exact absurd rfl (hr.2 _ rfl)
  | @cons ts us a more ha _ ih =>
    intro fuel rest hf hr
    rw [List.length_cons] at hf
    obtain ⟨n, rfl⟩ := Nat.exists_eq_add_of_le' (Nat.le_trans (Nat.le_add_left 1 _) hf)
    rw [List.append_assoc, List.cons_append, hstep, hitem ts a _ ha (afterTerm_cons (by simp))]
    simp only [bind, Except.bind, ih n rest (by omega) hr]

end Separated

/-- Characters that are items with commas between them. -/
def SeparatedText {α : Type} (item : List Token → α → Prop) (cs : List Char) (list : List α) : Prop :=
  ∃ ts, SpellsApart cs ts ∧ Separated item ts list

/-- Texts of items with commas and blanks between them. -/
theorem SeparatedText.of_forall₂ {α : Type} {item : List Token → α → Prop} {css : List (List Char)} {list : List α}
    (h : List.Forall₂ (fun cs a => ∃ ts, SpellsApart cs ts ∧ item ts a) css list) (hne : css ≠ []) :
    SeparatedText item ([',', ' '].intercalate css) list := by
  induction h with
  | nil => exact absurd rfl hne
  | @cons cs a css list ha hrest ih =>
    obtain ⟨ts, hs, ha⟩ := ha
    cases css with
    | nil =>
      cases hrest
      rw [List.intercalate_singleton]
      exact ⟨ts, hs, .last ha⟩
    | cons ds css =>
      obtain ⟨us, hs', hl⟩ := ih (List.cons_ne_nil ds css)
      rw [List.intercalate_cons_cons, List.append_assoc]
      exact ⟨_, hs.append (Spells.commaSpace.append_apart hs') (apart_cons rfl), .cons ha hl⟩

/-! ## Attributes -/

/-- How an attribute is written. -/
abbrev PathWritten (names : Names) (ts : List Token) (field : String) : Prop := TermWritten names ts (.path field)

/-- A written attribute is read back. -/
theorem readPath_written {names : Names} {ts : List Token} {field : String} {rest : List Token}
    (h : PathWritten names ts field) (hr : AfterTerm rest) : readPath names (ts ++ rest) = .ok (field, rest) := by
  rw [readPath, h.reads rest hr]
  rfl

/-- Written attributes are read back. -/
theorem readPaths_written {names : Names} {ts : List Token} {fields : List String}
    (h : Separated (PathWritten names) ts fields) :
    ∀ fuel rest, fields.length ≤ fuel → AfterList rest → readPaths names fuel (ts ++ rest) = .ok (fields, rest) :=
  Separated.reads (fun _ _ => rfl) (fun _ _ _ => readPath_written) h

/-- A text of attributes is parsed as them. -/
theorem SeparatedText.parsePaths {names : Names} {s : String} {fields : List String}
    (h : SeparatedText (PathWritten names) s.toList fields) : Expression.parsePaths s names = .ok fields := by
  obtain ⟨ts, hs, hl⟩ := h
  have hread := readPaths_written hl (enough ts) [] (by have := hl.length_le; rw [enough]; omega) afterList_nil
  rw [List.append_nil] at hread
  rw [Expression.parsePaths, tokens, hs.tokenize_eq]
  simp only [Except.mapError, bind, Except.bind, hread, expectEnd]

/-! ## Sort keys -/

/-- How a sort key is written: an attribute and a direction, `true` upward. -/
def SortKeyWritten (ts : List Token) (key : String × Bool) : Prop :=
  ∃ us k, ts = us ++ [.word k] ∧ PathWritten none us key.1 ∧
    equalIgnoringCase k (if key.2 then "ASC" else "DESC") = true

/-- One sort key. -/
def readSortKey (ts : List Token) : Except Fault ((String × Bool) × List Token) := do
  let (field, rest) ← readPath none ts
  .ok ((field, (readDirection rest).1), (readDirection rest).2)

/-- A written sort key is read back. -/
theorem readSortKey_written {ts : List Token} {key : String × Bool} {rest : List Token} (h : SortKeyWritten ts key) :
    readSortKey (ts ++ rest) = .ok (key, rest) := by
  obtain ⟨field, ascending⟩ := key
  obtain ⟨us, k, rfl, hpath, hk⟩ := h
  rw [List.append_assoc, List.singleton_append, readSortKey, readPath_written hpath (afterTerm_word k rest)]
  cases ascending with
  | false =>
    have hk : equalIgnoringCase k "DESC" = true := hk
    simp only [bind, Except.bind, readDirection, keyword?_word hk]
  | true =>
    have hk : equalIgnoringCase k "ASC" = true := hk
    simp only [bind, Except.bind, readDirection, keyword?_other hk (b := "DESC") (by decide), keyword?_word hk,
      Option.getD_some]

/-- Sort keys are one sort key and, after a comma, more of them. -/
theorem readOrder_succ (fuel : Nat) (ts : List Token) : readOrder (fuel + 1) ts = (do
    let (key, rest) ← readSortKey ts
    match rest with
    | .comma :: rest =>
      let (more, rest) ← readOrder fuel rest
      .ok (key :: more, rest)
    | rest => .ok ([key], rest)) := by
  rw [readOrder, readSortKey]
  cases readPath none ts <;> rfl

/-- Written sort keys are read back. -/
theorem readOrder_written {ts : List Token} {keys : List (String × Bool)} (h : Separated SortKeyWritten ts keys) :
    ∀ fuel rest, keys.length ≤ fuel → AfterList rest → readOrder fuel (ts ++ rest) = .ok (keys, rest) :=
  Separated.reads readOrder_succ (fun _ _ _ hk _ => readSortKey_written hk) h

/-! ## Assignments -/

/-- How an assignment of a term to an attribute is written. -/
def AssignmentWritten (names : Names) (ts : List Token) (a : String × Term) : Prop :=
  ∃ us vs, ts = us ++ .relation .eq :: vs ∧ PathWritten names us a.1 ∧ TermWritten names vs a.2

/-- One assignment. -/
def readAssignment (names : Names) (ts : List Token) : Except Fault ((String × Term) × List Token) := do
  let (field, rest) ← readPath names ts
  let rest ← expect (.relation .eq) rest
  let (value, rest) ← readTerm names rest
  .ok ((field, value), rest)

/-- A written assignment is read back. -/
theorem readAssignment_written {names : Names} {ts : List Token} {a : String × Term} {rest : List Token}
    (h : AssignmentWritten names ts a) (hr : AfterTerm rest) : readAssignment names (ts ++ rest) = .ok (a, rest) := by
  obtain ⟨field, value⟩ := a
  obtain ⟨us, vs, rfl, hpath, hvalue⟩ := h
  rw [List.append_assoc, List.cons_append, readAssignment, readPath_written hpath (afterTerm_cons (by simp))]
  simp only [bind, Except.bind, expect_self]
  rw [hvalue.reads rest hr]

/-- Assignments are one assignment and, after a comma, more of them. -/
theorem readAssignments_succ (names : Names) (fuel : Nat) (ts : List Token) : readAssignments names (fuel + 1) ts = (do
    let (a, rest) ← readAssignment names ts
    match rest with
    | .comma :: rest =>
      let (more, rest) ← readAssignments names fuel rest
      .ok (a :: more, rest)
    | rest => .ok ([a], rest)) := by
  rw [readAssignments, readAssignment]
  simp only [bind, Except.bind]
  cases readPath names ts with
  | error e => rfl
  | ok p =>
    simp only
    cases expect (.relation .eq) p.2 with
    | error e => rfl
    | ok rest =>
      simp only
      cases readTerm names rest <;> rfl

/-- Written assignments are read back. -/
theorem readAssignments_written {names : Names} {ts : List Token} {list : List (String × Term)}
    (h : Separated (AssignmentWritten names) ts list) :
    ∀ fuel rest, list.length ≤ fuel → AfterList rest → readAssignments names fuel (ts ++ rest) = .ok (list, rest) :=
  Separated.reads (readAssignments_succ names) (fun _ _ _ => readAssignment_written) h

/-- A text of assignments after `SET` is parsed as them. -/
theorem parseAssignments_of_text {names : Names} {s : String} {cs : List Char} {list : List (String × Term)}
    (hs : s.toList = "SET ".toList ++ cs) (h : SeparatedText (AssignmentWritten names) cs list) :
    parseAssignments s names = .ok list := by
  obtain ⟨ts, hspells, hl⟩ := h
  have hset : Spells ("SET".toList ++ [' ']) [.word "SET"] :=
    (SpellsApart.ofWord (by decide)).append_spells Spells.space rfl
  have htokens := (hset.append_apart hspells).tokenize_eq
  have hread := readAssignments_written hl (enough (.word "SET" :: ts)) []
    (by have := hl.length_le; rw [enough, List.length_cons]; omega) afterList_nil
  rw [List.append_nil] at hread
  rw [parseAssignments, tokens, hs]
  have hs' : "SET ".toList = "SET".toList ++ [' '] := rfl
  rw [hs', htokens]
  simp only [Except.mapError, bind, Except.bind, expectKeyword, List.singleton_append,
    keyword?_self "SET", hread, expectEnd]

/-! ## Whole queries -/

/-- How the projection of a query is written. -/
inductive ProjectionWritten : List Token → Option (List String) → Prop where
  | star : ProjectionWritten [.star] none
  | fields {ts : List Token} {fields : List String} :
      Separated (PathWritten none) ts fields → ProjectionWritten ts (some fields)

/-- How the condition of a query is written, if it has one. -/
inductive ConditionWritten : List Token → Option Formula → Prop where
  | absent : ConditionWritten [] none
  | present {ts : List Token} {f : Formula} : Written none .disjunction ts f → ConditionWritten (.word "WHERE" :: ts) (some f)

/-- How the sort keys of a query are written, if it has any. -/
inductive OrderWritten : List Token → List (String × Bool) → Prop where
  | absent : OrderWritten [] []
  | present {ts : List Token} {keys : List (String × Bool)} :
      Separated SortKeyWritten ts keys → OrderWritten (.word "ORDER" :: .word "BY" :: ts) keys

/-- A term does not begin with a star. -/
theorem TermWritten.head_ne_star {names : Names} {ts : List Token} {t : Term} (h : TermWritten names ts t) :
    ∃ u us, ts = u :: us ∧ u ≠ .star := by
  cases h <;> exact ⟨_, _, rfl, by simp⟩

/-- Written attributes do not begin with a star. -/
theorem Separated.head_ne_star {names : Names} {ts : List Token} {fields : List String}
    (h : Separated (PathWritten names) ts fields) : ∃ u us, ts = u :: us ∧ u ≠ .star := by
  cases h with
  | last h => exact h.head_ne_star
  | cons h _ =>
    obtain ⟨u, us, rfl, hu⟩ := h.head_ne_star
    exact ⟨u, _, List.cons_append, hu⟩

/-- A written projection is read back. -/
theorem readProjection_written {ts : List Token} {projection : Option (List String)} (h : ProjectionWritten ts projection)
    {fuel : Nat} (hf : ts.length + 1 ≤ fuel) {rest : List Token} (hr : AfterList rest) :
    readProjection fuel (ts ++ rest) = .ok (projection, rest) := by
  cases h with
  | star => rfl
  | fields h =>
    have hread := readPaths_written h fuel rest (Nat.le_trans h.length_le hf) hr
    obtain ⟨u, us, rfl, hu⟩ := h.head_ne_star
    rw [List.cons_append] at hread ⊢
    rw [readProjection, hread]
    · rfl
    · simp [hu]

/-- Tokens that are the sort keys of a query, or nothing. -/
theorem OrderWritten.head {ts : List Token} {keys : List (String × Bool)} (h : OrderWritten ts keys) :
    AfterTerm ts ∧ keyword? "WHERE" ts = none ∧ keyword? "AND" ts = none ∧ keyword? "OR" ts = none := by
  cases h with
  | absent => exact ⟨afterTerm_nil, rfl, rfl, rfl⟩
  | present _ =>
    exact ⟨afterTerm_word _ _, keyword?_ne (by decide) _, keyword?_ne (by decide) _, keyword?_ne (by decide) _⟩

/-- The condition of a query is read back where its sort keys follow. -/
theorem ConditionWritten.reads {ws os : List Token} {condition : Option Formula} {order : List (String × Bool)} {fuel : Nat}
    (hw : ConditionWritten ws condition) (ho : OrderWritten os order) (hf : 4 * ws.length + 3 ≤ fuel) :
    (ws = [] ∧ condition = none ∧ keyword? "WHERE" os = none) ∨
      ∃ rest f, condition = some f ∧ keyword? "WHERE" (ws ++ os) = some rest ∧ readFormula none fuel rest = .ok (f, os) := by
  obtain ⟨ha, hwhere, hand, hor⟩ := ho.head
  cases hw with
  | absent => exact Or.inl ⟨rfl, rfl, hwhere⟩
  | @present ts f h =>
    rw [List.length_cons] at hf
    exact Or.inr ⟨ts ++ os, f, rfl, keyword?_self "WHERE" _, h.readFormula (by omega) ha hand hor⟩

/-- The sort keys of a query are read back at its end. -/
theorem OrderWritten.reads {os : List Token} {order : List (String × Bool)} {fuel : Nat} (h : OrderWritten os order)
    (hf : os.length + 1 ≤ fuel) :
    (os = [] ∧ order = []) ∨
      ∃ rest, keyword? "ORDER" os = some (.word "BY" :: rest) ∧ readOrder fuel rest = .ok (order, []) := by
  cases h with
  | absent => exact Or.inl ⟨rfl, rfl⟩
  | @present ts keys h =>
    have hread := readOrder_written h fuel []
      (by have := h.length_le; rw [List.length_cons, List.length_cons] at hf; omega) afterList_nil
    rw [List.append_nil] at hread
    exact Or.inr ⟨ts, keyword?_self "ORDER" _, hread⟩

/-- A written query is parsed as what it was written for. -/
theorem parseQuery_of_written {s : String} {c : String} {ps ws os : List Token} {projection : Option (List String)}
    {condition : Option Formula} {order : List (String × Bool)}
    (hs : tokenize s.toList = .ok (.word "SELECT" :: (ps ++ .word "FROM" :: .word c :: (ws ++ os))))
    (hp : ProjectionWritten ps projection) (hw : ConditionWritten ws condition) (ho : OrderWritten os order) :
    parseQuery s = .ok ⟨projection, condition, order⟩ := by
  rw [parseQuery, tokens, hs]
  simp only [Except.mapError, bind, Except.bind, expectKeyword, keyword?_self "SELECT"]
  generalize hfuel : enough _ = fuel
  simp only [enough, List.length_cons, List.length_append] at hfuel
  rw [readProjection_written hp (by omega) (afterList_word "FROM" _)]
  simp only [keyword?_self "FROM"]
  have hcondition := hw.reads ho (show 4 * ws.length + 3 ≤ fuel by omega)
  have horder := ho.reads (show os.length + 1 ≤ fuel by omega)
  rcases hcondition with ⟨rfl, rfl, hwhere⟩ | ⟨rest, f, rfl, hwhere, hread⟩
  · rcases horder with ⟨rfl, rfl⟩ | ⟨rest, hk, hkeys⟩
    · rfl
    · simp only [List.nil_append, hwhere, hk, keyword?_self "BY", hkeys, expectEnd]
  · rcases horder with ⟨rfl, rfl⟩ | ⟨rest, hk, hkeys⟩
    · simp only [hwhere, hread, Except.map]
      rfl
    · simp only [hwhere, hread, Except.map, hk, keyword?_self "BY", hkeys, expectEnd]

end DocQuery.Expression
