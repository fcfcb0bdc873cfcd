import DocQuery.Proofs.Cosmos.Paths
import DocQuery.Proofs.Expression.Queries

/-!
# Names and literals read back

A name is written as a path and a text as a literal by the escapes of JSON, and both are read by the store's own table of escapes.
The two tables agree on every character but backspace and form feed, whose short escapes the reader takes for the letters b and f.
So a text is read back, as a name wherever an attribute can stand and as a literal, exactly if it has neither
(`names_and_literals_read_back`), and with them two names can be one path (`backspace_read_as_letter`).
-/

namespace DocQuery.Cosmos

open Expression

/-- Only a quotable name is read as it is. -/
theorem seenName_eq_iff (field : String) : seenName field = field ↔ Quotable field := by
  refine ⟨fun h c hc => ?_, seenName_of_quotable⟩
  have hchars : field.toList.map seenChar = field.toList.map id := by
    rw [List.map_id, ← String.toList_ofList (l := field.toList.map seenChar), ← seenName, h]
  have hseen : seenChar c = c := List.map_inj_left.1 hchars c hc
  constructor <;>
  · intro hn
    rw [← Char.ofNat_toNat c, hn] at hseen
    exact absurd hseen (by decide)

/-- The tokens of a path are read as an operand whatever follows them. -/
theorem readTerm_pathTokens (names : Names) (field : String) (rest : List Token) :
    readTerm names (pathTokens field ++ rest) = .ok (.path (seenName field), rest) := by
  cases hp : isPlainName field with
  | true =>
    rw [pathTokens, hp, seenName_of_quotable (quotable_of_isPlainName hp)]
    simp only [if_true, List.cons_append, List.nil_append, readTerm]
  | false =>
    rw [pathTokens, hp]
    simp only [Bool.false_eq_true, if_false, List.cons_append, List.nil_append, readTerm, expect_self]
    rfl

/-- A path between what ends by itself and what does not go on with a name stands for its tokens. -/
theorem tokenize_propertyPath (field : String) {before after : List Char} {us : List Token} (hb : Spells before us)
    (ha : Apart after) :
    tokenize (before ++ ((propertyPath field).toList ++ after)) = (tokenize after).map (us ++ pathTokens field ++ ·) := by
  rw [hb, spells_propertyPath field after ha, map_append_append]

/-- A path by itself is parsed as the list of the field that its name is read as. -/
theorem parsePaths_propertyPath (names : Names) (field : String) :
    parsePaths (propertyPath field) names = .ok [seenName field] :=
  SeparatedText.parsePaths ⟨_, spells_propertyPath field, .last (pathTokens_written names field)⟩

/-- A literal spells the text that it is read as. -/
theorem spells_literal (s : String) : Spells (Operand.text s).literal.toList [.text (seenName s)] := by
  have hliteral : (Operand.text s).literal.toList = Json.quote s.toList := String.toList_ofList
  rw [hliteral]
  exact spells_quote s

/-- A query in which a name is projected to, compared with a literal, and sorted by. -/
def queryOf (s : String) : String :=
  "SELECT " ++ propertyPath s ++ " FROM c WHERE " ++ propertyPath s ++ " = " ++ (Operand.text s).literal ++ " ORDER BY " ++
    propertyPath s ++ " DESC"

/-- In each part of a query a name is read as the one field, and the literal as the one text. -/
theorem parseQuery_queryOf (s : String) :
    parseQuery (queryOf s) =
      .ok ⟨some [seenName s], some (.compare (.path (seenName s)) .eq (.literal (.text (seenName s)))), [(seenName s, false)]⟩ := by
  have hpath := spells_propertyPath s
  have hselect : Spells ("SELECT".toList ++ [' ']) [.word "SELECT"] :=
    (SpellsApart.ofWord (by decide)).append_spells Spells.space rfl
  have hfrom : Spells (' ' :: ("FROM".toList ++ [' ']) ++ ("c".toList ++ ' ' :: ("WHERE".toList ++ [' '])))
      ([.word "FROM"] ++ ([.word "c"] ++ [.word "WHERE"])) :=
    (Spells.keyword (by decide)).append ((SpellsApart.ofWord (by decide)).append_spells (Spells.keyword (by decide)) rfl)
  have hequals : Spells (' ' :: ("=".toList ++ [' '])) [.relation .eq] :=
    Spells.between_blanks "=" '=' [] rfl (by decide) fun _ => rfl
  have horder : Spells (' ' :: ("ORDER".toList ++ [' ']) ++ ("BY".toList ++ [' '])) ([.word "ORDER"] ++ [.word "BY"]) :=
    (Spells.keyword (by decide)).append ((SpellsApart.ofWord (by decide)).append_spells Spells.space rfl)
  have hdirection : SpellsApart ([' '] ++ "DESC".toList) ([] ++ [.word "DESC"]) :=
    Spells.space.append_apart (SpellsApart.ofWord (by decide))
  have hkey := horder.append_apart (hpath.append hdirection (apart_cons rfl))
  have hcondition := hpath.append (hequals.append_apart ((spells_literal s).append_apart hkey)) (apart_cons rfl)
  have hall := hselect.append_apart (hpath.append (hfrom.append_apart hcondition) (apart_cons rfl))
  have htokens : tokenize (queryOf s).toList = .ok (.word "SELECT" :: (pathTokens s ++ .word "FROM" :: .word "c" ::
      ((.word "WHERE" :: (pathTokens s ++ .relation .eq :: [.text (seenName s)])) ++
        (.word "ORDER" :: .word "BY" :: (pathTokens s ++ [.word "DESC"]))))) := by
    simpa [queryOf] using hall.tokenize_eq
  have hwritten := pathTokens_written none s
  refine parseQuery_of_written htokens (.fields (.last hwritten)) (.present ?_) (.present (.last ?_))
  · exact .ofConjunction (.ofFactor (.compare .eq hwritten (.text (seenName s))))
  · exact ⟨_, "DESC", rfl, hwritten, by simp [Text.equalIgnoringCase]⟩

/-- Whether a text is read back as it was written, as a name and as a literal. -/
structure ReadBack (s : String) : Prop where
  /-- The path of the field is parsed as the list of just this field. -/
  paths : ∀ names, parsePaths (propertyPath s) names = .ok [s]
  /-- Wherever the path stands in a text, it stands for tokens from which the operand that is the field is read. -/
  operand : ∃ ts,
    (∀ before us after, Spells before us → Apart after →
      tokenize (before ++ ((propertyPath s).toList ++ after)) = (tokenize after).map (us ++ ts ++ ·)) ∧
    ∀ names rest, readTerm names (ts ++ rest) = .ok (.path s, rest)
  /-- In the projection, the condition and the order of a query it is the field. -/
  query : parseQuery (queryOf s) = .ok ⟨some [s], some (.compare (.path s) .eq (.literal (.text s))), [(s, false)]⟩
  /-- The literal is one token, the text. -/
  literal : tokenize (Operand.text s).literal.toList = .ok [.text s]

/-- A text is read back, as a name wherever an attribute can stand and as a literal, exactly if it holds neither backspace nor form
feed. With these its path is that of the name, and its literal that of the text, with the letters b and f in their places; and the
paths of two names are one attribute exactly if the names are read alike. -/
theorem names_and_literals_read_back (s t : String) :
    (ReadBack s ↔ Quotable s) ∧
    (∀ names, parsePaths (propertyPath s) names = .ok [seenName s]) ∧
    tokenize (Operand.text s).literal.toList = .ok [.text (seenName s)] ∧
    (parsePaths (propertyPath s) none = parsePaths (propertyPath t) none ↔ seenName s = seenName t) := by
  refine ⟨⟨fun h => ?_, fun h => ?_⟩, fun names => parsePaths_propertyPath names s, (spells_literal s).apart.tokenize_eq, ?_⟩
  · have hread := h.paths none
    rw [parsePaths_propertyPath] at hread
    exact (seenName_eq_iff s).1 (List.singleton_inj.1 (Except.ok.inj hread))
  · have hseen := seenName_of_quotable h
    refine ⟨fun names => ?_, ⟨pathTokens s, fun before us after hb ha => tokenize_propertyPath s hb ha, fun names rest => ?_⟩, ?_, ?_⟩
    · rw [parsePaths_propertyPath, hseen]
    · rw [readTerm_pathTokens, hseen]
    · rw [parseQuery_queryOf, hseen]
    · rw [(spells_literal s).apart.tokenize_eq, hseen]
  · rw [parsePaths_propertyPath, parsePaths_propertyPath]
    exact ⟨fun h => List.singleton_inj.1 (Except.ok.inj h), fun h => by rw [h]⟩

/-- The names that are a backspace and the letter b are one path, that of the letter, and so is the literal of a backspace. -/
theorem backspace_read_as_letter :
    parsePaths (propertyPath "\x08") none = .ok ["b"] ∧ parsePaths (propertyPath "b") none = .ok ["b"] ∧
      tokenize (Operand.text "\x08").literal.toList = .ok [.text "b"] ∧ ¬ReadBack "\x08" ∧ "\x08" ≠ "b" := by
  have hseen : seenName "\x08" = "b" := by decide
  have hpath := parsePaths_propertyPath none "\x08"
  rw [hseen] at hpath
  have hliteral := (spells_literal "\x08").apart.tokenize_eq
  rw [hseen] at hliteral
  refine ⟨hpath, parsePaths_propertyPath none "b", hliteral, fun h => ?_, by decide⟩
  have hread := h.paths none
  rw [hpath] at hread
  exact absurd (Except.ok.inj hread) (by decide)

end DocQuery.Cosmos
