import DocQuery.Expression.Eval
import DocQuery.Proofs.Cosmos.Paths
import DocQuery.Proofs.Expression.Queries
import DocQuery.Proofs.Filter.Single
import DocQuery.Proofs.Select

/-!
# The meaning of compiled queries

The text of a query is read back as its projection, its condition and its sort keys (`parseQuery_queryText`), and under the
parameters that go with it the condition decides of every document whether it passes the filter.
-/

namespace DocQuery.Cosmos

open Expression

/-! ## The text of a query -/

/-- The fields that a query projects to: those selected, if each of them can follow a dot. -/
def projected? (select : Select) : Option (List String) :=
  match select.selected? with
  | none => none
  | some names => if names.all isPlainName then some names else none

/-- A sort key as the parser gives it. -/
def sortKey (e : String × Direction) : String × Bool := (e.1, e.2 == .ascending)

/-- The selection of a query is its projection. -/
theorem fieldSelection_spells (select : Select) :
    ∃ ts, SpellsApart (fieldSelection select).toList ts ∧ ProjectionWritten ts (projected? select) := by
  have hstar : SpellsApart "*".toList [.star] := Spells.star.apart
  rw [fieldSelection, projected?]
  cases hs : select.selected? with
  | none => exact ⟨_, hstar, .star⟩
  | some names =>
    cases hp : names.all isPlainName with
    | false => simpa [hp] using ⟨_, hstar, .star⟩
    | true =>
      have htexts : List.Forall₂ (fun cs field => ∃ ts, SpellsApart cs ts ∧ PathWritten none ts field)
          (names.map fun field => (propertyPath field).toList) names := by
        rw [List.forall₂_map_left_iff, List.forall₂_same]
        exact fun field hf => propertyPath_text (quotable_of_isPlainName (List.all_eq_true.1 hp field hf))
      obtain ⟨ts, hspells, hl⟩ := SeparatedText.of_forall₂ htexts (by simpa using Select.ne_nil_of_selected? hs)
      simp only [hp, if_true]
      refine ⟨ts, ?_, .fields hl⟩
      simpa [Function.comp_def] using hspells

/-- A path and a direction are a sort key on the field that the name is read as. -/
theorem sortKey_spells (e : String × Direction) :
    ∃ ts, SpellsApart (propertyPath e.1 ++ " " ++ e.2.name).toList ts ∧ SortKeyWritten ts (sortKey (seenName e.1, e.2)) := by
  obtain ⟨field, direction⟩ := e
  obtain ⟨ts, hs, hw⟩ := propertyPath_seen none field
  have hname : IsAsciiWord direction.name.toList := by cases direction <;> decide
  have hdirection := Spells.space.append_apart (SpellsApart.ofWord hname)
  have hkeyword : Text.equalIgnoringCase direction.name (if direction == .ascending then "ASC" else "DESC") = true := by
    cases direction <;> decide
  refine ⟨_, ?_, ts, direction.name, rfl, hw, hkeyword⟩
  simpa using hs.append hdirection (apart_cons rfl)

/-- The sort keys of an order, on the fields that its names are read as. -/
def seenKeys (order : Order) : List (String × Bool) := order.entries.map fun e => sortKey (seenName e.1, e.2)

/-- The sort keys of an order on quotable names are on these names. -/
theorem seenKeys_of_quotable {order : Order} (h : ∀ field ∈ order.entries.names, Quotable field) :
    seenKeys order = order.entries.map sortKey :=
  List.map_congr_left fun e he => by rw [seenName_of_quotable (h e.1 (List.mem_map.2 ⟨e, he, rfl⟩))]

/-- The sort keys of a query are its order. -/
theorem orderClause?_spells (order : Order) :
    ∃ ts, SpellsApart ((orderClause? order).elim [] fun text => " ORDER BY ".toList ++ text.toList) ts ∧
      OrderWritten ts (seenKeys order) := by
  rw [orderClause?]
  cases he : order.isEmpty with
  | true =>
    rw [seenKeys, List.isEmpty_iff.1 he]
    exact ⟨[], Spells.nil.apart, .absent⟩
  | false =>
    have htexts : List.Forall₂ (fun cs key => ∃ ts, SpellsApart cs ts ∧ SortKeyWritten ts key)
        (order.entries.map fun e => (propertyPath e.1 ++ " " ++ e.2.name).toList) (seenKeys order) := by
      rw [seenKeys, List.forall₂_map_left_iff, List.forall₂_map_right_iff, List.forall₂_same]
      exact fun e _ => sortKey_spells e
    have hne : order.entries ≠ [] := fun hnil => by rw [Keyed.isEmpty, hnil] at he; cases he
    obtain ⟨ts, hspells, hl⟩ := SeparatedText.of_forall₂ htexts (by simpa using hne)
    have hby : Spells (' ' :: ("ORDER".toList ++ [' ']) ++ ("BY".toList ++ [' '])) ([.word "ORDER"] ++ [.word "BY"]) :=
      (Spells.keyword (by decide)).append
        ((SpellsApart.ofWord (by decide)).append_spells Spells.space rfl)
    refine ⟨_, ?_, .present hl⟩
    simpa [Function.comp_def] using hby.append_apart hspells

/-- The condition of a query is a formula after `WHERE`. -/
theorem condition_spells {text : Option String} {condition : Option Formula}
    (h : Option.Rel (fun text f => FormulaText none .disjunction text.toList f) text condition) :
    ∃ ts, SpellsApart (text.elim [] fun text => " WHERE ".toList ++ text.toList) ts ∧ ConditionWritten ts condition := by
  cases h with
  | none => exact ⟨[], Spells.nil.apart, .absent⟩
  | some h =>
    obtain ⟨ts, hs, hw⟩ := h
    have hwhere : Spells (" WHERE ".toList) [.word "WHERE"] := Spells.keyword (k := "WHERE") (by decide)
    exact ⟨_, hwhere.append_apart hs, .present hw⟩

/-- What may follow in a query begins with a blank. -/
theorem apart_elim (word : String) (h : Apart word.toList) (hne : word.toList ≠ []) (text : Option String) :
    Apart (text.elim [] fun text => word.toList ++ text.toList) := by
  cases text with
  | none => exact apart_nil
  | some text => exact h.append hne _

/-- The characters of a query, part by part. -/
theorem queryText_toList (select : Select) (text : Option String) (order : Order) :
    (queryText select text order).toList =
      "SELECT".toList ++ [' '] ++ ((fieldSelection select).toList ++
        (' ' :: ("FROM".toList ++ [' ']) ++ "c".toList ++
          ((text.elim [] fun text => " WHERE ".toList ++ text.toList) ++
            (orderClause? order).elim [] fun text => " ORDER BY ".toList ++ text.toList))) := by
  unfold queryText
  cases text <;> cases orderClause? order <;> simp

/-- The text of a query is parsed as its projection, its condition and its sort keys, the names as they are read. -/
theorem parseQuery_queryText_seen (select : Select) {text : Option String} {condition : Option Formula} (order : Order)
    (hc : Option.Rel (fun text f => FormulaText none .disjunction text.toList f) text condition) :
    parseQuery (queryText select text order) = .ok ⟨projected? select, condition, seenKeys order⟩ := by
  obtain ⟨ps, hps, hp⟩ := fieldSelection_spells select
  obtain ⟨ws, hws, hw⟩ := condition_spells hc
  obtain ⟨os, hos, ho⟩ := orderClause?_spells order
  have hselect : Spells ("SELECT".toList ++ [' ']) [.word "SELECT"] :=
    (SpellsApart.ofWord (by decide)).append_spells Spells.space rfl
  have hfrom : SpellsApart (' ' :: ("FROM".toList ++ [' ']) ++ "c".toList) ([.word "FROM"] ++ [.word "c"]) :=
    (Spells.keyword (by decide)).append_apart (SpellsApart.ofWord (by decide))
  have horder : Apart ((orderClause? order).elim [] fun text => " ORDER BY ".toList ++ text.toList) :=
    apart_elim " ORDER BY " (apart_cons rfl) (by decide) _
  have hwhere : Apart (text.elim [] fun text => " WHERE ".toList ++ text.toList) :=
    apart_elim " WHERE " (apart_cons rfl) (by decide) _
  have hrest := (hws.append hos horder)
  have htail := hfrom.append hrest (hwhere.append_apart horder)
  have hall := (hselect.append_apart (hps.append htail (apart_cons rfl))).tokenize_eq
  rw [← queryText_toList] at hall
  have htokens : tokenize (queryText select text order).toList =
      .ok (.word "SELECT" :: (ps ++ .word "FROM" :: .word "c" :: (ws ++ os))) := by
    simpa using hall
  exact parseQuery_of_written htokens hp hw ho

/-- The text of a query whose order is on quotable names is parsed as its projection, its condition and this order. -/
theorem parseQuery_queryText (select : Select) {text : Option String} {condition : Option Formula} {order : Order}
    (hc : Option.Rel (fun text f => FormulaText none .disjunction text.toList f) text condition)
    (ho : ∀ field ∈ order.entries.names, Quotable field) :
    parseQuery (queryText select text order) = .ok ⟨projected? select, condition, order.entries.map sortKey⟩ := by
  rw [parseQuery_queryText_seen select order hc, seenKeys_of_quotable ho]

/-! ## The meaning of a query -/

/-- The parameters of a query stand for its operands. -/
theorem bound_parameters (b : Bindings Unit) (select : Select) (condition : Option Fragment) (order : Order) :
    Bound placeholder (Fields.ofList (finish b select condition order).spec.parameters) 0 b.params := by
  have hparameters : (finish b select condition order).spec.parameters =
      Fields.numbered placeholder Operand.toJson b.params := rfl
  rw [hparameters, Fields.ofList_of_nodup (Fields.nodup_names_numbered placeholder_injective _ _)]
  intro i v hv
  rw [Nat.zero_add]
  exact ⟨v.toJson, Fields.get?_numbered placeholder_injective _ hv, v.denotes_toJson⟩

/-- Compiling a valid filter succeeds. The text that comes out is parsed as a query of what is selected, in the order that was
asked for under the names that its own are read as, whose condition never fails and holds of just those documents that pass the
filter under such names. -/
theorem compileFindMany_reads {w : Where} (hv : w.Valid) (select : Select) (order : Order) :
    ∃ compiled condition, compileFindMany w select order = .ok compiled ∧
      parseQuery compiled.spec.query = .ok ⟨projected? select, condition, seenKeys order⟩ ∧
      ∀ d : Document, Scope.passes ⟨d, Fields.ofList compiled.spec.parameters⟩ condition =
        .ok (decide (w.PassesUnder seenName .small d)) := by
  obtain ⟨f, b, hf, hparams, -, htext⟩ := reading.filter_stands_under seenName hv
    (fun e he => ⟨fun _ _ _ => propertyPath_seen none e.1, fun c hc => hv.compilable he hc⟩) ⟨(), []⟩
  have hcompiled : compileFindMany w select order = .ok (finish b select f order) := by
    unfold Compile.Yields at hf
    rw [compileFindMany, hf]
  have hbound := bound_parameters b select f order
  rw [hparams, List.nil_append] at hbound
  refine ⟨_, _, hcompiled,
    parseQuery_queryText_seen select order (Dialect.Reading.rendered_of_text (htext () trivial)), fun d => ?_⟩
  exact (Clause.passes_conjoin hbound d).trans (congrArg Except.ok (Where.all_clausesUnder seenName .small placeholder w d))

/-- The same where the names of the order are read as they are. -/
theorem compileFindMany_seen {w : Where} (hv : w.Valid) (select : Select) {order : Order}
    (ho : ∀ field ∈ order.entries.names, Quotable field) :
    ∃ compiled condition, compileFindMany w select order = .ok compiled ∧
      parseQuery compiled.spec.query = .ok ⟨projected? select, condition, order.entries.map sortKey⟩ ∧
      ∀ d : Document, Scope.passes ⟨d, Fields.ofList compiled.spec.parameters⟩ condition =
        .ok (decide (w.PassesUnder seenName .small d)) := by
  rw [← seenKeys_of_quotable ho]
  exact compileFindMany_reads hv select order

/-! ## What is found -/

/-- Whether a store finds a document by the query that is compiled for a filter: compiling succeeds, the text is read back, and
under the parameters that go with it the condition holds of the document. -/
def Finds (w : Where) (select : Select) (order : Order) (d : Document) : Prop :=
  ∃ compiled query, compileFindMany w select order = .ok compiled ∧ parseQuery compiled.spec.query = .ok query ∧
    Scope.passes ⟨d, Fields.ofList compiled.spec.parameters⟩ query.condition = .ok true

/-- A query finds the documents that pass the filter under the names that its own are read as, if the filter is a valid one. -/
theorem finds_iff {w : Where} {select : Select} {order : Order} {d : Document} :
    Finds w select order d ↔ w.Valid ∧ w.PassesUnder seenName .small d := by
  constructor
  · rintro ⟨compiled, query, hcompiled, hparse, hholds⟩
    have hv : w.Valid := by
      cases hcheck : w.validate with
      | ok u => exact hcheck
      | error e =>
        have hfails : compileFindMany w select order = .error e := by
          rw [compileFindMany, Compile.filter, hcheck]
          rfl
        cases hfails.symm.trans hcompiled
    obtain ⟨_, condition, hcompiled', hparse', hpasses⟩ := compileFindMany_reads hv select order
    cases hcompiled.symm.trans hcompiled'
    cases hparse.symm.trans hparse'
    exact ⟨hv, of_decide_eq_true (Except.ok.inj ((hpasses d).symm.trans hholds))⟩
  · rintro ⟨hv, h⟩
    obtain ⟨compiled, condition, hcompiled, hparse, hpasses⟩ := compileFindMany_reads hv select order
    exact ⟨compiled, _, hcompiled, hparse, (hpasses d).trans (congrArg Except.ok (decide_eq_true h))⟩

/-- A filter of one condition that is valid finds the documents whose field, as its name is read, meets the condition. -/
theorem finds_on_iff {c : Condition} {field : String} {mode : Mode} {select : Select} {order : Order} {d : Document}
    (hc : (c.on field mode).Valid ↔ field ≠ "") :
    Finds (c.on field mode) select order d ↔ field ≠ "" ∧ c.Passes .small mode (Fields.get? d (seenName field)) := by
  rw [finds_iff, Condition.passesUnder_on_iff, hc]

/-- Compiling a valid filter on quotable fields succeeds. The text that comes out is parsed as a query that is sorted exactly as
was asked for, and whose condition, under the parameters, never fails and holds of just those documents that pass the filter. -/
theorem compileFindMany_means (w : Where) (select : Select) (order : Order) (hv : w.Valid)
    (hw : ∀ field ∈ w.entries.names, Quotable field) (ho : ∀ field ∈ order.entries.names, Quotable field) :
    ∃ compiled query, compileFindMany w select order = .ok compiled ∧
      parseQuery compiled.spec.query = .ok query ∧
      query.order = order.entries.map (fun e => (e.1, e.2 == .ascending)) ∧
      ∀ d : Document, Scope.passes ⟨d, Fields.ofList compiled.spec.parameters⟩ query.condition =
        .ok (decide (w.Passes .small d)) := by
  have hcompilable : reading.Compilable w := fun e he =>
    ⟨hw e.1 (List.mem_map.2 ⟨e, he, rfl⟩), fun c hc => hv.compilable he hc⟩
  obtain ⟨f, b, hf, hs⟩ := reading.filter_stands hv hcompilable ⟨(), []⟩
  have hcompiled : compileFindMany w select order = .ok (finish b select f order) := by
    unfold Compile.Yields at hf
    rw [compileFindMany, hf]
  have hbound := bound_parameters b select f order
  rw [hs.params, List.nil_append] at hbound
  refine ⟨_, _, hcompiled, parseQuery_queryText select (hs.rendered (u := ()) trivial) ho, rfl, fun d => ?_⟩
  rw [← Where.all_clauses .small placeholder w d]
  exact Clause.passes_conjoin hbound d

/-- The same for a filter with a name in brackets, a text test without regard to case and a negated membership. -/
theorem compileFindMany_means_of_names :
    let w : Where := Keyed.ofList
      [("first name", ⟨[.text .startsWith "Al", .compare .not (.text "Alf")], .insensitive⟩),
       ("age", ⟨[.member true [.integer 17, .integer 18]], .sensitive⟩)]
    let order : Order := Keyed.ofList [("age", .descending), ("first name", .ascending)]
    ∃ compiled query, compileFindMany w Select.all order = .ok compiled ∧
      parseQuery compiled.spec.query = .ok query ∧
      query.order = order.entries.map (fun e => (e.1, e.2 == .ascending)) ∧
      ∀ d : Document, Scope.passes ⟨d, Fields.ofList compiled.spec.parameters⟩ query.condition =
        .ok (decide (w.Passes .small d)) :=
  compileFindMany_means _ _ _ rfl (by decide) (by decide)

end DocQuery.Cosmos
