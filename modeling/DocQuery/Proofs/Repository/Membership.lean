import DocQuery.Proofs.Cosmos.FindMany
import DocQuery.Proofs.Dynamo.Casings

/-!
# Membership and equality

A membership among values finds what one of the comparisons with these values finds. Negated, it finds what all comparisons for
being unequal find, as long as the field is there: a missing field is unequal to nothing, and yet no member of anything. Main
statement: `membership_agrees_with_equality`, for both families of stores.
-/

namespace DocQuery

/-- How a membership among some values agrees with the comparisons with each of them, for what a store finds where this value, if
any, is in a named field. -/
structure Operand.Agree (vs : List Operand) (field : String) (stored : Option Json) (finds : Condition → Prop) : Prop where
  /-- A membership is the disjunction of the comparisons for equality. -/
  member : finds (.member false vs) ↔ ∃ v ∈ vs, finds (.compare .equals v)
  /-- Where the field is there, a negated membership is the conjunction of the comparisons for being unequal. -/
  negated : stored ≠ none → (finds (.member true vs) ↔ ∀ v ∈ vs, finds (.compare .not v))
  /-- Where the field is missing, a negated membership is met, and no comparison. -/
  missing : stored = none → field ≠ "" → finds (.member true vs) ∧ ∀ v ∈ vs, ¬finds (.compare .not v)

/-- Membership agrees with equality as far as what is found is what meets the condition. -/
theorem Operand.agree_of_passes {vs : List Operand} (hne : vs ≠ []) {field : String} {stored : Option Json}
    {finds : Condition → Prop} {folding : Folding} {mode : Mode}
    (hmember : ∀ negated, finds (.member negated vs) ↔ field ≠ "" ∧ (Condition.member negated vs).Passes folding mode stored)
    (hcompare : ∀ op, ∀ v ∈ vs, finds (.compare op v) ↔ field ≠ "" ∧ (Condition.compare op v).Passes folding mode stored) :
    Agree vs field stored finds where
  member := by
    have hsome : (∃ v ∈ vs, finds (.compare .equals v)) ↔
        field ≠ "" ∧ ∃ v ∈ vs, (Condition.compare .equals v).Passes folding mode stored := by
      rw [← exists_and_left]
      refine exists_congr fun v => ?_
      rw [and_left_comm]
      exact and_congr_right fun hv => hcompare .equals v hv
    rw [hmember, hsome]
    refine and_congr_right fun _ => ⟨?_, ?_⟩
    · rintro ⟨s, hs, v, hv, hequal⟩
      exact ⟨v, hv, s, hs, hequal⟩
    · rintro ⟨v, hv, s, hs, hequal⟩
      exact ⟨s, hs, v, hv, hequal⟩
  negated := by
    intro hstored
    obtain ⟨s, rfl⟩ := Option.ne_none_iff_exists'.1 hstored
    have hall : (∀ v ∈ vs, finds (.compare .not v)) ↔ field ≠ "" ∧ ∀ v ∈ vs, Comparison.not.Holds s v.toJson := by
      constructor
      · intro h
        obtain ⟨v, hv⟩ := List.exists_mem_of_ne_nil vs hne
        refine ⟨((hcompare .not v hv).1 (h v hv)).1, fun u hu => ?_⟩
        obtain ⟨-, _, hs, hholds⟩ := (hcompare .not u hu).1 (h u hu)
        exact Option.some.inj hs ▸ hholds
      · rintro ⟨hfield, h⟩ v hv
        exact (hcompare .not v hv).2 ⟨hfield, s, rfl, h v hv⟩
    rw [hmember, hall]
    refine and_congr_right fun _ => ⟨?_, ?_⟩
    · intro hnone v hv hequal
      exact hnone ⟨s, rfl, v, hv, hequal⟩
    · rintro h ⟨_, hs, v, hv, hequal⟩
      exact h v hv (Option.some.inj hs ▸ hequal)
  missing := by
    rintro rfl hfield
    refine ⟨(hmember true).2 ⟨hfield, ?_⟩, fun v hv hfinds => ?_⟩
    · rintro ⟨s, hs, -⟩
      cases hs
    · obtain ⟨-, s, hs, -⟩ := (hcompare .not v hv).1 hfinds
      cases hs

/-! ## Membership -/

/-- For every list of finite values of one type other than the boolean one, a membership in it finds what one of the comparisons
for equality finds, and, negated, what all the comparisons for being unequal find in a field that is there. What is without the
field is found by the negated membership, and by none of the comparisons. Both families of stores have it so, DynamoDB for lists
that it takes and whatever was compiled before. -/
theorem membership_agrees_with_equality (field : String) (mode : Mode) {vs : List Operand} (hne : vs ≠ [])
    (hfinite : ∀ v ∈ vs, v.isFinite = true) {ty : FieldType} (hty : ty ≠ .boolean) (htypes : ∀ v ∈ vs, v.fieldType = ty)
    (d : Document) :
    (∀ select order, Operand.Agree vs field (Fields.get? d (Cosmos.seenName field)) fun c =>
      Cosmos.Finds (c.on field mode) select order d) ∧
    (vs.length ≤ Dynamo.maxInList → ∀ b : Bindings (List String), (∀ v ∈ b.params, v.isFinite = true) →
      Operand.Agree vs field (Fields.get? d field) fun c =>
        Dynamo.Finds (Compile.filter Dynamo.dialect (c.on field mode)) b d) := by
  have hmember : ∀ negated, ((Condition.member negated vs).on field mode).Valid ↔ field ≠ "" := fun negated =>
    Condition.valid_member_iff.trans (and_iff_left ⟨hne, hfinite, ty, hty, htypes⟩)
  have hcompare : ∀ op, ∀ v ∈ vs, (((Condition.compare op v).on field mode).Valid ↔ field ≠ "") := fun op v hv =>
    Condition.valid_compare_iff.trans (and_iff_left (hfinite v hv))
  constructor
  · intro select order
    exact Operand.agree_of_passes hne (fun negated => Cosmos.finds_on_iff (hmember negated))
      fun op v hv => Cosmos.finds_on_iff (hcompare op v hv)
  · intro hlength b hb
    exact Operand.agree_of_passes hne (fun negated => Dynamo.finds_on_iff hb hlength (hmember negated))
      fun op v hv => Dynamo.finds_on_iff hb trivial (hcompare op v hv)

/-- Two texts on a record that holds one of them, and on a record without the field. -/
theorem membership_agrees_with_equality_of_texts :
    (Cosmos.Finds ((Condition.member false [.text "old", .text "new"]).on "state" .sensitive) Select.all Keyed.empty
        [("state", .str "new")] ∧
      Dynamo.Finds (Compile.filter Dynamo.dialect ((Condition.member false [.text "old", .text "new"]).on "state" .sensitive))
        ⟨[], []⟩ [("state", .str "new")]) ∧
    Cosmos.Finds ((Condition.member true [.text "old", .text "new"]).on "state" .sensitive) Select.all Keyed.empty [] ∧
      Dynamo.Finds (Compile.filter Dynamo.dialect ((Condition.member true [.text "old", .text "new"]).on "state" .sensitive))
        ⟨[], []⟩ [] := by
  have hfinite : ∀ v ∈ [Operand.text "old", Operand.text "new"], v.isFinite = true := by decide
  have htypes : ∀ v ∈ [Operand.text "old", Operand.text "new"], v.fieldType = .string := by decide
  have htype : FieldType.string ≠ .boolean := by decide
  have hagree := membership_agrees_with_equality "state" .sensitive (List.cons_ne_nil _ _) hfinite htype htypes
  have hb : ∀ v ∈ (⟨[], []⟩ : Bindings (List String)).params, v.isFinite = true := List.forall_mem_nil _
  have hnarrow : Dynamo.Narrow (.compare .equals (.text "new")) := trivial
  have hvalid : ((Condition.compare .equals (.text "new")).on "state" .sensitive).Valid ↔ "state" ≠ "" :=
    Condition.valid_compare_iff.trans (and_iff_left rfl)
  refine ⟨⟨?_, ?_⟩, ?_, ?_⟩
  · refine ((hagree [("state", .str "new")]).1 _ _).member.2 ⟨.text "new", by decide, ?_⟩
    exact (Cosmos.finds_on_iff hvalid).2 (by decide)
  · refine ((hagree [("state", .str "new")]).2 (by decide) ⟨[], []⟩ hb).member.2 ⟨.text "new", by decide, ?_⟩
    exact (Dynamo.finds_on_iff hb hnarrow hvalid).2 (by decide)
  · exact (((hagree []).1 _ _).missing rfl (by decide)).1
  · exact (((hagree []).2 (by decide) ⟨[], []⟩ hb).missing rfl (by decide)).1

/-- A record without the field is not among one value, and is not unequal to it either. -/
theorem membership_differs_on_missing_field :
    (Cosmos.Finds ((Condition.member true [.text "a"]).on "state" .sensitive) Select.all Keyed.empty [("id", .str "u-1")] ∧
      ¬Cosmos.Finds ((Condition.compare .not (.text "a")).on "state" .sensitive) Select.all Keyed.empty [("id", .str "u-1")]) ∧
    Dynamo.Finds (Compile.filter Dynamo.dialect ((Condition.member true [.text "a"]).on "state" .sensitive)) ⟨[], []⟩
      [("id", .str "u-1")] ∧
    ¬Dynamo.Finds (Compile.filter Dynamo.dialect ((Condition.compare .not (.text "a")).on "state" .sensitive)) ⟨[], []⟩
      [("id", .str "u-1")] := by
  have hmember : ((Condition.member true [.text "a"]).on "state" .sensitive).Valid ↔ "state" ≠ "" :=
    Condition.valid_member_iff.trans (and_iff_left ⟨by decide, by decide, .string, by decide, by decide⟩)
  have hcompare : ((Condition.compare .not (.text "a")).on "state" .sensitive).Valid ↔ "state" ≠ "" :=
    Condition.valid_compare_iff.trans (and_iff_left rfl)
  have hb : ∀ v ∈ (⟨[], []⟩ : Bindings (List String)).params, v.isFinite = true := List.forall_mem_nil _
  have hnarrow : Dynamo.Narrow (.member true [.text "a"]) := by decide
  have hnarrow' : Dynamo.Narrow (.compare .not (.text "a")) := trivial
  rw [Cosmos.finds_on_iff hmember, Cosmos.finds_on_iff hcompare, Dynamo.finds_on_iff hb hnarrow hmember,
    Dynamo.finds_on_iff hb hnarrow' hcompare]
  decide

end DocQuery
