import DocQuery.Proofs.Dynamo.Filter

/-!
# Plans of key conditions

A plan divides a filter into key conditions, which are its conditions on the keys (`passes_keys_iff`), and the filter that remains,
which has the entries on other fields (`mem_remaining_iff`). So a document meets the key conditions and passes the remaining filter
exactly if it passes the whole filter (`passes_of_keyPlan?`).
-/

namespace DocQuery

/-- Whether what is stored in a field meets every condition on it. -/
def FieldFilter.Passes (folding : Folding) (f : FieldFilter) (stored : Option Json) : Prop :=
  ∀ c ∈ f.conditions, c.Passes folding f.mode stored

instance (folding : Folding) (f : FieldFilter) (stored : Option Json) : Decidable (f.Passes folding stored) :=
  inferInstanceAs (Decidable (∀ c ∈ f.conditions, _))

namespace Where

/-- What remains of a filter are the entries under other names. -/
theorem mem_drop {w : Where} {name : String} {e : String × FieldFilter} :
    e ∈ (w.drop name).entries ↔ e ∈ w.entries ∧ e.1 ≠ name := by
  simp [Keyed.drop, Fields.drop]

/-- What remains of a filter has no conditions on the field that was dropped. -/
theorem get?_drop (w : Where) (name other : String) :
    (w.drop name).get? other = if other = name then none else w.get? other := by
  split
  · next h =>
    refine Fields.get?_eq_none_iff.2 fun hm => ?_
    obtain ⟨e, he, hname⟩ := List.mem_map.1 hm
    exact (mem_drop.1 he).2 (hname.trans h)
  · next h =>
    cases hw : w.get? other with
    | none =>
      refine Fields.get?_eq_none_iff.2 fun hm => ?_
      obtain ⟨e, he, hname⟩ := List.mem_map.1 hm
      exact Fields.get?_eq_none_iff.1 hw (List.mem_map.2 ⟨e, (mem_drop.1 he).1, hname⟩)
    | some f => exact Fields.get?_of_mem (w.drop name).distinct (mem_drop.2 ⟨Fields.mem_of_get? hw, h⟩)

/-- What remains of a valid filter is valid. -/
theorem Valid.drop {w : Where} (h : w.Valid) (name : String) : Where.Valid (w.drop name) :=
  forM_eq_ok.2 fun e he => forM_eq_ok.1 h e (mem_drop.1 he).1

end Where

namespace Dynamo

/-- What remains of a filter within the limit is within it. -/
theorem WithinLimit.drop {w : Where} (h : WithinLimit w) (name : String) : WithinLimit (w.drop name) :=
  fun e he => h e (Where.mem_drop.1 he).1

/-! ## Key conditions -/

/-- Whether what is stored in a key meets a condition on it. -/
def KeyCondition.Passes (c : KeyCondition) (stored : Option Json) : Prop :=
  match c with
  | .single c => c.Passes .casings .sensitive stored
  | .between low high => (Condition.compare .gte low).Passes .casings .sensitive stored ∧
      (Condition.compare .lte high).Passes .casings .sensitive stored

instance (c : KeyCondition) (stored : Option Json) : Decidable (c.Passes stored) :=
  match c with
  | .single c => inferInstanceAs (Decidable (c.Passes .casings .sensitive stored))
  | .between low high => inferInstanceAs (Decidable ((Condition.compare .gte low).Passes .casings .sensitive stored ∧
      (Condition.compare .lte high).Passes .casings .sensitive stored))

/-- A condition that fits a key condition means the same in either mode. -/
theorem passes_sensitive_iff {mode : Mode} {c : Condition} (h : keyCompatible mode c = true) (stored : Option Json) :
    c.Passes .casings .sensitive stored ↔ c.Passes .casings mode stored := by
  cases c with
  | compare op v => exact Iff.rfl
  | text t part =>
    rw [keyCompatible, Bool.and_eq_true, beq_iff_eq, beq_iff_eq] at h
    rw [h.2]
  | member negated vs => cases h

/-- What the key condition of a sort key comes from: its only condition, or a lower and an upper bound in either order. -/
theorem sortKeyCondition?_cases {f : FieldFilter} {c : KeyCondition} (h : sortKeyCondition? f = some c) :
    (∃ single, f.conditions = [single] ∧ keyCompatible f.mode single = true ∧ c = .single single) ∨
      ∃ low high, (f.conditions = [.compare .gte low, .compare .lte high] ∨
        f.conditions = [.compare .lte high, .compare .gte low]) ∧ c = .between low high := by
  rw [sortKeyCondition?] at h
  split at h
  · next single hc =>
    split at h
    · next hcompatible =>
      cases h
      exact .inl ⟨single, hc, hcompatible, rfl⟩
    · cases h
  · next low high hc =>
    cases h
    exact .inr ⟨low, high, .inl hc, rfl⟩
  · next high low hc =>
    cases h
    exact .inr ⟨low, high, .inr hc, rfl⟩
  · cases h

/-- The key condition of a sort key means what the filter of the sort key means. -/
theorem passes_of_sortKeyCondition? {f : FieldFilter} {c : KeyCondition} (h : sortKeyCondition? f = some c)
    (stored : Option Json) : c.Passes stored ↔ f.Passes .casings stored := by
  rw [FieldFilter.Passes]
  obtain ⟨single, hc, hcompatible, rfl⟩ | ⟨low, high, hc | hc, rfl⟩ := sortKeyCondition?_cases h
  · rw [hc, List.forall_mem_singleton]
    exact passes_sensitive_iff hcompatible stored
  · rw [hc, List.forall_mem_cons, List.forall_mem_singleton]
    exact Iff.rfl
  · rw [hc, List.forall_mem_cons, List.forall_mem_singleton]
    exact and_comm

/-- What the key condition of a sort key can be: a comparison other than inequality, a test of the beginning, or a range. -/
inductive KeyCondition.Orderly : KeyCondition → Prop
  | compare {op : Comparison} (v : Operand) : op ≠ .not → Orderly (.single (.compare op v))
  | startsWith (part : String) : Orderly (.single (.text .startsWith part))
  | between (low high : Operand) : Orderly (.between low high)

theorem orderly_of_sortKeyCondition? {f : FieldFilter} {c : KeyCondition} (h : sortKeyCondition? f = some c) : c.Orderly := by
  obtain ⟨single, -, hcompatible, rfl⟩ | ⟨low, high, -, rfl⟩ := sortKeyCondition?_cases h
  · cases single with
    | compare op v => exact .compare v (by simpa [keyCompatible] using hcompatible)
    | text t part =>
      rw [keyCompatible, Bool.and_eq_true, beq_iff_eq] at hcompatible
      rw [hcompatible.1]
      exact .startsWith part
    | member negated vs => cases hcompatible
  · exact .between low high

/-- The operands that a key condition was given. -/
def KeyCondition.given : KeyCondition → List Operand
  | .single c => c.given
  | .between low high => [low, high]

/-- The operands of a key condition of a sort key are those of the sort key's filter. -/
theorem mem_given_of_sortKeyCondition? {f : FieldFilter} {c : KeyCondition} (h : sortKeyCondition? f = some c) {v : Operand}
    (hv : v ∈ c.given) : ∃ condition ∈ f.conditions, v ∈ condition.given := by
  obtain ⟨single, hc, -, rfl⟩ | ⟨low, high, hc | hc, rfl⟩ := sortKeyCondition?_cases h
  · exact ⟨single, by rw [hc]; exact List.mem_cons_self, hv⟩
  all_goals
    rw [hc]
    simpa [KeyCondition.given, Condition.given, or_comm] using hv

/-! ## Plans -/

/-- What a plan is: the partition key is pinned by an equality, and either the filter has no conditions on a sort key, or those
that it has fit one key condition. -/
theorem keyPlan?_cases {t : Table} {w : Where} {keys : List (String × KeyCondition)} {remaining : Where}
    (h : keyPlan? t w = some (keys, remaining)) :
    ∃ pinned v, w.get? t.partitionKey = some pinned ∧ pinned.conditions = [.compare .equals v] ∧
      ((∀ sortKey, t.sortKey = some sortKey → w.get? sortKey = none) ∧
          keys = [(t.partitionKey, .single (.compare .equals v))] ∧ remaining = w.drop t.partitionKey ∨
        ∃ sortKey f c, t.sortKey = some sortKey ∧ w.get? sortKey = some f ∧ sortKeyCondition? f = some c ∧
          keys = [(t.partitionKey, .single (.compare .equals v)), (sortKey, c)] ∧
          remaining = (w.drop t.partitionKey).drop sortKey) := by
  rw [keyPlan?] at h
  cases hp : w.get? t.partitionKey with
  | none => simp [hp] at h
  | some pinned =>
    simp only [hp, Option.bind_eq_bind, Option.bind_some] at h
    split at h
    · next v hv =>
      refine ⟨pinned, v, rfl, hv, ?_⟩
      cases hs : t.sortKey with
      | none =>
        simp only [hs] at h
        cases h
        exact .inl ⟨nofun, rfl, rfl⟩
      | some sortKey =>
        simp only [hs] at h
        cases hf : w.get? sortKey with
        | none =>
          simp only [hf] at h
          cases h
          exact .inl ⟨by rintro _ ⟨⟩; exact hf, rfl, rfl⟩
        | some f =>
          simp only [hf] at h
          obtain ⟨c, hc, h⟩ := Option.bind_eq_some_iff.1 h
          cases h
          exact .inr ⟨sortKey, f, c, rfl, hf, hc, rfl, rfl⟩
    · simp at h

/-- What remains of a plan are the entries of the filter on other fields than the keys. -/
theorem mem_remaining_iff {t : Table} {w : Where} {keys : List (String × KeyCondition)} {remaining : Where}
    (h : keyPlan? t w = some (keys, remaining)) {e : String × FieldFilter} :
    e ∈ remaining.entries ↔ e ∈ w.entries ∧ t.isKey e.1 = false := by
  have hkey : t.isKey e.1 = false ↔ e.1 ≠ t.partitionKey ∧ t.sortKey ≠ some e.1 := by simp [Table.isKey]
  obtain ⟨pinned, v, -, -, ⟨hsort, -, rfl⟩ | ⟨sortKey, f, c, hsort, -, -, -, rfl⟩⟩ := keyPlan?_cases h
  · rw [hkey, Where.mem_drop]
    refine and_congr_right fun he => (and_iff_left fun hs => ?_).symm
    exact Fields.get?_eq_none_iff.1 (hsort e.1 hs) (List.mem_map.2 ⟨e, he, rfl⟩)
  · rw [hkey, Where.mem_drop, Where.mem_drop, and_assoc, hsort]
    refine and_congr_right fun _ => and_congr_right fun _ => not_congr ?_
    rw [Option.some.injEq]
    exact eq_comm

/-- The key conditions of a plan are the conditions of the filter on the keys. -/
theorem passes_keys_iff {t : Table} {w : Where} {keys : List (String × KeyCondition)} {remaining : Where}
    (h : keyPlan? t w = some (keys, remaining)) (d : Document) :
    (∀ e ∈ keys, e.2.Passes (Fields.get? d e.1)) ↔
      ∀ e ∈ w.entries, e.1 = t.partitionKey ∨ t.sortKey = some e.1 → e.2.Passes .casings (Fields.get? d e.1) := by
  have hentry : ∀ {field f}, w.get? field = some f → ∀ {e}, e ∈ w.entries → e.1 = field → e.2 = f := by
    rintro field f hf e he rfl
    exact Option.some.inj ((Fields.get?_of_mem w.distinct he).symm.trans hf)
  obtain ⟨pinned, v, hp, hv, hcases⟩ := keyPlan?_cases h
  have hpinned : ∀ stored, (KeyCondition.single (.compare .equals v)).Passes stored ↔ pinned.Passes .casings stored := by
    intro stored
    rw [FieldFilter.Passes, hv, List.forall_mem_singleton]
    exact Iff.rfl
  obtain ⟨hsort, rfl, -⟩ | ⟨sortKey, f, c, hsort, hf, hc, rfl, -⟩ := hcases
  · rw [List.forall_mem_singleton, hpinned]
    constructor
    · rintro hpasses e he (hname | hname)
      · rwa [hname, hentry hp he hname]
      · exact absurd (List.mem_map.2 ⟨e, he, rfl⟩) (Fields.get?_eq_none_iff.1 (hsort e.1 hname))
    · exact fun hpasses => hpasses _ (Fields.mem_of_get? hp) (.inl rfl)
  · rw [List.forall_mem_cons, List.forall_mem_singleton, hpinned, passes_of_sortKeyCondition? hc]
    constructor
    · rintro ⟨hpartition, hsorted⟩ e he (hname | hname)
      · rwa [hname, hentry hp he hname]
      · obtain rfl := Option.some.inj (hsort.symm.trans hname)
        rwa [hentry hf he rfl]
    · exact fun hpasses => ⟨hpasses _ (Fields.mem_of_get? hp) (.inl rfl), hpasses _ (Fields.mem_of_get? hf) (.inr hsort)⟩

/-- A document meets the key conditions of a plan and passes the remaining filter exactly if it passes the whole filter. -/
theorem passes_of_keyPlan? {t : Table} {w : Where} {keys : List (String × KeyCondition)} {remaining : Where}
    (h : keyPlan? t w = some (keys, remaining)) (d : Document) :
    w.Passes .casings d ↔ (∀ e ∈ keys, e.2.Passes (Fields.get? d e.1)) ∧ remaining.Passes .casings d := by
  rw [passes_keys_iff h]
  constructor
  · exact fun hpasses => ⟨fun e he _ => hpasses e he, fun e he => hpasses e ((mem_remaining_iff h).1 he).1⟩
  · rintro ⟨hkeys, hrest⟩ e he
    cases hkey : t.isKey e.1 with
    | true => exact hkeys e he (by simpa [Table.isKey] using hkey)
    | false => exact hrest e ((mem_remaining_iff h).2 ⟨he, hkey⟩)

/-- The filter that remains of a plan has no conditions on keys. -/
theorem not_isKey_of_keyPlan? {t : Table} {w : Where} {keys : List (String × KeyCondition)} {remaining : Where}
    (h : keyPlan? t w = some (keys, remaining)) : ∀ e ∈ remaining.entries, t.isKey e.1 = false :=
  fun _ he => ((mem_remaining_iff h).1 he).2

/-- The key conditions of a plan for a valid filter are orderly, and their operands finite. -/
theorem keys_of_keyPlan? {t : Table} {w : Where} {keys : List (String × KeyCondition)} {remaining : Where}
    (h : keyPlan? t w = some (keys, remaining)) (hv : w.Valid) :
    ∀ e ∈ keys, e.2.Orderly ∧ ∀ v ∈ e.2.given, v.isFinite = true := by
  obtain ⟨pinned, v, hp, hpinned, hcases⟩ := keyPlan?_cases h
  have hpartition : (KeyCondition.single (.compare .equals v)).Orderly ∧
      ∀ u ∈ (KeyCondition.single (.compare .equals v)).given, u.isFinite = true :=
    ⟨.compare v nofun, (hv.condition (Fields.mem_of_get? hp) (c := .compare .equals v) (by simp [hpinned])).2⟩
  obtain ⟨-, rfl, -⟩ | ⟨sortKey, f, c, -, hf, hc, rfl, -⟩ := hcases
  · exact List.forall_mem_singleton.2 hpartition
  · refine List.forall_mem_cons.2 ⟨hpartition, List.forall_mem_singleton.2 ⟨orderly_of_sortKeyCondition? hc, fun u hu => ?_⟩⟩
    obtain ⟨condition, hm, hu⟩ := mem_given_of_sortKeyCondition? hc hu
    exact (hv.condition (Fields.mem_of_get? hf) hm).2 u hu

/-- The remaining filter of a plan for a valid filter is valid. -/
theorem valid_of_keyPlan? {t : Table} {w : Where} {keys : List (String × KeyCondition)} {remaining : Where}
    (h : keyPlan? t w = some (keys, remaining)) (hv : w.Valid) : remaining.Valid := by
  obtain ⟨pinned, v, -, -, ⟨-, -, rfl⟩ | ⟨sortKey, f, c, -, -, -, -, rfl⟩⟩ := keyPlan?_cases h
  · exact hv.drop _
  · exact (hv.drop _).drop _

/-- The remaining filter of a plan for a filter within the limit is within it. -/
theorem withinLimit_of_keyPlan? {t : Table} {w : Where} {keys : List (String × KeyCondition)} {remaining : Where}
    (h : keyPlan? t w = some (keys, remaining)) (hw : WithinLimit w) : WithinLimit remaining := by
  obtain ⟨pinned, v, -, -, ⟨-, -, rfl⟩ | ⟨sortKey, f, c, -, -, -, -, rfl⟩⟩ := keyPlan?_cases h
  · exact hw.drop _
  · exact (hw.drop _).drop _

end Dynamo

end DocQuery
