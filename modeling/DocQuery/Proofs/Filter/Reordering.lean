import DocQuery.Proofs.Fields
import DocQuery.Proofs.Filter.Meaning
import DocQuery.Proofs.Filter.Valid

/-!
# Filters in another order

A filter states conditions on fields, and JSON lists the fields and the conditions in some order. Another order states the same
conditions (`ofJson_accord`). It is accepted as well: the first typed operand of a field decides its type, but in a filter that is
accepted all of them tell the same type, so each may come first (`Where.Reordered.valid_iff`).
-/

namespace DocQuery

/-! ## Results that are alike -/

/-- Results that are alike: failures, whatever their reasons are, or values in a relation. -/
inductive Accord {α β : Type} (R : α → β → Prop) : Except Error α → Except Error β → Prop
  | ok {a : α} {b : β} : R a b → Accord R (.ok a) (.ok b)
  | error (e f : Error) : Accord R (.error e) (.error f)

namespace Accord

variable {α β γ δ κ : Type} {R : α → β → Prop} {Q : γ → δ → Prop}

/-- What is alike goes on alike. -/
theorem bind {x : Except Error α} {y : Except Error β} (h : Accord R x y) {f : α → Except Error γ} {g : β → Except Error δ}
    (hnext : ∀ a b, R a b → Accord Q (f a) (g b)) : Accord Q (x >>= f) (y >>= g) := by
  cases h with
  | ok h => exact hnext _ _ h
  | error e f => exact .error e f

theorem map {x : Except Error α} {y : Except Error β} (h : Accord R x y) {f : α → γ} {g : β → δ}
    (hmap : ∀ a b, R a b → Q (f a) (g b)) : Accord Q (x.map f) (y.map g) := by
  cases h with
  | ok h => exact .ok (hmap _ _ h)
  | error e f => exact .error e f

section

variable {R : α → α → Prop}

theorem refl (hrefl : ∀ a, R a a) (x : Except Error α) : Accord R x x := by
  cases x with
  | ok a => exact .ok (hrefl a)
  | error e => exact .error e e

theorem trans {x y z : Except Error α} (h : Accord R x y) (h' : Accord R y z) (htrans : ∀ a b c, R a b → R b c → R a c) :
    Accord R x z := by
  cases h with
  | ok h =>
    cases h' with
    | ok h' => exact .ok (htrans _ _ _ h h')
  | error e f =>
    cases h' with
    | error _ g => exact .error e g

/-- Steps over items that are alike one by one. -/
theorem foldlM_congr {step : α → β → Except Error α} {X : β → β → Prop}
    (hstep : ∀ {a b x y}, R a b → X x y → Accord R (step a x) (step b y)) {xs ys : List β} (h : List.Forall₂ X xs ys) {a b : α}
    (hab : R a b) : Accord R (xs.foldlM step a) (ys.foldlM step b) := by
  induction h generalizing a b with
  | nil => exact .ok hab
  | cons hxy _ ih =>
    rw [List.foldlM_cons, List.foldlM_cons]
    exact (hstep hab hxy).bind fun _ _ => ih

/-- Steps over items with different keys, in another order, where two of them commute if their keys differ. -/
theorem foldlM_perm {step : α → β → Except Error α} (key : β → κ) (hrefl : ∀ a, R a a)
    (htrans : ∀ a b c, R a b → R b c → R a c) (hstep : ∀ a b x, R a b → Accord R (step a x) (step b x))
    (hswap : ∀ a x y, key x ≠ key y → Accord R (step a x >>= (step · y)) (step a y >>= (step · x))) {xs ys : List β}
    (h : xs.Perm ys) (hnodup : (xs.map key).Nodup) : ∀ a, Accord R (xs.foldlM step a) (ys.foldlM step a) := by
  have hsame : ∀ (zs : List β) {a b : α}, R a b → Accord R (zs.foldlM step a) (zs.foldlM step b) := fun zs =>
    foldlM_congr (X := Eq) (fun hab hxy => hxy ▸ hstep _ _ _ hab) (List.forall₂_refl zs)
  induction h with
  | nil => exact fun a => .ok (hrefl a)
  | cons x _ ih =>
    intro a
    rw [List.foldlM_cons, List.foldlM_cons]
    exact (refl hrefl (step a x)).bind fun b c hbc => (ih (List.nodup_cons.1 hnodup).2 b).trans (hsame _ hbc) htrans
  | swap x y zs =>
    intro a
    have hne : key y ≠ key x := fun he => (List.nodup_cons.1 hnodup).1 (he ▸ List.mem_cons_self)
    simp only [List.foldlM_cons, ← bind_assoc]
    exact (hswap a y x hne).bind fun b c hbc => hsame zs hbc
  | trans hxy _ ih ih' =>
    intro a
    exact (ih hnodup a).trans (ih' ((hxy.map key).nodup_iff.1 hnodup) a) htrans

end

end Accord

/-! ## Filters in another order -/

/-- The same conditions in another order, and the same mode. -/
structure FieldFilter.Reordered (f g : FieldFilter) : Prop where
  conditions : f.conditions.Perm g.conditions
  mode : f.mode = g.mode

namespace FieldFilter

variable {f g h : FieldFilter} {field : String}

theorem Reordered.refl (f : FieldFilter) : f.Reordered f := ⟨.refl _, rfl⟩

theorem Reordered.symm (hf : f.Reordered g) : g.Reordered f := ⟨hf.conditions.symm, hf.mode.symm⟩

theorem Reordered.trans (hf : f.Reordered g) (hg : g.Reordered h) : f.Reordered h :=
  ⟨hf.conditions.trans hg.conditions, hf.mode.trans hg.mode⟩

end FieldFilter

/-- The same fields in another order, each with its conditions in another order. -/
def Where.Reordered (w v : Where) : Prop := ∀ name, Option.Rel FieldFilter.Reordered (w.get? name) (v.get? name)

namespace Where.Reordered

variable {w v u : Where}

theorem refl (w : Where) : w.Reordered w := fun name => by
  cases w.get? name with
  | none => exact .none
  | some f => exact .some (.refl f)

theorem symm (h : w.Reordered v) : v.Reordered w := fun name => by
  have hname := h name
  generalize w.get? name = f, v.get? name = g at hname ⊢
  cases hname with
  | none => exact .none
  | some hf => exact .some hf.symm

theorem trans (h : w.Reordered v) (h' : v.Reordered u) : w.Reordered u := fun name => by
  have hname := h name
  have hname' := h' name
  generalize w.get? name = f, v.get? name = g, u.get? name = k at hname hname' ⊢
  cases hname with
  | none =>
    cases hname' with
    | none => exact .none
  | some hf =>
    cases hname' with
    | some hg => exact .some (hf.trans hg)

/-- A field of a filter is one of the other. -/
theorem mem (h : w.Reordered v) {e : String × FieldFilter} (he : e ∈ w.entries) :
    ∃ g, (e.1, g) ∈ v.entries ∧ e.2.Reordered g := by
  have hname := h e.1
  rw [Keyed.get?, Fields.get?_of_mem w.distinct he] at hname
  generalize hv : v.get? e.1 = found at hname
  cases hname with
  | some hg => exact ⟨_, Fields.mem_of_get? hv, hg⟩

/-- What is true of every condition of a filter, by its field and the mode there, is true of those of the other. -/
theorem forall_conditions (h : w.Reordered v) {P : String → Mode → Condition → Prop}
    (hw : ∀ e ∈ w.entries, ∀ c ∈ e.2.conditions, P e.1 e.2.mode c) : ∀ e ∈ v.entries, ∀ c ∈ e.2.conditions, P e.1 e.2.mode c := by
  intro e he c hc
  obtain ⟨f, hf, hreordered⟩ := h.symm.mem he
  rw [hreordered.mode]
  exact hw _ hf c (hreordered.conditions.mem_iff.1 hc)

/-- A document passes a filter exactly if it passes the other. -/
theorem passes_iff (h : w.Reordered v) (folding : Folding) (d : Document) : w.Passes folding d ↔ v.Passes folding d :=
  ⟨h.forall_conditions (P := fun field mode c => c.Passes folding mode (Fields.get? d field)),
    h.symm.forall_conditions (P := fun field mode c => c.Passes folding mode (Fields.get? d field))⟩

/-- One more field. -/
theorem put (h : w.Reordered v) (name : String) {f g : FieldFilter} (hf : f.Reordered g) :
    Where.Reordered (w.put name f) (v.put name g) := by
  intro other
  rw [Keyed.get?, Keyed.get?, Keyed.put, Keyed.put]
  by_cases hname : other = name
  · subst hname
    rw [Fields.get?_put_self, Fields.get?_put_self]
    exact .some hf
  · rw [Fields.get?_put_of_ne _ _ hname, Fields.get?_put_of_ne _ _ hname]
    exact h other

/-- Two more fields, in either order. -/
theorem put_put (w : Where) {name other : String} (h : name ≠ other) (f g : FieldFilter) :
    Where.Reordered ((w.put name f).put other g) ((w.put other g).put name f) := by
  intro field
  have heq : Keyed.get? ((w.put name f).put other g) field = Keyed.get? ((w.put other g).put name f) field := by
    simp only [Keyed.get?, Keyed.put]
    by_cases hname : field = name
    · subst hname
      rw [Fields.get?_put_of_ne _ _ h, Fields.get?_put_self, Fields.get?_put_self]
    · rw [Fields.get?_put_of_ne _ f hname]
      by_cases hother : field = other
      · subst hother
        rw [Fields.get?_put_self, Fields.get?_put_self]
      · rw [Fields.get?_put_of_ne _ _ hother, Fields.get?_put_of_ne _ _ hother, Fields.get?_put_of_ne _ _ hname]
  rw [heq]
  exact refl _ field

end Where.Reordered

/-! ## Reading filters -/

namespace FieldFilter

/-- What a member of a condition object states. -/
inductive Part where
  | mode (m : Mode)
  | condition (c : Condition)

/-- What a member of a condition object states, if it is understood. -/
def part? (field : String) (member : String × Json) : Option Part :=
  if member.1 = "mode" then (member.2.str?.bind Mode.ofName?).map .mode
  else (Operator.ofName? member.1).bind fun op => (Condition.ofJson field op member.2).toOption.map .condition

/-- A filter with one more part. -/
def take (f : FieldFilter) : Part → FieldFilter
  | .mode mode => { f with mode }
  | .condition c => f.add c

/-- A member that is understood is taken up as what it states. -/
theorem addMember_of_part {field : String} {member : String × Json} {p : Part} (h : part? field member = some p)
    (f : FieldFilter) : addMember field f member = .ok (f.take p) := by
  rw [part?] at h
  rw [addMember]
  split at h
  · obtain ⟨mode, hmode, rfl⟩ := Option.map_eq_some_iff.1 h
    simp only [*, if_true, take]
  · next hname =>
    obtain ⟨op, hop, h⟩ := Option.bind_eq_some_iff.1 h
    obtain ⟨c, hc, rfl⟩ := Option.map_eq_some_iff.1 h
    cases hcondition : Condition.ofJson field op member.2 with
    | error e => rw [hcondition] at hc; cases hc
    | ok c' =>
      rw [hcondition] at hc
      cases hc
      simp only [hname, if_false, hop, hcondition, take, Except.map]

/-- A member that is not understood is refused, whatever there is already. -/
theorem addMember_of_none {field : String} {member : String × Json} (h : part? field member = none) (f : FieldFilter) :
    ∃ e, addMember field f member = .error e := by
  rw [part?] at h
  rw [addMember]
  split at h
  · rw [Option.map_eq_none_iff] at h
    simp only [*, if_true]
    exact ⟨_, rfl⟩
  · next hname =>
    rw [if_neg hname]
    cases hop : Operator.ofName? member.1 with
    | none => exact ⟨_, rfl⟩
    | some op =>
      cases hcondition : Condition.ofJson field op member.2 with
      | error e => exact ⟨e, by simp only [hcondition, Except.map]⟩
      | ok c => simp [hop, hcondition, Except.toOption] at h

theorem Reordered.take {f g : FieldFilter} (h : f.Reordered g) (p : Part) : (f.take p).Reordered (g.take p) := by
  cases p with
  | mode mode => exact ⟨h.conditions, rfl⟩
  | condition c => exact ⟨h.conditions.append_right [c], h.mode⟩

/-- Two parts, of which one at most is a mode, may be taken up in either order. -/
theorem take_take (f : FieldFilter) {p q : Part} (h : ∀ m n, p = .mode m → q ≠ .mode n) :
    ((f.take p).take q).Reordered ((f.take q).take p) := by
  cases p with
  | mode m =>
    cases q with
    | mode n => exact absurd rfl (h m n rfl)
    | condition c => exact .refl _
  | condition c =>
    cases q with
    | mode n => exact .refl _
    | condition c' =>
      refine ⟨?_, rfl⟩
      show ((f.conditions ++ [c]) ++ [c']).Perm ((f.conditions ++ [c']) ++ [c])
      rw [List.append_assoc, List.append_assoc]
      exact (List.Perm.swap c' c []).append_left f.conditions

/-- Only a member of one name states a mode. -/
theorem name_of_mode {field : String} {member : String × Json} {m : Mode} (h : part? field member = some (.mode m)) :
    member.1 = "mode" := by
  rw [part?] at h
  split at h
  · next hname => exact hname
  · obtain ⟨op, -, h⟩ := Option.bind_eq_some_iff.1 h
    obtain ⟨c, -, h⟩ := Option.map_eq_some_iff.1 h
    cases h

/-- A member is taken up alike by filters that differ in the order of their conditions. -/
theorem addMember_accord (field : String) {f g : FieldFilter} (h : f.Reordered g) (member : String × Json) :
    Accord Reordered (addMember field f member) (addMember field g member) := by
  cases hpart : part? field member with
  | some p =>
    rw [addMember_of_part hpart, addMember_of_part hpart]
    exact .ok (h.take p)
  | none =>
    obtain ⟨e, he⟩ := addMember_of_none hpart f
    obtain ⟨e', he'⟩ := addMember_of_none hpart g
    rw [he, he']
    exact .error e e'

/-- Two members of different names are taken up in either order. -/
theorem addMember_swap (field : String) (f : FieldFilter) (a b : String × Json) (h : a.1 ≠ b.1) :
    Accord Reordered (addMember field f a >>= (addMember field · b)) (addMember field f b >>= (addMember field · a)) := by
  -- a member that is refused is refused first or second
  have hrefused : ∀ {a b : String × Json}, part? field a = none → ∃ e e', addMember field f a >>= (addMember field · b) = .error e ∧
      addMember field f b >>= (addMember field · a) = .error e' := by
    intro a b ha
    obtain ⟨e, he⟩ := addMember_of_none ha f
    cases hb : part? field b with
    | none =>
      obtain ⟨e', he'⟩ := addMember_of_none hb f
      exact ⟨e, e', by rw [he]; rfl, by rw [he']; rfl⟩
    | some q =>
      obtain ⟨e', he'⟩ := addMember_of_none ha (f.take q)
      exact ⟨e, e', by rw [he]; rfl, by rw [addMember_of_part hb]; exact he'⟩
  cases ha : part? field a with
  | none =>
    obtain ⟨e, e', he, he'⟩ := hrefused (b := b) ha
    rw [he, he']
    exact .error e e'
  | some p =>
    cases hb : part? field b with
    | none =>
      obtain ⟨e, e', he, he'⟩ := hrefused (b := a) hb
      rw [he, he']
      exact .error e' e
    | some q =>
      have hmodes : ∀ m n, p = .mode m → q ≠ .mode n := by
        rintro m n rfl rfl
        exact h ((name_of_mode ha).trans (name_of_mode hb).symm)
      rw [addMember_of_part ha, addMember_of_part hb]
      show Accord Reordered (addMember field (f.take p) b) (addMember field (f.take q) a)
      rw [addMember_of_part ha, addMember_of_part hb]
      exact .ok (take_take f hmodes)

/-- What the members of a condition object state, in any order. -/
theorem ofMembers_accord (field : String) {members others : List (String × Json)} (h : members.Perm others)
    (hnodup : (Fields.names members).Nodup) : Accord Reordered (ofJson field (.obj members)) (ofJson field (.obj others)) :=
  Accord.foldlM_perm Prod.fst .refl (fun _ _ _ => .trans) (fun _ _ member h => addMember_accord field h member)
    (addMember_swap field) h hnodup empty

end FieldFilter

/-- Conditions on a field in JSON that differ in the order of their members at most. -/
inductive Json.SameMembers : Json → Json → Prop
  | refl (j : Json) : SameMembers j j
  | perm {members others : List (String × Json)} : members.Perm others → (Fields.names members).Nodup →
    SameMembers (.obj members) (.obj others)

/-- The fields of a filter in JSON in another order, and the members of the conditions on each of them, too. -/
structure Where.Rearranged (fields others : List (String × Json)) : Prop where
  distinct : (Fields.names fields).Nodup
  matched : ∃ middle, fields.Perm middle ∧ List.Forall₂ (fun e e' => e.1 = e'.1 ∧ e.2.SameMembers e'.2) middle others

/-- The conditions on a field that are stated in another order. -/
theorem FieldFilter.ofJson_accord (field : String) {j j' : Json} (h : j.SameMembers j') :
    Accord Reordered (ofJson field j) (ofJson field j') := by
  cases h with
  | refl => exact .refl .refl _
  | perm h hnodup => exact ofMembers_accord field h hnodup

namespace Where

/-- One field of a filter in JSON. -/
def addField (w : Where) (e : String × Json) : Except Error Where := (FieldFilter.ofJson e.1 e.2).map (w.put e.1)

/-- Fields of different names are read in either order. -/
theorem addField_swap (w : Where) (a b : String × Json) (h : a.1 ≠ b.1) :
    Accord Reordered (addField w a >>= (addField · b)) (addField w b >>= (addField · a)) := by
  simp only [addField]
  cases FieldFilter.ofJson a.1 a.2 with
  | error e =>
    cases FieldFilter.ofJson b.1 b.2 with
    | error e' => exact .error e e'
    | ok g => exact .error e e
  | ok f =>
    cases FieldFilter.ofJson b.1 b.2 with
    | error e' => exact .error e' e'
    | ok g => exact .ok (Reordered.put_put w h f g)

/-- A filter that is stated in another order is read alike. -/
theorem ofJson_accord {fields others : List (String × Json)} (h : Rearranged fields others) :
    Accord Reordered (ofJson (.obj fields)) (ofJson (.obj others)) := by
  obtain ⟨middle, hperm, hmatched⟩ := h.matched
  have hsame : ∀ (w v : Where) (e : String × Json), w.Reordered v → Accord Reordered (addField w e) (addField v e) :=
    fun w v e hw => (Accord.refl FieldFilter.Reordered.refl _).map fun _ _ hf => hw.put e.1 hf
  have hmoved : Accord Reordered (fields.foldlM addField Keyed.empty) (middle.foldlM addField Keyed.empty) :=
    Accord.foldlM_perm Prod.fst Reordered.refl (fun _ _ _ => Reordered.trans) hsame addField_swap hperm h.distinct Keyed.empty
  refine hmoved.trans ?_ fun _ _ _ => Reordered.trans
  refine Accord.foldlM_congr (fun {w v e e'} hw he => ?_) hmatched (.refl _)
  obtain ⟨name, j⟩ := e
  obtain ⟨rfl, hj⟩ := he
  exact (FieldFilter.ofJson_accord _ hj).map fun _ _ hf => hw.put _ hf

end Where

/-! ## Checking filters -/

namespace Condition

/-- An operand of a known type passes the check of a field only if that is its type. -/
theorem fieldType_of_checkOperand {field : String} {op : Operator} {ty : FieldType} {v : Operand}
    (h : checkOperand field op (some ty) true v = .ok ()) : v.fieldType = ty := by
  rw [checkOperand] at h
  split at h
  · cases h
  · simpa using h

/-- A condition passes the check of a field of a known type only if its operator applies to the type. -/
theorem supports_of_check {field : String} {ty : FieldType} {c : Condition} (h : check field (some ty) c = .ok ()) :
    c.operator.supports ty = true := by
  cases hs : c.operator.supports ty with
  | true => rfl
  | false => simp [check, hs, throw, throwThe, MonadExceptOf.throw, bind, Except.bind] at h

/-- A condition passes the check of a field only if the type that it implies, if any, is that of the field. -/
theorem impliedType_of_check {field : String} {ty : FieldType} {c : Condition} (h : check field (some ty) c = .ok ()) :
    ∀ implied, c.impliedType? = some implied → implied = ty := by
  intro implied himplied
  cases c with
  | compare op v =>
    have hv := operand_of_check h
    cases hrange : op.isRange with
    | true => simp [impliedType?, hrange] at himplied
    | false =>
      simp only [impliedType?, hrange] at himplied
      cases himplied
      rw [hrange] at hv
      exact fieldType_of_checkOperand hv
  | text t part =>
    cases himplied
    exact (beq_iff_eq.1 (supports_of_check h)).symm
  | member negated vs =>
    cases vs with
    | nil => cases himplied
    | cons v vs =>
      cases himplied
      exact fieldType_of_checkOperand ((operands_of_check h).2 v List.mem_cons_self)

end Condition

namespace FieldFilter

/-- When the conditions on a field pass their check. -/
theorem validate_eq_ok {field : String} {f : FieldFilter} :
    f.validate field = .ok () ↔ f.conditions ≠ [] ∧ ∀ c ∈ f.conditions, Condition.check field f.inferredType? c = .ok () := by
  rw [validate]
  split
  · next h => simp [List.isEmpty_iff.1 h]
  · next h => rw [forM_eq_ok, and_iff_right fun hnil => h (List.isEmpty_iff.2 hnil)]

/-- Whichever condition of a field implies a type, in conditions that pass their check it is the type of the field. -/
theorem inferredType?_of_mem {field : String} {f : FieldFilter} (h : f.validate field = .ok ()) {c : Condition}
    (hc : c ∈ f.conditions) {implied : FieldType} (himplied : c.impliedType? = some implied) : f.inferredType? = some implied := by
  cases hty : f.inferredType? with
  | none => rw [List.findSome?_eq_none_iff.1 hty c hc] at himplied; cases himplied
  | some ty =>
    have hcheck := (validate_eq_ok.1 h).2 c hc
    rw [hty] at hcheck
    rw [Condition.impliedType_of_check hcheck implied himplied]

/-- Conditions that pass their check tell the type of the field in any order. -/
theorem Reordered.inferredType?_eq {field : String} {f g : FieldFilter} (h : f.Reordered g) (hf : f.validate field = .ok ()) :
    g.inferredType? = f.inferredType? := by
  cases hty : g.inferredType? with
  | none =>
    have hnone := List.findSome?_eq_none_iff.1 hty
    exact (List.findSome?_eq_none_iff.2 fun c hc => hnone c (h.conditions.mem_iff.1 hc)).symm
  | some ty =>
    obtain ⟨c, hc, himplied⟩ := List.exists_of_findSome?_eq_some hty
    exact (inferredType?_of_mem hf (h.conditions.mem_iff.2 hc) himplied).symm

/-- Conditions that pass their check pass it in any order. -/
theorem Reordered.validate {field : String} {f g : FieldFilter} (h : f.Reordered g) (hf : f.validate field = .ok ()) :
    g.validate field = .ok () := by
  obtain ⟨hne, hcheck⟩ := validate_eq_ok.1 hf
  refine validate_eq_ok.2 ⟨fun hnil => hne ?_, fun c hc => ?_⟩
  · exact List.perm_nil.1 (hnil ▸ h.conditions)
  · rw [h.inferredType?_eq hf]
    exact hcheck c (h.conditions.mem_iff.2 hc)

end FieldFilter

namespace Where

/-- When a filter is valid. -/
theorem valid_iff {w : Where} : w.Valid ↔ ∀ e ∈ w.entries, e.1.isEmpty = false ∧ e.2.validate e.1 = .ok () := by
  rw [Valid, validate, forM_eq_ok]
  refine forall₂_congr fun e _ => ?_
  obtain ⟨name, f⟩ := e
  cases h : name.isEmpty <;> simp only [h] <;> simp

namespace Reordered

variable {w v : Where}

/-- A filter that is valid is so in another order. -/
theorem valid (h : w.Reordered v) (hw : w.Valid) : v.Valid := by
  refine valid_iff.2 fun e he => ?_
  obtain ⟨f, hf, hreordered⟩ := h.symm.mem he
  obtain ⟨hname, hvalid⟩ := valid_iff.1 hw _ hf
  exact ⟨hname, hreordered.symm.validate hvalid⟩

/-- A filter is valid exactly if it is so in another order. -/
theorem valid_iff (h : w.Reordered v) : w.Valid ↔ v.Valid := ⟨h.valid, h.symm.valid⟩

end Reordered

end Where

end DocQuery
