import DocQuery.Proofs.Repository.Ensures
import DocQuery.Proofs.Repository.Preparing

/-!
# Writes that succeed

A write that succeeds has read the clock at most once, has perhaps looked at its record, and then sent one call that writes, which
the store has answered (`Viewed.Ends`). What it has written is the payload of its caller with the automatic fields
(`Repository.create_gives`, `Repository.update_gives`).
-/

namespace DocQuery

open Operation

variable {I : Interface} {S V α : Type}

/-! ## Last calls -/

namespace Viewed

/-- A world to which calls have led that leave what is seen as it was. -/
structure Still (v : Viewed I S V) (w w' : World I (S × List (Option StoreError))) : Prop where
  view : v.view w'.store.1 = v.view w.store.1
  readings : w'.readings = w.readings
  log : ∃ calls, w'.log = w.log ++ calls

/-- A world to which such calls have led and then another one, which the store has answered. -/
structure Ends (v : Viewed I S V) (w w' : World I (S × List (Option StoreError))) (c : I.Call) (answer : I.Answer c) : Prop where
  store : ∃ s, v.view s = v.view w.store.1 ∧ v.answer c s = (.ok answer, w'.store.1)
  readings : w'.readings = w.readings
  log : ∃ calls, w'.log = w.log ++ calls ++ [c]

variable {v : Viewed I S V} {w w' w'' : World I (S × List (Option StoreError))}

theorem Still.refl (v : Viewed I S V) (w : World I (S × List (Option StoreError))) : v.Still w w :=
  ⟨rfl, rfl, [], (List.append_nil _).symm⟩

/-- A last call after others. -/
theorem Still.ends (h : v.Still w w') {c : I.Call} {answer : I.Answer c} (hends : v.Ends w' w'' c answer) : v.Ends w w'' c answer := by
  obtain ⟨s, hview, hanswer⟩ := hends.store
  obtain ⟨before, hbefore⟩ := h.log
  obtain ⟨calls, hcalls⟩ := hends.log
  refine ⟨⟨s, hview.trans h.view, hanswer⟩, hends.readings.trans h.readings, before ++ calls, ?_⟩
  rw [hcalls, hbefore, List.append_assoc w.log]

end Viewed

section

variable {v : Viewed I S V} {clock : Nat → Instant} {ids : Nat → String} {latency : Nat}
  {w : World I (S × List (Option StoreError))} {c : I.Call}

/-- A call that succeeds has been answered by the store. -/
theorem Surroundings.answer_of_flaky {answer : (c : I.Call) → S → Except StoreError (I.Answer c) × S}
    {store : S × List (Option StoreError)} {a : I.Answer c}
    (h : ((Surroundings.flaky answer clock ids latency).answer c store).1 = .ok a) :
    answer c store.1 = (.ok a, ((Surroundings.flaky answer clock ids latency).answer c store).2.1) := by
  obtain ⟨s, faults⟩ := store
  simp only [Surroundings.flaky] at h ⊢
  split at h
  · cases h
  · exact Prod.ext h rfl

/-- A call that succeeds is the last one if no other follows. -/
theorem Viewed.Ends.of_flaky {answer : I.Answer c}
    (h : ((Surroundings.flaky v.answer clock ids latency).answer c w.store).1 = .ok answer) :
    v.Ends w { w with
      log := w.log ++ [c], store := ((Surroundings.flaky v.answer clock ids latency).answer c w.store).2 } c answer :=
  ⟨⟨_, rfl, Surroundings.answer_of_flaky h⟩, rfl, [], congrArg (· ++ [c]) (List.append_nil _).symm⟩

namespace Operation

/-- A call is the last one of its operation. -/
theorem ask_ends (refusal : StoreError → Error) :
    (Operation.ask c refusal).Gives (.flaky v.answer clock ids latency) (fun answer w' => v.Ends w w' c answer) w :=
  .ask fun _ hanswer => .of_flaky hanswer

end Operation

end

/-! ## Documents -/

/-- What a creation has prepared: a document with the instants that the clock showed, and otherwise that of its caller. -/
structure Prepared (config : EntityConfig) (idField : String) (clock : Nat → Instant) (data : Json) (w : World I S) (d : Document)
    (w' : World I S) : Prop where
  store : w'.store = w.store
  log : w'.log = w.log
  stamped : config.autoFields.timestamp = true → w'.readings = w.readings + 1 ∧
    Fields.get? d createdAt = some (.str (clock w.readings).text) ∧ Fields.get? d updatedAt = some (.str (clock w.readings).text)
  kept : ∀ members id, data = .obj members → Fields.get? members idField = some (.str id) → config.Spares idField →
    Fields.get? d idField = some (.str id)

namespace Repository

variable {ρ : Type} {env : Surroundings I S} {w : World I S}

/-- A document with an identifier keeps it. -/
theorem withId_gives (r : Repository I ρ) (d : Document) : (r.withId d).Gives env (fun d' w' =>
    w'.store = w.store ∧ w'.log = w.log ∧ w'.readings = w.readings ∧
      ∀ id, Fields.get? d r.adapter.idField = some (.str id) → d' = d) w := by
  unfold withId
  dsimp only
  split
  · exact .of_bind fun _ _ => .pure ⟨rfl, rfl, rfl, fun _ _ => rfl⟩
  · exact .throw _
  · next hnone =>
    split
    · refine .bind (R := fun _ w' => w'.store = w.store ∧ w'.log = w.log ∧ w'.readings = w.readings) (.freshId ⟨rfl, rfl, rfl⟩)
        fun id w' ⟨hstore, hlog, hreadings⟩ => ?_
      refine .of_bind fun _ _ => .pure ⟨hstore, hlog, hreadings, fun other hother => ?_⟩
      cases hnone.symm.trans hother
    · exact .throw _

/-- A new record has the instant that the clock shows, and its other fields are as they were. -/
theorem withCreation_gives (r : Repository I ρ) (d : Document) : (r.withCreation d).Gives env (fun d' w' =>
    w'.store = w.store ∧ w'.log = w.log ∧
      (r.config.autoFields.timestamp = true → w'.readings = w.readings + 1 ∧
        Fields.get? d' createdAt = some (.str (env.clock w.readings).text) ∧
        Fields.get? d' updatedAt = some (.str (env.clock w.readings).text)) ∧
      ∀ field, r.config.Spares field → Fields.get? d' field = Fields.get? d field) w := by
  unfold withCreation
  split
  · next ht =>
    refine .bind (R := fun now w' => now = env.clock w.readings ∧ w' = { w with readings := w.readings + 1 }) (.now ⟨rfl, rfl⟩) ?_
    rintro now w' ⟨rfl, rfl⟩
    refine .pure ⟨rfl, rfl, fun _ => ⟨rfl, ?_, Fields.get?_put_self _ _ _⟩, fun field hfield => ?_⟩
    · rw [Fields.get?_put_of_ne _ _ (by decide), Fields.get?_put_self]
    · obtain ⟨hcreated, hupdated⟩ := hfield ht
      rw [Fields.get?_put_of_ne _ _ hupdated, Fields.get?_put_of_ne _ _ hcreated]
  · next ht => exact .pure ⟨rfl, rfl, fun h => absurd h ht, fun _ _ => rfl⟩

/-- The members of a payload are those of its object. -/
theorem obj_of_payload {operation : PayloadOperation} {data : Json} {members : Document} (h : payload operation data = .ok members) :
    data = .obj members := by
  unfold payload at h
  split at h <;> cases h
  rfl

/-- Preparing a document. -/
theorem prepare_gives (r : Repository I Document) (data : Json) :
    (r.prepare data).Gives env (fun d w' => Prepared r.config r.adapter.idField env.clock data w d w') w := by
  refine .of_bind fun members hmembers => ?_
  refine .bind (withId_gives r members) fun d w₁ ⟨hstore, hlog, hreadings, hkept⟩ => ?_
  refine (withCreation_gives r d).imp fun d' w₂ ⟨hstore', hlog', hstamped, hother⟩ => ?_
  rw [hreadings] at hstamped
  refine ⟨hstore'.trans hstore, hlog'.trans hlog, hstamped, ?_⟩
  rintro _ id rfl hid hspares
  cases obj_of_payload hmembers
  rw [hother _ hspares, hkept id hid, hid]

section

variable {a : Adapter I} {config : EntityConfig}

variable (a config) in
/-- A creation stores the document that it has prepared. -/
theorem create_gives {R : Document → World I S → Document → World I S → Prop}
    (data : Json) (hinsert : ∀ d w₁, Prepared config a.idField env.clock data w d w₁ →
      (a.insert d config.writePolicy).Gives env (R d w₁) w₁) :
    ((ofDocuments config a).create data).Gives env (fun stored w' => ∃ d w₁,
      Prepared config a.idField env.clock data w d w₁ ∧ R d w₁ stored w') w := by
  rw [create_eq]
  refine .bind (prepare_gives _ data) fun d w₁ hd => ?_
  refine .bind (hinsert d w₁ hd) fun stored w₂ hstored => .of fun record hrecord => ?_
  cases hrecord
  exact ⟨d, w₁, hd, hstored⟩

variable (a config) in
/-- A removal of a record removes it from the store. -/
theorem delete_gives (id : String) {R : Unit → World I S → Prop}
    (hdelete : (a.delete id config.writePolicy).Gives env R w) : ((ofDocuments config a).delete id).Gives env R w :=
  .of_bind fun _ _ => hdelete

end

end Repository

end DocQuery
