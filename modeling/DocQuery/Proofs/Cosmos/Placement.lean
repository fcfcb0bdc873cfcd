import DocQuery.Proofs.Cosmos.Updates

/-!
# Records stay in their places

A container is a list of documents in the order in which they came, and the operations on it look a document up by its identifier and
then write in its place. So no two documents ever have one identifier, and an update changes one document, where it stands: neither its
identifier nor the value that it is partitioned by becomes another one (`updates_stay`).
-/

namespace DocQuery.Cosmos

open Operation

/-! ## Containers with documents -/

/-- A store without a failure in its way, in whose container some documents stand, each with an identifier and no two with one. -/
structure Shelved (c : Container) (ds : List Document) (s : Memory) : Prop where
  failure : s.failure = none
  shelf : s.shelf? c = some ⟨c.partitionKey, ds⟩
  named : ∀ d ∈ ds, ∃ id, documentId? d = some id
  nodup : (ds.map documentId?).Nodup

/-- Documents before and after one was set: it is new and comes last, or takes the place of the one with its identifier. -/
inductive Sets (id : String) (d : Document) : List Document → List Document → Prop
  | new {ds : List Document} : (∀ e ∈ ds, documentId? e ≠ some id) → Sets id d ds (ds ++ [d])
  | inPlace {as bs : List Document} {old : Document} : documentId? old = some id → Sets id d (as ++ old :: bs) (as ++ d :: bs)

section

variable {c : Container} {s : Memory} {as bs ds ds' : List Document} {d old : Document} {id : String}

/-- A new container has no documents. -/
theorem shelved_new (c : Container) : Shelved c [] (Memory.empty.withContainer c) where
  failure := rfl
  shelf := by simp [Memory.shelf?, Memory.withContainer, Memory.empty]
  named := nofun
  nodup := .nil

/-- Documents stay different in their identifiers when one is set under its own. -/
theorem Shelved.sets (h : Shelved c ds s) (hid : documentId? d = some id) (hsets : Sets id d ds ds') :
    Shelved c ds' (s.setDocuments c ds') := by
  refine ⟨h.failure, shelf?_setDocuments h.shelf ds', ?_, ?_⟩
  · cases hsets with
    | new =>
      intro e he
      rcases List.mem_append.1 he with he | he
      · exact h.named e he
      · exact ⟨id, List.mem_singleton.1 he ▸ hid⟩
    | inPlace hold =>
      intro e he
      rcases List.mem_cons.1 (List.perm_middle.mem_iff.1 he) with rfl | he
      · exact ⟨id, hid⟩
      · exact h.named e (List.perm_middle.mem_iff.2 (List.mem_cons_of_mem _ he))
  · have hnodup := h.nodup
    cases hsets with
    | new hnew =>
      rw [List.map_append, List.map_singleton, ← List.concat_eq_append]
      refine hnodup.concat fun hmem => ?_
      obtain ⟨e, he, heq⟩ := List.mem_map.1 hmem
      exact hnew e he (heq.trans hid)
    | inPlace hold =>
      rw [List.map_append, List.map_cons, hold] at hnodup
      rwa [List.map_append, List.map_cons, hid]

/-- Documents stay different in their identifiers when one is removed. -/
theorem Shelved.remove (h : Shelved c (as ++ old :: bs) s) : Shelved c (as ++ bs) (s.setDocuments c (as ++ bs)) := by
  have hsub : List.Sublist (as ++ bs) (as ++ old :: bs) := (List.sublist_cons_self old bs).append_left as
  exact ⟨h.failure, shelf?_setDocuments h.shelf _, fun e he => h.named e (hsub.subset he), h.nodup.sublist (hsub.map _)⟩

/-- An identifier is free, or one document has it. -/
theorem Shelved.stands (h : Shelved c ds s) (id : String) : ∃ found, DocQuery.Stands id ds found := DocQuery.Stands.of_nodup h.nodup id

/-! ## Calls -/

/-- The place of a document in the partition of a value. -/
theorem positionIn?_split (hold : documentId? old = some id) (hothers : ∀ e ∈ as ++ bs, documentId? e ≠ some id) (key : String)
    (partition : Json) : Shelf.positionIn? ⟨key, as ++ old :: bs⟩ id partition =
      (Fields.get? old key).bind fun value => if value.same partition then some as.length else none := by
  rw [Shelf.positionIn?, position?_split hothers hold]
  simp [bind]

/-- Creating a document sets it, unless its identifier is taken. -/
theorem Shelved.create_act (h : Shelved c ds s) (hid : documentId? d = some id) :
    (∃ reason, s.create c d = (.error reason, s)) ∨
      ∃ ds', s.create c d = (.ok d, s.setDocuments c ds') ∧ Sets id d ds ds' := by
  obtain ⟨found, hfound⟩ := h.stands id
  have hcreate := create_eq h.shelf hfound hid
  cases hfound with
  | absent hnew => exact .inr ⟨_, hcreate, .new hnew⟩
  | alone hold hothers =>
    obtain ⟨reason, hcreate⟩ := hcreate
    exact .inl ⟨_, hcreate⟩

/-- Storing a document sets it. -/
theorem Shelved.upsert_act (h : Shelved c ds s) (hid : documentId? d = some id) :
    ∃ ds', s.upsert c d = (.ok d, s.setDocuments c ds') ∧ Sets id d ds ds' := by
  have hrequire : requireId d = .ok id := by rw [requireId, hid]
  obtain ⟨found, hfound⟩ := h.stands id
  cases hfound with
  | absent hnew =>
    refine ⟨ds ++ [d], ?_, .new hnew⟩
    simp only [Memory.upsert, hrequire, Memory.requireShelf, h.shelf, position?_absent hnew, bind, Except.bind, Memory.store]
  | @alone as bs old hold hothers =>
    refine ⟨as ++ d :: bs, ?_, .inPlace hold⟩
    simp only [Memory.upsert, hrequire, Memory.requireShelf, h.shelf, position?_split hothers hold, bind, Except.bind, Memory.store]
    simp

/-- Replacing a document puts another one in its place, if it is in the partition that it is looked for in. -/
theorem Shelved.replace_act (h : Shelved c (as ++ old :: bs) s) (hold : documentId? old = some id)
    (hothers : ∀ e ∈ as ++ bs, documentId? e ≠ some id) (partition : Json) (d : Document) :
    (∃ reason, s.replace c id partition d = (.error reason, s)) ∨
      (∃ value, Fields.get? old c.partitionKey = some value ∧ value.same partition = true) ∧
        s.replace c id partition d = (.ok d, s.setDocuments c (as ++ d :: bs)) := by
  have hposition := positionIn?_split hold hothers c.partitionKey partition
  simp only [Memory.replace, Memory.requireShelf, h.shelf, Memory.requirePosition, hposition, bind, Except.bind]
  cases hvalue : Fields.get? old c.partitionKey with
  | none => exact .inl ⟨_, rfl⟩
  | some value =>
    cases hsame : value.same partition with
    | false => exact .inl ⟨.notFound ("Resource Not Found: " ++ id), by simp [hsame, Memory.store]⟩
    | true => exact .inr ⟨⟨value, rfl, hsame⟩, by simp [hsame, Memory.store]⟩

/-- Removing a document leaves the others. -/
theorem Shelved.delete_act (h : Shelved c (as ++ old :: bs) s) (hold : documentId? old = some id)
    (hothers : ∀ e ∈ as ++ bs, documentId? e ≠ some id) (partition : Json) :
    (∃ reason, s.delete c id partition = (.error reason, s)) ∨
      s.delete c id partition = (.ok (), s.setDocuments c (as ++ bs)) := by
  have hposition := positionIn?_split hold hothers c.partitionKey partition
  simp only [Memory.delete, Memory.requireShelf, h.shelf, Memory.requirePosition, hposition, bind, Except.bind]
  cases hvalue : Fields.get? old c.partitionKey with
  | none => exact .inl ⟨_, rfl⟩
  | some value =>
    cases hsame : value.same partition with
    | false => exact .inl ⟨.notFound ("Resource Not Found: " ++ id), by simp [hsame, Memory.store]⟩
    | true =>
      refine .inr ?_
      simp [hsame, Memory.store, List.eraseIdx_append_of_length_le]

end

/-! ## Writes -/

section

variable {clock : Nat → Instant} {ids : Nat → String} {c : Container} {w : World service Memory} {as bs ds : List Document}
  {d old : Document} {id : String}

variable (clock ids) in
/-- Finding a document in a container, apart from the properties of the service. -/
theorem Shelved.find_yields (h : Shelved c ds w.store) {found : Option Document} (hfound : DocQuery.Stands id ds found) :
    ∃ log, (findById c id Select.all).Yields (surroundings clock ids) w (.ok (found.map strip)) { w with log } :=
  Cosmos.find_yields clock ids h.failure h.shelf hfound Select.all

variable (clock ids) in
/-- Storing a document, whatever is there. -/
theorem Shelved.upsert_yields (h : Shelved c ds w.store) (hid : documentId? d = some id) :
    ∃ w' ds', (upsert c d).Yields (surroundings clock ids) w (.ok (strip d)) w' ∧ Shelved c ds' w'.store ∧ Sets id d ds ds' := by
  obtain ⟨ds', hupsert, hsets⟩ := h.upsert_act hid
  exact ⟨_, ds', ask_yields clock ids h.failure (.upsert c d) hupsert .storeFailure strip, h.sets hid hsets, hsets⟩

variable (clock ids) in
/-- Storing a new document fails, or sets it. -/
theorem Shelved.insert_yields (h : Shelved c ds w.store) (d : Document) (policy : WritePolicy) :
    ∃ r w' ds', (insert c d policy).Yields (surroundings clock ids) w r w' ∧ Shelved c ds' w'.store := by
  have hdone : ∀ {op : Operation service Document} {e}, op = Operation.of (.error e) →
      ∃ r w' ds', op.Yields (surroundings clock ids) w r w' ∧ Shelved c ds' w'.store := by
    rintro op e rfl
    exact ⟨.error e, w, ds, .of (.error e) w, h⟩
  unfold insert
  cases hfield : Fields.get? d "id" with
  | none => exact hdone rfl
  | some j =>
    cases j with
    | str id =>
      have hid : documentId? d = some id := documentId?_eq_some_iff.2 hfield
      cases hpartition : partitionValue c d with
      | error e => exact hdone rfl
      | ok value =>
        cases policy with
        | unchecked =>
          obtain ⟨w', ds', hupsert, hafter, -⟩ := h.upsert_yields clock ids hid
          exact ⟨_, w', ds', hupsert, hafter⟩
        | existenceChecked =>
          rcases h.create_act hid with ⟨reason, hcreate⟩ | ⟨ds', hcreate, hsets⟩
          · exact ⟨_, _, ds, ask_yields clock ids h.failure (.create c d) hcreate (taken id) strip, h⟩
          · exact ⟨_, _, ds', ask_yields clock ids h.failure (.create c d) hcreate (taken id) strip, h.sets hid hsets⟩
    | _ => exact hdone rfl

/-- A document that stays in its partition has, once it is changed, a value of the partition key that is the same as before. -/
theorem Stays.changed {changes : Document} (h : Stays c old changes) (hold : documentId? old = some id)
    (hnodup : (Fields.names changes).Nodup) {value : Json} (hvalue : Fields.get? old c.partitionKey = some value)
    (hself : value.same value = true) :
    ∃ value', Fields.get? (changed id old changes) c.partitionKey = some value' ∧ value'.same value = true := by
  obtain ⟨stripped, hstripped, hstays⟩ := h
  by_cases hkey : c.partitionKey = "id"
  · have hstr : value = .str id := by
      rw [hkey, documentId?_eq_some_iff.1 hold] at hvalue
      exact (Option.some.inj hvalue).symm
    refine ⟨value, ?_, hself⟩
    rw [hkey, hstr]
    exact Fields.get?_put_self _ _ _
  · have hsystem : c.partitionKey ∉ systemProperties := by
      intro hmem
      rw [get?_strip, if_pos hmem] at hstripped
      cases hstripped
    have hsame : stripped = value := by
      rw [get?_strip, if_neg hsystem, hvalue] at hstripped
      exact (Option.some.inj hstripped).symm
    subst hsame
    rw [get?_changed hnodup hkey, if_neg hsystem]
    split
    · next hmem =>
      obtain ⟨requested, hrequested⟩ : ∃ requested, Fields.get? changes c.partitionKey = some requested := by
        refine Option.ne_none_iff_exists'.1 fun hnone => ?_
        exact Fields.get?_eq_none_iff.1 hnone hmem
      exact ⟨requested, hrequested, (hstays requested hrequested).resolve_right hkey⟩
    · exact ⟨stripped, hvalue, hself⟩

/-- Where the changes ask for another value of the partition key, a document does not stay. -/
theorem not_stays {changes : Document} (hkey : c.partitionKey ≠ "id") {value requested : Json}
    (hvalue : Fields.get? old c.partitionKey = some value) (hrequested : Fields.get? changes c.partitionKey = some requested)
    (hother : requested.same value = false) : ¬Stays c old changes := by
  rintro ⟨stripped, hstripped, hstays⟩
  rw [get?_strip] at hstripped
  split at hstripped
  · cases hstripped
  · obtain rfl := Option.some.inj (hvalue.symm.trans hstripped)
    rcases hstays requested hrequested with hsame | hid
    · rw [hother] at hsame
      cases hsame
    · exact hkey hid

variable (clock ids) in
/-- Replacing a document is refused if it does not stay in its partition, and otherwise fails or puts the changed one in its place. -/
theorem Shelved.replace_yields (h : Shelved c (as ++ old :: bs) w.store) (hold : documentId? old = some id)
    (hothers : ∀ e ∈ as ++ bs, documentId? e ≠ some id) (changes : Document) :
    ∃ r w', (replace c id (strip old) changes).Yields (surroundings clock ids) w r w' ∧
      ((∃ e, r = .error e) ∧ w'.store = w.store ∧ (¬Stays c old changes → ∃ fault, r = .error (.invalidArgument fault)) ∨
        (∃ stored, r = .ok stored) ∧ w'.store = w.store.setDocuments c (as ++ changed id old changes :: bs) ∧ Stays c old changes ∧
          ∃ value, Fields.get? old c.partitionKey = some value ∧ value.same value = true) := by
  rcases replace_stays c id old changes with ⟨hnot, fault, hreplace⟩ | ⟨hstays, value, hvalue, hreplace⟩
  · rw [hreplace]
    exact ⟨_, w, .of _ w, .inl ⟨⟨_, rfl⟩, rfl, fun _ => ⟨fault, rfl⟩⟩⟩
  · rw [hreplace]
    rcases h.replace_act hold hothers value (changed id old changes) with ⟨reason, hact⟩ | ⟨⟨stored, hstored, hself⟩, hact⟩
    · have hcall := ask_yields clock ids h.failure (.replace c id value (changed id old changes)) hact (missing id) strip
      exact ⟨_, _, hcall, .inl ⟨⟨_, rfl⟩, rfl, fun hnot => absurd hstays hnot⟩⟩
    · have hcall := ask_yields clock ids h.failure (.replace c id value (changed id old changes)) hact (missing id) strip
      have hsame : value = stored := by
        rw [get?_strip] at hvalue
        split at hvalue
        · cases hvalue
        · exact Option.some.inj (hvalue.symm.trans hstored)
      exact ⟨_, _, hcall, .inr ⟨⟨_, rfl⟩, rfl, hstays, stored, hstored, hsame ▸ hself⟩⟩

variable (clock ids) in
/-- Changing a document fails and leaves the store as it is, or sets one document under its identifier: the changed one, if one was
there, which then stays in its partition. -/
theorem Shelved.update_yields (h : Shelved c ds w.store) (id : String) (changes : Document) (policy : WritePolicy) :
    ∃ r w' ds', (update c id changes policy).Yields (surroundings clock ids) w r w' ∧ Shelved c ds' w'.store ∧
      ((∃ e, r = .error e) ∧ w'.store = w.store ∧
          (∀ old ∈ ds, documentId? old = some id → ¬Stays c old changes → ∃ fault, r = .error (.invalidArgument fault)) ∨
        (∃ stored, r = .ok stored) ∧ ∃ d, documentId? d = some id ∧ Sets id d ds ds' ∧
          ∀ old ∈ ds, documentId? old = some id → d = changed id old changes ∧ Stays c old changes ∧
            ∃ value, Fields.get? old c.partitionKey = some value ∧ value.same value = true) := by
  obtain ⟨found, hfound⟩ := h.stands id
  obtain ⟨log, hfind⟩ := h.find_yields clock ids hfound
  have hw : Shelved c ds ({ w with log } : World service Memory).store := h
  cases hfound with
  | absent hnew =>
    have hnone : ∀ old ∈ ds, documentId? old ≠ some id := hnew
    cases policy with
    | existenceChecked =>
      have hrun : (update c id changes .existenceChecked).Yields (surroundings clock ids) w (.error (.notFound id)) _ :=
        Yields.bind rfl hfind (.of _ _)
      exact ⟨_, _, ds, hrun, h, .inl ⟨⟨_, rfl⟩, rfl, fun old hmem hid => absurd hid (hnone old hmem)⟩⟩
    | unchecked =>
      have hid : documentId? (Fields.put (Fields.putAll [("id", .str id)] changes) "id" (.str id)) = some id :=
        documentId?_eq_some_iff.2 (Fields.get?_put_self _ _ _)
      cases hpartition : partitionValue c (Fields.put (Fields.putAll [("id", .str id)] changes) "id" (.str id)) with
      | error e =>
        have hrun : (update c id changes .unchecked).Yields (surroundings clock ids) w (.error e) _ :=
          Yields.bind rfl hfind (Yields.bind_error rfl (Yields.of_eq hpartition _) _)
        exact ⟨_, _, ds, hrun, h, .inl ⟨⟨_, rfl⟩, rfl, fun old hmem hid => absurd hid (hnone old hmem)⟩⟩
      | ok value =>
        obtain ⟨w', ds', hupsert, hafter, hsets⟩ := hw.upsert_yields clock ids hid
        have hrun : (update c id changes .unchecked).Yields (surroundings clock ids) w _ w' :=
          Yields.bind rfl hfind (Yields.bind rfl (Yields.of_eq hpartition _) hupsert)
        exact ⟨_, w', ds', hrun, hafter, .inr ⟨⟨_, rfl⟩, _, hid, hsets, fun old hmem hid => absurd hid (hnone old hmem)⟩⟩
  | @alone as bs old hold hothers =>
    have honly : ∀ e ∈ as ++ old :: bs, documentId? e = some id → e = old := by
      intro e he hid
      rcases List.mem_cons.1 (List.perm_middle.mem_iff.1 he) with rfl | he
      · rfl
      · exact absurd hid (hothers e he)
    obtain ⟨r, w', hreplace, hr⟩ := hw.replace_yields clock ids hold hothers changes
    have hrun : (update c id changes policy).Yields (surroundings clock ids) w r w' := Yields.bind rfl hfind hreplace
    rcases hr with ⟨herror, hstore, hrefused⟩ | ⟨hok, hstore, hstays, hvalue⟩
    · refine ⟨r, w', as ++ old :: bs, hrun, by rw [hstore]; exact h, .inl ⟨herror, hstore, fun e he hid hnot => ?_⟩⟩
      exact hrefused (honly e he hid ▸ hnot)
    · have hid := documentId?_changed id old changes
      have hsets : Sets id (changed id old changes) (as ++ old :: bs) (as ++ changed id old changes :: bs) := .inPlace hold
      refine ⟨r, w', _, hrun, by rw [hstore]; exact h.sets hid hsets, .inr ⟨hok, _, hid, hsets, fun e he heid => ?_⟩⟩
      rw [honly e he heid]
      exact ⟨rfl, hstays, hvalue⟩

variable (clock ids) in
/-- Removing a document fails, finds nothing to remove, or leaves the others. -/
theorem Shelved.delete_yields (h : Shelved c ds w.store) (id : String) (policy : WritePolicy) :
    ∃ r w' ds', (delete c id policy).Yields (surroundings clock ids) w r w' ∧ Shelved c ds' w'.store := by
  obtain ⟨found, hfound⟩ := h.stands id
  obtain ⟨log, hfind⟩ := h.find_yields clock ids hfound
  cases hfound with
  | absent hnew =>
    cases policy with
    | existenceChecked => exact ⟨.error (.notFound id), _, ds, Yields.bind rfl hfind (.of _ _), h⟩
    | unchecked => exact ⟨.ok (), _, ds, Yields.bind rfl hfind (.of _ _), h⟩
  | @alone as bs old hold hothers =>
    have hw : Shelved c (as ++ old :: bs) ({ w with log } : World service Memory).store := h
    cases hpartition : partitionValue c (strip old) with
    | error e =>
      have hrun : (delete c id policy).Yields (surroundings clock ids) w (.error e) _ :=
        Yields.bind rfl hfind (Yields.bind_error rfl (Yields.of_eq hpartition _) _)
      exact ⟨_, _, as ++ old :: bs, hrun, h⟩
    | ok value =>
      obtain ⟨answer, s, ds', hact, hafter⟩ : ∃ answer s ds', w.store.act (.delete c id value) = (answer, s) ∧ Shelved c ds' s := by
        rcases h.delete_act hold hothers value with ⟨reason, hact⟩ | hact
        · exact ⟨_, _, as ++ old :: bs, hact, h⟩
        · exact ⟨_, _, as ++ bs, hact, h.remove⟩
      have hcall := Yields.call (α := Unit) (w := { w with log }) (surroundings clock ids) (.delete c id value)
        (answerUnless_of_none h.failure hact)
      have hrun : (delete c id policy).Yields (surroundings clock ids) w _ _ :=
        Yields.bind rfl hfind (Yields.bind rfl (Yields.of_eq hpartition _) (hcall _))
      exact ⟨_, _, ds', hrun, hafter⟩

end

/-! ## Runs -/

/-- A write that is asked of the operations on a container. -/
inductive Access where
  | insert (d : Document) (policy : WritePolicy)
  | update (id : String) (changes : Document) (policy : WritePolicy)
  | delete (id : String) (policy : WritePolicy)

/-- What a write does; a removal returns no document. -/
def Access.perform (c : Container) : Access → Operation service (Option Document)
  | .insert d policy => do return some (← Cosmos.insert c d policy)
  | .update id changes policy => do return some (← Cosmos.update c id changes policy)
  | .delete id policy => do
    Cosmos.delete c id policy
    return none

/-- The world after a write, whether it succeeds or fails. -/
def Access.run (env : Surroundings service Memory) (c : Container) (w : World service Memory) (a : Access) : World service Memory :=
  (Program.run env none 0 w (ExceptT.run (a.perform c))).2

section

variable (clock : Nat → Instant) (ids : Nat → String) {c : Container} {ds : List Document}

/-- Every write leaves a container whose documents have identifiers, no two of them one. -/
theorem Shelved.access {w : World service Memory} (h : Shelved c ds w.store) (a : Access) :
    ∃ ds', Shelved c ds' (a.run (surroundings clock ids) c w).store := by
  have hdone : ∀ {α : Type} {op : Operation service α} {r w' ds'} (f : α → Option Document),
      op.Yields (surroundings clock ids) w r w' → Shelved c ds' w'.store →
      ∃ ds', Shelved c ds' (Program.run (surroundings clock ids) none 0 w (ExceptT.run (do return f (← op)))).2.store := by
    intro α op r w' ds' f hop hafter
    refine ⟨ds', ?_⟩
    cases r with
    | ok a =>
      have hrun : Operation.Yields (surroundings clock ids) (do return f (← op)) w (.ok (f a)) w' := Yields.bind rfl hop (.pure _ _)
      rwa [show Program.run _ none 0 w _ = _ from hrun]
    | error e =>
      have hrun : Operation.Yields (surroundings clock ids) (do return f (← op)) w (.error e) w' := Yields.bind_error rfl hop _
      rwa [show Program.run _ none 0 w _ = _ from hrun]
  cases a with
  | insert d policy =>
    obtain ⟨r, w', ds', hinsert, hafter⟩ := h.insert_yields clock ids d policy
    exact hdone some hinsert hafter
  | update id changes policy =>
    obtain ⟨r, w', ds', hupdate, hafter, -⟩ := h.update_yields clock ids id changes policy
    exact hdone some hupdate hafter
  | delete id policy =>
    obtain ⟨r, w', ds', hdelete, hafter⟩ := h.delete_yields clock ids id policy
    exact hdone (fun _ => none) hdelete hafter

/-- So does every run of writes. -/
theorem Shelved.accesses {w : World service Memory} (h : Shelved c ds w.store) (accesses : List Access) :
    ∃ ds', Shelved c ds' (accesses.foldl (Access.run (surroundings clock ids) c) w).store := by
  induction accesses generalizing w ds with
  | nil => exact ⟨ds, h⟩
  | cons a accesses ih =>
    obtain ⟨ds', hafter⟩ := h.access clock ids a
    exact ih hafter

end

/-- Records stay in their places. Whatever documents are inserted, changed and removed in a container, with or without a check, each of
its documents has an identifier, and no two have one. From there, an update that fails leaves the store as it is. One that succeeds sets
one document under its identifier and leaves the others and all places as they are; where a document has had the identifier, it is
changed in its place, and the value of its partition key is the same as before. An update that asks for another value of the partition
key, which is not the identifier, is refused. -/
theorem updates_stay (c : Container) (accesses : List Access) (clock : Nat → Instant) (ids : Nat → String) :
    let env := surroundings clock ids
    let w := accesses.foldl (Access.run env c) ⟨Memory.empty.withContainer c, 0, 0, []⟩
    ∃ ds, w.store.shelf? c = some ⟨c.partitionKey, ds⟩ ∧ (∀ d ∈ ds, ∃ id, documentId? d = some id) ∧ (ds.map documentId?).Nodup ∧
      ∀ id changes policy, (Fields.names changes).Nodup → ∃ r w' ds', (update c id changes policy).Yields env w r w' ∧
        w'.store.shelf? c = some ⟨c.partitionKey, ds'⟩ ∧
        (∀ e, r = .error e → w'.store = w.store) ∧
        (∀ stored, r = .ok stored → ∃ d, documentId? d = some id ∧ Sets id d ds ds' ∧
          ∀ old ∈ ds, documentId? old = some id → ∃ value value', Fields.get? old c.partitionKey = some value ∧
            Fields.get? d c.partitionKey = some value' ∧ value'.same value = true) ∧
        ∀ old ∈ ds, documentId? old = some id → c.partitionKey ≠ "id" → ∀ value requested,
          Fields.get? old c.partitionKey = some value → Fields.get? changes c.partitionKey = some requested →
          requested.same value = false → ∃ fault, r = .error (.invalidArgument fault) := by
  intro env w
  obtain ⟨ds, h⟩ : ∃ ds, Shelved c ds w.store :=
    Shelved.accesses clock ids (w := ⟨Memory.empty.withContainer c, 0, 0, []⟩) (shelved_new c) accesses
  refine ⟨ds, h.shelf, h.named, h.nodup, fun id changes policy hnodup => ?_⟩
  obtain ⟨r, w', ds', hrun, hafter, hr⟩ := h.update_yields clock ids id changes policy
  refine ⟨r, w', ds', hrun, hafter.shelf, ?_⟩
  rcases hr with ⟨⟨e, rfl⟩, hstore, hrefused⟩ | ⟨⟨stored, rfl⟩, d, hid, hsets, hplaced⟩
  · refine ⟨fun _ _ => hstore, nofun, ?_⟩
    intro old hmem hold hkey value requested hvalue hrequested hother
    exact hrefused old hmem hold (not_stays hkey hvalue hrequested hother)
  · refine ⟨nofun, fun _ _ => ⟨d, hid, hsets, ?_⟩, ?_⟩
    · intro old hmem hold
      obtain ⟨rfl, hstays, value, hvalue, hself⟩ := hplaced old hmem hold
      obtain ⟨value', hvalue', hsame⟩ := hstays.changed hold hnodup hvalue hself
      exact ⟨value, value', hvalue, hvalue', hsame⟩
    · intro old hmem hold hkey value requested hvalue hrequested hother
      obtain ⟨-, hstays, -⟩ := hplaced old hmem hold
      exact absurd hstays (not_stays hkey hvalue hrequested hother)

/-- Of two users in a container by city, one is renamed in its place and stays in its city; a move to another city is refused. -/
theorem updates_stay_in_city :
    let c : Container := ⟨"app", "users", "city"⟩
    let env := surroundings (fun n => ⟨n, 0⟩) fun _ => ""
    let ada : Document := [("id", .str "u-1"), ("name", .str "Ada"), ("city", .str "Oslo")]
    let bob : Document := [("id", .str "u-2"), ("name", .str "Bob"), ("city", .str "Rome")]
    let w := [Access.insert ada .existenceChecked, .insert bob .existenceChecked].foldl (Access.run env c)
      ⟨Memory.empty.withContainer c, 0, 0, []⟩
    (∃ stored w' ds' d, (update c "u-1" [("name", .str "Eva")] .existenceChecked).Yields env w (.ok stored) w' ∧
      w'.store.shelf? c = some ⟨"city", ds'⟩ ∧ documentId? d = some "u-1" ∧ Sets "u-1" d [ada, bob] ds' ∧
      ∃ city, Fields.get? d "city" = some city ∧ city.same (.str "Oslo") = true) ∧
    ∃ fault w', (update c "u-1" [("city", .str "Rome")] .existenceChecked).Yields env w (.error (.invalidArgument fault)) w' ∧
      w'.store = w.store := by
  intro c env ada bob w
  obtain ⟨hshelf, hrenames⟩ : (w.store.shelf? c).map Shelf.documents = some [ada, bob] ∧ ((Program.run env none 0 w
      (ExceptT.run (update c "u-1" [("name", .str "Eva")] .existenceChecked))).1.any fun r => r.isOk) = true := by
    revert w bob ada env c
    decide +kernel
  obtain ⟨ds, hds, -, -, hupdates⟩ := updates_stay c [.insert ada .existenceChecked, .insert bob .existenceChecked]
    (fun n => ⟨n, 0⟩) fun _ => ""
  obtain rfl : ds = [ada, bob] := Option.some.inj ((congrArg (Option.map Shelf.documents) hds).symm.trans hshelf)
  constructor
  · obtain ⟨r, w', ds', hrun, hafter, -, hok, -⟩ := hupdates "u-1" [("name", .str "Eva")] .existenceChecked (by decide)
    rw [show Program.run env none 0 w _ = _ from hrun] at hrenames
    cases r with
    | error e => cases hrenames
    | ok stored =>
      obtain ⟨d, hid, hsets, hcity⟩ := hok stored rfl
      obtain ⟨city, city', hold, hnew, hsame⟩ := hcity ada List.mem_cons_self rfl
      obtain rfl : Json.str "Oslo" = city := Option.some.inj hold
      exact ⟨stored, w', ds', d, hrun, hafter, hid, hsets, city', hnew, hsame⟩
  · obtain ⟨r, w', -, hrun, -, hfails, -, hmoved⟩ := hupdates "u-1" [("city", .str "Rome")] .existenceChecked (by decide)
    obtain ⟨fault, rfl⟩ := hmoved ada List.mem_cons_self rfl (by decide) (.str "Oslo") (.str "Rome") rfl rfl (by decide)
    exact ⟨fault, w', hrun, hfails _ rfl⟩

end DocQuery.Cosmos
