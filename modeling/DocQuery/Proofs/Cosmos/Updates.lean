import DocQuery.Proofs.Cosmos.Atomic
import DocQuery.Proofs.Equality
import DocQuery.Proofs.Repository.Overtaking

/-!
# Updates of a document at once

An update reads a document, and replaces it by what was read with its changes; it does not notice that the document has become
another one in between. So of updates that are under way together, those count whose changes are in the document in the end: the
last one to replace it, the one whose replacement that had read, and so on (`updates_kept_unless_overtaken`).
-/

namespace DocQuery.Cosmos

open Operation

/-! ## The document with an identifier -/

/-- The document of a container that is found under an identifier. -/
def Memory.document? (s : Memory) (c : Container) (id : String) : Option Document :=
  (s.shelf? c).bind fun shelf => shelf.documents.find? fun d => documentId? d == some id

/-- What a replacement makes of a document that was read: the identifier stays, whatever the changes are. -/
def changed (id : String) (d changes : Document) : Document := Fields.put (Fields.putAll (strip d) changes) "id" (.str id)

section

variable {c : Container} {id : String} {s s' : Memory} {d : Document}

/-- The document that is found under an identifier has it. -/
theorem documentId?_of_document? (h : s.document? c id = some d) : documentId? d = some id := by
  obtain ⟨shelf, -, hfind⟩ := Option.bind_eq_some_iff.1 h
  have hsame := List.find?_some hfind
  exact beq_iff_eq.1 hsame

/-- A changed document has the identifier. -/
theorem documentId?_changed (id : String) (d changes : Document) : documentId? (changed id d changes) = some id :=
  documentId?_eq_some_iff.2 (Fields.get?_put_self _ _ _)

/-- The query for an identifier finds the document that has it, and perhaps there are more. -/
theorem query_document {select : Select} {compiled : Compiled} (h : s.document? c id = some d)
    (hcompiled : compileFindById id select = .ok compiled) :
    ∃ continuation, s.query c compiled.spec (some 1) none =
      .ok ⟨some (.arr [.obj (projectFields (projected? select) d)]), continuation⟩ := by
  obtain ⟨shelf, hshelf, hfind⟩ := Option.bind_eq_some_iff.1 h
  obtain ⟨_, condition, hmeant, hparse, hmeans⟩ := compileFindById_means id select
  cases hcompiled.symm.trans hmeant
  obtain ⟨rest, hfilter⟩ : ∃ rest, (shelf.documents.filter fun d => documentId? d == some id) = d :: rest := by
    rw [← List.head?_filter] at hfind
    exact List.head?_eq_some_iff.1 hfind
  have hmatching : matching (Fields.ofList compiled.spec.parameters) (some condition) shelf.documents = .ok (d :: rest) := by
    rw [matching, filterM_ok hmeans, hfilter]
  refine ⟨(pageOf (projected? select) 0 (some 1) (d :: rest)).continuation, ?_⟩
  simp only [Memory.query, hparse, Memory.requireShelf, hshelf, hmatching, Except.mapError, bind, Except.bind]
  simp [pageOf]

/-- A document in the place of the first one with an identifier is found under it. -/
theorem find?_set_of_findIdx? {p : Document → Bool} {ds : List Document} {i : Nat} (h : ds.findIdx? p = some i) (hd : p d = true) :
    (ds.set i d).find? p = some d := by
  induction ds generalizing i with
  | nil => cases h
  | cons e ds ih =>
    rw [List.findIdx?_cons] at h
    split at h
    · cases h
      exact List.find?_cons_of_pos hd
    · next he =>
      obtain ⟨j, hj, rfl⟩ := Option.map_eq_some_iff.1 h
      rw [List.set_cons_succ, List.find?_cons_of_neg he]
      exact ih hj

/-- The place of a document in a partition is that of the first one with its identifier. -/
theorem position?_of_positionIn? {shelf : Shelf} {partition : Json} {i : Nat} (h : shelf.positionIn? id partition = some i) :
    shelf.position? id = some i := by
  obtain ⟨place, hplace, h⟩ := Option.bind_eq_some_iff.1 h
  obtain ⟨e, -, h⟩ := Option.bind_eq_some_iff.1 h
  obtain ⟨value, -, h⟩ := Option.bind_eq_some_iff.1 h
  split at h
  · rw [hplace, h]
  · cases h

/-- A replacement puts a document of the identifier in the place of the one that is found. -/
theorem document?_replace {partition : Json} (hid : documentId? d = some id) {stored : Document}
    (h : s.replace c id partition d = (.ok stored, s')) : s'.document? c id = some d := by
  rw [Memory.replace, Memory.requireShelf] at h
  cases hshelf : s.shelf? c with
  | none =>
    rw [hshelf] at h
    cases h
  | some shelf =>
    cases hin : shelf.positionIn? id partition with
    | none =>
      simp only [hshelf, Memory.requirePosition, hin, bind, Except.bind] at h
      cases h
    | some i =>
      simp only [hshelf, Memory.requirePosition, hin, bind, Except.bind] at h
      obtain ⟨-, rfl⟩ := Prod.mk.inj h
      rw [Memory.document?, shelf?_setDocuments hshelf, Option.bind_some]
      exact find?_set_of_findIdx? (position?_of_positionIn? hin) (beq_iff_eq.2 hid)

end

/-! ## Turns of an update -/

section

variable {clock : Nat → Instant} {ids : Nat → String} {c : Container} {id : String} {w : World service Memory}
  {d existing changes : Document} {policy : WritePolicy}

/-- Whether changes leave a document in its partition: they ask for no other value of the partition key, unless that is the
identifier. -/
def Stays (c : Container) (d changes : Document) : Prop :=
  ∃ value, Fields.get? (strip d) c.partitionKey = some value ∧
    ∀ requested, Fields.get? changes c.partitionKey = some requested → requested.same value = true ∨ c.partitionKey = "id"

/-- Changes that do not leave a document in its partition are refused, and the others are made by one call. -/
theorem replace_stays (c : Container) (id : String) (d changes : Document) :
    (¬Stays c d changes ∧ ∃ fault, replace c id (strip d) changes = Operation.of (.error (.invalidArgument fault))) ∨
      Stays c d changes ∧ ∃ value, Fields.get? (strip d) c.partitionKey = some value ∧ replace c id (strip d) changes = (do
        let stored : Document ← Operation.ask (I := service) (.replace c id value (changed id d changes)) (missing id)
        return strip stored) := by
  unfold replace Stays partitionValue
  cases hvalue : Fields.get? (strip d) c.partitionKey with
  | none => exact .inl ⟨fun ⟨_, h, _⟩ => (nomatch h), _, rfl⟩
  | some value =>
    cases hrequested : Fields.get? changes c.partitionKey with
    | none => exact .inr ⟨⟨value, rfl, nofun⟩, value, rfl, rfl⟩
    | some requested =>
      by_cases hkey : (!requested.same value && c.partitionKey != "id") = true
      · refine .inl ⟨?_, .partitionKeyChanged c.partitionKey, if_pos hkey⟩
        rintro ⟨_, ⟨⟩, hstays⟩
        have hsame := hstays requested rfl
        simp only [Bool.and_eq_true, Bool.not_eq_true', bne_iff_ne] at hkey
        rcases hsame with hsame | hid
        · exact absurd hsame (by simp [hkey.1])
        · exact hkey.2 hid
      · refine .inr ⟨⟨value, rfl, ?_⟩, value, rfl, if_neg hkey⟩
        rintro _ ⟨⟩
        by_cases hid : c.partitionKey = "id"
        · exact .inr hid
        · exact .inl (by simpa [hid] using hkey)

/-- Replacing a document fails at once, or is one call that writes the changed document. -/
theorem replace_cases (c : Container) (id : String) (d changes : Document) :
    (∃ e, ExceptT.run (replace c id (strip d) changes) = .done (.error e)) ∨
      ∃ partition, ExceptT.run (replace c id (strip d) changes) =
        .call (I := service) (.replace c id partition (changed id d changes))
          fun answer => .done ((answer.mapError (missing id)).map strip) := by
  rcases replace_stays c id d changes with ⟨-, fault, hreplace⟩ | ⟨-, value, -, hreplace⟩
  · exact .inl ⟨.invalidArgument fault, congrArg ExceptT.run hreplace⟩
  · refine .inr ⟨value, (congrArg ExceptT.run hreplace).trans ?_⟩
    refine congrArg (Program.call _) (funext fun answer => ?_)
    cases answer <;> rfl

/-- The first turn of an update: it fails, or it has read the document, which it is about to replace. -/
theorem update_step (hd : w.store.document? c id = some d) (changes : Document) (policy : WritePolicy) :
    ∃ rest after, (ExceptT.run (update c id changes policy)).step (surroundings clock ids) w = (rest, after) ∧
      after.store.document? c id = some d ∧
        ((∃ e, rest = .done (.error e)) ∨ rest = ExceptT.run (replace c id (strip d) changes)) := by
  obtain ⟨compiled, -, hcompiled, -⟩ := compileFindById_means id Select.all
  rw [update, findById, hcompiled]
  cases hfailure : w.store.failure with
  | some e =>
    have hanswer : Memory.answer (.query c compiled.spec (some 1) none) w.store = (.error e, { w.store with failure := none }) := by
      rw [Memory.answer, hfailure, answerUnless]
    exact ⟨_, _, Program.step_call (surroundings clock ids) hanswer _, hd, .inl ⟨_, rfl⟩⟩
  | none =>
    obtain ⟨continuation, hquery⟩ := query_document hd hcompiled
    have hanswer : Memory.answer (.query c compiled.spec (some 1) none) w.store = (.ok _, w.store) :=
      answerUnless_of_none hfailure (congrArg (·, w.store) hquery)
    exact ⟨_, _, Program.step_call (surroundings clock ids) hanswer _, hd, .inr rfl⟩

/-- The turn of a replacement: it fails, or the changed document is there. -/
theorem replace_step (hd : w.store.document? c id = some d)
    (hend : (ExceptT.run (replace c id (strip existing) changes)).result? = none) :
    ∃ r after, (ExceptT.run (replace c id (strip existing) changes)).step (surroundings clock ids) w = (.done r, after) ∧
      ((∃ e, r = .error e) ∧ after.store.document? c id = some d ∨
        (∃ stored, r = .ok stored) ∧ after.store.document? c id = some (changed id existing changes)) := by
  obtain ⟨e, herror⟩ | ⟨partition, hcall⟩ := replace_cases c id existing changes
  · rw [herror] at hend
    cases hend
  · rw [hcall]
    cases hanswer : Memory.answer (.replace c id partition (changed id existing changes)) w.store with
    | mk answer s =>
      refine ⟨_, _, Program.step_call (surroundings clock ids) hanswer _, ?_⟩
      cases answer with
      | error e =>
        have hshelves : s.shelves = w.store.shelves := by
          have herror := Memory.shelves_of_error (congrArg Prod.fst hanswer)
          rwa [hanswer] at herror
        refine .inl ⟨⟨_, rfl⟩, ?_⟩
        show s.document? c id = some d
        rwa [Memory.document?, Memory.shelf?, hshelves]
      | ok stored =>
        have hreplace : w.store.replace c id partition (changed id existing changes) = (.ok stored, s) := act_of_ok hanswer
        exact .inr ⟨⟨_, rfl⟩, document?_replace (documentId?_changed id existing changes) hreplace⟩

end

/-! ## Updates under way together -/

/-- A document with the changes of some updates, one after another. -/
def made (id : String) (updates : List (Document × WritePolicy)) (d : Document) (kept : List Nat) : Document :=
  kept.foldl (fun d i => (updates[i]?).elim d fun u => changed id d u.1) d

/-- Updates of a document under way together: in the document are the changes of its lineage, and each update that is not at its
end is about to read the document, or to replace it by what it has read with its changes. -/
structure Underway (c : Container) (id : String) (updates : List (Document × WritePolicy)) (d : Document) (l : Lineage)
    (crowd : Crowd service Memory (Except Error Document)) : Prop where
  document : crowd.world.store.document? c id = some (made id updates d l.latest)
  programs : ∀ i p, crowd.programs[i]? = some p → p.result? = none → ∃ u, updates[i]? = some u ∧
    (p = ExceptT.run (update c id u.1 u.2) ∨
      ∃ base, l.read? i = some base ∧ p = ExceptT.run (replace c id (strip (made id updates d base)) u.1))

section

variable {clock : Nat → Instant} {ids : Nat → String} {c : Container} {id : String} {updates : List (Document × WritePolicy)}
  {d : Document} {l : Lineage} {crowd : Crowd service Memory (Except Error Document)} {i : Nat}
  {p : Program service (Except Error Document)}

/-- A crowd of updates stays one through a turn of one of them that leaves the document and the update as they should be. -/
theorem Underway.set (h : Underway c id updates d l crowd) (hp : crowd.programs[i]? = some p)
    {rest : Program service (Except Error Document)} {after : World service Memory}
    (hstep : p.step (surroundings clock ids) crowd.world = (rest, after)) {l' : Lineage}
    (hread : ∀ j, j ≠ i → l'.read? j = l.read? j) (hdocument : after.store.document? c id = some (made id updates d l'.latest))
    (hrest : rest.result? = none → ∃ u base, updates[i]? = some u ∧ l'.read? i = some base ∧
      rest = ExceptT.run (replace c id (strip (made id updates d base)) u.1)) :
    Underway c id updates d l' (crowd.next (surroundings clock ids) i p) where
  document := by rwa [Crowd.next, hstep]
  programs j q hq hend := by
    rw [Crowd.next, hstep] at hq
    by_cases hj : i = j
    · subst hj
      obtain rfl : rest = q := by
        rw [List.getElem?_set_self (List.getElem?_eq_some_iff.1 hp).1] at hq
        exact Option.some.inj hq
      obtain ⟨u, base, hu, hbase, hreplace⟩ := hrest hend
      exact ⟨u, hu, .inr ⟨base, hbase, hreplace⟩⟩
    · rw [List.getElem?_set_ne hj] at hq
      obtain ⟨u, hu, hfresh | ⟨base, hbase, hreplace⟩⟩ := h.programs j q hq hend
      · exact ⟨u, hu, .inl hfresh⟩
      · exact ⟨u, hu, .inr ⟨base, (hread j (Ne.symm hj)).trans hbase, hreplace⟩⟩

/-- A turn of an update. -/
theorem Underway.next (h : Underway c id updates d l crowd) (hp : crowd.programs[i]? = some p) (hend : p.result? = none) :
    let t := crowd.turnOf (surroundings clock ids) i p
    Underway c id updates d (l.turn t) (crowd.next (surroundings clock ids) i p) ∧
      (t.Succeeds → ∃ base, l.read? t.index = some base) := by
  intro t
  -- a turn with which an update fails changes neither the document nor its lineage
  have hfails : ∀ {e after}, p.step (surroundings clock ids) crowd.world = (.done (.error e), after) →
      after.store.document? c id = some (made id updates d l.latest) →
      Underway c id updates d (l.turn t) (crowd.next (surroundings clock ids) i p) ∧
        (t.Succeeds → ∃ base, l.read? t.index = some base) := by
    intro e after hstep hafter
    have hresult : t.result = some (.error e) := Crowd.turnOf_result hstep i
    have hfailed : ¬t.Succeeds := by
      rintro ⟨a, ha⟩
      cases hresult.symm.trans ha
    rw [Lineage.turn_other (by simp [hresult]) fun hsucceeds => absurd hsucceeds hfailed]
    exact ⟨h.set hp hstep (fun _ _ => rfl) hafter nofun, fun hsucceeds => absurd hsucceeds hfailed⟩
  obtain ⟨u, hu, rfl | ⟨base, hbase, rfl⟩⟩ := h.programs i p hp hend
  · obtain ⟨rest, after, hstep, hafter, ⟨e, rfl⟩ | rfl⟩ := update_step h.document u.1 u.2
    · exact hfails hstep hafter
    · obtain ⟨e, herror⟩ | ⟨partition, hcall⟩ := replace_cases c id (made id updates d l.latest) u.1
      · exact hfails (hstep.trans (congrArg (·, after) herror)) hafter
      · have hresult : t.result = none := (Crowd.turnOf_result hstep i).trans (congrArg Program.result? hcall)
        rw [Lineage.turn_read hresult]
        refine ⟨h.set hp hstep (fun j hj => if_neg hj) hafter fun _ => ⟨u, l.latest, hu, if_pos rfl, rfl⟩, ?_⟩
        rintro ⟨a, ha⟩
        cases hresult.symm.trans ha
  · obtain ⟨r, after, hstep, ⟨⟨e, rfl⟩, hafter⟩ | ⟨⟨stored, rfl⟩, hafter⟩⟩ := replace_step h.document hend
    · exact hfails hstep hafter
    · have hsucceeds : t.Succeeds := ⟨stored, Crowd.turnOf_result hstep i⟩
      rw [Lineage.turn_replace hsucceeds hbase]
      refine ⟨h.set hp hstep (fun _ _ => rfl) ?_ nofun, fun _ => ⟨base, hbase⟩⟩
      rw [hafter, made, made, List.foldl_append]
      simp only [List.foldl_cons, List.foldl_nil]
      rw [show t.index = i from rfl, hu, Option.elim_some]

/-- The updates are under way together through all their turns. -/
theorem Underway.run (h : Underway c id updates d l crowd) (clock : Nat → Instant) (ids : Nat → String) (schedule : List Nat) :
    Underway c id updates d ((crowd.run (surroundings clock ids) schedule).1.foldl Lineage.turn l)
      (crowd.run (surroundings clock ids) schedule).2 := by
  induction schedule generalizing l crowd with
  | nil => exact h
  | cons i schedule ih =>
    rw [Crowd.run]
    rcases Crowd.turn?_cases (surroundings clock ids) crowd i with hnone | ⟨p, hp, hend⟩
    · rw [hnone]
      exact ih h
    · rw [Crowd.turn?_of_some hp hend]
      exact ih (h.next hp hend).1

/-! ## What the updates leave -/

/-- What is found in a changed document, apart from the identifier: what the changes have in a field that they name, and in any other
what was there before, which for the properties of the service is nothing. -/
theorem get?_changed {changes : Document} (hnodup : (Fields.names changes).Nodup) {name : String} (hname : name ≠ "id") :
    Fields.get? (changed id d changes) name =
      if name ∈ Fields.names changes then Fields.get? changes name
      else if name ∈ systemProperties then none else Fields.get? d name := by
  have hchanges : ∀ e ∈ changes, Fields.get? changes e.1 = some e.2 := fun e he => Fields.get?_of_mem hnodup he
  rw [changed, Fields.get?_put_of_ne _ _ hname, Fields.get?_putAll_of_get? hchanges, get?_strip]

/-- Two of the updates change different fields, where no two change one. -/
theorem disjoint_of_ne (h : updates.Pairwise fun u v => List.Disjoint (Fields.names u.1) (Fields.names v.1)) {j : Nat}
    {u v : Document × WritePolicy} (hu : updates[i]? = some u) (hv : updates[j]? = some v) (hne : i ≠ j) :
    List.Disjoint (Fields.names u.1) (Fields.names v.1) := by
  obtain ⟨hi, rfl⟩ := List.getElem?_eq_some_iff.1 hu
  obtain ⟨hj, rfl⟩ := List.getElem?_eq_some_iff.1 hv
  rcases Nat.lt_or_gt_of_ne hne with hlt | hgt
  · exact List.pairwise_iff_getElem.1 h i j hi hj hlt
  · exact (List.pairwise_iff_getElem.1 h j i hj hi hgt).symm

/-- Where no two updates change one field, a field has the value of the update that changes it, if that is among those that are
kept, and its old value otherwise. -/
theorem get?_made (hdisjoint : updates.Pairwise fun u v => List.Disjoint (Fields.names u.1) (Fields.names v.1))
    (hnodup : ∀ u ∈ updates, (Fields.names u.1).Nodup) {u : Document × WritePolicy} (hu : updates[i]? = some u)
    {e : String × Json} (he : e ∈ u.1) (hname : e.1 ≠ "id") (hsystem : e.1 ∉ systemProperties) (d : Document) (kept : List Nat) :
    Fields.get? (made id updates d kept) e.1 = if i ∈ kept then some e.2 else Fields.get? d e.1 := by
  have hmem : e.1 ∈ Fields.names u.1 := List.mem_map_of_mem he
  induction kept generalizing d with
  | nil => rfl
  | cons j kept ih =>
    rw [made, List.foldl_cons]
    refine (ih _).trans ?_
    by_cases hkept : i ∈ kept
    · rw [if_pos hkept, if_pos (List.mem_cons_of_mem _ hkept)]
    · rw [if_neg hkept]
      by_cases hj : i = j
      · subst hj
        have hself := hnodup u (List.mem_of_getElem? hu)
        rw [hu, Option.elim_some, get?_changed hself hname, if_pos hmem, if_pos List.mem_cons_self]
        exact Fields.get?_of_mem hself he
      · rw [if_neg (List.not_mem_cons_of_ne_of_not_mem hj hkept)]
        cases hv : updates[j]? with
        | none => rfl
        | some v =>
          have hnot : e.1 ∉ Fields.names v.1 := disjoint_of_ne hdisjoint hu hv hj hmem
          rw [Option.elim_some, get?_changed (hnodup v (List.mem_of_getElem? hv)) hname, if_neg hnot, if_neg hsystem]

/-- A field that no update changes keeps its value. -/
theorem get?_made_of_unchanged (hnodup : ∀ u ∈ updates, (Fields.names u.1).Nodup) {name : String} (hname : name ≠ "id")
    (hsystem : name ∉ systemProperties) (hnot : ∀ u ∈ updates, name ∉ Fields.names u.1) (d : Document) (kept : List Nat) :
    Fields.get? (made id updates d kept) name = Fields.get? d name := by
  induction kept generalizing d with
  | nil => rfl
  | cons j kept ih =>
    rw [made, List.foldl_cons]
    refine (ih _).trans ?_
    cases hv : updates[j]? with
    | none => rfl
    | some v =>
      have hmem := List.mem_of_getElem? hv
      rw [Option.elim_some, get?_changed (hnodup v hmem) hname, if_neg (hnot v hmem), if_neg hsystem]

/-- The identifier stays, whatever the updates change. -/
theorem documentId?_made (hd : documentId? d = some id) (kept : List Nat) : documentId? (made id updates d kept) = some id := by
  induction kept generalizing d with
  | nil => exact hd
  | cons j kept ih =>
    rw [made, List.foldl_cons]
    refine ih ?_
    cases updates[j]? with
    | none => exact hd
    | some v => exact documentId?_changed id d v.1

/-- A property of the service has the value that the last update among those that are kept gives it, if that gives it one; where none
is kept, it has its old value. -/
theorem get?_made_of_system (hnodup : ∀ u ∈ updates, (Fields.names u.1).Nodup) {name : String} (hsystem : name ∈ systemProperties)
    (d : Document) {kept : List Nat} (hkept : ∀ i ∈ kept, ∃ u, updates[i]? = some u) :
    Fields.get? (made id updates d kept) name =
      match kept.getLast? with
      | none => Fields.get? d name
      | some i => (updates[i]?).bind fun u => Fields.get? u.1 name := by
  have hname : name ≠ "id" := by
    rintro rfl
    revert hsystem
    decide
  rcases List.eq_nil_or_concat' kept with rfl | ⟨init, i, rfl⟩
  · rfl
  · obtain ⟨u, hu⟩ := hkept i (List.mem_append_right _ List.mem_cons_self)
    rw [List.getLast?_concat, made, List.foldl_concat, hu, Option.elim_some, get?_changed (hnodup u (List.mem_of_getElem? hu)) hname]
    show _ = (updates[i]?).bind fun u => Fields.get? u.1 name
    rw [hu, Option.bind_some, if_pos hsystem]
    split
    · rfl
    · next hnot => exact (Fields.get?_eq_none_iff.2 hnot).symm

end

/-- What updates leave of a document, of which some are kept. -/
structure Leaves (id : String) (updates : List (Document × WritePolicy)) (d : Document) (kept : List Nat) (final : Document) :
    Prop where
  /-- The identifier stays, also where an update changes it. -/
  id : Fields.get? final "id" = some (.str id)
  /-- The changes of the updates that are kept are there, and the other fields that were to be changed have their old values. -/
  changed : ∀ i u, updates[i]? = some u → ∀ e ∈ u.1, e.1 ≠ "id" → e.1 ∉ systemProperties →
    Fields.get? final e.1 = if i ∈ kept then some e.2 else Fields.get? d e.1
  /-- The fields that no update changes have their old values. -/
  unchanged : ∀ name, name ≠ "id" → name ∉ systemProperties → (∀ u ∈ updates, name ∉ Fields.names u.1) →
    Fields.get? final name = Fields.get? d name
  /-- The properties of the service are those among the changes of the last update that is kept; where none is, they are as before. -/
  system : ∀ name ∈ systemProperties, Fields.get? final name =
    match kept.getLast? with
    | none => Fields.get? d name
    | some i => (updates[i]?).bind fun u => Fields.get? u.1 name

/-- Updates of a document that are under way together, no two of which change one field, leave it with the changes of those in its
lineage, and with the old values of all other fields. The identifier stays, and of the properties of the service only those are there
that the last update in the lineage gives. The updates in the lineage have succeeded, and every update is in it that succeeds and is
not overtaken by another. -/
theorem updates_kept_unless_overtaken {c : Container} {id : String} {w : World service Memory} {d : Document}
    (hd : w.store.document? c id = some d) {updates : List (Document × WritePolicy)}
    (hdisjoint : updates.Pairwise fun u v => List.Disjoint (Fields.names u.1) (Fields.names v.1))
    (hnodup : ∀ u ∈ updates, (Fields.names u.1).Nodup) (clock : Nat → Instant) (ids : Nat → String) (schedule : List Nat) :
    let run := Crowd.run (surroundings clock ids) ⟨w, updates.map fun u => ExceptT.run (update c id u.1 u.2)⟩ schedule
    (∃ final, run.2.world.store.document? c id = some final ∧ Leaves id updates d (lineage run.1) final) ∧
      (∀ i ∈ lineage run.1, ∃ t ∈ run.1, t.index = i ∧ t.Succeeds) ∧
      ∀ i, NotOvertaken run.1 i → i ∈ lineage run.1 := by
  intro run
  have hstart : Underway c id updates d .start ⟨w, updates.map fun u => ExceptT.run (update c id u.1 u.2)⟩ :=
    { document := hd
      programs := fun i p hp _ => by
        obtain ⟨u, hu, hfresh⟩ := Option.map_eq_some_iff.1 ((List.getElem?_map ..).symm.trans hp)
        exact ⟨u, hu, .inl hfresh.symm⟩ }
  have hrun := hstart.run clock ids
  have hkept : ∀ i ∈ lineage run.1, ∃ u, updates[i]? = some u := by
    intro i hi
    obtain ⟨t, ht, rfl, -⟩ := succeeds_of_mem_lineage hi
    obtain ⟨before, after, hturns⟩ := List.append_of_mem ht
    obtain ⟨first, j, p, -, hp, hend, rfl⟩ := Crowd.run_split hturns
    obtain ⟨u, hu, -⟩ := (hrun first).programs j p hp hend
    exact ⟨u, hu⟩
  have hid : documentId? d = some id := documentId?_of_document? hd
  refine ⟨⟨_, (hrun schedule).document, ?_⟩, fun i hi => succeeds_of_mem_lineage hi,
    fun i hi => hi.mem_lineage fun before t after hturns hsucceeds => ?_⟩
  · exact { id := documentId?_eq_some_iff.1 (documentId?_made hid _)
            changed := fun i u hu e he hname hsystem => get?_made hdisjoint hnodup hu he hname hsystem d _
            unchanged := fun name hname hsystem hnot => get?_made_of_unchanged hnodup hname hsystem hnot d _
            system := fun name hsystem => get?_made_of_system hnodup hsystem d hkept }
  · obtain ⟨first, j, p, rfl, hp, hend, rfl⟩ := Crowd.run_split hturns
    exact ((hrun first).next hp hend).2 hsucceeds

/-- The same for two updates, of which the second begins once the first has ended: the property of the service that the first one
changes is not kept, and the identifier is not changed. -/
theorem updates_kept_in_turns :
    let c : Container := ⟨"app", "users", "id"⟩
    let d : Document := [("id", .str "u-1"), ("name", .str "Ada"), ("city", .str "Oslo"), ("born", .str "1815")]
    let updates : List (Document × WritePolicy) :=
      [([("name", .str "Eva"), ("_ts", .str "5")], .existenceChecked), ([("city", .str "Rome"), ("id", .str "u-2")], .existenceChecked)]
    let w : World service Memory := ⟨((Memory.empty.withContainer c).seed c [d]).2, 0, 0, []⟩
    let run := Crowd.run (surroundings (fun n => ⟨n, 0⟩) fun _ => "")
      ⟨w, updates.map fun u => ExceptT.run (update c "u-1" u.1 u.2)⟩ [0, 0, 1, 1]
    lineage run.1 = [0, 1] ∧ ∃ final, run.2.world.store.document? c "u-1" = some final ∧
      Fields.get? final "name" = some (.str "Eva") ∧ Fields.get? final "city" = some (.str "Rome") ∧
      Fields.get? final "born" = some (.str "1815") ∧ Fields.get? final "id" = some (.str "u-1") ∧
      Fields.get? final "_ts" = none := by
  intro c d updates w run
  obtain ⟨hlineage, hd⟩ : lineage run.1 = [0, 1] ∧ w.store.document? c "u-1" = some d := by
    revert run w updates d c
    decide +kernel
  have hdisjoint : updates.Pairwise fun u v => List.Disjoint (Fields.names u.1) (Fields.names v.1) := by
    simp [updates, Fields.names]
  obtain ⟨⟨final, hfinal, hleaves⟩, -, -⟩ :=
    updates_kept_unless_overtaken hd hdisjoint (by decide) (fun n => ⟨n, 0⟩) (fun _ => "") [0, 0, 1, 1]
  rw [hlineage] at hleaves
  refine ⟨hlineage, final, hfinal, ?_, ?_, ?_, hleaves.id, ?_⟩
  · exact hleaves.changed 0 _ rfl _ List.mem_cons_self (by decide) (by decide)
  · exact hleaves.changed 1 _ rfl _ List.mem_cons_self (by decide) (by decide)
  · exact hleaves.unchanged "born" (by decide) (by decide) (by decide)
  · exact hleaves.system "_ts" (by decide)

/-- An update is lost if another one has read the document before and replaces it afterwards, although both succeed. Of updates in
turns a change of a property of the service is lost to the next one, and a change of the identifier is not made at all. -/
theorem update_lost_when_overtaken :
    let c : Container := ⟨"app", "users", "id"⟩
    let d : Document := [("id", .str "u-1"), ("name", .str "Ada"), ("city", .str "Oslo")]
    let w : World service Memory := ⟨((Memory.empty.withContainer c).seed c [d]).2, 0, 0, []⟩
    let run (changes : List Document) (schedule : List Nat) :=
      Crowd.run (surroundings (fun n => ⟨n, 0⟩) fun _ => "")
        ⟨w, changes.map fun d => ExceptT.run (update c "u-1" d .existenceChecked)⟩ schedule
    let results (changes : List Document) (schedule : List Nat) :=
      (run changes schedule).1.map fun t => (t.index, t.result.map fun r => r.toOption)
    let found (changes : List Document) (schedule : List Nat) := (run changes schedule).2.world.store.document? c "u-1"
    let rome : Document := [("id", .str "u-1"), ("name", .str "Ada"), ("city", .str "Rome")]
    (results [[("name", .str "Eva")], [("city", .str "Rome")]] [1, 0, 0, 1] =
        [(1, none), (0, none), (0, some (some [("id", .str "u-1"), ("name", .str "Eva"), ("city", .str "Oslo")])),
          (1, some (some rome))] ∧
      found [[("name", .str "Eva")], [("city", .str "Rome")]] [1, 0, 0, 1] = some rome) ∧
    (results [[("_ts", .str "5")], [("city", .str "Rome")]] [0, 0, 1, 1] =
        [(0, none), (0, some (some d)), (1, none), (1, some (some rome))] ∧
      found [[("_ts", .str "5")], [("city", .str "Rome")]] [0, 0, 1, 1] = some rome) ∧
    results [[("id", .str "u-2")], [("city", .str "Rome")]] [0, 0, 1, 1] =
        [(0, none), (0, some (some d)), (1, none), (1, some (some rome))] ∧
      found [[("id", .str "u-2")], [("city", .str "Rome")]] [0, 0, 1, 1] = some rome := by
  refine ⟨⟨?_, ?_⟩, ⟨?_, ?_⟩, ?_, ?_⟩ <;> decide +kernel

end DocQuery.Cosmos
