import DocQuery.Proofs.Dynamo.KeyedMap
import DocQuery.Proofs.Dynamo.SameRecord

/-!
# Updates of disjoint fields at once

An update sends one assignment of its fields and, where the table has a sort key, a query before it that finds the rest of the key.
Nobody changes the keys of the partition meanwhile, so every query finds the same item; and where the fields of different updates are
disjoint, it makes no difference whose assignment comes first. So of the updates of a record that are under way together every one
succeeds, and the record has the changes of all of them (`disjoint_updates_kept`).
-/

namespace DocQuery.Dynamo

open Operation

variable {t : Table} {id : String}

/-! ## The first item of a partition -/

section

variable {rows after : Rows} {key k : String} {item other : Item} {changes : Document}

/-- An item that is written into, in other fields than the keys, stays at its address. -/
theorem address_putAll (h : ∀ e ∈ changes, t.isKey e.1 = false) (item : Item) :
    t.address (Fields.putAll item (ofDocument changes)) = t.address item := by
  have hkept : ∀ name, t.isKey name = true → (Fields.putAll item (ofDocument changes)).get? name = item.get? name := by
    intro name hname
    refine get?_putAll_ofDocument (fun hmem => ?_) item
    obtain ⟨e, he, rfl⟩ := List.mem_map.1 hmem
    cases (h e he).symm.trans hname
  refine Prod.ext (hkept _ (by simp [Table.isKey])) ?_
  show (t.sortKey.bind fun sortKey => _) = t.sortKey.bind fun sortKey => _
  cases hs : t.sortKey with
  | none => rfl
  | some sortKey => exact hkept sortKey (by simp [Table.isKey, hs])

/-- The first item of a partition stays its first item where it keeps its address, and what changes besides is in other partitions. -/
theorem Table.First.change (h : t.First id rows key item) (hdiffers : Rows.DiffersAt (· = k) rows after)
    (hfound : after.find? key = some other) (haddress : t.address other = t.address item)
    (helsewhere : k ≠ key → ∀ stored, after.find? k = some stored → stored.get? t.partitionKey ≠ some (ofJson (.str id))) :
    t.First id after key other where
  found := hfound
  partition := (congrArg Prod.fst haddress).trans h.partition
  before l stored hstored hid := by
    by_cases hl : l = k
    · subst hl
      by_cases hkey : l = key
      · exact .inl hkey
      · exact absurd hid (helsewhere hkey stored hstored)
    · rw [hdiffers.others l hl] at hstored
      have hposition := @Rows.position_of_address t.rows _ _ haddress true
      rw [hposition]
      exact h.before l stored hstored hid

end

/-! ## The record while it is updated -/

/-- A store without a failure in its way, in which the item of a document is the first of its partition, and still where another
document was, whose sort key can be read again. -/
structure Stands (t : Table) (id key : String) (initial d : Document) (s : Memory) : Prop where
  failure : s.failure = none
  filed : s.Filed
  table : ∃ rows, s.table? t.name = some rows ∧ rows.Sound t ∧ t.First id rows key (ofDocument d)
  address : t.address (ofDocument d) = t.address (ofDocument initial)
  narrow : ∀ sortKey typed, t.sortKey = some sortKey → (ofDocument initial).get? sortKey = some typed →
    ∃ j : Json, typed = ofJson j ∧ j.Narrow

/-- A call that writes no item of a partition. What it writes comes from documents. -/
structure Call.Avoids (t : Table) (id : String) (call : Call) : Prop where
  files : call.Files
  about : call.table = t.name → ∀ item, call.about? = some item → item.get? t.partitionKey ≠ some (ofJson (.str id))

section

variable {key k : String} {initial d changes : Document} {s s' : Memory} {rows : Rows} {item made : Item}

/-- No call puts a failure in the way. -/
theorem Memory.failure_answer (h : s.failure = none) (call : Call) : (Memory.answer call s).2.failure = none := by
  rw [Memory.answer, answerUnless_of_none h rfl]
  rcases act_cases s call with hact | ⟨_, _, -, -, hact⟩ <;> rw [hact] <;> exact h

/-- An item under the key text of another one is in its partition. -/
theorem partition_of_keyText (hsound : rows.Sound t) {stored : Item} (hk : rows.keyText item = .ok k)
    (hstored : rows.keyText stored = .ok k) : stored.get? t.partitionKey = item.get? t.partitionKey := by
  have haddress := (Rows.keyText_eq_iff hk).1 hstored
  rw [hsound.address_eq, hsound.address_eq] at haddress
  exact (congrArg Prod.fst haddress).symm

/-- A call that writes no item of the partition leaves the record as it is. -/
theorem Stands.answer (h : Stands t id key initial d s) {call : Call} (hcall : call.Avoids t id) {r : Except StoreError call.Answer}
    (hanswer : Memory.answer call s = (r, s')) : Stands t id key initial d s' := by
  have hfiled : s'.Filed := by simpa only [hanswer] using h.filed.answer hcall.files
  have hfailure : s'.failure = none := by simpa only [hanswer] using Memory.failure_answer h.failure call
  obtain ⟨rows, htable, hsound, hfirst⟩ := h.table
  have hsame : s'.tables = s.tables → Stands t id key initial d s' := fun htables =>
    ⟨hfailure, hfiled, ⟨rows, by rwa [Memory.table?, htables], hsound, hfirst⟩, h.address, h.narrow⟩
  cases r with
  | error e => exact hsame (by simpa only [hanswer] using Memory.tables_of_error (congrArg Prod.fst hanswer))
  | ok answer =>
    cases habout : call.about? with
    | none => exact hsame (by simpa only [hanswer] using Memory.tables_of_reads (m := s) (Call.not_writes habout))
    | some item =>
      obtain ⟨before, k, after, hbefore, hk, rfl, -, hdiffers⟩ := Memory.differsAt_answer hanswer habout
      by_cases hname : call.table = t.name
      · have hitem := hcall.about hname item habout
        rw [hname] at hbefore hfiled hfailure ⊢
        obtain rfl : before = rows := Option.some.inj (hbefore.symm.trans htable)
        have hset : (s.setTable t.name after).table? t.name = some after := Memory.table?_setTable s t.name after
        have hafter : after.Sound t := (hfiled _ _ hset).sound (hdiffers.partitionKey.trans hsound.partitionKey)
          (hdiffers.sortKey.trans hsound.sortKey)
        -- items under one key text are of one partition, so the write was not to the record
        have hne : key ≠ k := by
          rintro rfl
          have hkeyed := hsound.keyed _ (Fields.mem_of_get? hfirst.found)
          exact hitem ((partition_of_keyText hsound hkeyed hk).trans hfirst.partition)
        refine ⟨hfailure, hfiled, ⟨after, hset, hafter, ?_⟩, h.address, h.narrow⟩
        refine hfirst.change hdiffers ((hdiffers.others key hne).trans hfirst.found) rfl fun _ stored hstored hid => hitem ?_
        rw [hsound.keyText_eq, ← hafter.keyText_eq] at hk
        exact (partition_of_keyText hafter (hafter.keyed _ (Fields.mem_of_get? hstored)) hk).trans hid
      · refine ⟨hfailure, hfiled, ⟨rows, ?_, hsound, hfirst⟩, h.address, h.narrow⟩
        rw [Memory.table?_setTable_of_ne s (Ne.symm hname)]
        exact htable

/-- An update under a key that addresses the record writes its changes into it. -/
theorem Stands.update (h : Stands t id key initial d s) (hmade : t.address made = t.address (ofDocument initial))
    (hne : changes ≠ []) (hkeys : ∀ e ∈ changes, t.isKey e.1 = false) (policy : WritePolicy) :
    ∃ s', Memory.answer (.update { updateRequest t id changes policy with key := made }) s =
        (.ok (some (ofDocument (Fields.putAll d changes))), s') ∧ Stands t id key initial (Fields.putAll d changes) s' := by
  obtain ⟨rows, htable, hsound, hfirst⟩ := h.table
  have hfiled : rows.Filed := h.filed _ _ htable
  have hmem : (key, ofDocument d) ∈ rows.items := Fields.mem_of_get? hfirst.found
  obtain ⟨before, behind, hitems⟩ := List.append_of_mem hmem
  have hupdate := update_made hfiled hsound htable hitems (hmade.trans h.address.symm) id hne hkeys policy
  rw [← Rows.put_at hfiled.sorted hitems, putAll_ofDocument] at hupdate
  have haddress : t.address (ofDocument (Fields.putAll d changes)) = t.address (ofDocument d) := by
    rw [← putAll_ofDocument]
    exact address_putAll hkeys _
  have hkey : rows.keyText (ofDocument (Fields.putAll d changes)) = .ok key :=
    (keyText_congr hsound haddress).trans (hfiled.keyed _ hmem)
  have hafter : t.First id (rows.put key (ofDocument (Fields.putAll d changes))) key (ofDocument (Fields.putAll d changes)) :=
    hfirst.change (Rows.differsAt_put rows key _) (Rows.find?_put rows key _) haddress fun hk => absurd rfl hk
  refine ⟨_, answerUnless_of_none h.failure hupdate, h.failure, Memory.All.setTable h.filed _ (hfiled.put hkey), ?_, ?_, h.narrow⟩
  · exact ⟨_, Memory.table?_setTable s t.name _, hsound.put hkey, hafter⟩
  · exact haddress.trans h.address

/-- The search for the key of the record comes by a key that addresses it. -/
theorem Stands.resolve (h : Stands t id key initial d s) {sortKey : String} (hs : t.sortKey = some sortKey) :
    ∃ call made, planFind t id (Select.ofFields [t.partitionKey, sortKey]) = .ok call ∧
      t.address made = t.address (ofDocument initial) ∧ (Memory.answer call s).2 = s ∧
      Operation.outcome (I := service) (fun call answer => (readFind t call answer).bind (keyOfFound t id sortKey)) call
        (Memory.answer call s).1 = .ok (some made) := by
  obtain ⟨rows, htable, hsound, hfirst⟩ := h.table
  have hfiled : rows.Filed := h.filed _ _ htable
  have hmem : (key, ofDocument d) ∈ rows.items := Fields.mem_of_get? hfirst.found
  obtain ⟨found, hfind⟩ := exists_findsFirst hfiled hsound hs id
  cases found with
  | none =>
    obtain ⟨record, hrecord, hid⟩ := hfind.absent rfl _ hmem
    exact absurd ((get?_str_iff hfiled hmem hrecord).1 hfirst.partition) hid
  | some c =>
    -- what is found is the first item of the partition, and that is the record
    obtain ⟨k, hc⟩ := hfind.first c rfl
    obtain ⟨rfl, hitem⟩ := hfirst.unique hc
    have hsort : (ofDocument d).get? sortKey = (ofDocument initial).get? sortKey := by
      simpa only [Table.address, hs, Option.bind_some] using congrArg Prod.snd h.address
    obtain ⟨made, hmade, haddress⟩ := keyOfFound_address hfiled hsound hs hmem (hsort ▸ fun typed => h.narrow sortKey typed hs)
      (hitem ▸ hfind.document c rfl) (hfind.partition c rfl)
    obtain ⟨call, hplan, hstore, houtcome⟩ := hfind.outcome sortKey h.failure htable
    exact ⟨call, made, hplan, haddress.trans h.address, hstore, houtcome.trans hmade⟩

end

/-! ## Operations on other records -/

section

variable (t) (id)

/-- A call that does not write avoids every record. -/
theorem Call.avoids_of_reads {call : Call} (h : ¬call.Writes) : call.Avoids t id := by
  cases call with
  | scan r => exact ⟨trivial, fun _ _ => nofun⟩
  | query r => exact ⟨trivial, fun _ _ => nofun⟩
  | get r => exact ⟨trivial, fun _ _ => nofun⟩
  | put r => exact absurd trivial h
  | update r => exact absurd trivial h
  | delete r => exact absurd trivial h

variable {t id}

/-- Creating a record with another identifier. -/
theorem insert_avoids {d : Document} (hid : Fields.get? d t.partitionKey ≠ some (.str id)) (policy : WritePolicy) :
    (insert t d policy).Sends (Call.Avoids t id) fun _ => True := by
  have hput : ∀ condition names, (Call.put ⟨t.name, ofDocument d, condition, names, none⟩).Avoids t id := by
    refine fun condition names => ⟨⟨d, rfl⟩, fun _ item habout hitem => hid (get?_ofDocument_str_iff.1 ?_)⟩
    rwa [← Option.some.inj habout] at hitem
  have hlast : ∀ condition names refusal, Operation.Sends (Call.Avoids t id) (fun _ => True) (do
      let _ ← write (.put ⟨t.name, ofDocument d, condition, names, none⟩) refusal
      return d) := fun condition names refusal =>
    Sends.bind (Sends.ask (I := service) (hput condition names) _) fun _ _ => Sends.pure trivial
  refine Sends.of_bind fun id _ => ?_
  dsimp only
  split
  · split
    · exact Sends.throw _
    · exact hlast _ _ _
  · exact hlast _ _ _

variable {other : String} (hother : other ≠ id) (hkeys : t.sortKey ≠ some t.partitionKey)

include hother hkeys

/-- The key of a record with another identifier is of another partition. -/
theorem partition_ne {item : Item} (h : t.sortKey ≠ some t.partitionKey → item.get? t.partitionKey = some (ofJson (.str other))) :
    item.get? t.partitionKey ≠ some (ofJson (.str id)) := by
  rw [h hkeys]
  simpa [ofJson, tagged] using hother

/-- Changing a record with another identifier. -/
theorem update_avoids (changes : Document) (policy : WritePolicy) :
    (update t other changes policy).Sends (Call.Avoids t id) fun _ => True := by
  unfold update
  dsimp only
  split
  · exact Sends.throw _
  · refine Sends.bind (resolveKey_sends t (fun _ => Call.avoids_of_reads t id) other) fun key hkey => ?_
    cases key with
    | none => exact Sends.throw _
    | some key =>
      obtain ⟨hdocument, hpartition⟩ := hkey key rfl
      have hcall : ∀ assignments condition names, (Call.update ⟨t.name, key, assignments, condition, names,
          (existence t (assign Tables.empty (changes.filter fun e => !t.isKey e.1)).2 policy "attribute_exists").2.values⟩).Avoids
            t id := fun _ _ _ =>
        ⟨⟨hdocument, values_of_update t _ policy⟩, fun _ _ habout => Option.some.inj habout ▸ partition_ne hother hkeys hpartition⟩
      refine Sends.bind (Sends.ask (I := service) (hcall _ _ _) _) fun stored _ => ?_
      cases stored with
      | none => exact Sends.throw _
      | some item => exact Sends.of fun _ _ => trivial

/-- Removing a record with another identifier. -/
theorem delete_avoids (policy : WritePolicy) : (delete t other policy).Sends (Call.Avoids t id) fun _ => True := by
  unfold delete
  refine Sends.bind (resolveKey_sends t (fun _ => Call.avoids_of_reads t id) other) fun key hkey => ?_
  cases key with
  | none =>
    cases policy with
    | existenceChecked => exact Sends.throw _
    | unchecked => exact Sends.pure trivial
  | some key =>
    obtain ⟨-, hpartition⟩ := hkey key rfl
    exact Sends.ask (I := service)
      ⟨trivial, fun _ _ habout => Option.some.inj habout ▸ partition_ne hother hkeys hpartition⟩ _

end

/-! ## Turns of an update -/

/-- How far an update of the record has come after some turns, at least: it is about to search for the key, or to write under one that
addresses the record, or it has succeeded. -/
inductive Stage (t : Table) (id : String) (initial : Document) (u : Document × WritePolicy) :
    Nat → Program service (Except Error Document) → Prop
  | resolving {sortKey : String} : t.sortKey = some sortKey → (ExceptT.run (update t id u.1 u.2)).result? = none →
      Stage t id initial u 0 (ExceptT.run (update t id u.1 u.2))
  | writing {turns : Nat} {made : Item} {next : Option Item → Operation service Document} : turns ≤ 1 →
      t.address made = t.address (ofDocument initial) → Updates t id u.1 u.2 next →
      Stage t id initial u turns (ExceptT.run (next (some made)))
  | ended {turns : Nat} (stored : Document) : Stage t id initial u turns (.done (.ok stored))

/-- What follows the search for a key is not at its end with a key at hand. -/
theorem Updates.result? {changes : Document} {policy : WritePolicy} {next : Option Item → Operation service Document}
    (h : Updates t id changes policy next) (made : Item) : (ExceptT.run (next (some made))).result? = none := by
  obtain ⟨after, hafter, -⟩ := h.under made
  rw [hafter]
  rfl

section

variable {key : String} {initial d : Document} {u : Document × WritePolicy} {clock : Nat → Instant} {ids : Nat → String}
  {w : World service Memory} {turns : Nat} {p : Program service (Except Error Document)}

/-- An update that has come to its end has succeeded. -/
theorem Stage.of_end (h : Stage t id initial u turns p) (hend : p.result?.isSome) : ∃ stored, p = .done (.ok stored) := by
  cases h with
  | resolving hs hresult => simp [hresult] at hend
  | writing hturns hmade hnext => simp [hnext.result?] at hend
  | ended stored => exact ⟨stored, rfl⟩

/-- After two turns an update has come to its end. -/
theorem Stage.result?_isSome (h : Stage t id initial u turns p) (hturns : 2 ≤ turns) : p.result?.isSome := by
  cases h with
  | resolving hs hresult => omega
  | writing hfew hmade hnext => omega
  | ended stored => rfl

variable (hne : u.1 ≠ []) (hkeys : ∀ e ∈ u.1, t.isKey e.1 = false) (hw : Stands t id key initial d w.store)

include hne hkeys

/-- An update of other fields than the keys searches for the key first. -/
theorem update_resolves (id : String) : ∃ next, Updates t id u.1 u.2 next ∧ update t id u.1 u.2 = resolveKey t id >>= next := by
  have hchanges : u.1.filter (fun e => !t.isKey e.1) = u.1 := List.filter_eq_self.2 fun e he => by simp [hkeys e he]
  obtain ⟨next, hnext, hupdate⟩ := update_eq_resolve (hchanges.symm ▸ hne) id u.2
  exact ⟨next, hchanges ▸ hnext, hupdate⟩

include hw

/-- An update begins with the search for a key, or, without a sort key, with the key at hand. -/
theorem Stage.begins : Stage t id initial u 0 (ExceptT.run (update t id u.1 u.2)) ∧
    (ExceptT.run (update t id u.1 u.2)).result? = none := by
  obtain ⟨next, hnext, hupdate⟩ := update_resolves hne hkeys id
  cases hs : t.sortKey with
  | some sortKey =>
    obtain ⟨call, made, hplan, -⟩ := hw.resolve hs
    have hresult : (ExceptT.run (update t id u.1 u.2)).result? = none := by
      rw [hupdate, resolveKey_eq_send hs, hplan]
      rfl
    exact ⟨.resolving hs hresult, hresult⟩
  | none =>
    obtain ⟨rows, -, -, hfirst⟩ := hw.table
    have hpartition : (partitionItem t id).get? t.partitionKey = some (ofJson (.str id)) := if_pos rfl
    have hmade : t.address (partitionItem t id) = t.address (ofDocument d) :=
      Prod.ext (hpartition.trans hfirst.partition.symm) (by simp only [Table.address, hs, Option.bind_none])
    have hrun : ExceptT.run (update t id u.1 u.2) = ExceptT.run (next (some (partitionItem t id))) := by
      rw [hupdate, resolveKey, hs]
      rfl
    rw [hrun]
    exact ⟨.writing (Nat.zero_le 1) (hmade.trans hw.address) hnext, hnext.result? _⟩

/-- A turn of an update leaves the record as it is, and the update comes further; or it writes the changes, and the update comes to its
end. -/
theorem Stage.step (h : Stage t id initial u turns p) (hend : p.result? = none) :
    ∃ rest after, p.step (surroundings clock ids) w = (rest, after) ∧ Stage t id initial u (turns + 1) rest ∧
      (rest.result? = none ∧ Stands t id key initial d after.store ∨
        rest.result?.isSome ∧ Stands t id key initial (Fields.putAll d u.1) after.store) := by
  cases h with
  | @resolving sortKey hs =>
    obtain ⟨next, hnext, hupdate⟩ := update_resolves hne hkeys id
    obtain ⟨call, made, hplan, hmade, hstore, houtcome⟩ := hw.resolve hs
    rw [hupdate, resolveKey_eq_send hs, hplan]
    refine ⟨_, _, step_send houtcome, .writing (Nat.le_refl 1) hmade hnext, .inl ⟨hnext.result? made, ?_⟩⟩
    show Stands t id key initial d (Memory.answer call w.store).2
    rw [hstore]
    exact hw
  | @writing _ made next hturns hmade hnext =>
    obtain ⟨after, hafter, hread⟩ := hnext.under made
    obtain ⟨s', hanswer, hstands⟩ := hw.update hmade hne hkeys u.2
    have hdone := hread _ _ (readItem_settled (Fields.putAll d u.1))
    rw [hafter]
    refine ⟨_, _, (Program.step_call (surroundings clock ids) hanswer after).trans (congrArg (·, _) hdone), .ended _, ?_⟩
    exact .inr ⟨rfl, hstands⟩
  | ended stored => cases hend

end

/-! ## Updates under way together -/

/-- Updates of a record under way together, and with them programs that write no item of its partition: the record has the changes of
those that have come to their ends, in some order, and each of the others comes further with every turn. -/
structure Underway (t : Table) (id key : String) (initial : Document) (updates : List (Document × WritePolicy)) (schedule : List Nat)
    (c : Crowd service Memory (Except Error Document)) : Prop where
  record : ∃ order : List (Document × WritePolicy), order.Perm (Crowd.ended updates c.programs) ∧
    Stands t id key initial ((order.map (·.1)).foldl Fields.putAll initial) c.world.store
  stages : ∀ (i : Nat) (u : Document × WritePolicy), updates[i]? = some u →
    ∃ p, c.programs[i]? = some p ∧ Stage t id initial u (schedule.count i) p
  others : ∀ (i : Nat) (p : Program service (Except Error Document)), updates[i]? = none → c.programs[i]? = some p →
    p.Sends (Call.Avoids t id) fun _ => True

section

variable {key : String} {initial : Document} {updates : List (Document × WritePolicy)} {schedule : List Nat}
  {c : Crowd service Memory (Except Error Document)} {i : Nat} {p : Program service (Except Error Document)}

/-- Nothing changes with the turn of a program that has come to its end. -/
theorem Underway.idle (h : Underway t id key initial updates schedule c)
    (hend : ∀ p : Program service (Except Error Document), c.programs[i]? = some p → p.result?.isSome) :
    Underway t id key initial updates (schedule ++ [i]) c where
  record := h.record
  stages j u hu := by
    obtain ⟨p, hp, hstage⟩ := h.stages j u hu
    refine ⟨p, hp, ?_⟩
    by_cases hj : j = i
    · subst hj
      obtain ⟨stored, rfl⟩ := hstage.of_end (hend p hp)
      exact .ended stored
    · rwa [List.count_append, List.count_singleton, beq_eq_false_iff_ne.2 (Ne.symm hj)]
  others := h.others

/-- A turn leaves the other programs as they were. -/
theorem Underway.next (h : Underway t id key initial updates schedule c) {rest : Program service (Except Error Document)}
    {w : World service Memory}
    (hrecord : ∃ order : List (Document × WritePolicy), order.Perm (Crowd.ended updates (c.programs.set i rest)) ∧
      Stands t id key initial ((order.map (·.1)).foldl Fields.putAll initial) w.store)
    (hstage : ∀ u, updates[i]? = some u → Stage t id initial u (schedule.count i + 1) rest)
    (hother : updates[i]? = none → rest.Sends (Call.Avoids t id) fun _ => True) :
    Underway t id key initial updates (schedule ++ [i]) ⟨w, c.programs.set i rest⟩ where
  record := hrecord
  stages j u hu := by
    obtain ⟨p, hp, hstands⟩ := h.stages j u hu
    by_cases hj : i = j
    · subst hj
      refine ⟨rest, List.getElem?_set_self (List.getElem?_eq_some_iff.1 hp).1, ?_⟩
      rw [List.count_append, List.count_singleton_self]
      exact hstage u hu
    · refine ⟨p, (List.getElem?_set_ne hj).trans hp, ?_⟩
      rwa [List.count_append, List.count_singleton, beq_eq_false_iff_ne.2 hj]
  others j q hu hq := by
    by_cases hj : i = j
    · subst hj
      obtain ⟨hlt, rfl⟩ := List.getElem?_eq_some_iff.1 hq
      rw [List.getElem_set_self]
      exact hother hu
    · exact h.others j q hu ((List.getElem?_set_ne hj).symm.trans hq)

/-- With every turn an update comes further, and other programs leave the record alone. -/
theorem Underway.turn (hchanges : ∀ u ∈ updates, u.1 ≠ [] ∧ ∀ e ∈ u.1, t.isKey e.1 = false) (clock : Nat → Instant)
    (ids : Nat → String) (h : Underway t id key initial updates schedule c) (hp : c.programs[i]? = some p) (hend : p.result? = none) :
    Underway t id key initial updates (schedule ++ [i]) (c.next (surroundings clock ids) i p) := by
  obtain ⟨order, horder, hstands⟩ := h.record
  have hended := fun rest => @Crowd.ended_set _ _ _ updates _ _ _ hp hend rest
  cases hu : updates[i]? with
  | none =>
    obtain ⟨hafter, hrest⟩ := (h.others i p hu hp).step (surroundings clock ids) (fun call s hcall hs => hs.answer hcall rfl) hstands
    refine h.next ⟨order, ?_, hafter⟩ (fun u hu' => nomatch hu.symm.trans hu') fun _ => hrest
    refine horder.trans (List.Perm.symm ?_)
    simpa [hu] using hended (p.step (surroundings clock ids) c.world).1
  | some u =>
    obtain ⟨p', hp', hstage⟩ := h.stages i u hu
    obtain rfl : p = p' := Option.some.inj (hp.symm.trans hp')
    obtain ⟨hne, hkeys⟩ := hchanges u (List.mem_of_getElem? hu)
    obtain ⟨rest, after, hstep, hrest, hcases⟩ := @Stage.step _ _ _ _ _ _ clock ids _ _ _ hne hkeys hstands hstage hend
    have hnext : c.next (surroundings clock ids) i p = ⟨after, c.programs.set i rest⟩ := by rw [Crowd.next, hstep]
    rw [hnext]
    -- the turn was for the search, and no update has come to its end, or for the assignment, and this one is the last that has
    refine h.next ?_ (fun v hv => Option.some.inj (hu.symm.trans hv) ▸ hrest) fun hnone => nomatch hnone.symm.trans hu
    rcases hcases with ⟨hgoes, hafter⟩ | ⟨hdone, hafter⟩
    · refine ⟨order, horder.trans (List.Perm.symm ?_), hafter⟩
      simpa [hgoes] using hended rest
    · refine ⟨order ++ [u], ?_, by simpa using hafter⟩
      refine (List.perm_append_singleton u order).trans ((horder.cons u).trans (List.Perm.symm ?_))
      simpa [hdone, hu] using hended rest

/-- An update has succeeded if it has come to its end, and it has once it has had two turns. -/
theorem Underway.update (h : Underway t id key initial updates schedule c) (hi : i < updates.length) :
    ∃ p, c.programs[i]? = some p ∧ (∀ r, p.result? = some r → ∃ stored, r = .ok stored) ∧
      (2 ≤ schedule.count i → p.result?.isSome) := by
  obtain ⟨p, hp, hstage⟩ := h.stages i updates[i] (List.getElem?_eq_getElem hi)
  refine ⟨p, hp, fun r hr => ?_, hstage.result?_isSome⟩
  obtain ⟨stored, rfl⟩ := hstage.of_end (Option.isSome_of_mem hr)
  exact ⟨stored, (Option.some.inj hr).symm⟩

/-- Once every update has had two turns, all have come to their ends. -/
theorem Underway.all_ended (h : Underway t id key initial updates schedule c)
    (hturns : ∀ i < updates.length, 2 ≤ schedule.count i) : Crowd.ended updates c.programs = updates := by
  refine Crowd.ended_eq_self fun i u hu => ?_
  have hi := (List.getElem?_eq_some_iff.1 hu).1
  obtain ⟨p, hp, -, hend⟩ := h.update hi
  exact ⟨p, hp, hend (hturns i hi)⟩

/-- The record has the changes of the updates that have come to their ends, in whatever order. -/
theorem Underway.fields (h : Underway t id key initial updates schedule c)
    (hdisjoint : updates.Pairwise fun u v => List.Disjoint (Fields.names u.1) (Fields.names v.1)) :
    ∃ rows d, c.world.store.table? t.name = some rows ∧ t.First id rows key (ofDocument d) ∧
      ∀ order : List Document, order.Perm ((Crowd.ended updates c.programs).map (·.1)) →
        ∀ field, Fields.get? d field = Fields.get? (order.foldl Fields.putAll initial) field := by
  obtain ⟨written, hwritten, hstands⟩ := h.record
  obtain ⟨rows, htable, -, hfirst⟩ := hstands.table
  refine ⟨rows, _, htable, hfirst, fun order horder field => ?_⟩
  refine Fields.get?_foldl_putAll ((hwritten.map _).trans horder.symm) (fun es hes fs hfs => ?_) initial field
  obtain ⟨u, hu, rfl⟩ := List.mem_map.1 hes
  obtain ⟨v, hv, rfl⟩ := List.mem_map.1 hfs
  by_cases huv : u = v
  · exact .inl (congrArg Prod.fst huv)
  · have : Std.Symm fun u v : Document × WritePolicy => List.Disjoint (Fields.names u.1) (Fields.names v.1) :=
      ⟨fun _ _ => List.Disjoint.symm⟩
    exact .inr (hdisjoint.forall (Crowd.mem_of_ended (hwritten.mem_iff.1 hu)) (Crowd.mem_of_ended (hwritten.mem_iff.1 hv)) huv)

section

variable {w : World service Memory} {others : List (Program service (Except Error Document))}
  (hchanges : ∀ u ∈ updates, u.1 ≠ [] ∧ ∀ e ∈ u.1, t.isKey e.1 = false)

include hchanges

/-- No update has come to its end at first. -/
theorem Underway.start (hw : Stands t id key initial initial w.store)
    (hothers : ∀ p ∈ others, p.Sends (Call.Avoids t id) fun _ => True) : Underway t id key initial updates []
      ⟨w, updates.map (fun u => ExceptT.run (Dynamo.update t id u.1 u.2)) ++ others⟩ := by
  have hprogram : ∀ (i : Nat) (u : Document × WritePolicy), updates[i]? = some u → (updates.map
      (fun u => ExceptT.run (Dynamo.update t id u.1 u.2)) ++ others)[i]? = some (ExceptT.run (Dynamo.update t id u.1 u.2)) := by
    intro i u hu
    rw [List.getElem?_append_left (by simpa using (List.getElem?_eq_some_iff.1 hu).1), List.getElem?_map, hu]
    rfl
  have hbegins := fun u hu => Stage.begins (hchanges u hu).1 (hchanges u hu).2 hw
  refine ⟨⟨[], ?record, hw⟩, fun i u hu => ⟨_, hprogram i u hu, (hbegins u (List.mem_of_getElem? hu)).1⟩, ?others⟩
  case record =>
    rw [Crowd.ended_eq_nil fun i u p hu hp => ?_]
    obtain rfl := Option.some.inj ((hprogram i u hu).symm.trans hp)
    exact (hbegins u (List.mem_of_getElem? hu)).2
  case others =>
    intro i p hu hp
    rw [List.getElem?_append_right (by simpa using List.getElem?_eq_none_iff.1 hu)] at hp
    exact hothers p (List.mem_of_getElem? hp)

/-- Updates are under way after every schedule. -/
theorem Underway.run (h : Underway t id key initial updates [] c) (clock : Nat → Instant) (ids : Nat → String) (schedule : List Nat) :
    Underway t id key initial updates schedule (Crowd.run (surroundings clock ids) c schedule).2 :=
  @Crowd.run_keeps _ _ _ (surroundings clock ids) (Underway t id key initial updates) (fun _ _ _ h hend => h.idle hend)
    (fun _ _ _ _ h hp hend => h.turn hchanges clock ids hp hend) [] c h schedule

end

end

/-- Updates of one record that are under way together, each of at least one field and of no key, and no two of one field, all succeed,
each of them with two turns at most, and none is lost. In whatever order their calls arrive, the record is the first of its partition
under the same key text, and has the changes of those that have come to their ends, written in any order. This holds of tables with a
sort key and without, as long as no integer of the keys is beyond the signed 64-bit ones. Besides there may be other programs, as long
as they write no item of the partition. -/
theorem disjoint_updates_kept {w : World service Memory} (hw : Reachable w.store) (hfailure : w.store.failure = none) {rows : Rows}
    (htable : w.store.table? t.name = some rows) (hpartition : rows.partitionKey = t.partitionKey)
    (hsort : rows.sortKey = t.sortKey) (hnarrow : rows.NarrowKeys)
    (hid : ∃ e ∈ rows.items, e.2.get? t.partitionKey = some (ofJson (.str id))) {updates : List (Document × WritePolicy)}
    (hchanges : ∀ u ∈ updates, u.1 ≠ [] ∧ ∀ e ∈ u.1, t.isKey e.1 = false)
    (hdisjoint : updates.Pairwise fun u v => List.Disjoint (Fields.names u.1) (Fields.names v.1))
    {others : List (Program service (Except Error Document))}
    (hothers : ∀ p ∈ others, p.Sends (Call.Avoids t id) fun _ => True) (clock : Nat → Instant) (ids : Nat → String) :
    ∃ key initial, t.First id rows key (ofDocument initial) ∧ ∀ schedule : List Nat,
      let after := (Crowd.run (surroundings clock ids)
        ⟨w, updates.map (fun u => ExceptT.run (update t id u.1 u.2)) ++ others⟩ schedule).2
      (∀ i < updates.length, ∃ p, after.programs[i]? = some p ∧ (∀ r, p.result? = some r → ∃ stored, r = .ok stored) ∧
        (2 ≤ schedule.count i → p.result?.isSome)) ∧
      ((∀ i < updates.length, 2 ≤ schedule.count i) → Crowd.ended updates after.programs = updates) ∧
      ∃ rows' final, after.world.store.table? t.name = some rows' ∧ t.First id rows' key (ofDocument final) ∧
        ∀ order : List Document, order.Perm ((Crowd.ended updates after.programs).map (·.1)) →
          ∀ field, Fields.get? final field = Fields.get? (order.foldl Fields.putAll initial) field := by
  have hfiled : rows.Filed := hw.filed t.name rows htable
  have hsound : rows.Sound t := hfiled.sound hpartition hsort
  obtain ⟨key, item, hfirst⟩ := exists_first hfiled hsound hid
  have hmem : (key, item) ∈ rows.items := Fields.mem_of_get? hfirst.found
  obtain ⟨initial, rfl⟩ : ∃ d, item = ofDocument d := hfiled.documents _ hmem
  have hstands : Stands t id key initial initial w.store :=
    ⟨hfailure, hw.filed, ⟨rows, htable, hsound, hfirst⟩, rfl, fun sortKey typed hs => hnarrow.sort hsound hs hmem⟩
  refine ⟨key, initial, hfirst, fun schedule => ?_⟩
  have hrun := (Underway.start hchanges hstands hothers).run hchanges clock ids schedule
  exact ⟨fun i hi => hrun.update hi, hrun.all_ended, hrun.fields hdisjoint⟩

/-- Two updates of an order, each with its search for the key before the other writes, and between them orders of other customers, one
that is created, one that is changed and one that is removed. -/
theorem disjoint_updates_kept_of_order :
    let t : Table := ⟨"orders", "customer", some "day"⟩
    let order (customer : String) (day : Int64) : Document :=
      [("customer", .str customer), ("day", Json.ofInt64 day), ("paid", .bool false)]
    let w : World service Memory := ⟨((Memory.empty.withTable t).seed "orders" [order "c-1" 10]).2, 0, 0, []⟩
    let updates : List (Document × WritePolicy) :=
      [([("paid", .bool true)], .existenceChecked), ([("note", .str "late")], .unchecked)]
    let others : List (Operation service Document) :=
      [insert t (order "c-2" 2) .existenceChecked, update t "c-3" [("paid", .bool true)] .unchecked,
        delete t "c-4" .unchecked >>= fun _ => pure []]
    let after := (Crowd.run (surroundings (fun n => ⟨n, 0⟩) fun _ => "")
      ⟨w, updates.map (fun u => ExceptT.run (update t "c-1" u.1 u.2)) ++ others.map ExceptT.run⟩ [0, 1, 2, 3, 4, 1, 0]).2
    Crowd.ended updates after.programs = updates ∧ ∃ rows key final, after.world.store.table? "orders" = some rows ∧
      t.First "c-1" rows key (ofDocument final) ∧ Fields.get? final "paid" = some (.bool true) ∧
        Fields.get? final "note" = some (.str "late") := by
  intro t order w updates others after
  have hw : Reachable w.store := .seed _ _ (.table t .empty)
  obtain ⟨key, hkey⟩ : ∃ key, t.rows.keyText (ofDocument (order "c-1" 10)) = .ok key := ⟨_, rfl⟩
  have htable : w.store.table? "orders" = some (t.rows.put key (ofDocument (order "c-1" 10))) := by
    have hseed : (Memory.seedRows t.rows [order "c-1" 10]).2 = t.rows.put key (ofDocument (order "c-1" 10)) := by
      rw [Memory.seedRows, hkey]
      rfl
    rw [← hseed]
    exact Memory.table?_setTable (Memory.empty.withTable t) "orders" _
  have hnarrow : (t.rows.put key (ofDocument (order "c-1" 10))).NarrowKeys :=
    Rows.narrowKeys_of_documents (List.forall_mem_singleton.2 ⟨_, rfl, trivial, (10 : Int64).toInt_lt, trivial, trivial⟩)
  have hid : ∃ e ∈ (t.rows.put key (ofDocument (order "c-1" 10))).items, e.2.get? t.partitionKey = some (ofJson (.str "c-1")) :=
    ⟨_, List.mem_singleton_self _, rfl⟩
  have hchanges : ∀ u ∈ updates, u.1 ≠ [] ∧ ∀ e ∈ u.1, t.isKey e.1 = false := by decide
  have hdisjoint : updates.Pairwise fun u v => List.Disjoint (Fields.names u.1) (Fields.names v.1) := by
    simp [updates, Fields.names]
  have hcustomer : Fields.get? (order "c-2" 2) t.partitionKey ≠ some (.str "c-1") := fun h =>
    absurd (Json.str.inj (Option.some.inj h)) (by decide)
  have hkeys : t.sortKey ≠ some t.partitionKey := by decide
  have hremoved : (delete t "c-4" .unchecked >>= fun _ => pure ([] : Document)).Sends (Call.Avoids t "c-1") fun _ => True :=
    Sends.bind (delete_avoids (by decide) hkeys _) fun _ _ => Sends.pure trivial
  have havoid : ∀ o ∈ others, o.Sends (Call.Avoids t "c-1") fun _ => True :=
    List.forall_mem_cons.2 ⟨insert_avoids hcustomer _, List.forall_mem_cons.2
      ⟨update_avoids (by decide) hkeys _ _, List.forall_mem_singleton.2 hremoved⟩⟩
  have hothers : ∀ p ∈ others.map ExceptT.run, p.Sends (Call.Avoids t "c-1") fun _ => True := by
    intro p hp
    obtain ⟨o, ho, rfl⟩ := List.mem_map.1 hp
    exact (havoid o ho).imp fun _ _ => trivial
  obtain ⟨key', initial, hfirst, hrun⟩ := disjoint_updates_kept hw rfl htable rfl rfl hnarrow hid hchanges hdisjoint hothers
    (fun n => ⟨n, 0⟩) fun _ => ""
  obtain ⟨-, hended, rows, final, hrows, hfinal, hfields⟩ := hrun [0, 1, 2, 3, 4, 1, 0]
  have hall : Crowd.ended updates after.programs = updates := hended (by decide)
  rw [hall] at hfields
  refine ⟨hall, rows, key', final, hrows, hfinal, (hfields _ (.refl _) "paid").trans ?_, (hfields _ (.refl _) "note").trans ?_⟩
  · exact (Fields.get?_put_of_ne _ _ (by decide)).trans (Fields.get?_put_self _ _ _)
  · exact Fields.get?_put_self _ _ _

end DocQuery.Dynamo
