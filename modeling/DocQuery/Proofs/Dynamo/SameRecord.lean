import DocQuery.Proofs.Dynamo.FoundKeys
import DocQuery.Proofs.Repository.Resuming
import DocQuery.Proofs.Repository.Revision

/-!
# Reads and writes by an identifier

In a table with a sort key an identifier is only part of a key, and a write first looks for the rest of it. It finds the record that a
reader finds. So a record that is found is the one that an update changes and a removal removes, and where none is found, none is
written (`id_addresses_one_record`).
-/

namespace DocQuery.Dynamo

open Operation

variable {t : Table} {rows : Rows} {id : String}

/-! ## Writes and the search for a key -/

/-- What an update writes into an item: the revision of its payload, without the keys. -/
def Table.written (t : Table) (config : EntityConfig) (now : Instant) (members : Document) : Document :=
  (Repository.revision config t.partitionKey now members).filter fun e => !t.isKey e.1

/-- What an update writes is of no key. -/
theorem not_isKey_of_written {config : EntityConfig} {now : Instant} {members : Document} :
    ∀ e ∈ t.written config now members, t.isKey e.1 = false := fun e he => by simpa using (List.mem_filter.1 he).2

/-- The members of a payload that an update with an identifier does not turn down: there is one, the identifier is not changed, and
something is left to be written. -/
structure Table.Accepts (t : Table) (config : EntityConfig) (id : String) (now : Instant) (members : Document) : Prop where
  nonempty : members ≠ []
  kept : ∀ j, Fields.get? members t.partitionKey = some j → j = .str id
  written : t.written config now members ≠ []

/-- What follows the search for a key in an update: without a key it fails, and with one it is one call, whose answer is read. -/
structure Updates (t : Table) (id : String) (changes : Document) (policy : WritePolicy)
    (next : Option Item → Operation service Document) : Prop where
  without : next none = Operation.of (.error (.notFound id))
  under : ∀ made, ∃ after, next (some made) =
      ExceptT.mk (.call (I := service) (.update { updateRequest t id changes policy with key := made }) after) ∧
    ∀ item d, readItem item = .ok d → after (.ok (some item)) = .done (.ok d)

/-- An update with something to write searches for the key of the record first. -/
theorem update_eq_resolve {changes : Document} (hne : (changes.filter fun e => !t.isKey e.1) ≠ []) (id : String)
    (policy : WritePolicy) : ∃ next, Updates t id (changes.filter fun e => !t.isKey e.1) policy next ∧
      update t id changes policy = resolveKey t id >>= next := by
  refine ⟨?next, ⟨?without, fun made => ⟨?after, ?under, ?read⟩⟩, ?update⟩
  case update =>
    rw [update]
    simp only [List.isEmpty_eq_false_iff.2 hne]
    rfl
  case without => rfl
  case under => rfl
  case read =>
    intro item d hread
    show Operation.of (I := service) (readItem item) = _
    rw [hread]
    rfl

/-- A search for a key that is followed by an update is also followed by what the repository makes of the record. -/
theorem Updates.materialized {changes : Document} {policy : WritePolicy} {next : Option Item → Operation service Document}
    (h : Updates t id changes policy next) (config : EntityConfig) :
    Updates t id changes policy fun key => next key >>= fun stored =>
      Operation.of ((Repository.ofDocuments config (adapter t)).materialize stored) := by
  refine ⟨?without, fun made => ?under⟩
  case without =>
    rw [h.without]
    rfl
  case under =>
    obtain ⟨after, hafter, hread⟩ := h.under made
    refine ⟨fun answer => Program.bind (after answer) (ExceptT.bindCont _), by rw [hafter]; rfl, fun item d hd => ?_⟩
    exact congrArg (Program.bind · (ExceptT.bindCont _)) (hread item d hd)

/-- An update of a payload that is not turned down runs as a search for the key of the record and what follows it. -/
theorem run_update_resolves (env : Surroundings service Memory) (w : World service Memory) {config : EntityConfig}
    {options : Options} (hcancel : options.cancelAfter ≠ some 0) (hid : checkId id = .ok ()) {members : Document}
    (h : t.Accepts config id (env.clock w.readings) members) :
    ∃ w₁ next, w₁.store = w.store ∧
      Updates t id (t.written config (env.clock w.readings) members) config.writePolicy next ∧
      Operation.run env config options w ((Repository.ofDocuments config (adapter t)).update id (.obj members)) =
        Operation.run env config options w₁ (resolveKey t id >>= next) := by
  have hne : Repository.revision config t.partitionKey (env.clock w.readings) members ≠ [] := by
    intro hnil
    refine h.written ?_
    rw [Table.written, hnil]
    rfl
  obtain ⟨w₁, hstore, hrun⟩ := Repository.run_update env w (adapter t) config hcancel hid h.nonempty h.kept hne
  obtain ⟨next, hnext, hupdate⟩ := update_eq_resolve h.written id config.writePolicy
  refine ⟨w₁, _, hstore, hnext.materialized config, hrun.trans (congrArg (Operation.run env config options w₁) ?_)⟩
  show update t id (Repository.revision config t.partitionKey (env.clock w.readings) members) config.writePolicy >>= _ = _
  rw [hupdate]
  exact Operation.bind_assoc _ _ _

/-- A removal searches for the key of the record first. Without a key it fails if it is asked to check, and with one it is one
call. -/
theorem delete_eq_resolve (t : Table) (id : String) (policy : WritePolicy) : ∃ next : Option Item → Operation service Unit,
    delete t id policy = resolveKey t id >>= next ∧
      next none = Operation.of (if policy = .existenceChecked then .error (.notFound id) else .ok ()) ∧
      ∀ made, next (some made) = write (.delete { deleteRequest t id policy with key := made }) (.notFound id) := by
  refine ⟨_, rfl, ?_, fun made => rfl⟩
  cases policy <;> rfl

/-! ## Writes where a record is found -/

/-- A conditional write that succeeds gives what the store answers where no failure is in the way. -/
theorem write_gives {clock : Nat → Instant} {ids : Nat → String} {latency : Nat} {w : World service Memory}
    (call : service.Call) {a : service.Answer call} {s : Memory} (hact : w.store.act call = (.ok a, s)) (refusal : Error) :
    (write call refusal).Gives ⟨Memory.answer, clock, ids, latency⟩ (fun answer w' => answer = a ∧ w'.store = s) w := by
  refine Gives.ask (I := service) fun answer hanswer => ?_
  have hstands : Memory.answer call w.store = (.ok a, s) := answerUnless_of_none (failure_of_ok (Prod.ext hanswer rfl)) hact
  exact ⟨Except.ok.inj (hanswer.symm.trans (congrArg Prod.fst hstands)), congrArg Prod.snd hstands⟩

section

variable {clock : Nat → Instant} {ids : Nat → String} {latency : Nat} {w : World service Memory} {found : Option Candidate}
  {sortKey : String} (hfiled : rows.Filed) (hsound : rows.Sound t) (hnarrow : rows.NarrowKeys) (hs : t.sortKey = some sortKey)
  (htable : w.store.table? t.name = some rows) (hfind : FindsFirst t rows id found)

include hfiled hsound hnarrow hs htable hfind

/-- The key that a lookup makes addresses the item that is found, and the store stays as it is. -/
theorem resolveKey_gives {c : Candidate} (hc : found = some c) :
    (resolveKey t id).Gives ⟨Memory.answer, clock, ids, latency⟩ (fun key w₁ => w₁.store = w.store ∧
      ∃ made, key = some made ∧ t.address made = t.address c.item) w := by
  rw [resolveKey_eq_send hs]
  refine Gives.send fun call answer key hplan hanswer hread => ?_
  obtain ⟨call', hplan', hcall⟩ := hfind.find (Select.ofFields [t.partitionKey, sortKey])
  obtain rfl : call = call' := Except.ok.inj (hplan.symm.trans hplan')
  obtain ⟨answer', hanswer', hread'⟩ := hcall w.store (failure_of_ok (Prod.ext hanswer rfl)) htable
  obtain ⟨hok, hstore⟩ := Prod.mk.inj hanswer'
  obtain rfl : answer = answer' := Except.ok.inj (hanswer.symm.trans hok)
  refine ⟨hstore, ?_⟩
  obtain ⟨key', hmem⟩ := hfind.kept c hc
  obtain ⟨made, hmade, haddress⟩ :=
    keyOfFound_address hfiled hsound hs hmem (fun _ => hnarrow.sort hsound hs hmem) (hfind.document c hc) (hfind.partition c hc)
  rw [hread', hc] at hread
  exact ⟨made, Except.ok.inj (hread.symm.trans hmade), haddress⟩

variable {before behind : List (String × Item)} {key : String} {c : Candidate} (hc : found = some c)
  (hitems : rows.items = before ++ (key, c.item) :: behind)

include hc hitems

/-- An update writes those of the changes that are not of the keys into the item that is found. -/
theorem update_gives_found (changes : Document) (policy : WritePolicy) :
    (update t id changes policy).Gives ⟨Memory.answer, clock, ids, latency⟩ (fun stored w' =>
      readItem (Fields.putAll c.item (ofDocument (changes.filter fun e => !t.isKey e.1))) = .ok stored ∧
        w'.store = w.store.setTable t.name { rows with
          items := before ++ (key, Fields.putAll c.item (ofDocument (changes.filter fun e => !t.isKey e.1))) :: behind }) w := by
  have hkeys : ∀ e ∈ changes.filter fun e => !t.isKey e.1, t.isKey e.1 = false := fun e he => by
    simpa using (List.mem_filter.1 he).2
  rw [update]
  dsimp only
  split
  · exact .throw _
  next hne =>
    refine .bind (resolveKey_gives hfiled hsound hnarrow hs htable hfind hc) ?_
    rintro _ w₁ ⟨hstore, made, rfl, haddress⟩
    have hmade := update_made hfiled hsound (hstore ▸ htable) hitems haddress id (by simpa using hne) hkeys policy
    refine .bind (write_gives (.update _) hmade (.notFound id)) ?_
    rintro _ w₂ ⟨rfl, hstore'⟩
    exact .of fun stored hread => ⟨hread, hstore ▸ hstore'⟩

/-- A removal removes the item that is found. -/
theorem delete_gives_found (policy : WritePolicy) :
    (delete t id policy).Gives ⟨Memory.answer, clock, ids, latency⟩ (fun _ w' =>
      w'.store = w.store.setTable t.name { rows with items := before ++ behind }) w := by
  unfold delete
  refine .bind (resolveKey_gives hfiled hsound hnarrow hs htable hfind hc) ?_
  rintro _ w₁ ⟨hstore, made, rfl, haddress⟩
  have hmade := delete_made hfiled hsound (hstore ▸ htable) hitems haddress id policy
  exact (write_gives (.delete _) hmade (.notFound id)).imp fun _ _ h => hstore ▸ h.2

variable {config : EntityConfig} {options : Options}
  (htime : InTime (I := service) ⟨Memory.answer, clock, ids, latency⟩ config options 2) (hfailure : w.store.failure = none)

include htime hfailure

omit hitems in
/-- In time for two calls, what follows the search for the key of the record that is found is run with a key that addresses it. -/
theorem run_resolveKey_some : ∃ made, t.address made = t.address c.item ∧
    ∀ {β : Type} {next : Option Item → Operation service β} {call : Call} {after : Except StoreError call.Answer → _}
      {r : Except Error β}, next (some made) = ExceptT.mk (.call (I := service) call after) →
      after (w.store.act call).1 = .done r →
      (Operation.run ⟨Memory.answer, clock, ids, latency⟩ config options w (resolveKey t id >>= next)).1 = r := by
  obtain ⟨key', hmem⟩ := hfind.kept c hc
  obtain ⟨made, hmade, haddress⟩ :=
    keyOfFound_address hfiled hsound hs hmem (fun _ => hnarrow.sort hsound hs hmem) (hfind.document c hc) (hfind.partition c hc)
  obtain ⟨call, hplan, hstore, houtcome⟩ := hfind.outcome sortKey hfailure htable
  rw [hc, Option.map_some, hmade] at houtcome
  refine ⟨made, haddress, fun {β next call' after r} hnext hafter => ?_⟩
  rw [resolveKey_eq_send hs, hplan]
  refine run_send_call htime houtcome hnext ?_
  show after (Memory.answer call' (Memory.answer call w.store).2).1 = _
  rw [hstore, Memory.answer, answerUnless_of_none hfailure rfl, hafter]

/-- In time for two calls, an update of a payload that is not turned down succeeds. -/
theorem update_succeeds (hid : checkId id = .ok ()) {members : Document} (h : t.Accepts config id (clock w.readings) members) :
    ∃ stored, (Operation.run ⟨Memory.answer, clock, ids, latency⟩ config options w
      ((Repository.ofDocuments config (adapter t)).update id (.obj members))).1 = .ok stored := by
  obtain ⟨w₁, next, hstore, hnext, hrun⟩ := run_update_resolves ⟨Memory.answer, clock, ids, latency⟩ w htime.begun hid h
  rw [← hstore] at hfailure htable
  obtain ⟨made, haddress, hresolved⟩ := run_resolveKey_some hfiled hsound hnarrow hs htable hfind hc htime hfailure
  obtain ⟨after, hafter, hread⟩ := hnext.under made
  have hmade := update_made hfiled hsound htable hitems haddress id h.written not_isKey_of_written config.writePolicy
  obtain ⟨d, hd⟩ : ∃ d, c.item = ofDocument d := hfiled.documents _ (hitems ▸ List.mem_append_right _ List.mem_cons_self)
  have hstored := readItem_settled (Fields.putAll d (t.written config (clock w.readings) members))
  rw [← putAll_ofDocument, ← hd] at hstored
  refine ⟨Json.settledMembers (Fields.putAll d (t.written config (clock w.readings) members)),
    (congrArg Prod.fst hrun).trans (hresolved hafter ?_)⟩
  show after (w₁.store.update _).1 = _
  rw [hmade]
  exact hread _ _ hstored

/-- In time for two calls, a removal succeeds. -/
theorem delete_succeeds (hid : checkId id = .ok ()) :
    (Operation.run ⟨Memory.answer, clock, ids, latency⟩ config options w
      ((Repository.ofDocuments config (adapter t)).delete id)).1 = .ok () := by
  obtain ⟨made, haddress, hresolved⟩ := run_resolveKey_some hfiled hsound hnarrow hs htable hfind hc htime hfailure
  obtain ⟨next, hdelete, -, hnext⟩ := delete_eq_resolve t id config.writePolicy
  have hmade := delete_made hfiled hsound htable hitems haddress id config.writePolicy
  rw [Repository.delete, hid]
  show (Operation.run _ _ _ _ (delete t id config.writePolicy)).1 = _
  rw [hdelete]
  refine hresolved (hnext made) ?_
  show Program.done (Except.mapError _ (w.store.delete _).1) = _
  rw [hmade]
  rfl

end

/-! ## Writes where no record is found -/

section

variable {clock : Nat → Instant} {ids : Nat → String} {latency : Nat} {config : EntityConfig} {options : Options}
  {w : World service Memory} {sortKey : String}
  (htime : InTime (I := service) ⟨Memory.answer, clock, ids, latency⟩ config options 1) (hs : t.sortKey = some sortKey)
  (hfailure : w.store.failure = none) (htable : w.store.table? t.name = some rows)
  (hfind : FindsFirst t rows id none)

include htime hs hfailure htable hfind

/-- Where no record is found, what follows the search for its key is what is done without one. -/
theorem run_resolveKey_none {β : Type} {next : Option Item → Operation service β} {r : Except Error β}
    (hnext : next none = Operation.of r) : ∃ w', w'.store = w.store ∧
      Operation.run ⟨Memory.answer, clock, ids, latency⟩ config options w (resolveKey t id >>= next) = (r, w') := by
  obtain ⟨call, hplan, hstore, houtcome⟩ := hfind.outcome sortKey hfailure htable
  have hrun := run_send_bind htime houtcome hnext
  rw [resolveKey_eq_send hs, hplan]
  exact ⟨_, hstore, hrun⟩

/-- An update of a payload that is not turned down reports that there is no record, and changes nothing. -/
theorem update_missing (hid : checkId id = .ok ()) {members : Document} (h : t.Accepts config id (clock w.readings) members) :
    ∃ w', w'.store = w.store ∧ Operation.run ⟨Memory.answer, clock, ids, latency⟩ config options w
      ((Repository.ofDocuments config (adapter t)).update id (.obj members)) = (.error (.notFound id), w') := by
  obtain ⟨w₁, next, hstore, hnext, hrun⟩ := run_update_resolves ⟨Memory.answer, clock, ids, latency⟩ w htime.begun hid h
  obtain ⟨w₂, hstore₂, hmissing⟩ :=
    run_resolveKey_none htime hs (hstore ▸ hfailure) (hstore ▸ htable) hfind hnext.without
  exact ⟨w₂, hstore₂.trans hstore, hrun.trans hmissing⟩

/-- A removal reports that there is no record only if it is asked to check, and changes nothing. -/
theorem delete_missing (hid : checkId id = .ok ()) : ∃ w', w'.store = w.store ∧
    Operation.run ⟨Memory.answer, clock, ids, latency⟩ config options w ((Repository.ofDocuments config (adapter t)).delete id) =
      (if config.writePolicy = .existenceChecked then .error (.notFound id) else .ok (), w') := by
  obtain ⟨next, hdelete, hnone, -⟩ := delete_eq_resolve t id config.writePolicy
  rw [Repository.delete, hid]
  show ∃ w', _ ∧ Operation.run _ _ _ _ (delete t id config.writePolicy) = _
  rw [hdelete]
  exact run_resolveKey_none htime hs hfailure htable hfind hnone

end

/-! ## Reads -/

section

variable {clock : Nat → Instant} {ids : Nat → String} {latency : Nat} {config : EntityConfig} {options : Options}
  {w : World service Memory} (htable : w.store.table? t.name = some rows) {found : Option Candidate}
  (hfind : FindsFirst t rows id found)

/-- Reading a record by its identifier is one call and a reading of its answer. -/
theorem findOne_eq_send (t : Table) (config : EntityConfig) (id : String) (select : Select) :
    (Repository.ofDocuments config (adapter t)).findOne id select =
      Operation.send ((checkId id).bind fun _ => planFind t id select) fun call answer =>
        (readFind t call answer).bind ((Repository.ofDocuments config (adapter t)).recordFrom id select) :=
  Repository.findOne_eq_send (findById_eq_send t id select)

include htable hfind

/-- What a lookup answers is what is found. -/
theorem readFind_found (hfailure : w.store.failure = none) {select : Select} {call : service.Call}
    (hplan : ((checkId id).bind fun _ => planFind t id select) = .ok call) :
    checkId id = .ok () ∧ ∃ answer, Memory.answer call w.store = (.ok answer, w.store) ∧
      readFind t call answer = .ok (found.map fun c => select.project c.document) := by
  obtain ⟨⟨⟩, hid, hplan⟩ := of_bind_eq_ok hplan
  obtain ⟨call', hplan', hcall⟩ := hfind.find select
  obtain rfl : call = call' := Except.ok.inj (hplan.symm.trans hplan')
  exact ⟨hid, hcall w.store hfailure htable⟩

/-- Reading a record leaves the store as it is, where no failure is in the way. -/
theorem findOne_store (hfailure : w.store.failure = none) (select : Select) :
    (Operation.run ⟨Memory.answer, clock, ids, latency⟩ config options w
      ((Repository.ofDocuments config (adapter t)).findOne id select)).2.store = w.store := by
  rw [findOne_eq_send]
  refine run_send_store fun call hplan => ?_
  obtain ⟨-, answer, hanswer, -⟩ := readFind_found htable hfind hfailure hplan
  exact congrArg Prod.snd hanswer

/-- Reading a record with nothing in the way and in time comes to what is found. -/
theorem result_findOne (htime : InTime (I := service) ⟨Memory.answer, clock, ids, latency⟩ config options 1)
    (hfailure : w.store.failure = none) (hid : checkId id = .ok ()) :
    (Operation.run ⟨Memory.answer, clock, ids, latency⟩ config options w
      ((Repository.ofDocuments config (adapter t)).findOne id Select.all)).1 =
      found.elim (.error (.notFound id)) fun c => .ok c.document := by
  obtain ⟨call, hplan, hcall⟩ := hfind.find Select.all
  obtain ⟨answer, hanswer, hread⟩ := hcall w.store hfailure htable
  have hplanned : ((checkId id).bind fun _ => planFind t id Select.all) = .ok call := by rw [hid]; exact hplan
  rw [findOne_eq_send]
  refine (result_send_ok htime hplanned).trans ?_
  refine (congrArg (Operation.outcome (I := service) _ call) (congrArg Prod.fst hanswer)).trans ?_
  show (readFind t call answer).bind _ = _
  rw [hread]
  cases found <;> rfl

/-- A record that is read is what is found. -/
theorem found_of_findOne {record : Document} (h : (Operation.run ⟨Memory.answer, clock, ids, latency⟩ config options w
    ((Repository.ofDocuments config (adapter t)).findOne id Select.all)).1 = .ok record) :
    w.store.failure = none ∧ checkId id = .ok () ∧ ∃ c, found = some c ∧ c.document = record := by
  rw [findOne_eq_send] at h
  obtain ⟨call, answer, hplan, hanswer, hread, -⟩ := of_run_send h
  have hfailure := failure_of_ok (Prod.ext hanswer rfl)
  obtain ⟨hid, answer', hanswer', hread'⟩ := readFind_found htable hfind hfailure hplan
  obtain rfl : answer = answer' := Except.ok.inj (hanswer.symm.trans (congrArg Prod.fst hanswer'))
  rw [hread'] at hread
  cases found with
  | none => cases hread
  | some c => exact ⟨hfailure, hid, c, rfl, Except.ok.inj hread⟩

/-- Where a record is reported to be missing, none is found, and nothing has kept the lookup from its answer. -/
theorem none_of_findOne (h : (Operation.run ⟨Memory.answer, clock, ids, latency⟩ config options w
    ((Repository.ofDocuments config (adapter t)).findOne id Select.all)).1 = .error (.notFound id)) :
    InTime (I := service) ⟨Memory.answer, clock, ids, latency⟩ config options 1 ∧ w.store.failure = none ∧
      checkId id = .ok () ∧ found = none := by
  have hplanned : ((checkId id).bind fun _ => planFind t id Select.all) ≠ .error (.notFound id) := by
    obtain ⟨call, hplan, -⟩ := hfind.find Select.all
    cases hid : checkId id with
    | error e =>
      have hrefuses := checkId_refuses id e hid
      rintro ⟨⟩
      cases hrefuses
    | ok _ => exact fun he => by cases hplan.symm.trans he
  rw [findOne_eq_send] at h
  obtain ⟨htime, call, hplan, houtcome⟩ := of_run_send_error h (by rintro (hkind | hkind) <;> cases hkind) hplanned
  cases hanswer : (Memory.answer call w.store).1 with
  | error e =>
    rw [show (Surroundings.answer _ call w.store).1 = _ from hanswer] at houtcome
    cases houtcome
  | ok answer =>
    have hfailure := failure_of_ok (Prod.ext hanswer rfl)
    obtain ⟨hid, answer', hanswer', hread⟩ := readFind_found htable hfind hfailure hplan
    obtain rfl : answer = answer' := Except.ok.inj (hanswer.symm.trans (congrArg Prod.fst hanswer'))
    rw [show (Surroundings.answer _ call w.store).1 = _ from hanswer] at houtcome
    have hrecord : (readFind t call answer).bind _ = _ := houtcome
    rw [hread] at hrecord
    cases found with
    | none => exact ⟨htime, hfailure, hid, rfl⟩
    | some c => cases hrecord

end

/-! ## One record -/

/-- An item after an update with a payload of these members. -/
def Table.overwritten (t : Table) (config : EntityConfig) (now : Instant) (members : Document) (item : Item) : Item :=
  Fields.putAll item (ofDocument (t.written config now members))

/-- An update leaves the keys alone, and every field that its payload does not have, but for the instant of the write. -/
theorem get?_overwritten {config : EntityConfig} {now : Instant} {members : Document} {item : Item} {field : String}
    (h : t.isKey field = true ∨ field ∉ Fields.names members ∧ (config.autoFields.timestamp = true → field ≠ updatedAt)) :
    Fields.get? (t.overwritten config now members item) field = Fields.get? item field := by
  have hother : field ∉ Fields.names (t.written config now members) := by
    intro hmem
    obtain ⟨e, he, rfl⟩ := List.mem_map.1 hmem
    obtain ⟨hrevision, hkey⟩ := List.mem_filter.1 he
    rcases h with h | ⟨hmembers, hupdated⟩
    · simp [h] at hkey
    · rcases Repository.mem_revision hrevision with he | ⟨hstamp, rfl⟩
      · exact hmembers (List.mem_map_of_mem he)
      · exact hupdated hstamp rfl
  exact get?_putAll_ofDocument hother item

/-- Writes by an identifier reach one item, which stands under its key text between others. Whatever limits its caller sets, an
update that succeeds has overwritten this item and answers with it, and a removal that succeeds has taken it away; all else in the
store is as it was. What is overwritten are fields that the payload has, keys excepted, and the instant of the write. In time for
two calls, a removal succeeds, and so does an update whose payload is not turned down. -/
structure WritesReach (t : Table) (config : EntityConfig) (env : Surroundings service Memory) (s : Memory) (rows : Rows)
    (id : String) (before : List (String × Item)) (key : String) (item : Item) (behind : List (String × Item)) : Prop where
  update (w : World service Memory) (options : Options) (data : Json) (stored : Document) : w.store = s →
    (Operation.run env config options w ((Repository.ofDocuments config (adapter t)).update id data)).1 = .ok stored →
    ∃ members, data = .obj members ∧
      readItem (t.overwritten config (env.clock w.readings) members item) = .ok stored ∧
      (Operation.run env config options w ((Repository.ofDocuments config (adapter t)).update id data)).2.store =
        s.setTable t.name { rows with
          items := before ++ (key, t.overwritten config (env.clock w.readings) members item) :: behind }
  frame (now : Instant) (members : Document) (field : String) :
    t.isKey field = true ∨ field ∉ Fields.names members ∧ (config.autoFields.timestamp = true → field ≠ updatedAt) →
    Fields.get? (t.overwritten config now members item) field = Fields.get? item field
  delete (w : World service Memory) (options : Options) : w.store = s →
    (Operation.run env config options w ((Repository.ofDocuments config (adapter t)).delete id)).1 = .ok () →
    (Operation.run env config options w ((Repository.ofDocuments config (adapter t)).delete id)).2.store =
      s.setTable t.name { rows with items := before ++ behind }
  updated (w : World service Memory) (options : Options) (members : Document) : w.store = s → InTime env config options 2 →
    t.Accepts config id (env.clock w.readings) members →
    ∃ stored, (Operation.run env config options w
      ((Repository.ofDocuments config (adapter t)).update id (.obj members))).1 = .ok stored
  deleted (w : World service Memory) (options : Options) : w.store = s → InTime env config options 2 →
    (Operation.run env config options w ((Repository.ofDocuments config (adapter t)).delete id)).1 = .ok ()

/-- Writes by an identifier reach no item and leave the store as it is. In time for one call, an update whose payload is not turned
down reports that there is no record, and so does a removal if it is asked to check. -/
structure WritesMiss (t : Table) (config : EntityConfig) (env : Surroundings service Memory) (s : Memory) (id : String) : Prop where
  update (w : World service Memory) (options : Options) (members : Document) : w.store = s → InTime env config options 1 →
    t.Accepts config id (env.clock w.readings) members → ∃ w', w'.store = s ∧
      Operation.run env config options w ((Repository.ofDocuments config (adapter t)).update id (.obj members)) =
        (.error (.notFound id), w')
  delete (w : World service Memory) (options : Options) : w.store = s → InTime env config options 1 → ∃ w', w'.store = s ∧
    Operation.run env config options w ((Repository.ofDocuments config (adapter t)).delete id) =
      (if config.writePolicy = .existenceChecked then .error (.notFound id) else .ok (), w')

/-- In a table with a sort key whose keys hold no integer beyond the signed 64-bit ones, an identifier addresses one record for reads
and writes alike. If it is read as a record, then this is an item of the table as it is read, and writes reach this item and no
other. If it is reported to be missing, its caller allows for one call, and writes miss it, too. -/
theorem id_addresses_one_record {sortKey : String} (hs : t.sortKey = some sortKey) {w : World service Memory}
    (hw : Reachable w.store) (htable : w.store.table? t.name = some rows) (hpartition : rows.partitionKey = t.partitionKey)
    (hsort : rows.sortKey = t.sortKey) (hnarrow : rows.NarrowKeys) (config : EntityConfig) (clock : Nat → Instant)
    (ids : Nat → String) (latency : Nat) (options : Options) (id : String) :
    let env : Surroundings service Memory := ⟨Memory.answer, clock, ids, latency⟩
    let find := Operation.run env config options w ((Repository.ofDocuments config (adapter t)).findOne id Select.all)
    (∀ record, find.1 = .ok record → find.2.store = w.store ∧ ∃ before key item behind,
      rows.items = before ++ (key, item) :: behind ∧ readItem item = .ok record ∧
        WritesReach t config env w.store rows id before key item behind) ∧
      (find.1 = .error (.notFound id) → find.2.store = w.store ∧ InTime env config options 1 ∧
        WritesMiss t config env w.store id) := by
  intro env find
  have hfiled : rows.Filed := hw.filed t.name rows htable
  have hsound := hfiled.sound hpartition hsort
  obtain ⟨found, hfind⟩ := exists_findsFirst hfiled hsound hs id
  refine ⟨fun record hrecord => ?read, fun hmissing => ?missing⟩
  case read =>
    obtain ⟨hfailure, hid, c, hc, rfl⟩ := found_of_findOne htable hfind hrecord
    obtain ⟨key, hmem⟩ := hfind.kept c hc
    obtain ⟨before, behind, hitems⟩ := List.append_of_mem hmem
    have hread : readItem c.item = .ok c.document := by rw [readItem, hfind.document c hc]; rfl
    refine ⟨findOne_store htable hfind hfailure _, before, key, c.item, behind, hitems, hread, ?update,
      fun _ _ _ => get?_overwritten, ?delete, ?updated, ?deleted⟩
    case update =>
      intro w' options' data stored hstore hstored
      have hgives : ((Repository.ofDocuments config (adapter t)).update id data).Gives env (fun stored w₂ => ∃ members,
          data = .obj members ∧ readItem (t.overwritten config (clock w'.readings) members c.item) = .ok stored ∧
            w₂.store = w.store.setTable t.name { rows with
              items := before ++ (key, t.overwritten config (clock w'.readings) members c.item) :: behind }) w' := by
        refine Repository.update_revises (adapter t) config id data fun members w₁ hw₁ => ?_
        rw [hstore] at hw₁
        rw [← hw₁] at htable ⊢
        exact update_gives_found hfiled hsound hnarrow hs htable hfind hc hitems _ config.writePolicy
      exact Gives.run hgives config options' hstored
    case delete =>
      intro w' options' hstore hdone
      rw [← hstore] at htable ⊢
      have hgives : ((Repository.ofDocuments config (adapter t)).delete id).Gives env (fun _ w₂ =>
          w₂.store = w'.store.setTable t.name { rows with items := before ++ behind }) w' :=
        Repository.delete_gives (adapter t) config id
          (delete_gives_found hfiled hsound hnarrow hs htable hfind hc hitems config.writePolicy)
      exact Gives.run hgives config options' hdone
    case updated =>
      intro w' options' members hstore htime haccepts
      rw [← hstore] at hfailure htable
      exact update_succeeds hfiled hsound hnarrow hs htable hfind hc hitems htime hfailure hid haccepts
    case deleted =>
      intro w' options' hstore htime
      rw [← hstore] at hfailure htable
      exact delete_succeeds hfiled hsound hnarrow hs htable hfind hc hitems htime hfailure hid
  case missing =>
    obtain ⟨htime, hfailure, hid, rfl⟩ := none_of_findOne htable hfind hmissing
    refine ⟨findOne_store htable hfind hfailure _, htime, ⟨fun w' options' members hstore htime' haccepts => ?update,
      fun w' options' hstore htime' => ?delete⟩⟩
    case update =>
      rw [← hstore] at hfailure htable ⊢
      exact update_missing htime' hs hfailure htable hfind hid haccepts
    case delete =>
      rw [← hstore] at hfailure htable ⊢
      exact delete_missing htime' hs hfailure htable hfind hid

/-- Two orders of one customer, on the days 10 and 2: the customer's identifier addresses one of them, and another identifier
addresses none. -/
theorem id_addresses_one_order :
    let t : Table := ⟨"orders", "customer", some "day"⟩
    let config : EntityConfig := ⟨"Order", ⟨false, true⟩, .existenceChecked, 20, 100, none⟩
    let order (day : Int64) : Document := [("customer", .str "c-1"), ("day", Json.ofInt64 day), ("paid", .bool false)]
    let w : World service Memory := ⟨((Memory.empty.withTable t).seed "orders" [order 10, order 2]).2, 0, 0, []⟩
    let env : Surroundings service Memory := ⟨Memory.answer, fun n => ⟨n, 0⟩, fun _ => "o-1", 5⟩
    let find (id : String) := Operation.run env config .none w ((Repository.ofDocuments config (adapter t)).findOne id Select.all)
    ∃ rows, w.store.table? "orders" = some rows ∧ (rows.items.map (·.2)).Perm [ofDocument (order 2), ofDocument (order 10)] ∧
      (∃ record before key item behind, (find "c-1").1 = .ok record ∧ rows.items = before ++ (key, item) :: behind ∧
        readItem item = .ok record ∧ WritesReach t config env w.store rows "c-1" before key item behind) ∧
      (find "c-2").1 = .error (.notFound "c-2") ∧ WritesMiss t config env w.store "c-2" := by
  intro t config order w env find
  have hkeys : t.rows.keyText (ofDocument (order 2)) ≠ t.rows.keyText (ofDocument (order 10)) := by
    revert t order
    decide +kernel
  have hw : Reachable w.store := .seed _ _ (.table t .empty)
  obtain ⟨first, hfirst⟩ : ∃ key, t.rows.keyText (ofDocument (order 10)) = .ok key := ⟨_, rfl⟩
  obtain ⟨second, hsecond⟩ : ∃ key, t.rows.keyText (ofDocument (order 2)) = .ok key := ⟨_, rfl⟩
  let rows := (t.rows.put first (ofDocument (order 10))).put second (ofDocument (order 2))
  have hseed : (Memory.seedRows t.rows [order 10, order 2]).2 = rows := by
    rw [Memory.seedRows, hfirst]
    show (Memory.seedRows (t.rows.put first (ofDocument (order 10))) [order 2]).2 = rows
    rw [Memory.seedRows, show (t.rows.put first _).keyText (ofDocument (order 2)) = .ok second from hsecond]
    rfl
  have htable : w.store.table? "orders" = some rows := by
    rw [← hseed]
    exact Memory.table?_setTable (Memory.empty.withTable t) "orders" _
  have hperm : rows.items.Perm [(second, ofDocument (order 2)), (first, ofDocument (order 10))] := by
    have hnew : second ∉ [first] := fun h => hkeys ((List.mem_singleton.1 h ▸ hsecond).trans hfirst.symm)
    have hsorted : Rows.Sorted [(first, ofDocument (order 10))] := List.pairwise_singleton _ _
    obtain ⟨as, bs, hold, hinsert, -⟩ := Rows.insertSorted_new hsorted hnew (ofDocument (order 2))
    show (Rows.insertSorted second (ofDocument (order 2)) [(first, ofDocument (order 10))]).Perm _
    rw [hinsert]
    exact List.perm_middle.trans (hold ▸ List.Perm.refl _)
  have hitems : ∀ e ∈ rows.items, ∃ day, e.2 = ofDocument (order day) := by
    intro e he
    rcases List.mem_cons.1 (hperm.mem_iff.1 he) with rfl | he
    · exact ⟨2, rfl⟩
    · exact ⟨10, congrArg Prod.snd (List.mem_singleton.1 he)⟩
  have hfiled : rows.Filed := hw.filed "orders" rows htable
  have hsound : rows.Sound t := hfiled.sound rfl rfl
  have hnarrow : rows.NarrowKeys := by
    refine Rows.narrowKeys_of_documents fun e he => ?_
    obtain ⟨day, hday⟩ := hitems e he
    exact ⟨order day, hday, trivial, day.toInt_lt, trivial, trivial⟩
  have hcustomer : ∀ e ∈ rows.items, ∀ d, toDocument e.2 = .ok d → Fields.get? d "customer" = some (.str "c-1") := by
    intro e he d hd
    obtain ⟨day, hday⟩ := hitems e he
    rw [hday] at hd
    obtain rfl : Json.settledMembers (order day) = d := Except.ok.inj ((toMembers_ofMembers (order day)).symm.trans hd)
    rfl
  have hone := @id_addresses_one_record t rows "day" rfl w hw htable rfl rfl hnarrow config env.clock env.ids env.latency .none
  have htime : InTime env config .none 1 := inTime_one_iff.2 ⟨by rintro ⟨⟩, rfl⟩
  have hresult (id : String) (hid : checkId id = .ok ()) : ∃ found, FindsFirst t rows id found ∧
      (find id).1 = found.elim (.error (.notFound id)) fun c => .ok c.document := by
    obtain ⟨found, hfind⟩ := exists_findsFirst hfiled hsound rfl id
    exact ⟨found, hfind, result_findOne htable hfind htime rfl hid⟩
  refine ⟨rows, htable, hperm.map (·.2), ?found, ?missing⟩
  case found =>
    obtain ⟨found, hfind, hrun⟩ := hresult "c-1" rfl
    cases found with
    | none =>
      have hmem : (second, ofDocument (order 2)) ∈ rows.items := hperm.mem_iff.2 List.mem_cons_self
      obtain ⟨d, hd, hid⟩ := hfind.absent rfl _ hmem
      exact absurd (hcustomer _ hmem d hd) hid
    | some c =>
      obtain ⟨-, before, key, item, behind, haddressed⟩ := (hone "c-1").1 c.document hrun
      exact ⟨c.document, before, key, item, behind, hrun, haddressed⟩
  case missing =>
    obtain ⟨found, hfind, hrun⟩ := hresult "c-2" rfl
    cases found with
    | none => exact ⟨hrun, ((hone "c-2").2 hrun).2.2⟩
    | some c =>
      obtain ⟨key, hmem⟩ := hfind.kept c rfl
      have hid := hcustomer _ hmem c.document (hfind.document c rfl)
      exact absurd (Json.str.inj (Option.some.inj (hid.symm.trans (hfind.partition c rfl)))) (by decide)

end DocQuery.Dynamo
