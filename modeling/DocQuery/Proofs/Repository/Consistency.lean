import DocQuery.Proofs.Repository.Contract
import DocQuery.Proofs.Repository.Interleaving

/-!
# Checked writes in turns

A checked write of a record takes effect in its last turn, and what it comes to there depends on nothing but whether the record is
there (`Write.Settles`). So in whatever order several writes of one record have their turns, the creations and removals that
succeed alternate, and the record is there exactly after a creation (`Adapter.Decides.consistent`).
-/

namespace DocQuery

variable {I : Interface} {S α β : Type}

/-! ## Writes -/

/-- The operations that write a record. -/
inductive Write where
  | create
  | update
  | delete
  deriving DecidableEq, Repr

namespace Write

/-- What a checked write of a record comes to where the record is there or not, and whether it is there afterwards. -/
inductive Settles (id : String) : Write → Except Error α → Bool → Bool → Prop
  | created (a : α) : Settles id .create (.ok a) false true
  | taken : Settles id .create (.error (.alreadyExists id)) true true
  | updated (a : α) : Settles id .update (.ok a) true true
  | deleted (a : α) : Settles id .delete (.ok a) true false
  | missing {w : Write} : w ≠ .create → Settles id w (.error (.notFound id)) false false

/-- The error of a checked write that loses its record to another one. -/
def lost (id : String) : Write → Error
  | .create => .alreadyExists id
  | .update | .delete => .notFound id

/-- Whether the record is there after a write that creates or deletes it; the other writes have nothing to say about that. -/
def switch? : Write → Except Error α → Option Bool
  | .create, .ok _ => some true
  | .delete, .ok _ => some false
  | _, _ => none

/-- The verdict of a checked write, which succeeds by a call that writes only. -/
def verdict (writes : I.Call → Prop) (id : String) (w : Write) : Verdict I (Except Error α) := fun c r before after =>
  w.Settles id r before after ∧ ((∃ a, r = .ok a) → writes c)

variable {writes : I.Call → Prop} {id : String} {w : Write}

/-- What becomes of a result that is there does not matter. -/
theorem Settles.map {r : Except Error α} {before after : Bool} (h : w.Settles id r before after) (f : α → β) :
    w.Settles id (r.map f) before after := by
  cases h with
  | created a => exact .created (f a)
  | taken => exact .taken
  | updated a => exact .updated (f a)
  | deleted a => exact .deleted (f a)
  | missing hw => exact .missing hw

/-- A creation or removal that succeeds turns around whether the record is there, and nothing else does. -/
theorem Settles.switch {r : Except Error α} {before after : Bool} (h : w.Settles id r before after) :
    (w.switch? r = none ∧ after = before) ∨ (w.switch? r = some after ∧ before ≠ after) := by
  cases h with
  | created a => exact .inr ⟨rfl, nofun⟩
  | taken => exact .inl ⟨rfl, rfl⟩
  | updated a => exact .inl ⟨rfl, rfl⟩
  | deleted a => exact .inr ⟨rfl, nofun⟩
  | missing hw => exact .inl ⟨by cases w <;> rfl, rfl⟩

/-- An update that succeeds finds the record. -/
theorem Settles.before_of_update {a : α} {before after : Bool} (h : Settles id .update (.ok a) before after) : before = true := by
  cases h
  rfl

/-- A write that fails has lost its record. -/
theorem Settles.error {e : Error} {before after : Bool} (h : w.Settles id (.error e : Except Error α) before after) :
    e = w.lost id := by
  cases h with
  | taken => rfl
  | missing hw => cases w <;> first | rfl | exact absurd rfl hw

end Write

/-- An operation settles as a write if it does so before its result is changed alone. -/
theorem Operation.settles_bind {v : Watch I S} {writes : I.Call → Prop} {id : String} {w : Write} {n : Nat} {op : Operation I α}
    {next : α → Operation I β} {f : α → β} (h : (ExceptT.run op).Settles v (w.verdict writes id) n)
    (hnext : ∀ a, next a = pure (f a)) : (ExceptT.run (op >>= next)).Settles v (w.verdict writes id) n := by
  refine Program.Settles.bind (g := Except.map f) h (fun r => ?_) fun c r before after hr => ⟨hr.1.map f, ?_⟩
  · cases r with
    | error e => rfl
    | ok a => exact congrArg ExceptT.run (hnext a)
  · rintro ⟨b, hb⟩
    cases r with
    | error e => cases hb
    | ok a => exact hr.2 ⟨a, rfl⟩

/-! ## Calls -/

/-- The write that a call of an operation is, if it is one. -/
def RecordCall.write? : RecordCall → Option Write
  | .create _ => some .create
  | .findOne _ _ => none
  | .update _ _ => some .update
  | .delete _ => some .delete

/-- Settings under which no instant is written into a field. -/
def EntityConfig.Spares (config : EntityConfig) (field : String) : Prop :=
  config.autoFields.timestamp = true → field ≠ createdAt ∧ field ≠ updatedAt

/-- A write of the record with an identifier whose arguments pass validation. A new record keeps its identifier when the instants
are filled in, and an update has something to change besides the identifier. -/
inductive RecordCall.Valid (config : EntityConfig) (idField id : String) : RecordCall → Prop
  | create {members : Document} : Fields.get? members idField = some (.str id) → config.Spares idField →
    Valid config idField id (.create (.obj members))
  | update {members changes : Document} : members ≠ [] → Repository.withoutId idField id members = .ok changes →
    (config.autoFields.timestamp = true ∧ updatedAt ≠ idField ∨
      ∃ name ∈ Fields.names changes, config.autoFields.timestamp = true → name ≠ createdAt) →
    Valid config idField id (.update id (.obj members))
  | delete : Valid config idField id (.delete id)

/-- An adapter whose checked writes of a record settle. -/
structure Adapter.Decides (a : Adapter I) (v : Watch I S) (writes : I.Call → Prop) (id : String) : Prop where
  insert : ∀ d, Fields.get? d a.idField = some (.str id) →
    (ExceptT.run (a.insert d .existenceChecked)).Settles v (Write.create.verdict writes id) 2
  update : ∀ changes, (∃ name ∈ Fields.names changes, name ≠ a.idField) →
    (ExceptT.run (a.update id changes .existenceChecked)).Settles v (Write.update.verdict writes id) 2
  delete : (ExceptT.run (a.delete id .existenceChecked)).Settles v (Write.delete.verdict writes id) 2

namespace Repository

variable {a : Adapter I} {v : Watch I S} {writes : I.Call → Prop} {config : EntityConfig} {id : String}

/-- The members of a payload that has some. -/
theorem payload_of_ne_nil (operation : PayloadOperation) {members : Document} (h : members ≠ []) :
    payload operation (.obj members) = .ok members := by
  cases members with
  | nil => exact absurd rfl h
  | cons e rest => rfl

/-- Creating a record settles. -/
theorem create_settles (ha : a.Decides v writes id) (hpolicy : config.writePolicy = .existenceChecked) (hid : ValidId id)
    (hfield : config.Spares a.idField) {members : Document} (hmembers : Fields.get? members a.idField = some (.str id)) :
    (ExceptT.run ((ofDocuments config a).create (.obj members))).Settles v (Write.create.verdict writes id) 3 := by
  have hne : members ≠ [] := fun h => by cases h ▸ hmembers
  have hwithId : withId (ofDocuments config a) members = pure members := by
    simp only [withId, ofDocuments, hmembers, show checkId id = .ok () from hid]
    rfl
  have hstored : ∀ d, Fields.get? d a.idField = some (.str id) →
      (ExceptT.run (a.insert d config.writePolicy >>= fun stored => Operation.of (.ok stored))).Settles v
        (Write.create.verdict writes id) 2 := fun d hd => by
    rw [hpolicy]
    exact Operation.settles_bind (f := fun d => d) (ha.insert d hd) fun _ => rfl
  rw [create, payload_of_ne_nil .create hne]
  show (ExceptT.run (withId _ members >>= _)).Settles v _ 3
  rw [hwithId]
  show (ExceptT.run (withCreation _ members >>= _)).Settles v _ 3
  by_cases ht : config.autoFields.timestamp = true
  · obtain ⟨hcreated, hupdated⟩ := hfield ht
    rw [withCreation, ofDocuments, if_pos ht]
    intro now
    refine hstored _ ?_
    rw [Fields.get?_put_of_ne _ _ hupdated, Fields.get?_put_of_ne _ _ hcreated, hmembers]
  · rw [withCreation, ofDocuments, if_neg ht]
    exact (hstored members hmembers).succ

/-- Changing a record settles. -/
theorem update_settles (ha : a.Decides v writes id) (hpolicy : config.writePolicy = .existenceChecked) (hid : ValidId id)
    {members changes : Document} (hmembers : members ≠ []) (hchanges : withoutId a.idField id members = .ok changes)
    (hrest : config.autoFields.timestamp = true ∧ updatedAt ≠ a.idField ∨
      ∃ name ∈ Fields.names changes, config.autoFields.timestamp = true → name ≠ createdAt) :
    (ExceptT.run ((ofDocuments config a).update id (.obj members))).Settles v (Write.update.verdict writes id) 3 := by
  have hnot : ∀ name ∈ Fields.names changes, name ≠ a.idField := fun name hname he =>
    not_mem_of_withoutId hchanges (he ▸ hname)
  have hstored : ∀ changes : Document, (∃ name ∈ Fields.names changes, name ≠ a.idField) →
      (ExceptT.run (do
        if changes.isEmpty then throw (.invalidArgument .nothingToChange)
        let stored ← a.update id changes config.writePolicy
        Operation.of (.ok stored))).Settles v (Write.update.verdict writes id) 2 := by
    intro changes hsome
    have hne : changes ≠ [] := by
      rintro rfl
      obtain ⟨name, hname, -⟩ := hsome
      cases hname
    rw [hpolicy, List.isEmpty_eq_false_iff.2 hne]
    exact Operation.settles_bind (f := fun d => d) (ha.update changes hsome) fun _ => rfl
  rw [update, payload_of_ne_nil .update hmembers, show checkId id = .ok () from hid]
  show (ExceptT.run (Operation.of (withoutId a.idField id members) >>= _)).Settles v _ 3
  rw [hchanges]
  show (ExceptT.run (withUpdate _ changes >>= _)).Settles v _ 3
  -- reading the clock is a turn of its own, in which the store is left alone
  by_cases ht : config.autoFields.timestamp = true
  · rw [withUpdate, ofDocuments, if_pos ht]
    intro now
    refine hstored (Fields.put (Fields.drop changes createdAt) updatedAt (.str now.text)) ?_
    rcases hrest with ⟨-, hfield⟩ | ⟨name, hname, hcreated⟩
    · exact ⟨updatedAt, Fields.mem_names_put_self _ _ _, hfield⟩
    · exact ⟨name, Fields.mem_names_put (Fields.mem_names_drop hname (hcreated ht)) _ _, hnot name hname⟩
  · obtain ⟨name, hname, -⟩ := hrest.resolve_left fun h => ht h.1
    rw [withUpdate, ofDocuments, if_neg ht]
    exact (hstored changes ⟨name, hname, hnot name hname⟩).succ

/-- Removing a record settles. -/
theorem delete_settles (ha : a.Decides v writes id) (hpolicy : config.writePolicy = .existenceChecked) (hid : ValidId id) :
    (ExceptT.run ((ofDocuments config a).delete id)).Settles v (Write.delete.verdict writes id) 3 := by
  rw [delete, show checkId id = .ok () from hid]
  show (ExceptT.run (a.delete id config.writePolicy)).Settles v _ 3
  rw [hpolicy]
  exact ha.delete.succ

/-- A valid write of a record settles. -/
theorem perform_settles (ha : a.Decides v writes id) (hpolicy : config.writePolicy = .existenceChecked) (hid : ValidId id)
    {call : RecordCall} (h : call.Valid config a.idField id) :
    ∃ w, call.write? = some w ∧
      (ExceptT.run (call.perform (ofDocuments config a))).Settles v (w.verdict writes id) 3 := by
  cases h with
  | create hmembers hfield =>
    exact ⟨.create, rfl, Operation.settles_bind (f := some) (create_settles ha hpolicy hid hfield hmembers) fun _ => rfl⟩
  | update hmembers hchanges hrest =>
    exact ⟨.update, rfl, Operation.settles_bind (f := some) (update_settles ha hpolicy hid hmembers hchanges hrest)
      fun _ => rfl⟩
  | delete => exact ⟨.delete, rfl, Operation.settles_bind (f := fun _ => none) (delete_settles ha hpolicy hid) fun _ => rfl⟩

end Repository

/-! ## Consistency -/

section

variable {v : Watch I S} {writes : I.Call → Prop} {id : String} {calls : List RecordCall} {s s' : S}
  {turns : List (Turn I S (Except Error α))} {t : Turn I S (Except Error α)}

/-- The write whose turn it was. -/
def Turn.write? (calls : List RecordCall) (t : Turn I S (Except Error α)) : Option Write :=
  calls[t.index]?.bind RecordCall.write?

/-- Whether the record is there after a turn that has created or deleted it. -/
def Turn.switch? (calls : List RecordCall) (t : Turn I S (Except Error α)) : Option Bool := do
  (← t.write? calls).switch? (← t.result)

/-- The creations and removals that succeeded, in order. -/
def switches (calls : List RecordCall) (turns : List (Turn I S (Except Error α))) : List Bool :=
  turns.filterMap (Turn.switch? calls)

/-- The verdict of the writes of a record. -/
def RecordCall.verdict (writes : I.Call → Prop) (id : String) (calls : List RecordCall) (i : Nat) :
    Verdict I (Except Error α) := fun c r before after =>
  ∃ w, calls[i]?.bind RecordCall.write? = some w ∧ w.verdict writes id c r before after

/-- A turn that creates or deletes the record turns around whether it is there, and no other turn does. -/
theorem Turn.Proper.switch (h : t.Proper v (RecordCall.verdict writes id calls)) :
    (t.switch? calls = none ∧ v.there t.after = v.there t.before) ∨
      (t.switch? calls = some (v.there t.after) ∧ v.there t.before ≠ v.there t.after) := by
  rcases h with ⟨hresult, hsame⟩ | ⟨c, r, -, hresult, w, hw, hr, -⟩
  · refine .inl ⟨?_, hsame⟩
    rw [switch?, hresult]
    cases t.write? calls <;> rfl
  · have hswitch : t.switch? calls = w.switch? r := by
      rw [switch?, Turn.write?, hw, hresult]
      rfl
    rw [hswitch]
    exact hr.switch

/-- Creations and removals that succeed alternate, and the last of them says whether the record is there. -/
theorem History.alternate (h : History v (RecordCall.verdict writes id calls) s turns s') :
    (v.there s :: switches calls turns).IsChain (· ≠ ·) ∧
      (v.there s :: switches calls turns).getLast? = some (v.there s') := by
  induction h with
  | nil s => exact ⟨.singleton _, rfl⟩
  | @cons t turns s hproper _ ih =>
    rcases hproper.switch with ⟨hswitch, hsame⟩ | ⟨hswitch, hne⟩
    · rw [switches, List.filterMap_cons_none hswitch, ← hsame]
      exact ih
    · rw [switches, List.filterMap_cons_some hswitch, List.getLast?_cons_cons]
      exact ⟨.cons_cons hne ih.1, ih.2⟩

/-- What is consistent about writes of one record under a schedule. -/
structure Consistent (v : Watch I S) (writes : I.Call → Prop) (id : String) (calls : List RecordCall)
    (c : Crowd I S (Except Error α)) (schedule : List Nat) : Prop where
  /-- Creations and removals that succeed alternate, with a creation first exactly where the record is not there. -/
  alternate : (v.there c.world.store :: switches calls (c.run v.env schedule).1).IsChain (· ≠ ·)
  /-- At any moment, which is the end of a first part of the schedule, the last of them until then says whether the record is
  there; before the first of them it is as it was at the start. -/
  there : ∀ n, (v.there c.world.store :: switches calls (c.run v.env (schedule.take n)).1).getLast? =
    some (v.there (c.run v.env (schedule.take n)).2.world.store)
  /-- An update that succeeds does so by a call that writes, while the record is there. -/
  update_there : ∀ t ∈ (c.run v.env schedule).1, t.write? calls = some .update → ∀ a, t.result = some (.ok a) →
    v.there t.before = true ∧ ∃ call, t.call = some call ∧ writes call
  /-- No turn of an update brings the record back. -/
  update_absent : ∀ t ∈ (c.run v.env schedule).1, t.write? calls = some .update → v.there t.before = false →
    v.there t.after = false
  /-- A write that fails reports what it has lost. -/
  lost : ∀ t ∈ (c.run v.env schedule).1, ∀ e, t.result = some (.error e) → ∃ w, t.write? calls = some w ∧ e = w.lost id
  /-- A write comes to its result within three turns. -/
  ends : ∀ i < calls.length, 3 ≤ schedule.count i → ∃ t ∈ (c.run v.env schedule).1, t.index = i ∧ t.result.isSome

/-- An orderly crowd of writes is consistent. -/
theorem Crowd.Orderly.consistent {c : Crowd I S (Except Error α)} (h : c.Orderly v (RecordCall.verdict writes id calls))
    (hthree : ∀ i < calls.length, ∃ p, c.programs[i]? = some p ∧ p.Settles v (RecordCall.verdict writes id calls i) 3)
    (schedule : List Nat) : Consistent v writes id calls c schedule := by
  obtain ⟨hhistory, -⟩ := h.history schedule
  have hthere n := (h.history (schedule.take n)).1.alternate.2
  refine ⟨hhistory.alternate.1, hthere, ?update_there, ?update_absent, ?lost, ?ends⟩
  case update_there =>
    intro t ht hupdate a ha
    rcases hhistory.proper ht with ⟨hnone, -⟩ | ⟨call, r, hcall, hresult, w, hw, hr, hwrites⟩
    · rw [hnone] at ha
      cases ha
    · obtain rfl : w = .update := Option.some.inj (hw.symm.trans hupdate)
      obtain rfl : r = .ok a := Option.some.inj (hresult.symm.trans ha)
      exact ⟨hr.before_of_update, call, hcall, hwrites ⟨a, rfl⟩⟩
  case update_absent =>
    intro t ht hupdate habsent
    rcases (hhistory.proper ht).switch with ⟨-, hsame⟩ | ⟨hswitch, -⟩
    · exact hsame.trans habsent
    · rw [Turn.switch?, hupdate] at hswitch
      cases hresult : t.result <;> simp [hresult, Write.switch?] at hswitch
  case lost =>
    intro t ht e he
    rcases hhistory.proper ht with ⟨hnone, -⟩ | ⟨call, r, -, hresult, w, hw, hr, -⟩
    · rw [hnone] at he
      cases he
    · obtain rfl : r = .error e := Option.some.inj (hresult.symm.trans he)
      exact ⟨w, hw, hr.error⟩
  case ends =>
    intro i hi hcount
    obtain ⟨p, hp, hsettles⟩ := hthree i hi
    exact h.ends hp hsettles hcount

end

/-- Calls of a repository's operations, under way together. -/
def Repository.crowd (r : Repository I Document) (calls : List RecordCall) (w : World I S) :
    Crowd I S (Except Error (Option Document)) :=
  ⟨w, calls.map fun call => ExceptT.run (call.perform r)⟩

/-- Valid writes of one record over an adapter whose checked writes settle are consistent. -/
theorem Adapter.Decides.consistent {a : Adapter I} {v : Watch I S} {writes : I.Call → Prop} {id : String}
    (ha : a.Decides v writes id) {config : EntityConfig} (hpolicy : config.writePolicy = .existenceChecked) (hid : ValidId id)
    {calls : List RecordCall} (hcalls : ∀ call ∈ calls, call.Valid config a.idField id)
    {w : World I S} (hw : v.Fit w.store) (schedule : List Nat) :
    Consistent v writes id calls ((Repository.ofDocuments config a).crowd calls w) schedule := by
  have hsettles : ∀ i (p : Program I (Except Error (Option Document))),
      ((Repository.ofDocuments config a).crowd calls w).programs[i]? = some p →
      p.Settles v (RecordCall.verdict writes id calls i) 3 := by
    intro i p hp
    rw [Repository.crowd, List.getElem?_map] at hp
    obtain ⟨call, hcall, rfl⟩ := Option.map_eq_some_iff.1 hp
    obtain ⟨k, hk, hsettles⟩ := Repository.perform_settles ha hpolicy hid (hcalls call (List.mem_of_getElem? hcall))
    exact hsettles.imp fun c r b b' hr => ⟨k, by rw [hcall]; exact hk, hr⟩
  refine Crowd.Orderly.consistent ⟨hw, fun i p hp _ => ⟨3, hsettles i p hp⟩⟩ (fun i hi => ?_) schedule
  have hp : ((Repository.ofDocuments config a).crowd calls w).programs[i]? =
      some (ExceptT.run (calls[i].perform (Repository.ofDocuments config a))) := by
    rw [Repository.crowd, List.getElem?_map, List.getElem?_eq_getElem hi]
    rfl
  exact ⟨_, hp, hsettles i _ hp⟩

end DocQuery
