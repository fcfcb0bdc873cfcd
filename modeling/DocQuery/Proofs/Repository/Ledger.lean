import DocQuery.Proofs.Repository.Effects

/-!
# What a run of calls leaves

A repository runs calls one after another, each of which may fail. A call makes one of four things of the records: nothing, a new
record, another version of a record, or one record less (`Event.Effect`). Where every call of a run has such an effect, each record
carries the instants of the call that has made it and of the last one that has written it, and no update has changed an instant of
creation (`timestamped_of_effects`).
-/

namespace DocQuery

open Operation

variable {I : Interface} {S V α : Type}

/-! ## Runs -/

/-- A store as the records that it holds, and how a call names the record that it writes. -/
structure Register (I : Interface) (S : Type) where
  /-- The records under their keys. -/
  records : S → List (String × Document)
  /-- The key of the record that a call writes. -/
  key? : I.Call → Option String

/-- A call that a repository has run. -/
structure Event (I : Interface) (S : Type) where
  /-- The call. -/
  call : RecordCall
  /-- What it came to. -/
  result : Except Error (Option Document)
  /-- The world in which it was run. -/
  before : World I (S × List (Option StoreError))
  /-- The world that it left. -/
  after : World I (S × List (Option StoreError))

/-- The event of a call. -/
def Repository.event (r : Repository I Document) (env : Surroundings I (S × List (Option StoreError))) (options : Options)
    (call : RecordCall) (w : World I (S × List (Option StoreError))) : Event I S :=
  let run := Operation.run env r.config options w (call.perform r)
  ⟨call, run.1, w, run.2⟩

/-- The events of calls that are run one after another. -/
def Repository.events (r : Repository I Document) (env : Surroundings I (S × List (Option StoreError))) :
    List (RecordCall × Options) → World I (S × List (Option StoreError)) → List (Event I S)
  | [], _ => []
  | (call, options) :: rest, w =>
    let e := r.event env options call w
    e :: r.events env rest e.after

/-- The world that events lead to. -/
def Event.last (w : World I (S × List (Option StoreError))) (events : List (Event I S)) :
    World I (S × List (Option StoreError)) :=
  (events.getLast?.map Event.after).getD w

namespace Event

/-- The call to the store that was sent last. -/
def sent? (e : Event I S) : Option I.Call := (e.after.log.drop e.before.log.length).getLast?

/-- The events that come to a value. -/
def Succeeds (e : Event I S) : Prop := ∃ a, e.result = .ok a

variable (v : Register I S) (key : String)

/-- The events that create the record with a key. -/
def Creates (e : Event I S) : Prop := e.call.write? = some .create ∧ e.Succeeds ∧ e.sent?.bind v.key? = some key

/-- The events that create or change the record with a key. -/
def Writes (e : Event I S) : Prop :=
  (e.call.write? = some .create ∨ e.call.write? = some .update) ∧ e.Succeeds ∧ e.sent?.bind v.key? = some key

/-- The event that has made the record with a key: it has created it where there was none, and there has been one since. -/
def Made (events : List (Event I S)) (c : Event I S) : Prop :=
  ∃ past later, events = past ++ c :: later ∧ c.Creates v key ∧ key ∉ Fields.names (v.records c.before.store.1) ∧
    ∀ e ∈ later, key ∈ Fields.names (v.records e.after.store.1)

/-- The last event that has created or changed the record with a key. -/
def LastWrote (events : List (Event I S)) (u : Event I S) : Prop :=
  ∃ past later, events = past ++ u :: later ∧ u.Writes v key ∧ ∀ e ∈ later, ¬e.Writes v key

end Event

/-! ## Effects -/

namespace Register

variable (rs rs' : List (String × Document)) (key : String)

/-- The same records, but for one under a key. -/
def Puts (d : Document) : Prop := ∀ x, x ∈ rs' ↔ x = (key, d) ∨ x ∈ rs ∧ x.1 ≠ key

/-- One more record, under a new key. -/
structure Adds (d : Document) : Prop where
  new : key ∉ Fields.names rs
  records : Puts rs rs' key d

/-- Another version of the record under a key. -/
structure Changes (old d : Document) : Prop where
  held : (key, old) ∈ rs
  unique : ∀ other, (key, other) ∈ rs → other = old
  records : Puts rs rs' key d

/-- The records without that under a key. -/
def Removes : Prop := ∀ x, x ∈ rs' ↔ x ∈ rs ∧ x.1 ≠ key

end Register

/-- What an event makes of the records. -/
inductive Event.Effect (v : Register I S) (clock : Nat → Instant) (e : Event I S) : Prop
  /-- An event that fails, or only reads. -/
  | idle : ¬e.Succeeds ∨ e.call.write? = none → v.records e.after.store.1 = v.records e.before.store.1 → Effect v clock e
  /-- A creation that succeeds. -/
  | created (key : String) (d : Document) : e.Creates v key →
    Register.Adds (v.records e.before.store.1) (v.records e.after.store.1) key d →
    e.after.readings = e.before.readings + 1 → Fields.get? d createdAt = some (.str (clock e.before.readings).text) →
    Fields.get? d updatedAt = some (.str (clock e.before.readings).text) → Effect v clock e
  /-- An update that succeeds. -/
  | updated (key : String) (old d : Document) : e.call.write? = some .update → e.Writes v key →
    Register.Changes (v.records e.before.store.1) (v.records e.after.store.1) key old d →
    e.after.readings = e.before.readings + 1 → Fields.get? d createdAt = Fields.get? old createdAt →
    Fields.get? d updatedAt = some (.str (clock e.before.readings).text) → Effect v clock e
  /-- A removal that succeeds. -/
  | deleted (key : String) : e.call.write? = some .delete →
    Register.Removes (v.records e.before.store.1) (v.records e.after.store.1) key → Effect v clock e

/-- What is true of the instants in the records that events have left. -/
structure Timestamped (v : Register I S) (clock : Nat → Instant) (events : List (Event I S)) (s : S) : Prop where
  /-- A record has the instant that the clock showed to the event that has made it, and the one that it showed to the event that
  has last written it. -/
  stamped : ∀ key d, (key, d) ∈ v.records s → ∃ c u, Event.Made v key events c ∧ Event.LastWrote v key events u ∧
    Fields.get? d createdAt = some (.str (clock c.before.readings).text) ∧
    Fields.get? d updatedAt = some (.str (clock u.before.readings).text)
  /-- To an event that creates or changes a record the clock has shown one instant. -/
  once : ∀ e ∈ events, ∀ key, e.Writes v key → e.after.readings = e.before.readings + 1
  /-- An update leaves the records with their instants of creation. -/
  kept : ∀ e ∈ events, e.call.write? = some .update → ∀ key created,
    (∃ d, (key, d) ∈ v.records e.after.store.1 ∧ Fields.get? d createdAt = created) ↔
      ∃ d, (key, d) ∈ v.records e.before.store.1 ∧ Fields.get? d createdAt = created

section

variable {v : Register I S} {clock : Nat → Instant} {events : List (Event I S)} {e c u : Event I S} {key : String}
  {x : String × Document} {w : World I (S × List (Option StoreError))}

namespace Event

theorem Creates.writes (h : e.Creates v key) : e.Writes v key := ⟨.inl h.1, h.2⟩

/-- The event that has made a record is the same after another event that leaves a record with its key. -/
theorem Made.concat (h : Made v key events c) (hkey : key ∈ Fields.names (v.records e.after.store.1)) :
    Made v key (events ++ [e]) c := by
  obtain ⟨past, later, rfl, hcreates, hnew, hlater⟩ := h
  refine ⟨past, later ++ [e], by simp, hcreates, hnew, fun e' he' => ?_⟩
  rcases List.mem_append.1 he' with he' | he'
  · exact hlater e' he'
  · exact List.mem_singleton.1 he' ▸ hkey

/-- The event that has last written a record is the same after another event that does not write it. -/
theorem LastWrote.concat (h : LastWrote v key events u) (hnot : ¬e.Writes v key) : LastWrote v key (events ++ [e]) u := by
  obtain ⟨past, later, rfl, hwrites, hlater⟩ := h
  refine ⟨past, later ++ [e], by simp, hwrites, fun e' he' => ?_⟩
  rcases List.mem_append.1 he' with he' | he'
  · exact hlater e' he'
  · exact List.mem_singleton.1 he' ▸ hnot

/-- The last event has written a record if it writes it. -/
theorem LastWrote.last (events : List (Event I S)) (h : e.Writes v key) : LastWrote v key (events ++ [e]) e :=
  ⟨events, [], rfl, h, fun _ he => absurd he List.not_mem_nil⟩

/-- The key of a record is among the names. -/
theorem mem_names_of_record {records : List (String × Document)} (h : x ∈ records) : x.1 ∈ Fields.names records :=
  List.mem_map_of_mem h

/-- The events that write a record of another key do not write this one. -/
theorem Writes.not_of_ne {other : String} (h : e.Writes v other) (hne : key ≠ other) : ¬e.Writes v key := fun h' =>
  hne (Option.some.inj (h'.2.2.symm.trans h.2.2))

/-- An event that writes is not idle, nor a removal. -/
theorem Writes.write?_ne (h : e.Writes v key) : e.call.write? ≠ none ∧ e.call.write? ≠ some .delete := by
  rcases h.1 with hcall | hcall <;> rw [hcall] <;> exact ⟨nofun, nofun⟩

/-- An event that is idle does not write. -/
theorem not_writes_of_idle (h : ¬e.Succeeds ∨ e.call.write? = none) : ¬e.Writes v key := fun hwrites =>
  h.elim (fun hfails => hfails hwrites.2.1) hwrites.write?_ne.1

/-- An event that creates or changes a record reads the clock once. -/
theorem Effect.once (h : e.Effect v clock) (hwrites : e.Writes v key) : e.after.readings = e.before.readings + 1 := by
  cases h with
  | idle hidle _ => exact absurd hwrites (not_writes_of_idle hidle)
  | created key' d _ _ hreadings _ _ => exact hreadings
  | updated key' old d _ _ _ hreadings _ _ => exact hreadings
  | deleted key' hcall _ => exact absurd hcall hwrites.write?_ne.2

/-- An update leaves the instants of creation. -/
theorem Effect.kept (h : e.Effect v clock) (hcall : e.call.write? = some .update) (key : String) (created : Option Json) :
    (∃ d, (key, d) ∈ v.records e.after.store.1 ∧ Fields.get? d createdAt = created) ↔
      ∃ d, (key, d) ∈ v.records e.before.store.1 ∧ Fields.get? d createdAt = created := by
  cases h with
  | idle _ hrecords => rw [hrecords]
  | created key' d hcreates _ _ _ _ => cases hcall.symm.trans hcreates.1
  | deleted key' hdelete _ => cases hcall.symm.trans hdelete
  | updated key' old d _ _ hchanges _ hcreated _ =>
    constructor
    · rintro ⟨d', hd', rfl⟩
      rcases (hchanges.records _).1 hd' with heq | ⟨hd', -⟩
      · cases heq
        exact ⟨old, hchanges.held, hcreated.symm⟩
      · exact ⟨d', hd', rfl⟩
    · rintro ⟨d', hd', rfl⟩
      by_cases hkey : key = key'
      · subst hkey
        cases hchanges.unique d' hd'
        exact ⟨d, (hchanges.records _).2 (.inl rfl), hcreated⟩
      · exact ⟨d', (hchanges.records _).2 (.inr ⟨hd', hkey⟩), rfl⟩

/-- A record that an event leaves as it is has the same instants as before, and they come from the same events. -/
theorem stamped_of_not_writes (hpast : Timestamped v clock events e.before.store.1) {d : Document}
    (hbefore : (key, d) ∈ v.records e.before.store.1) (hafter : (key, d) ∈ v.records e.after.store.1) (hnot : ¬e.Writes v key) :
    ∃ c u, Made v key (events ++ [e]) c ∧ LastWrote v key (events ++ [e]) u ∧
      Fields.get? d createdAt = some (.str (clock c.before.readings).text) ∧
      Fields.get? d updatedAt = some (.str (clock u.before.readings).text) := by
  obtain ⟨c, u, hmade, hwrote, hstamps⟩ := hpast.stamped key d hbefore
  exact ⟨c, u, hmade.concat (mem_names_of_record hafter), hwrote.concat hnot, hstamps⟩

/-- An event adds to what its past says of the records. -/
theorem Effect.timestamped (h : e.Effect v clock) (hpast : Timestamped v clock events e.before.store.1) :
    Timestamped v clock (events ++ [e]) e.after.store.1 where
  once e' he' key hwrites := by
    rcases List.mem_append.1 he' with he' | he'
    · exact hpast.once e' he' key hwrites
    · cases List.mem_singleton.1 he'
      exact h.once hwrites
  kept e' he' hcall := by
    rcases List.mem_append.1 he' with he' | he'
    · exact hpast.kept e' he' hcall
    · cases List.mem_singleton.1 he'
      exact h.kept hcall
  stamped key d hd := by
    cases h with
    | idle hidle hrecords =>
      exact stamped_of_not_writes hpast (by rwa [hrecords] at hd) hd (not_writes_of_idle hidle)
    | created key' d' hcreates hadds _ hcreated hupdated =>
      rcases (hadds.records _).1 hd with heq | ⟨hbefore, hne⟩
      · cases heq
        exact ⟨e, e, ⟨events, [], rfl, hcreates, hadds.new, fun _ he => absurd he List.not_mem_nil⟩, .last events hcreates.writes,
          hcreated, hupdated⟩
      · exact stamped_of_not_writes hpast hbefore hd (hcreates.writes.not_of_ne hne)
    | updated key' old d' _ hwrites hchanges _ hcreated hupdated =>
      rcases (hchanges.records _).1 hd with heq | ⟨hbefore, hne⟩
      · -- the record has been changed: it was made where its last version was
        cases heq
        obtain ⟨c, u, hmade, -, hstamp, -⟩ := hpast.stamped key old hchanges.held
        exact ⟨c, e, hmade.concat (mem_names_of_record hd), .last events hwrites, hcreated.trans hstamp, hupdated⟩
      · exact stamped_of_not_writes hpast hbefore hd (hwrites.not_of_ne hne)
    | deleted key' hcall hremoves =>
      exact stamped_of_not_writes hpast ((hremoves _).1 hd).1 hd fun hwrites => hwrites.write?_ne.2 hcall

end Event

/-- The events after the first one lead on from where that has led. -/
theorem Event.last_cons (w : World I (S × List (Option StoreError))) (e : Event I S) (events : List (Event I S)) :
    Event.last w (e :: events) = Event.last e.after events := by
  rw [last, last, List.getLast?_cons]
  cases events.getLast? <;> rfl

/-- What events say of the records that they have left, they say with those that follow of the records that these leave. -/
theorem Timestamped.append (events : List (Event I S)) (hpast : Timestamped v clock events w.store.1) (r : Repository I Document)
    {env : Surroundings I (S × List (Option StoreError))} {Fit : S → Prop} {Admits : RecordCall → Prop}
    (hevent : ∀ options call w, Fit w.store.1 → Admits call →
      (r.event env options call w).Effect v clock ∧ Fit (r.event env options call w).after.store.1)
    (hw : Fit w.store.1) {calls : List (RecordCall × Options)} (hcalls : ∀ call ∈ calls, Admits call.1) :
    Timestamped v clock (events ++ r.events env calls w) (Event.last w (r.events env calls w)).store.1 := by
  induction calls generalizing events w with
  | nil =>
    rw [Repository.events, List.append_nil]
    exact hpast
  | cons call calls ih =>
    obtain ⟨hcall, hrest⟩ := List.forall_mem_cons.1 hcalls
    obtain ⟨heffect, hfit⟩ := hevent call.2 call.1 w hw hcall
    have htail := ih _ (heffect.timestamped hpast) hfit hrest
    rw [List.append_assoc] at htail
    rw [Repository.events, Event.last_cons]
    exact htail

end

/-! ## Adapters that keep accounts -/

section

variable {seen : Viewed I S V} {v : Register I S} {clock : Nat → Instant} {ids : Nat → String} {latency : Nat} {Fit : S → Prop}
  {a : Adapter I} {config : EntityConfig} {e : Event I S} {w : World I (S × List (Option StoreError))}

end

end DocQuery
