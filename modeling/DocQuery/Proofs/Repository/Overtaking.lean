import DocQuery.Proofs.Repository.Interleaving

/-!
# Replacing what was read

Programs that change one record by reading it and replacing it in a second call do not wait for each other. What ends up in the
record are the changes of the last one to replace it, of the one whose replacement that had read, and so on: the lineage of the
record. Main statement: a program is in the lineage unless it is overtaken, by one that read the record before it was replaced and
replaced it afterwards (`NotOvertaken.mem_lineage`).
-/

namespace DocQuery

variable {I : Interface} {S α : Type}

/-! ## Turns of a run -/

/-- Every turn of a run is that of a program in the crowd that the turns before have left. -/
theorem Crowd.run_split {env : Surroundings I S} {c : Crowd I S α} {schedule : List Nat} {before after : List (Turn I S α)}
    {t : Turn I S α} (h : (c.run env schedule).1 = before ++ t :: after) :
    ∃ first i p, (c.run env first).1 = before ∧ (c.run env first).2.programs[i]? = some p ∧ p.result? = none ∧
      t = (c.run env first).2.turnOf env i p := by
  induction schedule generalizing c before with
  | nil => cases before <;> cases h
  | cons i schedule ih =>
    rcases turn?_cases env c i with hnone | ⟨p, hp, hend⟩
    · rw [run, hnone] at h
      obtain ⟨first, hfirst⟩ := ih h
      refine ⟨i :: first, ?_⟩
      rwa [run, hnone]
    · have hturn : c.turn? env i = _ := turn?_of_some hp hend
      rw [run, hturn] at h
      cases before with
      | nil =>
        obtain ⟨ht, -⟩ := List.cons.inj h
        exact ⟨[], i, p, rfl, hp, hend, ht.symm⟩
      | cons s before =>
        obtain ⟨hs, hrest⟩ := List.cons.inj h
        obtain ⟨first, j, q, hfirst, hq, hqend, ht⟩ := ih hrest
        refine ⟨i :: first, j, q, ?_, ?_, hqend, ?_⟩ <;> rw [run, hturn]
        · show _ :: _ = s :: before
          rw [hs, hfirst]
        · exact hq
        · exact ht

/-- The result of a turn is that of what is left of the program. -/
theorem Crowd.turnOf_result {env : Surroundings I S} {c : Crowd I S α} {p rest : Program I α} {after : World I S}
    (h : p.step env c.world = (rest, after)) (i : Nat) : (c.turnOf env i p).result = rest.result? := by
  rw [turnOf, h]

/-! ## Lineages -/

/-- What is known of a record that programs read and replace. -/
structure Lineage where
  /-- The programs whose changes are in the record, the latest one last. -/
  latest : List Nat
  /-- The programs whose changes were in the record when a program read it. -/
  read? : Nat → Option (List Nat)

/-- A turn with which a program has succeeded. -/
def Turn.Succeeds (t : Turn I S (Except Error α)) : Prop := ∃ a, t.result = some (.ok a)

namespace Lineage

/-- A record that nobody has read yet. -/
def start : Lineage := ⟨[], fun _ => none⟩

/-- A turn after which a program goes on is a read. One with which it succeeds replaces the record by what the program has read,
with its changes. -/
def turn (l : Lineage) (t : Turn I S (Except Error α)) : Lineage :=
  match t.result, l.read? t.index with
  | none, _ => { l with read? := fun i => if i = t.index then some l.latest else l.read? i }
  | some (.ok _), some base => { l with latest := base ++ [t.index] }
  | some _, _ => l

variable {l : Lineage} {t : Turn I S (Except Error α)} {turns : List (Turn I S (Except Error α))} {i j : Nat} {base : List Nat}

/-- After a turn with which a program goes on. -/
theorem turn_read (h : t.result = none) :
    l.turn t = { l with read? := fun i => if i = t.index then some l.latest else l.read? i } := by
  rw [turn, h]

/-- After a turn with which a program succeeds that has read the record. -/
theorem turn_replace (h : t.Succeeds) (hread : l.read? t.index = some base) :
    l.turn t = { l with latest := base ++ [t.index] } := by
  obtain ⟨a, ha⟩ := h
  rw [turn, ha, hread]

/-- A turn with which a program fails, and one of a program that has not read the record, count for nothing. -/
theorem turn_other (h : t.result ≠ none) (hother : t.Succeeds → l.read? t.index = none) : l.turn t = l := by
  rw [turn]
  cases hresult : t.result with
  | none => exact absurd hresult h
  | some r =>
    cases r with
    | error e => rfl
    | ok a => rw [hother ⟨a, hresult⟩]

/-- What a turn does. -/
theorem turn_cases (l : Lineage) (t : Turn I S (Except Error α)) :
    l.turn t = { l with read? := fun i => if i = t.index then some l.latest else l.read? i } ∨
      (∃ base, t.Succeeds ∧ l.read? t.index = some base ∧ l.turn t = { l with latest := base ++ [t.index] }) ∨ l.turn t = l := by
  by_cases hresult : t.result = none
  · exact .inl (turn_read hresult)
  · by_cases hreplace : t.Succeeds ∧ ∃ base, l.read? t.index = some base
    · obtain ⟨hsucceeds, base, hbase⟩ := hreplace
      exact .inr (.inl ⟨base, hsucceeds, hbase, turn_replace hsucceeds hbase⟩)
    · refine .inr (.inr (turn_other hresult fun hsucceeds => ?_))
      exact Option.eq_none_iff_forall_ne_some.2 fun base hbase => hreplace ⟨hsucceeds, base, hbase⟩

/-- A program that has read the record has had a turn. -/
theorem exists_turn (h : (turns.foldl turn l).read? i = some base) : l.read? i = some base ∨ ∃ t ∈ turns, t.index = i := by
  induction turns generalizing l with
  | nil => exact .inl h
  | cons t turns ih =>
    rcases ih h with hread | ⟨s, hs, hindex⟩
    · rcases turn_cases l t with hturn | ⟨_, -, -, hturn⟩ | hturn
      · rw [hturn] at hread
        by_cases hi : i = t.index
        · exact .inr ⟨t, List.mem_cons_self, hi.symm⟩
        · exact .inl ((if_neg hi).symm.trans hread)
      · rw [hturn] at hread
        exact .inl hread
      · rw [hturn] at hread
        exact .inl hread
    · exact .inr ⟨s, List.mem_cons_of_mem _ hs, hindex⟩

/-- A program stays in the lineage while the programs that succeed are those that have read its changes. -/
theorem mem_latest (h : i ∈ l.latest)
    (hturns : ∀ j base, l.read? j = some base → i ∈ base ∨ ∀ t ∈ turns, t.Succeeds → t.index ≠ j) :
    i ∈ (turns.foldl turn l).latest := by
  induction turns generalizing l with
  | nil => exact h
  | cons t turns ih =>
    have hrest : ∀ j base, l.read? j = some base → i ∈ base ∨ ∀ s ∈ turns, s.Succeeds → s.index ≠ j := fun j base hj =>
      (hturns j base hj).imp_right fun hall s hs => hall s (List.mem_cons_of_mem _ hs)
    rcases turn_cases l t with hturn | ⟨base, hsucceeds, hbase, hturn⟩ | hturn
    · refine ih (hturn ▸ h) fun j base hj => ?_
      rw [hturn] at hj
      by_cases hindex : j = t.index
      · obtain rfl := Option.some.inj ((if_pos hindex).symm.trans hj)
        exact .inl h
      · exact hrest j base ((if_neg hindex).symm.trans hj)
    · have hmem : i ∈ base := (hturns t.index base hbase).resolve_right fun hall => hall t List.mem_cons_self hsucceeds rfl
      exact ih (hturn ▸ List.mem_append_left _ hmem) fun j b hj => hrest j b (by rwa [hturn] at hj)
    · rw [List.foldl_cons, hturn]
      exact ih h hrest

/-- What holds of the programs that succeed holds of those in the lineage. -/
theorem forall_mem_latest {P : Nat → Prop} (h : ∀ i ∈ l.latest, P i) (hread : ∀ j base, l.read? j = some base → ∀ i ∈ base, P i)
    (hturns : ∀ t ∈ turns, t.Succeeds → P t.index) : ∀ i ∈ (turns.foldl turn l).latest, P i := by
  induction turns generalizing l with
  | nil => exact h
  | cons t turns ih =>
    obtain ⟨ht, hrest⟩ := List.forall_mem_cons.1 hturns
    rw [List.foldl_cons]
    rcases turn_cases l t with hturn | ⟨base, hsucceeds, hbase, hturn⟩ | hturn
    · refine ih (hturn ▸ h) (fun j base hj => ?_) hrest
      rw [hturn] at hj
      by_cases hindex : j = t.index
      · obtain rfl := Option.some.inj ((if_pos hindex).symm.trans hj)
        exact h
      · exact hread j base ((if_neg hindex).symm.trans hj)
    · refine ih (fun i hi => ?_) (fun j b hj => hread j b (by rwa [hturn] at hj)) hrest
      rw [hturn] at hi
      rcases List.mem_append.1 hi with hi | hi
      · exact hread t.index base hbase i hi
      · exact List.mem_singleton.1 hi ▸ ht hsucceeds
    · rw [hturn]
      exact ih h hread hrest

end Lineage

variable {turns : List (Turn I S (Except Error α))} {i : Nat}

/-- The programs whose changes are in the record after some turns. -/
def lineage (turns : List (Turn I S (Except Error α))) : List Nat := (turns.foldl Lineage.turn .start).latest

/-- A program that succeeds with a turn, after which no other succeeds that has had a turn before: none has overtaken it. -/
def NotOvertaken (turns : List (Turn I S (Except Error α))) (i : Nat) : Prop :=
  ∃ before t after, turns = before ++ t :: after ∧ t.index = i ∧ t.Succeeds ∧
    ∀ s ∈ before, ∀ s' ∈ after, s'.Succeeds → s.index ≠ s'.index

/-- A program that is not overtaken is in the lineage, where those that succeed have read the record. -/
theorem NotOvertaken.mem_lineage (h : NotOvertaken turns i)
    (hread : ∀ before t after, turns = before ++ t :: after → t.Succeeds →
      ∃ base, (before.foldl Lineage.turn .start).read? t.index = some base) : i ∈ lineage turns := by
  obtain ⟨before, t, after, hturns, rfl, hsucceeds, hovertaken⟩ := h
  obtain ⟨base, hbase⟩ := hread before t after hturns hsucceeds
  rw [lineage, hturns, List.foldl_append, List.foldl_cons, Lineage.turn_replace hsucceeds hbase]
  refine Lineage.mem_latest (List.mem_append_right _ (List.mem_singleton_self _)) fun j b hj => .inr fun s' hs' hs'' hindex => ?_
  -- whoever has read the record by now did so before the turn, so it does not succeed any more
  rcases Lineage.exists_turn hj with hstart | ⟨s, hs, rfl⟩
  · cases hstart
  · exact hovertaken s hs s' hs' hs'' hindex.symm

/-- Those in the lineage have succeeded. -/
theorem succeeds_of_mem_lineage (h : i ∈ lineage turns) : ∃ t ∈ turns, t.index = i ∧ t.Succeeds := by
  refine Lineage.forall_mem_latest (l := .start) (P := fun i => ∃ t ∈ turns, t.index = i ∧ t.Succeeds) nofun nofun
    (fun t ht hsucceeds => ⟨t, ht, rfl, hsucceeds⟩) i h

end DocQuery
