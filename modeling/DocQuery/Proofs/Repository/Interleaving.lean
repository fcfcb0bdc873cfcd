import DocQuery.Proofs.Repository.Simulation

/-!
# Operations in turns

Programs that are under way together share one world. A schedule says whose turn it is, and a turn is one effect of one program: so
between two calls of an operation the others may do whatever they like. A program settles within some turns if only its last one
touches what is watched in the store. Main statement: under any schedule, programs that settle do so one after the other
(`Crowd.Orderly.history`), and each comes to its result once it has had its turns (`Crowd.Orderly.ends`).
-/

namespace DocQuery

variable {I : Interface} {S α β : Type}

/-! ## Turns -/

namespace Program

/-- One effect of a program: what is left of it, and the world afterwards. -/
def step (env : Surroundings I S) (w : World I S) : Program I α → Program I α × World I S
  | .done a => (.done a, w)
  | .now next => (next (env.clock w.readings), { w with readings := w.readings + 1 })
  | .freshId next => (next (env.ids w.drawn), { w with drawn := w.drawn + 1 })
  | .call c next =>
    let (answer, store) := env.answer c w.store
    (next answer, { w with log := w.log ++ [c], store })

/-- A call that the store answers. -/
theorem step_call (env : Surroundings I S) {w : World I S} {c : I.Call} {answer : Except StoreError (I.Answer c)} {s : S}
    (h : env.answer c w.store = (answer, s)) (next : Except StoreError (I.Answer c) → Program I α) :
    (call c next).step env w = (next answer, { w with log := w.log ++ [c], store := s }) := by
  simp only [step, h]

/-- The call that a program sends in its next turn, if it sends one. -/
def call? : Program I α → Option I.Call
  | .call c _ => some c
  | .done _ | .now _ | .freshId _ => none

/-- The result of a program that has come to its end. -/
def result? : Program I α → Option α
  | .done a => some a
  | .call _ _ | .now _ | .freshId _ => none

end Program

/-- Programs under way together, and the world that they share. -/
structure Crowd (I : Interface) (S α : Type) where
  /-- The world. -/
  world : World I S
  /-- What is left of each program. -/
  programs : List (Program I α)

/-- A turn that a program has taken. -/
structure Turn (I : Interface) (S α : Type) where
  /-- Which program. -/
  index : Nat
  /-- The call that it sent, if it sent one. -/
  call : Option I.Call
  /-- The store before. -/
  before : S
  /-- The store afterwards. -/
  after : S
  /-- The result, if the program has come to its end in this turn. -/
  result : Option α

namespace Crowd

variable (env : Surroundings I S)

/-- The turn that a program takes. -/
def turnOf (c : Crowd I S α) (i : Nat) (p : Program I α) : Turn I S α :=
  ⟨i, p.call?, c.world.store, (p.step env c.world).2.store, (p.step env c.world).1.result?⟩

/-- The crowd after a program's turn. -/
def next (c : Crowd I S α) (i : Nat) (p : Program I α) : Crowd I S α :=
  ⟨(p.step env c.world).2, c.programs.set i (p.step env c.world).1⟩

/-- The turn of a program, and the crowd afterwards; there is none for a program that is at its end. -/
def turn? (c : Crowd I S α) (i : Nat) : Option (Turn I S α × Crowd I S α) :=
  match c.programs[i]? with
  | none | some (.done _) => none
  | some p => some (c.turnOf env i p, c.next env i p)

/-- The turns that are taken under a schedule, and what has become of the programs and the world. -/
def run (c : Crowd I S α) : List Nat → List (Turn I S α) × Crowd I S α
  | [] => ([], c)
  | i :: schedule =>
    match c.turn? env i with
    | none => c.run schedule
    | some (t, c) =>
      let (turns, last) := c.run schedule
      (t :: turns, last)

variable {env}

/-- A program that is not at its end has its turn. -/
theorem turn?_of_some {c : Crowd I S α} {i : Nat} {p : Program I α} (hp : c.programs[i]? = some p) (hend : p.result? = none) :
    c.turn? env i = some (c.turnOf env i p, c.next env i p) := by
  rw [turn?, hp]
  cases p with
  | done a => cases hend
  | _ => rfl

variable (env) in
/-- The turn of a program that is not at its end, if there is one at all. -/
theorem turn?_cases (c : Crowd I S α) (i : Nat) :
    c.turn? env i = none ∨ ∃ p, c.programs[i]? = some p ∧ p.result? = none := by
  rw [turn?]
  cases c.programs[i]? with
  | none => exact .inl rfl
  | some p =>
    cases p with
    | done a => exact .inl rfl
    | _ => exact .inr ⟨_, rfl, rfl⟩

/-- What is left of a program after its turn. -/
theorem next_self {c : Crowd I S α} {i : Nat} {p : Program I α} (hp : c.programs[i]? = some p) :
    (c.next env i p).programs[i]? = some (p.step env c.world).1 :=
  List.getElem?_set_self (List.getElem?_eq_some_iff.1 hp).1

/-- The other programs are as they were. -/
theorem next_of_ne {c : Crowd I S α} {i j : Nat} {p : Program I α} (hj : i ≠ j) :
    (c.next env i p).programs[j]? = c.programs[j]? :=
  List.getElem?_set_ne hj

/-- What holds of a crowd after some turns, and is kept by every turn of a program that is not at its end and by every idle one, holds
after a run. -/
theorem run_keeps {K : List Nat → Crowd I S α → Prop}
    (hidle : ∀ first c i, K first c → (∀ p : Program I α, c.programs[i]? = some p → p.result?.isSome) → K (first ++ [i]) c)
    (hturn : ∀ first c i p, K first c → c.programs[i]? = some p → p.result? = none → K (first ++ [i]) (c.next env i p))
    {first : List Nat} {c : Crowd I S α} (h : K first c) (schedule : List Nat) : K (first ++ schedule) (c.run env schedule).2 := by
  induction schedule generalizing first c with
  | nil => rwa [List.append_nil]
  | cons i schedule ih =>
    rw [run, List.append_cons]
    rcases turn?_cases env c i with hnone | ⟨p, hp, hend⟩
    · rw [hnone]
      refine ih (hidle first c i h fun p hp => Option.isSome_iff_ne_none.2 fun hend => ?_)
      cases hnone.symm.trans (turn?_of_some hp hend)
    · rw [turn?_of_some hp hend]
      exact ih (hturn first c i p h hp hend)

/-- Of requests that the first programs are about, one each, those whose programs have come to their ends. -/
def ended {β : Type} (requests : List β) (programs : List (Program I α)) : List β :=
  ((requests.zip programs).filter fun e => e.2.result?.isSome).map (·.1)

section

variable {β : Type} {requests : List β} {programs : List (Program I α)}

/-- What has ended was requested. -/
theorem mem_of_ended {b : β} (h : b ∈ ended requests programs) : b ∈ requests := by
  obtain ⟨e, he, rfl⟩ := List.mem_map.1 h
  exact (List.of_mem_zip (List.mem_filter.1 he).1).1

theorem ended_cons (b : β) (p : Program I α) : ended (b :: requests) (p :: programs) =
    if p.result?.isSome then b :: ended requests programs else ended requests programs := by
  rw [ended, List.zip_cons_cons, List.filter_cons]
  split <;> rfl

/-- Nothing has ended as long as no program has. -/
theorem ended_eq_nil (h : ∀ (i : Nat) (b : β) (p : Program I α), requests[i]? = some b → programs[i]? = some p → p.result? = none) :
    ended requests programs = [] := by
  rw [ended, List.map_eq_nil_iff, List.filter_eq_nil_iff]
  intro e he
  obtain ⟨i, hi⟩ := List.mem_iff_getElem?.1 he
  obtain ⟨hb, hp⟩ := List.getElem?_zip_eq_some.1 hi
  simp [h i e.1 e.2 hb hp]

/-- Everything has ended once all programs have. -/
theorem ended_eq_self (h : ∀ (i : Nat) (b : β), requests[i]? = some b →
    ∃ p : Program I α, programs[i]? = some p ∧ p.result?.isSome) : ended requests programs = requests := by
  induction requests generalizing programs with
  | nil => rfl
  | cons b requests ih =>
    obtain ⟨p, hp, hend⟩ := h 0 b rfl
    cases programs with
    | nil => cases hp
    | cons q programs =>
      obtain rfl : q = p := Option.some.inj hp
      rw [ended_cons, if_pos hend, ih fun i => h (i + 1)]

/-- The request of a program that comes to its end joins those that have ended, and that of one that goes on does not. -/
theorem ended_set {i : Nat} {p : Program I α} (hp : programs[i]? = some p) (hend : p.result? = none) (rest : Program I α) :
    (ended requests (programs.set i rest)).Perm
      ((if rest.result?.isSome then requests[i]?.toList else []) ++ ended requests programs) := by
  induction requests generalizing programs i with
  | nil => simp [ended]
  | cons b requests ih =>
    cases programs with
    | nil => cases hp
    | cons q programs =>
      cases i with
      | zero =>
        obtain rfl : q = p := Option.some.inj hp
        rw [List.set_cons_zero, ended_cons, ended_cons, hend]
        cases rest.result?.isSome <;> simp
      | succ i =>
        have hrest : (ended requests (programs.set i rest)).Perm _ := ih hp
        rw [List.set_cons_succ, ended_cons, ended_cons, List.getElem?_cons_succ]
        split
        · exact (hrest.cons b).trans List.perm_middle.symm
        · exact hrest

end

end Crowd

/-! ## Programs that settle -/

/-- A store in which it is watched whether something is there. -/
structure Watch (I : Interface) (S : Type) where
  /-- How the store answers. -/
  env : Surroundings I S
  /-- Which stores count. -/
  Fit : S → Prop
  /-- Whether it is there. -/
  there : S → Bool

/-- What a program's last turn amounts to: its call, its result, and whether what is watched is there before and afterwards. -/
abbrev Verdict (I : Interface) (α : Type) := I.Call → α → Bool → Bool → Prop

/-- A program that comes to its end within some turns by a call with a verdict, and until then leaves what is watched as it is. -/
def Program.Settles (v : Watch I S) (P : Verdict I α) : Nat → Program I α → Prop
  | 0, _ | _ + 1, .done _ => False
  | n + 1, .now next => ∀ t, (next t).Settles v P n
  | n + 1, .freshId next => ∀ id, (next id).Settles v P n
  | n + 1, .call c next => ∀ s, v.Fit s →
    v.Fit (v.env.answer c s).2 ∧
      ((∃ r, next (v.env.answer c s).1 = .done r ∧ P c r (v.there s) (v.there (v.env.answer c s).2)) ∨
        (v.there (v.env.answer c s).2 = v.there s ∧ (next (v.env.answer c s).1).Settles v P n))

namespace Program

variable {v : Watch I S} {P : Verdict I α} {Q : Verdict I β} {n : Nat} {p : Program I α}

/-- A program that settles is not at its end. -/
theorem Settles.result? (h : p.Settles v P n) : p.result? = none := by
  cases n <;> cases p <;> first | rfl | exact h.elim

/-- A program that settles has a turn left. -/
theorem Settles.pos (h : p.Settles v P n) : 0 < n := by
  cases n with
  | zero => exact h.elim
  | succ n => exact n.succ_pos

/-- A program that settles may take its time. -/
theorem Settles.succ (h : p.Settles v P n) : p.Settles v P (n + 1) := by
  induction n generalizing p with
  | zero => exact h.elim
  | succ n ih =>
    cases p with
    | done a => exact h.elim
    | now next => exact fun t => ih (h t)
    | freshId next => exact fun id => ih (h id)
    | call c next => exact fun s hs => ⟨(h s hs).1, (h s hs).2.imp_right fun hnext => ⟨hnext.1, ih hnext.2⟩⟩

/-- A program that calls first settles, if every answer ends it with a verdict, or lets it settle later and leaves what is watched
as it is. -/
theorem settles_call {c : I.Call} {next : Except StoreError (I.Answer c) → Program I α}
    (h : ∀ s, v.Fit s → ∃ answer after, v.env.answer c s = (answer, after) ∧ v.Fit after ∧
      ((∃ r, next answer = .done r ∧ P c r (v.there s) (v.there after)) ∨
        (v.there after = v.there s ∧ (next answer).Settles v P n))) : (Program.call c next).Settles v P (n + 1) := by
  intro s hs
  obtain ⟨answer, after, hanswer, hafter⟩ := h s hs
  rw [hanswer]
  exact hafter

/-- A program that settles does so where its result is changed alone. -/
theorem Settles.bind {f : α → Program I β} {g : α → β} (h : p.Settles v P n) (hf : ∀ a, f a = .done (g a))
    (hv : ∀ c a b b', P c a b b' → Q c (g a) b b') : (p.bind f).Settles v Q n := by
  induction n generalizing p with
  | zero => exact h.elim
  | succ n ih =>
    cases p with
    | done a => exact h.elim
    | now next => exact fun t => ih (h t)
    | freshId next => exact fun id => ih (h id)
    | call c next =>
      intro s hs
      obtain ⟨hafter, ⟨r, hend, hr⟩ | ⟨hsame, hnext⟩⟩ := h s hs
      · exact ⟨hafter, .inl ⟨g r, (congrArg (Program.bind · f) hend).trans (hf r), hv c r _ _ hr⟩⟩
      · exact ⟨hafter, .inr ⟨hsame, ih hnext⟩⟩

/-- A program that settles does so with any verdict that follows. -/
theorem Settles.imp {Q : Verdict I α} (h : p.Settles v P n) (hv : ∀ c a b b', P c a b b' → Q c a b b') : p.Settles v Q n := by
  have hbind := h.bind (f := .done) (g := fun a => a) (fun _ => rfl) hv
  rwa [bind_done] at hbind

/-- A turn of a program that settles: it comes to its end, or it has a turn less, and what is watched is as it was. -/
theorem Settles.step (h : p.Settles v P (n + 1)) {w : World I S} (hw : v.Fit w.store) :
    v.Fit (p.step v.env w).2.store ∧
      ((∃ c r, p.call? = some c ∧ (p.step v.env w).1 = .done r ∧
          P c r (v.there w.store) (v.there (p.step v.env w).2.store)) ∨
        (v.there (p.step v.env w).2.store = v.there w.store ∧ (p.step v.env w).1.Settles v P n)) := by
  cases p with
  | done a => exact h.elim
  | now next => exact ⟨hw, .inr ⟨rfl, h _⟩⟩
  | freshId next => exact ⟨hw, .inr ⟨rfl, h _⟩⟩
  | call c next =>
    obtain ⟨hafter, ⟨r, hend, hr⟩ | hnext⟩ := h w.store hw
    · exact ⟨hafter, .inl ⟨c, r, rfl, hend, hr⟩⟩
    · exact ⟨hafter, .inr hnext⟩

end Program

/-! ## Histories -/

/-- A turn that leaves what is watched as it is, or brings its program to its end with a verdict. -/
def Turn.Proper (v : Watch I S) (P : Nat → Verdict I α) (t : Turn I S α) : Prop :=
  (t.result = none ∧ v.there t.after = v.there t.before) ∨
    ∃ c r, t.call = some c ∧ t.result = some r ∧ P t.index c r (v.there t.before) (v.there t.after)

/-- Proper turns, each of which begins where the one before has ended. -/
inductive History (v : Watch I S) (P : Nat → Verdict I α) : S → List (Turn I S α) → S → Prop
  | nil (s : S) : History v P s [] s
  | cons {t : Turn I S α} {turns : List (Turn I S α)} {s : S} : t.Proper v P → History v P t.after turns s →
    History v P t.before (t :: turns) s

/-- Every turn of a history is proper. -/
theorem History.proper {v : Watch I S} {P : Nat → Verdict I α} {s s' : S} {turns : List (Turn I S α)}
    (h : History v P s turns s') {t : Turn I S α} (ht : t ∈ turns) : t.Proper v P := by
  induction h with
  | nil s => cases ht
  | cons hproper _ ih =>
    rcases List.mem_cons.1 ht with rfl | ht
    · exact hproper
    · exact ih ht

namespace Crowd

variable {v : Watch I S} {P : Nat → Verdict I α} {c : Crowd I S α} {i n : Nat} {p : Program I α}

/-- A crowd in a store that counts, each of whose programs is at its end or settles. -/
structure Orderly (v : Watch I S) (P : Nat → Verdict I α) (c : Crowd I S α) : Prop where
  fit : v.Fit c.world.store
  settles : ∀ i (p : Program I α), c.programs[i]? = some p → p.result? = none → ∃ n, p.Settles v (P i) n

/-- A turn of a program that settles is proper. -/
theorem Orderly.proper (h : c.Orderly v P) (hn : p.Settles v (P i) (n + 1)) : (c.turnOf v.env i p).Proper v P := by
  obtain ⟨-, ⟨call, r, hcall, hend, hr⟩ | ⟨hsame, hrest⟩⟩ := hn.step h.fit
  · exact .inr ⟨call, r, hcall, congrArg Program.result? hend, hr⟩
  · exact .inl ⟨hrest.result?, hsame⟩

/-- After its turn a program that settles is at its end, or it settles in a turn less. -/
theorem Orderly.rest (h : c.Orderly v P) (hn : p.Settles v (P i) (n + 1)) :
    (c.turnOf v.env i p).result.isSome ∨ (p.step v.env c.world).1.Settles v (P i) n := by
  obtain ⟨-, ⟨call, r, -, hend, -⟩ | ⟨-, hrest⟩⟩ := hn.step h.fit
  · exact .inl (congrArg (fun rest => (Program.result? rest).isSome) hend)
  · exact .inr hrest

/-- A crowd stays orderly through the turn of a program that settles. -/
theorem Orderly.next (h : c.Orderly v P) (hp : c.programs[i]? = some p) (hn : p.Settles v (P i) (n + 1)) :
    (c.next v.env i p).Orderly v P where
  fit := (hn.step h.fit).1
  settles j q hq hend := by
    by_cases hj : i = j
    · subst hj
      obtain rfl : (p.step v.env c.world).1 = q := Option.some.inj ((next_self hp).symm.trans hq)
      rcases h.rest hn with hresult | hrest
      · rw [turnOf, hend] at hresult
        cases hresult
      · exact ⟨n, hrest⟩
    · exact h.settles j q ((next_of_ne hj).symm.trans hq) hend

/-- The turn of a program in an orderly crowd, if there is one at all, is that of one that settles. -/
theorem Orderly.turn_cases (h : c.Orderly v P) (i : Nat) :
    c.turn? v.env i = none ∨ ∃ p n, c.programs[i]? = some p ∧ p.Settles v (P i) (n + 1) ∧
      c.turn? v.env i = some (c.turnOf v.env i p, c.next v.env i p) := by
  refine (turn?_cases v.env c i).imp_right ?_
  rintro ⟨p, hp, hend⟩
  obtain ⟨n, hn⟩ := h.settles i p hp hend
  obtain ⟨n, rfl⟩ := Nat.exists_eq_add_one.2 hn.pos
  exact ⟨p, n, hp, hn, turn?_of_some hp hend⟩

/-- The turns of an orderly crowd are a history, and the crowd stays orderly. -/
theorem Orderly.history (h : c.Orderly v P) (schedule : List Nat) :
    History v P c.world.store (c.run v.env schedule).1 (c.run v.env schedule).2.world.store ∧
      (c.run v.env schedule).2.Orderly v P := by
  induction schedule generalizing c with
  | nil => exact ⟨.nil _, h⟩
  | cons i schedule ih =>
    rw [run]
    rcases h.turn_cases i with hnone | ⟨p, n, hp, hn, hturn⟩
    · rw [hnone]
      exact ih h
    · obtain ⟨hhistory, hlast⟩ := ih (h.next hp hn)
      rw [hturn]
      exact ⟨.cons (h.proper hn) hhistory, hlast⟩

/-- A program that settles within some turns comes to its result once a schedule gives it as many. -/
theorem Orderly.ends (h : c.Orderly v P) (hp : c.programs[i]? = some p) (hn : p.Settles v (P i) n) {schedule : List Nat}
    (hschedule : n ≤ schedule.count i) : ∃ t ∈ (c.run v.env schedule).1, t.index = i ∧ t.result.isSome := by
  -- only its own turns count: a turn of another program leaves it with as many to go
  induction schedule generalizing c p n with
  | nil => exact absurd hn.pos (Nat.not_lt.2 hschedule)
  | cons j schedule ih =>
    rw [run]
    by_cases hj : j = i
    · subst hj
      obtain ⟨n, rfl⟩ := Nat.exists_eq_add_one.2 hn.pos
      rw [turn?_of_some hp hn.result?]
      rcases h.rest hn with hresult | hrest
      · exact ⟨_, List.mem_cons_self, rfl, hresult⟩
      · rw [List.count_cons_self] at hschedule
        obtain ⟨t, ht, hended⟩ := ih (h.next hp hn) (next_self hp) hrest (Nat.le_of_succ_le_succ hschedule)
        exact ⟨t, List.mem_cons_of_mem _ ht, hended⟩
    · rw [List.count_cons_of_ne hj] at hschedule
      rcases h.turn_cases j with hnone | ⟨q, m, hq, hm, hturn⟩
      · rw [hnone]
        exact ih h hp hn hschedule
      · obtain ⟨t, ht, hended⟩ := ih (h.next hq hm) ((next_of_ne hj).trans hp) hn hschedule
        rw [hturn]
        exact ⟨t, List.mem_cons_of_mem _ ht, hended⟩

end Crowd

end DocQuery
