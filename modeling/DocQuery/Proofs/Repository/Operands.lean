import DocQuery.Cosmos.Query
import DocQuery.Proofs.Dynamo.Renaming

/-!
# Operands stay out of the texts

What a search is sent with depends on its operands by the values of its parameters only: neither the texts nor the names of the
parameters tell anything about them, in SQL as in the expressions of a table. These do not even tell the names of the fields.
Main statement: `operands_stay_out_of_texts`.
-/

namespace DocQuery

namespace Cosmos

variable {w w' : Where}

/-- The SQL dialect refers to a field alike, whatever it referred to before. -/
theorem agrees (field : String) : dialect.Agrees (fun _ _ => True) field field := ⟨fun _ => rfl, fun _ => trivial⟩

/-- The query for the records that pass a valid filter, once its condition is compiled. -/
theorem compileFindMany_of_valid (hv : w.Valid) (select : Select) (order : Order) :
    ∃ condition b, (Compile.filter dialect w).Yields ⟨(), []⟩ condition b ∧
      compileFindMany w select order = .ok (finish b select condition order) := by
  obtain ⟨condition, b, hcompiled⟩ := Compile.filter_succeeds (d := dialect) hv (fun e he c hc => hv.compilable he hc) ⟨(), []⟩
  refine ⟨condition, b, hcompiled, ?_⟩
  rw [compileFindMany, hcompiled]

/-- The names of the parameters of a query tell only how many there are. -/
theorem names_parameters (b : Bindings Unit) (select : Select) (condition : Option Fragment) (order : Order) :
    (finish b select condition order).spec.parameters.map Prod.fst = (List.range' 0 b.params.length).map placeholder :=
  Fields.names_numbered placeholder Operand.toJson b.params

/-- Valid filters of one shape are compiled to one text, with parameters of the same names. -/
theorem compileFindMany_alike (hv : w.Valid) (hv' : w'.Valid) (h : w.shape .small = w'.shape .small) (select : Select)
    (order : Order) :
    ∃ compiled compiled', compileFindMany w select order = .ok compiled ∧ compileFindMany w' select order = .ok compiled' ∧
      compiled'.spec.query = compiled.spec.query ∧
      compiled'.spec.parameters.map Prod.fst = compiled.spec.parameters.map Prod.fst := by
  obtain ⟨condition, b, hcompiled, hquery⟩ := compileFindMany_of_valid hv select order
  obtain ⟨condition', b', hcompiled', hquery'⟩ := compileFindMany_of_valid hv' select order
  have hfields : List.Forall₂ (fun e e' => dialect.Agrees (fun _ _ => True) e.1 e'.1 ∧ e.2.shape .small = e'.2.shape .small)
      w.entries w'.entries := (forall₂_of_map_eq h).imp fun e e' he => by
    obtain ⟨hname, hshape⟩ := Prod.mk.inj he
    exact ⟨hname ▸ agrees e.1, hshape⟩
  have halike := Compile.filter_alike (d := dialect) nofun hv hv' hfields ⟨(), []⟩ ⟨(), []⟩ ⟨trivial, rfl⟩
  rw [hcompiled, hcompiled'] at halike
  cases halike with
  | ok hcondition hmatched =>
    subst hcondition
    refine ⟨_, _, hquery, hquery', rfl, ?_⟩
    rw [names_parameters, names_parameters, hmatched.params]

end Cosmos

/-- What a search is sent with does not tell its operands. In SQL, valid filters of one shape are compiled to one text, with
parameters of the same names. On a table, requests of one shape, the fields of one of which may be those of the other under other
names, are sent with the same key condition, filter and projection, and with aliases and placeholders of the same names. -/
theorem operands_stay_out_of_texts :
    (∀ (w w' : Where) (select : Select) (order : Order), w.Valid → w'.Valid → w.shape .small = w'.shape .small →
      ∃ compiled compiled', Cosmos.compileFindMany w select order = .ok compiled ∧
        Cosmos.compileFindMany w' select order = .ok compiled' ∧ compiled'.spec.query = compiled.spec.query ∧
        compiled'.spec.parameters.map Prod.fst = compiled.spec.parameters.map Prod.fst) ∧
    ∀ (ρ : Dynamo.Renaming) (t t' : Dynamo.Table) (r r' : PageRequest), ρ.Requests t t' r r' → r'.filter.Valid →
      (∃ start, Dynamo.startOf r'.continuation = .ok start) →
        ∀ call, (ExceptT.run (Dynamo.findMany t r)).call? = some call →
          ∃ call' wording, (ExceptT.run (Dynamo.findMany t' r')).call? = some call' ∧ call.wording? = some wording ∧
            call'.wording? = some wording := by
  constructor
  · intro w w' select order hv hv' h
    exact Cosmos.compileFindMany_alike hv hv' h select order
  · intro ρ t t' r r' h hv ⟨start, hstart⟩ call hcall
    obtain ⟨call', wording, hcall', htexts⟩ := h.wording? hv hstart (Dynamo.findMany_call?.1 hcall)
    exact ⟨call', wording, Dynamo.findMany_call?.2 hcall', htexts⟩


/-- The same for two searches of a container, and for two of a table: the operands of the second ones, and one of the other names of
the fields, are such as might end a text or stand in one. -/
theorem operands_stay_out_of_texts_of_two :
    let plain : Where := Keyed.ofList
      [("id", ⟨[.compare .equals (.text "u-1")], .sensitive⟩), ("name", ⟨[.text .startsWith "ada"], .insensitive⟩),
        ("age", ⟨[.member false [.integer 41, .integer 42]], .sensitive⟩)]
    let odd : String → Where := fun id => Keyed.ofList
      [(id, ⟨[.compare .equals (.text "' OR '1' = '1")], .sensitive⟩), ("name", ⟨[.text .startsWith "or '"], .insensitive⟩),
        ("age", ⟨[.member false [.text "@p0", .text ":v0"]], .sensitive⟩)]
    let select : Select := Select.ofFields ["name"]
    let ρ : Dynamo.Renaming := ⟨fun name => if name = "id" then "#f0" else name, ["id", "name", "age"], by decide⟩
    let users : Dynamo.Table := ⟨"users", "id", none⟩
    let others : Dynamo.Table := ⟨"others", "#f0", none⟩
    let r : PageRequest := ⟨plain, select, Keyed.empty, 10, none⟩
    let r' : PageRequest := ⟨odd "#f0", select, Keyed.empty, 20, none⟩
    ∃ call : Dynamo.Call, (plain.Valid ∧ (odd "id").Valid ∧ plain.shape .small = (odd "id").shape .small ∧
        ρ.Requests users others r r' ∧ r'.filter.Valid ∧ Dynamo.startOf r'.continuation = .ok none ∧
        (ExceptT.run (Dynamo.findMany users r)).call? = some call) ∧
      (∃ compiled compiled', Cosmos.compileFindMany plain select Keyed.empty = .ok compiled ∧
        Cosmos.compileFindMany (odd "id") select Keyed.empty = .ok compiled' ∧ compiled'.spec.query = compiled.spec.query ∧
        compiled'.spec.parameters.map Prod.fst = compiled.spec.parameters.map Prod.fst) ∧
      ∃ call' wording, (ExceptT.run (Dynamo.findMany others r')).call? = some call' ∧ call.wording? = some wording ∧
        call'.wording? = some wording := by
  intro plain odd select ρ users others r r'
  obtain ⟨hsends, hshape, hfilter⟩ : (ExceptT.run (Dynamo.findMany users r)).call?.isSome = true ∧
      plain.shape .small = (odd "id").shape .small ∧
      r'.filter.shape .casings = (r.filter.shape .casings).map fun e => (ρ.rename e.1, e.2) := by
    revert plain odd select ρ users others r r'
    decide +kernel
  have hrequests : ρ.Requests users others r r' :=
    ⟨⟨rfl, rfl, by decide, fun sortKey h => by cases h⟩, hfilter, by decide, rfl, by decide, rfl,
      fun name h => absurd h List.not_mem_nil⟩
  obtain ⟨call, hcall⟩ := Option.isSome_iff_exists.1 hsends
  exact ⟨call, ⟨rfl, rfl, hshape, hrequests, rfl, rfl, hcall⟩,
    operands_stay_out_of_texts.1 plain (odd "id") select Keyed.empty rfl rfl hshape,
    operands_stay_out_of_texts.2 ρ users others r r' hrequests rfl ⟨none, rfl⟩ call hcall⟩

end DocQuery
