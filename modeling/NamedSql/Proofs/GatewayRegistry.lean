import NamedSql.Gateway

/-!
The registry of a gateway. Declarations are registered from the left, each against the
names before it, so the run of a registration is a list of names that only grows. It
ends with every declaration registered or at the first one that is refused, and the
registry then answers for each name with the query of that name alone.
-/
namespace NamedSql

namespace Gateway

variable {table : Table} {taken : List String} {queries : List (String × Query)}
  {declaration : Declaration} {declarations : List Declaration}

/-- Declarations that may follow the names that are taken. -/
structure Registrable (table : Table) (taken : List String)
    (declarations : List Declaration) : Prop where
  distinct : (declarations.map (·.name)).Nodup
  free : ∀ declaration ∈ declarations, declaration.name ∉ taken
  compiles : ∀ declaration ∈ declarations, ∃ query, (declaration.compile table).result = .ok query

/-- Why a declaration is refused where names are taken. Its text matters only if its name
is free. -/
def Refused (table : Table) (taken : List String) (declaration : Declaration)
    (fault : Fault) : Prop :=
  declaration.name ∈ taken ∧ fault = .redeclared declaration.name table.name ∧
      fault.category = .convention ∨
    declaration.name ∉ taken ∧ (declaration.compile table).result = .error fault

def registration? (table : Table) (declaration : Declaration) : Option (String × Query) :=
  (declaration.compile table).result.toOption.map fun query => (declaration.name, query)

theorem registration?_of_compiled (query : Query)
    (compiled : (declaration.compile table).result = .ok query) :
    registration? table declaration = some (declaration.name, query) := by
  simp [registration?, compiled, Except.toOption]

theorem registrable_nil : Registrable table taken [] := by
  constructor
  · exact List.nodup_nil
  · simp
  · simp

theorem registrable_cons : Registrable table taken (declaration :: declarations) ↔
    declaration.name ∉ taken ∧ (∃ query, (declaration.compile table).result = .ok query) ∧
      Registrable table (taken ++ [declaration.name]) declarations := by
  constructor
  · intro registrable
    have distinct := List.nodup_cons.mp registrable.distinct
    refine ⟨registrable.free _ List.mem_cons_self, registrable.compiles _ List.mem_cons_self,
      distinct.2, ?_, ?_⟩
    · intro other member held
      rcases List.mem_append.mp held with before | here
      · exact registrable.free other (List.mem_cons_of_mem _ member) before
      · have same := List.mem_singleton.mp here
        exact distinct.1 (List.mem_map.mpr ⟨other, member, same⟩)
    · intro other member
      exact registrable.compiles other (List.mem_cons_of_mem _ member)
  · rintro ⟨free, compiles, later⟩
    refine ⟨List.nodup_cons.mpr ⟨?_, later.distinct⟩, ?_, ?_⟩
    · intro repeated
      obtain ⟨other, member, same⟩ := List.mem_map.mp repeated
      exact later.free other member (List.mem_append_right _ (List.mem_singleton.mpr same))
    · intro other member
      rcases List.mem_cons.mp member with rfl | member
      · exact free
      · exact fun held => later.free other member (List.mem_append_left _ held)
    · intro other member
      rcases List.mem_cons.mp member with rfl | member
      · exact compiles
      · exact later.compiles other member

/-! One step. A declaration is refused, or it is added at the end and the rest goes on
against one more name. -/
section Step

theorem register_refused (fault : Fault)
    (refused : Refused table (queries.map (·.1)) declaration fault) :
    (register table queries (declaration :: declarations)).result = .error fault := by
  rcases refused with ⟨held, rfl, -⟩ | ⟨free, failed⟩
  · simp only [register, held, ↓reduceIte]
    rfl
  · simp only [register, free, ↓reduceIte, Traced.result_bind, failed]
    rfl

theorem register_added (query : Query) (free : declaration.name ∉ queries.map (·.1))
    (compiled : (declaration.compile table).result = .ok query) :
    (register table queries (declaration :: declarations)).result =
      (register table (queries ++ [(declaration.name, query)]) declarations).result := by
  simp only [register, free, ↓reduceIte, Traced.result_bind, compiled]
  rfl

theorem refused_unique (fault other : Fault) (first : Refused table taken declaration fault)
    (second : Refused table taken declaration other) : fault = other := by
  rcases first with ⟨held, rfl, -⟩ | ⟨free, failed⟩
  · rcases second with ⟨-, rfl, -⟩ | ⟨free, -⟩
    · rfl
    · exact absurd held free
  · rcases second with ⟨held, -⟩ | ⟨-, again⟩
    · exact absurd held free
    · exact Except.error.inj (failed.symm.trans again)

theorem not_refused (fault : Fault) (query : Query) (free : declaration.name ∉ taken)
    (compiled : (declaration.compile table).result = .ok query) :
    ¬ Refused table taken declaration fault := by
  rintro (⟨held, -⟩ | ⟨-, failed⟩)
  · exact free held
  · rw [compiled] at failed
    cases failed

variable (table taken declaration) in
theorem refused_or_added : (∃ fault, Refused table taken declaration fault) ∨
    declaration.name ∉ taken ∧ ∃ query, (declaration.compile table).result = .ok query := by
  by_cases held : declaration.name ∈ taken
  · exact .inl ⟨_, .inl ⟨held, rfl, rfl⟩⟩
  · cases compiled : (declaration.compile table).result with
    | error fault => exact .inl ⟨fault, .inr ⟨held, compiled⟩⟩
    | ok query => exact .inr ⟨held, query, rfl⟩

end Step

/-! The whole run. What is registered and what is refused is said by the list of
declarations alone, with the names that were taken before it. -/
section Run

theorem register_eq_ok_iff (registered : List (String × Query)) :
    (register table queries declarations).result = .ok registered ↔
      Registrable table (queries.map (·.1)) declarations ∧
        registered = queries ++ declarations.filterMap (registration? table) := by
  induction declarations generalizing queries with
  | nil => simp [register, Traced.ok, registrable_nil, eq_comm]
  | cons declaration rest ih =>
      rcases refused_or_added table (queries.map (·.1)) declaration with
        ⟨fault, refused⟩ | ⟨free, query, compiled⟩
      · rw [register_refused fault refused, registrable_cons]
        constructor
        · intro impossible
          cases impossible
        · rintro ⟨⟨free, ⟨query, compiled⟩, -⟩, -⟩
          exact absurd refused (not_refused fault query free compiled)
      · have entry := registration?_of_compiled query compiled
        rw [register_added query free compiled, ih, registrable_cons,
          List.filterMap_cons_some entry]
        simp [free, compiled]

theorem register_eq_error_iff (fault : Fault) :
    (register table queries declarations).result = .error fault ↔
      ∃ front declaration back, declarations = front ++ declaration :: back ∧
        Registrable table (queries.map (·.1)) front ∧
        Refused table (queries.map (·.1) ++ front.map (·.name)) declaration fault := by
  induction declarations generalizing queries with
  | nil => simp [register, Traced.ok]
  | cons declaration rest ih =>
      rcases refused_or_added table (queries.map (·.1)) declaration with
        ⟨first, refused⟩ | ⟨free, query, compiled⟩
      · rw [register_refused first refused]
        constructor
        · intro same
          obtain rfl := Except.error.inj same
          exact ⟨[], declaration, rest, rfl, registrable_nil, by simpa using refused⟩
        · rintro ⟨front, other, back, order, registrable, offends⟩
          cases front with
          | nil =>
              obtain ⟨rfl, rfl⟩ := List.cons.inj order
              rw [List.map_nil, List.append_nil] at offends
              exact congrArg Except.error (refused_unique first fault refused offends)
          | cons head more =>
              obtain ⟨rfl, -⟩ := List.cons.inj order
              obtain ⟨free, ⟨query, compiled⟩, -⟩ := registrable_cons.mp registrable
              exact absurd refused (not_refused first query free compiled)
      · -- The declaration moves from what is to come to the names that are taken.
        rw [register_added query free compiled, ih]
        constructor
        · rintro ⟨front, other, back, rfl, registrable, offends⟩
          rw [List.map_append] at registrable offends
          refine ⟨declaration :: front, other, back, rfl, ?_, ?_⟩
          · exact registrable_cons.mpr ⟨free, ⟨query, compiled⟩, registrable⟩
          · simpa using offends
        · rintro ⟨front, other, back, order, registrable, offends⟩
          cases front with
          | nil =>
              obtain ⟨rfl, rfl⟩ := List.cons.inj order
              rw [List.map_nil, List.append_nil] at offends
              exact absurd offends (not_refused fault query free compiled)
          | cons head more =>
              obtain ⟨rfl, rfl⟩ := List.cons.inj order
              obtain ⟨-, -, later⟩ := registrable_cons.mp registrable
              refine ⟨more, other, back, rfl, ?_, ?_⟩
              · simpa using later
              · simpa using offends

end Run

/-! The registry that a successful run leaves. -/
section Registry

variable {gateway : Gateway}

def standardNames : List String :=
  ["sql_get_one", "sql_find_all", "sql_save", "sql_exists", "sql_update", "sql_delete_by_id"]

theorem standardQueries_names : standardQueries.map (·.1) = standardNames := by decide

theorem entries_names (registrable : Registrable table taken declarations) :
    (declarations.filterMap (registration? table)).map (·.1) = declarations.map (·.name) := by
  have compiles := registrable.compiles
  clear registrable
  induction declarations with
  | nil => rfl
  | cons declaration rest ih =>
      have later := ih fun other member => compiles other (List.mem_cons_of_mem _ member)
      obtain ⟨query, compiled⟩ := compiles declaration List.mem_cons_self
      have entry := registration?_of_compiled query compiled
      rw [List.filterMap_cons_some entry, List.map_cons, later, List.map_cons]

def registry (table : Table) (declarations : List Declaration) : Gateway :=
  ⟨table, .raw, standardQueries ++ declarations.filterMap (registration? table)⟩

theorem registry_names (registrable : Registrable table taken declarations) :
    (registry table declarations).names = standardNames ++ declarations.map (·.name) := by
  rw [names, registry, List.map_append, standardQueries_names, entries_names registrable]

theorem names_nodup (registrable : Registrable table standardNames declarations) :
    (standardNames ++ declarations.map (·.name)).Nodup := by
  refine List.nodup_append.mpr ⟨by decide, registrable.distinct, ?_⟩
  rintro name fixed other declared rfl
  obtain ⟨declaration, member, rfl⟩ := List.mem_map.mp declared
  exact registrable.free declaration member fixed

theorem query_isOk_iff (name : String) :
    (∃ query, gateway.query name = .ok query) ↔ name ∈ gateway.names := by
  unfold query names
  cases found : gateway.queries.lookup name with
  | none =>
      have absent := List.lookup_eq_none_iff.mp found
      constructor
      · rintro ⟨query, impossible⟩
        cases impossible
      · intro member
        obtain ⟨entry, held, rfl⟩ := List.mem_map.mp member
        exact absurd (absent entry held) (by simp)
  | some query =>
      obtain ⟨front, back, whole, -⟩ := List.lookup_eq_some_iff.mp found
      constructor
      · intro _
        rw [whole]
        exact List.mem_map.mpr ⟨(name, query), by simp, rfl⟩
      · intro _
        exact ⟨query, rfl⟩

-- Only one entry can answer for a name when no two entries have one.
theorem query_of_entry (nodup : gateway.names.Nodup) (name : String) (query : Query)
    (member : (name, query) ∈ gateway.queries) : gateway.query name = .ok query := by
  obtain ⟨front, back, whole⟩ := List.append_of_mem member
  have first : ∀ entry ∈ front, name != entry.1 := by
    intro entry earlier
    rw [names, whole, List.map_append, List.nodup_append] at nodup
    have apart := nodup.2.2 entry.1 (List.mem_map_of_mem earlier) name (by simp)
    simpa [bne_iff_ne] using apart.symm
  have found := List.lookup_eq_some_iff.mpr ⟨front, back, whole, first⟩
  rw [Gateway.query, found]

theorem query_registry_standard (registrable : Registrable table standardNames declarations)
    (which : Standard) :
    (registry table declarations).query which.name = .ok (.standard which) := by
  have nodup := (registry_names registrable).symm ▸ names_nodup registrable
  have member : (which.name, Query.standard which) ∈ standardQueries :=
    List.mem_map.mpr ⟨which, by cases which <;> decide, rfl⟩
  exact query_of_entry nodup _ _ (List.mem_append_left _ member)

theorem entry_of_declared (registrable : Registrable table taken declarations)
    (member : declaration ∈ declarations) : ∃ query,
      (declaration.compile table).result = .ok query ∧
        (declaration.name, query) ∈ declarations.filterMap (registration? table) := by
  obtain ⟨query, compiled⟩ := registrable.compiles declaration member
  have entry := registration?_of_compiled query compiled
  exact ⟨query, compiled, List.mem_filterMap.mpr ⟨declaration, member, entry⟩⟩

end Registry

section Definition

/-- How many columns have the name of an id. -/
def idCount (table : Table) : Nat := table.columns.countP fun column => column.name == "id"

theorem countP_isId (table : Table) : table.columns.countP Column.isId = idCount table := rfl

theorem define_of_one (one : idCount table = 1) :
    (define table declarations).result =
      (register table standardQueries declarations).result.map fun queries =>
        ⟨table, .raw, queries⟩ := by
  simp only [define, countP_isId, one, Traced.result_bind]
  cases (register table standardQueries declarations).result <;> rfl

theorem define_of_none (none : idCount table = 0) :
    (define table declarations).result = .error (.missingId table.name) := by
  simp only [define, countP_isId, none]
  rfl

theorem define_of_many (many : 1 < idCount table) :
    (define table declarations).result = .error (.repeatedId table.name (idCount table)) := by
  rw [define, countP_isId]
  split
  · omega
  · omega
  · rfl

variable (table) in
theorem id_count : idCount table = 0 ∨ idCount table = 1 ∨ 1 < idCount table := by omega

theorem define_eq_ok_iff (gateway : Gateway) :
    (define table declarations).result = .ok gateway ↔
      idCount table = 1 ∧ Registrable table standardNames declarations ∧
        gateway = registry table declarations := by
  rcases id_count table with none | one | many
  · simp [define_of_none none, none]
  · rw [define_of_one one]
    constructor
    · intro success
      cases ran : (register table standardQueries declarations).result with
      | error fault =>
          rw [ran] at success
          cases success
      | ok registered =>
          rw [ran] at success
          obtain rfl := Except.ok.inj success
          obtain ⟨registrable, rfl⟩ := (register_eq_ok_iff registered).mp ran
          rw [standardQueries_names] at registrable
          exact ⟨one, registrable, rfl⟩
    · rintro ⟨-, registrable, rfl⟩
      rw [← standardQueries_names] at registrable
      rw [(register_eq_ok_iff _).mpr ⟨registrable, rfl⟩]
      rfl
  · rw [define_of_many many]
    constructor
    · intro impossible
      cases impossible
    · rintro ⟨one, -⟩
      omega

/-- The fault of a definition: the id's if the table has not exactly one, and otherwise
that of the first declaration that is refused. -/
def Failing (table : Table) (declarations : List Declaration) (fault : Fault) : Prop :=
  idCount table = 0 ∧ fault = .missingId table.name ∧ fault.category = .convention ∨
  1 < idCount table ∧ fault = .repeatedId table.name (idCount table) ∧
    fault.category = .convention ∨
  idCount table = 1 ∧
    ∃ front declaration back, declarations = front ++ declaration :: back ∧
      Registrable table standardNames front ∧
      Refused table (standardNames ++ front.map (·.name)) declaration fault

theorem define_eq_error_iff (fault : Fault) :
    (define table declarations).result = .error fault ↔ Failing table declarations fault := by
  unfold Failing
  rcases id_count table with none | one | many
  · rw [define_of_none none, Fault.error_eq_iff]
    simp [none, Fault.category]
  · have run : (register table standardQueries declarations).result = .error fault ↔ _ :=
      register_eq_error_iff fault
    rw [standardQueries_names] at run
    rw [define_of_one one, ← run]
    cases (register table standardQueries declarations).result <;> simp [one, Except.map]
  · have other : idCount table ≠ 0 ∧ idCount table ≠ 1 := by omega
    rw [define_of_many many, Fault.error_eq_iff]
    simp [many, other, Fault.category]

end Definition

-- Failure is as definite as success: the id is looked at first, and after it the
-- declarations up to the first that cannot be registered.
theorem define_registers (table : Table) (declarations : List Declaration) :
    ((∃ gateway, (define table declarations).result = .ok gateway) ↔
      idCount table = 1 ∧ Registrable table standardNames declarations) ∧
    (∀ gateway, (define table declarations).result = .ok gateway →
      gateway.table = table ∧
      gateway.names = standardNames ++ declarations.map (·.name) ∧ gateway.names.Nodup ∧
      (∀ name, (∃ query, gateway.query name = .ok query) ↔ name ∈ gateway.names) ∧
      (∀ which, gateway.query which.name = .ok (.standard which)) ∧
      ∀ declaration ∈ declarations,
        gateway.query declaration.name = (declaration.compile table).result) ∧
    ∀ fault, (define table declarations).result = .error fault ↔
      Failing table declarations fault := by
  refine ⟨?_, ?_, define_eq_error_iff⟩
  · constructor
    · rintro ⟨gateway, success⟩
      obtain ⟨one, registrable, -⟩ := (define_eq_ok_iff gateway).mp success
      exact ⟨one, registrable⟩
    · rintro ⟨one, registrable⟩
      exact ⟨_, (define_eq_ok_iff _).mpr ⟨one, registrable, rfl⟩⟩
  · intro gateway success
    obtain ⟨-, registrable, rfl⟩ := (define_eq_ok_iff gateway).mp success
    have listed := registry_names registrable
    have nodup := listed ▸ names_nodup registrable
    refine ⟨rfl, listed, nodup, query_isOk_iff, query_registry_standard registrable, ?_⟩
    intro declaration member
    obtain ⟨query, compiled, entered⟩ := entry_of_declared registrable member
    rw [compiled]
    exact query_of_entry nodup _ _ (List.mem_append_right _ entered)

end Gateway

end NamedSql
