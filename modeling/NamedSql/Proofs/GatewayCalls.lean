import NamedSql.Proofs.GatewayRegistry
import NamedSql.Proofs.TemplateFilling

/-!
Every call of a gateway and what comes of it. A name has at most one query, and a query is
of one of three kinds, each with the shapes of arguments it takes. Which outcome a call has
is settled before text is written, so the quoting decides none of it. Compiling is over by
then: a call never reports what only a definition can.
-/
namespace NamedSql

namespace Arguments

/-- What an inferred query is filled from, if it takes the shape. No arguments are no
values. -/
def byName? : Arguments → Option Record
  | .nothing => some ∅
  | .keywords values => some values
  | _ => none

/-- What a literal query is filled from, if it takes the shape. -/
def inOrder? : Arguments → Option (List Value)
  | .nothing => some []
  | .positional values => some values
  | _ => none

end Arguments

namespace Record

/-- The record tells no row apart: its id is unset or null. -/
def Unidentified (record : Record) : Prop :=
  record.get? "id" = none ∨ record.get? "id" = some .null

theorem present?_eq_none_iff (record : Record) (name : String) :
    record.present? name = none ↔ record.get? name = none ∨ record.get? name = some .null := by
  unfold present?
  cases held : record.get? name with
  | none => simp
  | some value => cases value <;> simp [Value.isNull]

instance (record : Record) : Decidable record.Unidentified :=
  decidable_of_iff _ (record.present?_eq_none_iff Column.idName)

end Record

namespace Table

variable {table : Table} {record : Record} {quoting : Quoting}

/-- No column is set but those named as the id. -/
def Unassigned (table : Table) (record : Record) : Prop :=
  ∀ column ∈ table.columns, column.name ≠ "id" → record.get? column.name = none

instance : Decidable (table.Unassigned record) :=
  inferInstanceAs (Decidable (∀ column ∈ table.columns, _ → _))

theorem assigned_eq_nil_iff : table.assigned record quoting = [] ↔ table.Unassigned record := by
  simp [assigned, literals, Unassigned, Column.isId, Column.idName]

variable (table record quoting) in
theorem updateText_cases :
    record.Unidentified ∧
        table.updateText record quoting = .error (.updateWithoutId table.name) ∨
      ¬ record.Unidentified ∧ table.Unassigned record ∧
        table.updateText record quoting = .error (.nothingToUpdate table.name) ∨
      ¬ record.Unidentified ∧ ¬ table.Unassigned record ∧
        ∃ text, table.updateText record quoting = .ok text := by
  have identified := record.present?_eq_none_iff Column.idName
  have assigned : table.assigned record quoting = [] ↔ _ := assigned_eq_nil_iff
  unfold updateText
  cases held : record.present? Column.idName with
  | none => exact .inl ⟨identified.mp held, rfl⟩
  | some id =>
      have known : ¬ record.Unidentified := by
        intro unknown
        rw [identified.mpr unknown] at held
        cases held
      cases columns : table.assigned record quoting with
      | nil => exact .inr (.inl ⟨known, assigned.mp columns, rfl⟩)
      | cons first rest =>
          have filled : ¬ table.Unassigned record := by
            intro unassigned
            rw [assigned.mpr unassigned] at columns
            cases columns
          exact .inr (.inr ⟨known, filled, _, rfl⟩)

-- The id is looked at before the columns, so a record without either lacks the id.
theorem updateText_eq_error_iff (fault : Fault) :
    table.updateText record quoting = .error fault ↔
      record.Unidentified ∧ fault = .updateWithoutId table.name ∧ fault.category = .lookup ∨
      ¬ record.Unidentified ∧ table.Unassigned record ∧
        fault = .nothingToUpdate table.name ∧ fault.category = .assignment := by
  rcases updateText_cases table record quoting with
    ⟨unknown, failed⟩ | ⟨known, unassigned, failed⟩ | ⟨known, filled, text, written⟩
  · rw [failed, Fault.error_eq_iff]
    simp [unknown, Fault.category]
  · rw [failed, Fault.error_eq_iff]
    simp [known, unassigned, Fault.category]
  · simp [written, known, filled]

end Table

namespace Query

variable {table : Table} {quoting : Quoting} {arguments : Arguments} {template : Template}

theorem format_standard_wrong (which : Standard) (wrong : arguments.shape ≠ which.shape) :
    ((Query.standard which).format table quoting arguments).result =
      .error (.wrongShape which.name arguments.shape) := by
  simp only [format, Traced.ofResult, Table.standard]
  split
  case h_7 => rfl
  -- The six arms before the last are the six queries in their own shapes.
  all_goals exact absurd rfl wrong

theorem format_standard_right (which : Standard) (right : arguments.shape = which.shape) :
    (∃ text, ((Query.standard which).format table quoting arguments).result = .ok text) ∨
      ∃ record, ((Query.standard which).format table quoting arguments).result =
        table.updateText record quoting := by
  cases which with
  | update =>
      cases arguments with
      | record record => exact .inr ⟨record, rfl⟩
      | _ => cases right
  | _ =>
      cases arguments <;> cases right
      exact .inl ⟨_, rfl⟩

theorem format_inferred (values : Record) (given : arguments.byName? = some values) :
    ((Query.inferred template).format table quoting arguments).result =
      template.fillNamed values quoting := by
  cases arguments <;> cases given <;> rfl

theorem format_inferred_wrong (wrong : arguments.byName? = none) :
    ((Query.inferred template).format table quoting arguments).result =
      .error (.wrongShape template.text arguments.shape) := by
  cases arguments with
  | nothing => cases wrong
  | id value => rfl
  | record record => rfl
  | keywords values => cases wrong
  | positional values => rfl

theorem format_literal (values : List Value) (given : arguments.inOrder? = some values) :
    ((Query.literal template).format table quoting arguments).result =
      (template.fillPositional values).result := by
  cases arguments <;> cases given <;> rfl

theorem format_literal_wrong (wrong : arguments.inOrder? = none) :
    ((Query.literal template).format table quoting arguments).result =
      .error (.wrongShape template.text arguments.shape) := by
  cases arguments with
  | nothing => cases wrong
  | id value => rfl
  | record record => rfl
  | keywords values => rfl
  | positional values => cases wrong

end Query

namespace Gateway

variable {table : Table} {declarations : List Declaration} {gateway : Gateway}
  {arguments : Arguments} {name : String}

theorem call_of_query (query : Query) (found : gateway.query name = .ok query) :
    (gateway.call name arguments).result =
      (query.format gateway.table gateway.quoting arguments).result := by
  simp only [call, Traced.result_bind, Traced.emit, Traced.ofResult, found]
  rfl

theorem query_unknown (absent : name ∉ gateway.names) :
    gateway.query name = .error (.unknownQuery name gateway.table.name) := by
  have missed : gateway.queries.lookup name = none := by
    apply List.lookup_eq_none_iff.mpr
    intro entry member
    have other : entry.1 ≠ name := by
      rintro rfl
      exact absent (List.mem_map_of_mem member)
    simpa using other.symm
  rw [query, missed]

theorem call_unknown (absent : name ∉ gateway.names) :
    (gateway.call name arguments).result =
      .error (.unknownQuery name gateway.table.name) := by
  simp only [call, Traced.result_bind, Traced.emit, Traced.ofResult, query_unknown absent]
  rfl

theorem query_switched (quotings : List Quoting) (name : String) :
    (quotings.foldl withQuoting gateway).query name = gateway.query name := by
  induction quotings generalizing gateway with
  | nil => rfl
  | cons quoting rest ih => exact ih

/-! A standard query is registered under its own name and no other: what is declared
compiles to a template. -/
section Kinds

theorem compile_ne_standard (declaration : Declaration) (which : Standard) :
    (declaration.compile table).result ≠ .ok (.standard which) := by
  cases declaration with
  | inferred name =>
      simp only [Declaration.compile, Traced.result_bind]
      cases (table.inferred name).result <;> simp [Except.bind, Traced.pure_eq]
  | literal name text =>
      simp only [Declaration.compile, Traced.result_bind, Traced.ofResult]
      cases Template.read .positional text <;> simp [Except.bind, Traced.pure_eq]

theorem query_registry_cases (query : Query)
    (found : (registry table declarations).query name = .ok query) :
    (∃ which : Standard, name = which.name ∧ query = .standard which) ∨
      ∃ declaration ∈ declarations, declaration.name = name ∧
        (declaration.compile table).result = .ok query := by
  unfold Gateway.query at found
  split at found
  · next entry looked =>
      obtain rfl := Except.ok.inj found
      obtain ⟨front, back, whole, -⟩ := List.lookup_eq_some_iff.mp looked
      have member : (name, entry) ∈ (registry table declarations).queries := by
        rw [whole]
        simp
      rcases List.mem_append.mp member with fixed | declared
      · obtain ⟨which, -, same⟩ := List.mem_map.mp fixed
        obtain ⟨named, kind⟩ := Prod.mk.inj same
        exact .inl ⟨which, named.symm, kind.symm⟩
      · obtain ⟨declaration, listed, made⟩ := List.mem_filterMap.mp declared
        obtain ⟨query, compiled, same⟩ := Option.map_eq_some_iff.mp made
        obtain ⟨named, rfl⟩ := Prod.mk.inj same
        exact .inr ⟨declaration, listed, named, (toOption_eq_some_iff _ _).mp compiled⟩
  · cases found

theorem name_of_standard (which : Standard)
    (found : (registry table declarations).query name = .ok (.standard which)) :
    name = which.name := by
  rcases query_registry_cases _ found with ⟨other, named, same⟩ | ⟨declaration, -, -, compiled⟩
  · obtain rfl := Query.standard.inj same
    exact named
  · exact absurd compiled (compile_ne_standard declaration which)

end Kinds

/-- What comes of a call, for each kind of query and each shape of arguments. -/
structure Outcomes (gateway : Gateway) : Prop where
  unknown : ∀ name arguments, name ∉ gateway.names →
    Fails (gateway.call name arguments).result (.unknownQuery name gateway.table.name) .lookup
  kinds : ∀ name ∈ gateway.names, (∃ which : Standard, name = which.name) ∨
    (∃ template, gateway.query name = .ok (.inferred template)) ∨
    ∃ template, gateway.query name = .ok (.literal template)
  fetch : ∀ id, (gateway.call "sql_get_one" (.id id)).result = .ok (gateway.fetch id)
  list : (gateway.call "sql_find_all" .nothing).result = .ok gateway.list
  save : ∀ record, (gateway.call "sql_save" (.record record)).result = .ok (gateway.save record)
  count : ∀ record,
    (gateway.call "sql_exists" (.record record)).result = .ok (gateway.count record)
  update : ∀ record, (gateway.call "sql_update" (.record record)).result = gateway.update record
  delete : ∀ id, (gateway.call "sql_delete_by_id" (.id id)).result = .ok (gateway.delete id)
  standard_shape : ∀ (which : Standard) arguments, arguments.shape ≠ which.shape →
    Fails (gateway.call which.name arguments).result
      (.wrongShape which.name arguments.shape) .format
  /-- The id is missed first, and then a column to assign. -/
  update_fails : ∀ record fault, gateway.update record = .error fault ↔
    record.Unidentified ∧ fault = .updateWithoutId gateway.table.name ∧ fault.category = .lookup ∨
    ¬ record.Unidentified ∧ gateway.table.Unassigned record ∧
      fault = .nothingToUpdate gateway.table.name ∧ fault.category = .assignment
  inferred : ∀ name template, gateway.query name = .ok (.inferred template) →
    ∀ arguments values, arguments.byName? = some values →
      ((∃ text, (gateway.call name arguments).result = .ok text) ↔
        ∀ key ∈ template.keys, (values.get? key).isSome) ∧
      ∀ fault, (gateway.call name arguments).result = .error fault →
        ∃ key ∈ template.keys, values.get? key = none ∧
          fault = .missingKeyword key template.text ∧ fault.category = .lookup
  inferred_shape : ∀ name template, gateway.query name = .ok (.inferred template) →
    ∀ arguments, arguments.byName? = none →
      Fails (gateway.call name arguments).result
        (.wrongShape template.text arguments.shape) .format
  literal : ∀ name template, gateway.query name = .ok (.literal template) →
    ∀ arguments values, arguments.inOrder? = some values →
      ((∃ text, (gateway.call name arguments).result = .ok text) ↔
        template.arity ≤ values.length) ∧
      ∀ fault, (gateway.call name arguments).result = .error fault →
        fault = .tooFewValues template.text template.arity values.length ∧
          fault.category = .format
  literal_shape : ∀ name template, gateway.query name = .ok (.literal template) →
    ∀ arguments, arguments.inOrder? = none →
      Fails (gateway.call name arguments).result
        (.wrongShape template.text arguments.shape) .format
  /-- No other fault is left for a call. -/
  faults : ∀ name arguments fault, (gateway.call name arguments).result = .error fault →
    fault.category = .lookup ∨ fault.category = .format ∨ fault.category = .assignment

section Calls

theorem inferred_outcome (template : Template)
    (found : gateway.query name = .ok (.inferred template)) (values : Record)
    (given : arguments.byName? = some values) :
    ((∃ text, (gateway.call name arguments).result = .ok text) ↔
      ∀ key ∈ template.keys, (values.get? key).isSome) ∧
    ∀ fault, (gateway.call name arguments).result = .error fault →
      ∃ key ∈ template.keys, values.get? key = none ∧
        fault = .missingKeyword key template.text ∧ fault.category = .lookup := by
  rw [call_of_query _ found, Query.format_inferred values given]
  refine ⟨Template.fillNamed_isOk_iff template values _, ?_⟩
  intro fault failed
  obtain ⟨key, first, rfl⟩ := (Template.fillNamed_eq_error_iff template values _ fault).mp failed
  have unset := List.find?_some first
  exact ⟨key, List.mem_of_find?_eq_some first, by simpa [Record.isSet] using unset, rfl, rfl⟩

theorem literal_outcome (template : Template)
    (found : gateway.query name = .ok (.literal template)) (values : List Value)
    (given : arguments.inOrder? = some values) :
    ((∃ text, (gateway.call name arguments).result = .ok text) ↔
      template.arity ≤ values.length) ∧
    ∀ fault, (gateway.call name arguments).result = .error fault →
      fault = .tooFewValues template.text template.arity values.length ∧
        fault.category = .format := by
  rw [call_of_query _ found, Query.format_literal values given]
  refine ⟨template.fillPositional_isOk_iff values, fun fault failed => ?_⟩
  obtain ⟨-, rfl⟩ := (template.fillPositional_eq_error_iff values fault).mp failed
  exact ⟨rfl, rfl⟩

theorem faults_of_standard (which : Standard)
    (found : gateway.query name = .ok (.standard which)) (fault : Fault)
    (failed : (gateway.call name arguments).result = .error fault) :
    fault.category = .lookup ∨ fault.category = .format ∨ fault.category = .assignment := by
  rw [call_of_query _ found] at failed
  by_cases right : arguments.shape = which.shape
  · rcases Query.format_standard_right which right with ⟨text, written⟩ | ⟨record, updated⟩
    · rw [written] at failed
      cases failed
    · rw [updated] at failed
      rcases (Table.updateText_eq_error_iff fault).mp failed with
        ⟨-, -, lookup⟩ | ⟨-, -, -, assignment⟩
      · exact .inl lookup
      · exact .inr (.inr assignment)
  · rw [Query.format_standard_wrong which right] at failed
    obtain rfl := Except.error.inj failed
    exact .inr (.inl rfl)

theorem faults_of_call (fault : Fault)
    (failed : (gateway.call name arguments).result = .error fault) :
    fault.category = .lookup ∨ fault.category = .format ∨ fault.category = .assignment := by
  cases found : gateway.query name with
  | error missing =>
      have absent : name ∉ gateway.names := by
        intro member
        obtain ⟨query, present⟩ := (query_isOk_iff name).mpr member
        rw [found] at present
        cases present
      rw [call_unknown absent] at failed
      obtain rfl := Except.error.inj failed
      exact .inl rfl
  | ok query =>
      cases query with
      | standard which => exact faults_of_standard which found fault failed
      | inferred template =>
          cases given : arguments.byName? with
          | none =>
              rw [call_of_query _ found, Query.format_inferred_wrong given] at failed
              obtain rfl := Except.error.inj failed
              exact .inr (.inl rfl)
          | some values =>
              obtain ⟨key, -, -, -, lookup⟩ :=
                (inferred_outcome template found values given).2 fault failed
              exact .inl lookup
      | literal template =>
          cases given : arguments.inOrder? with
          | none =>
              rw [call_of_query _ found, Query.format_literal_wrong given] at failed
              obtain rfl := Except.error.inj failed
              exact .inr (.inl rfl)
          | some values =>
              exact .inr (.inl ((literal_outcome template found values given).2 fault failed).2)

end Calls

-- However often the quoting is switched, the registry is the one that was defined.
theorem call_outcomes (table : Table) (declarations : List Declaration) (defined : Gateway)
    (success : (define table declarations).result = .ok defined) (quotings : List Quoting) :
    Outcomes (quotings.foldl withQuoting defined) := by
  obtain ⟨-, registrable, rfl⟩ := (define_eq_ok_iff defined).mp success
  have standard (which : Standard) :
      (quotings.foldl withQuoting (registry table declarations)).query which.name =
        .ok (.standard which) := by
    rw [query_switched]
    exact query_registry_standard registrable which
  refine
    { unknown := fun name arguments absent => ⟨call_unknown absent, rfl⟩
      kinds := ?_
      fetch := fun id => call_of_query _ (standard .fetch)
      list := call_of_query _ (standard .list)
      save := fun record => call_of_query _ (standard .save)
      count := fun record => call_of_query _ (standard .count)
      update := fun record => call_of_query _ (standard .update)
      delete := fun id => call_of_query _ (standard .delete)
      standard_shape := ?_
      update_fails := fun record fault => Table.updateText_eq_error_iff fault
      inferred := fun name template found arguments values => inferred_outcome template found values
      inferred_shape := ?_
      literal := fun name template found arguments values => literal_outcome template found values
      literal_shape := ?_
      faults := fun name arguments fault => faults_of_call fault }
  · intro name member
    obtain ⟨query, found⟩ := (query_isOk_iff name).mpr member
    cases query with
    | standard which =>
        rw [query_switched] at found
        exact .inl ⟨which, name_of_standard which found⟩
    | inferred template => exact .inr (.inl ⟨template, found⟩)
    | literal template => exact .inr (.inr ⟨template, found⟩)
  · intro which arguments wrong
    rw [call_of_query _ (standard which)]
    exact ⟨Query.format_standard_wrong which wrong, rfl⟩
  · intro name template found arguments wrong
    rw [call_of_query _ found]
    exact ⟨Query.format_inferred_wrong wrong, rfl⟩
  · intro name template found arguments wrong
    rw [call_of_query _ found]
    exact ⟨Query.format_literal_wrong wrong, rfl⟩

theorem call_outcomes_people :
    let people : Table := ⟨"people", [{ name := "id", type := "integer" },
      { name := "name", type := "text" }]⟩
    let between := "SELECT * FROM people WHERE id > \x7b\x7d AND id < \x7b\x7d"
    ∃ defined, (define people [.inferred "sql_find_by_name", .literal "between" between]).result =
        .ok defined ∧
      let gateway := [Quoting.escaped, .raw, .escaped].foldl withQuoting defined
      Fails (gateway.call "missing" .nothing).result (.unknownQuery "missing" "people") .lookup ∧
      Fails (gateway.call "sql_save" (.id (.integer 3))).result (.wrongShape "sql_save" .id)
        .format ∧
      Fails (gateway.call "sql_update" (.record (Record.ofPairs [("id", .integer 3)]))).result
        (.nothingToUpdate "people") .assignment ∧
      (∃ text, (gateway.call "sql_find_by_name"
        (.keywords (Record.ofPairs [("name", .text "Ada")]))).result = .ok text) ∧
      ¬ (∃ text, (gateway.call "sql_find_by_name" .nothing).result = .ok text) ∧
      (∃ text, (gateway.call "between"
        (.positional [.integer 3, .integer 9])).result = .ok text) ∧
      ¬ ∃ text, (gateway.call "between" (.positional [.integer 3])).result = .ok text := by
  intro people between
  obtain ⟨defined, success⟩ := exists_ok (define people
      [.inferred "sql_find_by_name", .literal "between" between]).result (by decide)
  refine ⟨defined, success, ?_⟩
  intro gateway
  have outcomes : Outcomes gateway :=
    call_outcomes people _ defined success [.escaped, .raw, .escaped]
  obtain ⟨-, -, rfl⟩ := (define_eq_ok_iff defined).mp success
  obtain ⟨byName, compiled, keys⟩ := Option.map_eq_some_iff.mp
    (by decide : (people.inferred "sql_find_by_name").result.toOption.map (·.keys) =
      some ["name"])
  have named : gateway.query "sql_find_by_name" = .ok (.inferred byName) := by
    have same : (gateway.query "sql_find_by_name").toOption =
        (people.inferred "sql_find_by_name").result.toOption.map .inferred := by decide
    rw [compiled] at same
    exact (toOption_eq_some_iff _ _).mp same
  obtain ⟨inOrder, read, arity⟩ := Option.map_eq_some_iff.mp
    (by decide : (Template.read .positional between).toOption.map (·.arity) = some 2)
  have literal : gateway.query "between" = .ok (.literal inOrder) := by
    have same : (gateway.query "between").toOption =
        (Template.read .positional between).toOption.map .literal := by decide
    rw [read] at same
    exact (toOption_eq_some_iff _ _).mp same
  have filledByName (arguments values given) :=
    (outcomes.inferred _ byName named arguments values given).1
  have filledInOrder (arguments values given) :=
    (outcomes.literal _ inOrder literal arguments values given).1
  rw [keys] at filledByName
  rw [arity] at filledInOrder
  have unassigned := (outcomes.update_fails (Record.ofPairs [("id", .integer 3)])
    (.nothingToUpdate "people")).mpr (.inr ⟨by decide, by decide, rfl, rfl⟩)
  refine ⟨outcomes.unknown "missing" .nothing (by decide),
    outcomes.standard_shape .save (.id (.integer 3)) (by decide),
    ⟨(outcomes.update _).trans unassigned, rfl⟩, (filledByName _ _ rfl).mpr (by decide), ?_,
    (filledInOrder _ _ rfl).mpr (by decide), ?_⟩
  · rw [filledByName .nothing ∅ rfl]
    decide
  · rw [filledInOrder (.positional [.integer 3]) _ rfl]
    decide

end Gateway

end NamedSql
