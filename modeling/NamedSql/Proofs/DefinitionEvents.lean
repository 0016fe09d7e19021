import NamedSql.Proofs.GatewayRegistry
import NamedSql.Proofs.InferredMeaning
import NamedSql.Proofs.TemplateGrammar

/-!
What definitions report. A name is read as runs of plain words with control words between them,
and a control word is reported when the run before it has been resolved, so the first run
without a column ends the report. A gateway reports what its declarations report, in their
order, up to the first that it refuses. Only what was compiled to the end is reported as
compiled, and only a gateway that was defined as defined.
-/
namespace NamedSql

namespace Inferred

variable {table : Table} {query : String} {deleting : Bool}

/-- A run of words refers to a column that the table does not have. -/
def stray (table : Table) (run : List String) : Bool :=
  decide (Phrase.referent run ≠ "" ∧ Phrase.referent run ∉ table.columns.map (·.name))

/-- The control words of a cut that are reached, each after the run before it. A cut has one
run more than it has control words. -/
def met (table : Table) (run : List String) (later : List (Keyword × List String)) :
    List Keyword :=
  (later.map (·.1)).take ((run :: later.map (·.2)).findIdx (stray table))

@[simp] theorem met_nil (run : List String) : met table run [] = [] := List.take_nil

theorem met_cons (run : List String) (part : Keyword × List String)
    (rest : List (Keyword × List String)) :
    met table run (part :: rest) =
      if stray table run then [] else part.1 :: met table part.2 rest := by
  simp only [met, List.map_cons, List.findIdx_cons (b := run)]
  cases stray table run <;> rfl

theorem events_write_control (keyword : Keyword) (rest : List Phrase) :
    (write table query deleting (.control keyword :: rest)).events =
      .keywordRead query keyword :: (write table query deleting rest).events := by
  rw [write]
  rcases write table query deleting rest with ⟨events, fault | text⟩
  · rfl
  · simp [Traced.emit]

theorem events_write_run (start : Nat) (run : List String) (rest : List Phrase) :
    (write table query deleting (Cut.reference start run ++ rest)).events =
      if stray table run then [] else (write table query deleting rest).events := by
  by_cases nameless : Phrase.referent run = ""
  · simp [Cut.reference, nameless, stray]
  · rw [Cut.reference, if_neg nameless, List.singleton_append, write]
    by_cases listed : Phrase.referent run ∈ table.columns.map (·.name)
    · obtain ⟨column, found⟩ := Table.exists_column? (Phrase.referent run) listed
      have answered : stray table run = false := decide_eq_false fun missing => missing.2 listed
      rw [found, answered, if_neg Bool.false_ne_true]
      rcases write table query deleting rest with ⟨events, fault | text⟩
      · rfl
      · simp
    · have missing := (Table.column?_eq_none_iff (Phrase.referent run)).mpr listed
      have stopped : stray table run = true := decide_eq_true ⟨nameless, listed⟩
      rw [missing, if_pos stopped]
      rfl

-- One run at a time: it ends the report, or the control word behind it is reported.
variable (table query deleting) in
theorem events_phrasesFrom (start : Nat) (run : List String)
    (later : List (Keyword × List String)) :
    (write table query deleting (Cut.phrasesFrom start run later)).events =
      (met table run later).map (.keywordRead query) := by
  induction later generalizing start run with
  | nil =>
      have alone : (write table query deleting (Cut.reference start run ++ [])).events = _ :=
        events_write_run start run []
      rw [List.append_nil] at alone
      rw [Cut.phrasesFrom, alone, met_nil]
      cases stray table run <;> rfl
  | cons part rest ih =>
      rw [Cut.phrasesFrom, events_write_run, events_write_control, ih, met_cons]
      cases stray table run <;> rfl

def compilation (query : String) : Except Fault Template → List Event
  | .ok template => [.queryCompiled query template.text]
  | .error _ => []

theorem events_inferred (name body : String) (shape : body? name = some body) :
    (table.inferred name).events =
      (met table (Cut.ofWords (words body)).lead (Cut.ofWords (words body)).later).map
        (.keywordRead name) ++ compilation name (table.inferred name).result := by
  have met := events_phrasesFrom table name (deletes (tokens body)) 0
    (Cut.ofWords (words body)).lead (Cut.ofWords (words body)).later
  rw [← Cut.phrases, ← Cut.phrases_tokens] at met
  rw [← met]
  simp only [Table.inferred, shape]
  rcases write table name (deletes (tokens body)) (phrases (tokens body)) with
    ⟨events, fault | text⟩
  · simp [compilation]
  · cases read : Template.read .named (String.ofList (Text.trimEnd text.toList)) with
    | error fault => simp [compilation, Traced.ofResult, read]
    | ok template => simp [compilation, Traced.ofResult, Traced.emit, read]

theorem events_shapeless (name : String) (shape : body? name = none) :
    (table.inferred name).events = [] := by
  rw [Table.inferred, shape]
  rfl

end Inferred

namespace Gateway

variable {table : Table} {queries : List (String × Query)} {declaration : Declaration}
  {declarations : List Declaration}

/-- What is reported while a declaration is compiled. Reading a literal reports nothing. -/
def compiling (table : Table) : Declaration → List Event
  | .inferred name => (table.inferred name).events
  | .literal _ _ => []

theorem events_compile (declaration : Declaration) :
    (declaration.compile table).events = compiling table declaration := by
  cases declaration with
  | inferred name =>
      rw [Declaration.compile, compiling]
      rcases table.inferred name with ⟨events, fault | template⟩
      · rfl
      · simp
  | literal name text =>
      rw [Declaration.compile, compiling]
      cases Template.read .positional text <;> rfl

/-! One step of a registration. -/
section Step

theorem events_taken (taken : declaration.name ∈ queries.map (·.1)) :
    (register table queries (declaration :: declarations)).events = [] := by
  rw [register, if_pos taken]
  rfl

theorem events_failing (free : declaration.name ∉ queries.map (·.1)) (fault : Fault)
    (fails : (declaration.compile table).result = .error fault) :
    (register table queries (declaration :: declarations)).events =
      compiling table declaration := by
  rw [register, if_neg free, Traced.events_bind_error _ _ fault fails, events_compile]

theorem events_added (free : declaration.name ∉ queries.map (·.1)) (query : Query)
    (compiled : (declaration.compile table).result = .ok query) :
    (register table queries (declaration :: declarations)).events = compiling table declaration ++
      (register table (queries ++ [(declaration.name, query)]) declarations).events := by
  rw [register, if_neg free, Traced.events_bind_ok _ _ query compiled, events_compile]

end Step

theorem events_register_append (front back : List Declaration)
    (registrable : Registrable table (queries.map (·.1)) front) :
    (register table queries (front ++ back)).events = front.flatMap (compiling table) ++
      (register table (queries ++ front.filterMap (registration? table)) back).events := by
  induction front generalizing queries with
  | nil => simp
  | cons declaration rest ih =>
      obtain ⟨free, ⟨query, compiled⟩, later⟩ := registrable_cons.mp registrable
      have entry := registration?_of_compiled query compiled
      rw [List.cons_append, events_added free query compiled, ih (by simpa using later),
        List.filterMap_cons_some entry, List.flatMap_cons]
      simp

theorem registered_names (registrable : Registrable table (queries.map (·.1)) declarations) :
    (queries ++ declarations.filterMap (registration? table)).map (·.1) =
      queries.map (·.1) ++ declarations.map (·.name) := by
  rw [List.map_append, entries_names registrable]

theorem registered_length (registrable : Registrable table (queries.map (·.1)) declarations) :
    (queries ++ declarations.filterMap (registration? table)).length =
      queries.length + declarations.length := by
  have lengths := congrArg List.length (registered_names registrable)
  simpa only [List.length_append, List.length_map] using lengths

theorem events_refused (front back : List Declaration)
    (registrable : Registrable table (queries.map (·.1)) front) (fault : Fault)
    (refused : Refused table (queries.map (·.1) ++ front.map (·.name)) declaration fault) :
    (register table queries (front ++ declaration :: back)).events =
      (if declaration.name ∈ queries.map (·.1) ++ front.map (·.name) then front
        else front ++ [declaration]).flatMap (compiling table) := by
  rw [events_register_append front _ registrable]
  rw [← registered_names registrable] at refused ⊢
  rcases refused with ⟨taken, -⟩ | ⟨free, fails⟩
  · rw [events_taken taken, if_pos taken, List.append_nil]
  · rw [events_failing free fault fails, if_neg free, List.flatMap_append, List.flatMap_singleton]

/-! The definition around the registration. -/
section Definition

theorem events_define_other (other : idCount table ≠ 1) :
    (define table declarations).events = [] := by
  rcases id_count table with none | one | many
  · rw [define, countP_isId, none]
    rfl
  · exact absurd one other
  · rw [define, countP_isId]
    split
    · omega
    · omega
    · rfl

theorem events_define_ok (one : idCount table = 1) (registered : List (String × Query))
    (ran : (register table standardQueries declarations).result = .ok registered) :
    (define table declarations).events = (register table standardQueries declarations).events ++
      [.gatewayDefined table.name registered.length] := by
  simp only [define, countP_isId, one]
  rw [Traced.events_bind_ok _ _ registered ran]
  rfl

theorem events_define_error (one : idCount table = 1) (fault : Fault)
    (ran : (register table standardQueries declarations).result = .error fault) :
    (define table declarations).events = (register table standardQueries declarations).events := by
  simp only [define, countP_isId, one]
  rw [Traced.events_bind_error _ _ fault ran]

theorem events_defined (one : idCount table = 1)
    (registrable : Registrable table standardNames declarations) :
    (define table declarations).events = declarations.flatMap (compiling table) ++
      [.gatewayDefined table.name (6 + declarations.length)] := by
  rw [← standardQueries_names] at registrable
  have ran := (register_eq_ok_iff _).mpr ⟨registrable, rfl⟩
  have whole := events_register_append declarations [] registrable
  rw [List.append_nil] at whole
  rw [events_define_ok one _ ran, whole, registered_length registrable]
  simp only [register, Traced.ok, List.append_nil]
  rfl

theorem events_undefined (one : idCount table = 1) (front back : List Declaration)
    (registrable : Registrable table standardNames front) (fault : Fault)
    (refused : Refused table (standardNames ++ front.map (·.name)) declaration fault) :
    (define table (front ++ declaration :: back)).events =
      (if declaration.name ∈ standardNames ++ front.map (·.name) then front
        else front ++ [declaration]).flatMap (compiling table) := by
  rw [← standardQueries_names] at registrable refused ⊢
  have ran := (register_eq_error_iff fault).mpr
    ⟨front, declaration, back, rfl, registrable, refused⟩
  rw [events_define_error one fault ran, events_refused front back registrable fault refused]

variable (table) in
theorem gatewayDefined_not_compiling (name : String) (count : Nat)
    (declarations : List Declaration) :
    .gatewayDefined name count ∉ declarations.flatMap (compiling table) := by
  rw [List.mem_flatMap]
  rintro ⟨declaration, -, reported⟩
  cases declaration with
  | literal _ _ => cases reported
  | inferred query =>
      rw [compiling] at reported
      cases shape : Inferred.body? query with
      | none =>
          rw [Inferred.events_shapeless query shape] at reported
          cases reported
      | some body =>
          rw [Inferred.events_inferred query body shape] at reported
          cases result : (table.inferred query).result <;>
            simp [Inferred.compilation, result] at reported

variable (table declarations) in
theorem gatewayDefined_mem_iff (name : String) (count : Nat) :
    .gatewayDefined name count ∈ (define table declarations).events ↔
      (∃ gateway, (define table declarations).result = .ok gateway) ∧
        name = table.name ∧ count = 6 + declarations.length := by
  cases result : (define table declarations).result with
  | ok gateway =>
      obtain ⟨one, registrable, -⟩ := (define_eq_ok_iff gateway).mp result
      rw [events_defined one registrable, List.mem_append, List.mem_singleton,
        or_iff_right (gatewayDefined_not_compiling table name count declarations)]
      simp
  | error fault =>
      have absent : .gatewayDefined name count ∉ (define table declarations).events := by
        rcases (define_eq_error_iff fault).mp result with
          ⟨none, -⟩ | ⟨many, -⟩ | ⟨one, front, declaration, back, rfl, registrable, refused⟩
        · rw [events_define_other (by omega)]
          exact List.not_mem_nil
        · rw [events_define_other (by omega)]
          exact List.not_mem_nil
        · rw [events_undefined one front back registrable fault refused]
          exact gatewayDefined_not_compiling table name count _
      simp [absent]

end Definition

-- The report ends where the definition does. A name that is taken is noticed before its query
-- is looked at, so nothing of that query is reported.
theorem definition_reports (table : Table) :
    (∀ name, (∀ body, body ≠ "" → name ≠ "sql_" ++ body) → (table.inferred name).events = []) ∧
    (∀ name body, body ≠ "" → name = "sql_" ++ body → ∃ cut : Cut,
      (∀ other : Cut, other.words = words body ∧ other.Maximal ↔ other = cut) ∧
      (table.inferred name).events =
        ((cut.later.map (·.1)).take
          ((cut.lead :: cut.later.map (·.2)).findIdx (Inferred.stray table))).map
            (.keywordRead name) ++
        match (table.inferred name).result with
        | .ok template => [.queryCompiled name template.text]
        | .error _ => []) ∧
    (∀ declarations,
      (idCount table ≠ 1 → (define table declarations).events = []) ∧
      (∀ gateway, (define table declarations).result = .ok gateway →
        (define table declarations).events = declarations.flatMap (compiling table) ++
          [.gatewayDefined table.name (6 + declarations.length)]) ∧
      (∀ fault, idCount table = 1 →
        (define table declarations).result = .error fault →
        ∃ front declaration back, declarations = front ++ declaration :: back ∧
          Registrable table standardNames front ∧
          Refused table (standardNames ++ front.map (·.name)) declaration fault ∧
          (define table declarations).events =
            (if declaration.name ∈ standardNames ++ front.map (·.name) then front
              else front ++ [declaration]).flatMap (compiling table)) ∧
      ∀ name count, .gatewayDefined name count ∈ (define table declarations).events ↔
        (∃ gateway, (define table declarations).result = .ok gateway) ∧
          name = table.name ∧ count = 6 + declarations.length) ∧
    (∀ query keyword, (Event.keywordRead query keyword).shown =
      (.trace, "`" ++ query ++ "`: keyword `" ++ keyword.text ++ "`")) ∧
    (∀ query text, (Event.queryCompiled query text).shown =
      (.debug, "Compiled `" ++ query ++ "` into `" ++ text ++ "`")) ∧
    ∀ name count, (Event.gatewayDefined name count).shown =
      (.debug, "Defined data-access object for `" ++ name ++ "` with " ++ toString count ++
        " queries") := by
  refine ⟨?_, ?_, fun declarations => ⟨events_define_other, ?_, ?_, ?_⟩, ?_, ?_, ?_⟩
  · intro name shapeless
    exact Inferred.events_shapeless name (Inferred.body?_eq_none name shapeless)
  · intro name body nonempty shape
    refine ⟨Cut.ofWords (words body), ?_, ?_⟩
    · intro other
      rw [← Cut.ofWords_eq_iff, eq_comm]
    · exact Inferred.events_inferred name body
        ((Inferred.body?_eq_some_iff name body).mpr ⟨shape, nonempty⟩)
  · intro gateway success
    obtain ⟨one, registrable, -⟩ := (define_eq_ok_iff gateway).mp success
    exact events_defined one registrable
  · intro fault one failure
    rcases (define_eq_error_iff fault).mp failure with
      ⟨none, -⟩ | ⟨many, -⟩ | ⟨-, front, declaration, back, rfl, registrable, refused⟩
    · omega
    · omega
    · exact ⟨front, declaration, back, rfl, registrable, refused,
        events_undefined one front back registrable fault refused⟩
  · exact gatewayDefined_mem_iff table declarations
  · exact fun _ _ => rfl
  · exact fun _ _ => rfl
  · exact fun _ _ => rfl

theorem definition_reports_people :
    let people : Table := ⟨"people", [{ name := "id", type := "integer" },
      { name := "name", type := "text" }]⟩
    let stopped := "sql_find_all_by_name_and_age_and_id"
    let declared : List Declaration := [.literal "x" "\x7b\x7d", .inferred "sql_find_by_name"]
    (people.inferred stopped).events = [.keywordRead stopped .find, .keywordRead stopped .all,
      .keywordRead stopped .whose, .keywordRead stopped .and] ∧
    (∃ gateway, (define people declared).result = .ok gateway) ∧
    (define people declared).events = [.keywordRead "sql_find_by_name" .find,
      .keywordRead "sql_find_by_name" .whose,
      .queryCompiled "sql_find_by_name" "SELECT WHERE name = '\x7bname\x7d'",
      .gatewayDefined "people" 8] := by
  intro people stopped declared
  obtain ⟨-, spelled, definitions, -⟩ := definition_reports people
  obtain ⟨-, defined, -, -⟩ := definitions declared
  constructor
  · obtain ⟨cut, only, reported⟩ :=
      spelled stopped "find_all_by_name_and_age_and_id" (by decide) (by decide)
    obtain rfl := (only _).mp ⟨Cut.ofWords_words _, Cut.ofWords_maximal _⟩
    exact reported.trans (by decide)
  · obtain ⟨gateway, success⟩ := exists_ok (define people declared).result (by decide)
    exact ⟨⟨gateway, success⟩, (defined gateway success).trans (by decide)⟩

end Gateway

end NamedSql
