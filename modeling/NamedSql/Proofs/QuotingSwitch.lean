import NamedSql.Proofs.GatewayCalls
import NamedSql.Proofs.InferredKeys
import NamedSql.Proofs.StandardConfinement
import NamedSql.Proofs.TemplateMarks

/-!
One call under both quotings. What a call comes to is settled without the quoting: a fault,
or strands of text, some of which are values between quotes. Only these are written in two
ways, so escaped text is raw text with their quotes doubled. A statement has its strands from
the columns that take text, an inferred query from the quotes in its template, and a literal
query has none.
-/
namespace NamedSql

open Quoting (mark double)

/-- A stretch of finished text: the same under both quotings, or a value between quotes. -/
inductive Strand where
  | fixed (letters : List Char)
  | quoted (content : String)
  deriving DecidableEq, Repr

namespace Strand

def write (quoting : Quoting) : Strand → List Char
  | .fixed letters => letters
  | .quoted content => (quoting.between content).toList

def text (quoting : Quoting) (strands : List Strand) : String :=
  String.ofList (strands.flatMap (write quoting))

def quoted? : Strand → Option String
  | .fixed _ => none
  | .quoted content => some content

theorem text_of_clean (strands : List Strand)
    (clean : ∀ content ∈ strands.filterMap quoted?, mark ∉ content.toList) :
    text .raw strands = text .escaped strands := by
  have same : ∀ strand ∈ strands, write .raw strand = write .escaped strand := by
    intro strand member
    cases strand with
    | fixed letters => rfl
    | quoted content =>
        have unmarked := clean content (List.mem_filterMap.mpr ⟨_, member, rfl⟩)
        simp [write, Quoting.between, Quoting.replaced_of_clean _ unmarked]
  rw [text, text, List.flatMap_congr same]

/-- What comes of a call as a function of the quoting. Either it is one fault, or the
strands are known before the quoting is. -/
def Settles (outcome : Quoting → Except Fault String) (Weaves : List Strand → Prop) : Prop :=
  (∃ fault, ∀ quoting, outcome quoting = .error fault) ∨
    ∃ strands, Weaves strands ∧ ∀ quoting, outcome quoting = .ok (text quoting strands)

end Strand

/-! Statements. A literal is a quoted strand with its two quotes around it. -/
section Statements

variable {table : Table} {quoting : Quoting}

def Segment.strands : Segment → List Strand
  | .code letters => [.fixed letters]
  | .literal content => [.fixed [mark], .quoted content, .fixed [mark]]

theorem Segment.write_strands (segment : Segment) :
    segment.strands.flatMap (Strand.write quoting) = segment.write quoting := by
  cases segment <;> simp [strands, Strand.write, Segment.write]

theorem Segment.text_strands (segments : List Segment) :
    Strand.text quoting (segments.flatMap strands) = Segment.text quoting segments := by
  simp only [Strand.text, Segment.text, List.flatMap_assoc, write_strands]

theorem Segment.quoted_strands (segments : List Segment) :
    ((segments.flatMap strands).filterMap Strand.quoted?).map String.toList =
      segments.flatMap inside := by
  induction segments with
  | nil => rfl
  | cons segment rest ih =>
      rw [List.flatMap_cons, List.filterMap_append, List.map_append, ih, List.flatMap_cons]
      cases segment <;> rfl

/-- The strands of a statement: those of its segments, where the quoted ones are the values
that it writes for text columns, nulls apart, in order. -/
structure Table.Woven (table : Table) (which : Standard) (arguments : Arguments)
    (strands : List Strand) : Prop where
  segments : (table.segments which arguments).map (List.flatMap Segment.strands) = .ok strands
  contents : strands.filterMap Strand.quoted? =
    ((table.writes which arguments).filter fun cell =>
      takesText cell.1 && cell.2 != .null).map fun cell => cell.2.render

variable (table) in
theorem standard_settles (which : Standard) (arguments : Arguments) :
    Strand.Settles (fun quoting => table.standard quoting which arguments)
      (table.Woven which arguments) := by
  simp only [Table.standard_segments]
  cases made : table.segments which arguments with
  | error fault => exact .inl ⟨fault, fun _ => rfl⟩
  | ok segments =>
      refine .inr ⟨segments.flatMap Segment.strands, ⟨by rw [made]; rfl, ?_⟩, ?_⟩
      · apply List.map_injective_iff.mpr (fun _ _ => String.toList_inj.mp)
        rw [Segment.quoted_strands, Table.inside_segments which arguments segments made,
          Table.flatMap_inside, List.map_map]
        rfl
      · intro quoting
        exact congrArg Except.ok (Segment.text_strands segments).symm

end Statements

/-! Inferred queries. The strands are the pieces of the template, with values in the slots. -/
section Slots

variable {values : Record} {quoting : Quoting}

def Piece.strand (values : Record) : Piece → Strand
  | .text letters => .fixed letters
  | .blank => .fixed []
  | .named key quoted =>
      let written := (values.get? key).elim "" Value.render
      if quoted then .quoted written else .fixed written.toList

theorem Template.writeNamed_strands (pieces : List Piece)
    (given : ∀ key ∈ pieces.filterMap Piece.key?, values.isSet key = true) :
    writeNamed values quoting pieces =
      .ok ((pieces.map (Piece.strand values)).flatMap (Strand.write quoting)) := by
  induction pieces with
  | nil => rfl
  | cons piece rest ih =>
      cases piece with
      | text letters =>
          rw [writeNamed, ih given]
          rfl
      | blank =>
          rw [writeNamed, ih given]
          rfl
      | named key quoted =>
          simp only [List.filterMap_cons, Piece.key?, List.forall_mem_cons] at given
          obtain ⟨held, later⟩ := given
          obtain ⟨value, found⟩ := Option.isSome_iff_exists.mp held
          cases quoted <;>
            simp [writeNamed, found, ih later, Piece.strand, Strand.write, Except.map,
              Quoting.apply_eq_between]

/-- The strands of a template: its pieces, which spell its text. A value is quoted where the
text has its slot between two quotes, and nowhere else. -/
structure Template.Woven (template : Template) (values : Record) (strands : List Strand) :
    Prop where
  pieces : strands = template.pieces.map (Piece.strand values)
  spelled : template.pieces.flatMap Piece.write = template.text.toList
  quoted : ∀ front key quoted back, template.pieces = front ++ .named key quoted :: back →
    (quoted = true ↔ (front.flatMap Piece.write).getLast? = some mark ∧
      (back.flatMap Piece.write).head? = some mark)

theorem Template.woven_of_read {slots : Slots} {text : String} (template : Template)
    (success : read slots text = .ok template) (values : Record) :
    template.Woven values (template.pieces.map (Piece.strand values)) where
  pieces := rfl
  spelled := by
    obtain ⟨items, ⟨-, written⟩, rfl⟩ := (read_eq_ok_iff template).mp success
    rw [← written]
    exact Piece.write_group false items
  quoted := fun front key quoted back =>
    quoted_iff_between_marks template success front back key quoted

theorem fillNamed_settles {slots : Slots} {text : String} (template : Template)
    (success : Template.read slots text = .ok template) (values : Record) :
    Strand.Settles (template.fillNamed values) (template.Woven values) := by
  cases first : Template.missing? values template.keys with
  | some key =>
      refine .inl ⟨.missingKeyword key template.text, fun quoting => ?_⟩
      exact (Template.fillNamed_eq_error_iff template values quoting _).mpr ⟨key, first, rfl⟩
  | none =>
      refine .inr ⟨_, template.woven_of_read success values, fun quoting => ?_⟩
      have given := (Template.missing?_eq_none_iff template.keys).mp first
      rw [Template.fillNamed, Template.writeNamed_strands template.pieces given]
      rfl

end Slots

def Arguments.Supplies : Arguments → Value → Prop
  | .nothing, _ => False
  | .id given, value => value = given
  | .record held, value => ∃ name, held.get? name = some value
  | .keywords held, value => ∃ name, held.get? name = some value
  | .positional given, value => value ∈ given

def Query.Woven (table : Table) : Query → Arguments → List Strand → Prop
  | .standard which, arguments, strands => table.Woven which arguments strands
  | .inferred template, arguments, strands =>
      ∃ values, arguments.byName? = some values ∧ template.Woven values strands
  | .literal _, _, strands => ∃ letters, strands = [.fixed letters]

namespace Query

variable {table : Table} {arguments : Arguments} {strands : List Strand}

theorem inferred_settles {slots : Slots} {text : String} (template : Template)
    (success : Template.read slots text = .ok template) :
    Strand.Settles (fun quoting => ((inferred template).format table quoting arguments).result)
      ((inferred template).Woven table arguments) := by
  cases given : arguments.byName? with
  | none => exact .inl ⟨_, fun _ => format_inferred_wrong given⟩
  | some values =>
      rcases fillNamed_settles template success values with
        ⟨fault, failed⟩ | ⟨strands, woven, written⟩
      · exact .inl ⟨fault, fun quoting => (format_inferred values given).trans (failed quoting)⟩
      · exact .inr ⟨strands, ⟨values, given, woven⟩,
          fun quoting => (format_inferred values given).trans (written quoting)⟩

theorem literal_settles (template : Template) :
    Strand.Settles (fun quoting => ((literal template).format table quoting arguments).result)
      ((literal template).Woven table arguments) := by
  have same (quoting : Quoting) : ((literal template).format table quoting arguments).result =
      ((literal template).format table .raw arguments).result := by
    cases arguments <;> rfl
  cases written : ((literal template).format table .raw arguments).result with
  | error fault => exact .inl ⟨fault, fun quoting => (same quoting).trans written⟩
  | ok text =>
      refine .inr ⟨[.fixed text.toList], ⟨_, rfl⟩, fun quoting => ?_⟩
      refine ((same quoting).trans written).trans ?_
      simp [Strand.text, Strand.write]

theorem writes_supplied (which : Standard) (cell : Option Column × Value)
    (written : cell ∈ table.writes which arguments) : arguments.Supplies cell.2 := by
  have received (record : Record) (value? : String → Option Value)
      (held : ∀ name value, value? name = some value → record.get? name = some value)
      (member : cell ∈ table.received value?) : (Arguments.record record).Supplies cell.2 := by
    obtain ⟨column, -, made⟩ := List.mem_filterMap.mp member
    obtain ⟨value, found, rfl⟩ := Option.map_eq_some_iff.mp made
    exact ⟨column.name, held _ _ found⟩
  have present (record : Record) (name : String) (value : Value)
      (found : record.nonNull? name = some value) : record.get? name = some value :=
    (Option.filter_eq_some_iff.mp found).1
  cases which <;> cases arguments <;> simp only [Table.writes, List.not_mem_nil] at written
  case fetch.id id =>
    obtain rfl := List.mem_singleton.mp written
    rfl
  case save.record record => exact received record _ (present record) written
  case count.record record => exact received record _ (present record) written
  case update.record record =>
    rcases List.mem_append.mp written with column | own
    · exact received record _ (fun _ _ found => found) column
    · obtain ⟨id, held, rfl⟩ := List.mem_map.mp own
      exact ⟨_, present record _ _ (Option.mem_toList.mp held)⟩
  case delete.id id =>
    obtain rfl := List.mem_singleton.mp written
    rfl

-- Nothing stands between quotes but what the call was given.
theorem Woven.supplied {query : Query} (woven : query.Woven table arguments strands) :
    ∀ content ∈ strands.filterMap Strand.quoted?,
      content = "" ∨ ∃ value, arguments.Supplies value ∧ content = value.render := by
  intro content member
  cases query with
  | standard which =>
      rw [woven.contents] at member
      obtain ⟨cell, kept, rfl⟩ := List.mem_map.mp member
      exact .inr ⟨cell.2, writes_supplied which cell (List.mem_filter.mp kept).1, rfl⟩
  | inferred template =>
      obtain ⟨values, given, woven⟩ := woven
      rw [woven.pieces, List.filterMap_map] at member
      obtain ⟨piece, -, made⟩ := List.mem_filterMap.mp member
      cases piece with
      | text letters => cases made
      | blank => cases made
      | named key quoted =>
          cases quoted with
          | false => cases made
          | true =>
              obtain rfl := Option.some.inj made
              cases held : values.get? key with
              | none => exact .inl rfl
              | some value =>
                  refine .inr ⟨value, ?_, rfl⟩
                  cases arguments with
                  | keywords own =>
                      obtain rfl := Option.some.inj given
                      exact ⟨key, held⟩
                  | nothing =>
                      obtain rfl := Option.some.inj given
                      simp at held
                  | _ => cases given
  | literal template =>
      obtain ⟨letters, rfl⟩ := woven
      cases member

end Query

namespace Gateway

variable {table : Table} {declarations : List Declaration} {defined : Gateway} {name : String}

theorem read_of_inferred (success : (define table declarations).result = .ok defined)
    (template : Template) (found : defined.query name = .ok (.inferred template)) :
    ∃ text, Template.read .named text = .ok template := by
  obtain ⟨-, -, rfl⟩ := (define_eq_ok_iff defined).mp success
  rcases query_registry_cases _ found with ⟨which, -, other⟩ | ⟨declaration, -, -, compiled⟩
  · cases other
  · cases declaration with
    | inferred query =>
        simp only [Declaration.compile, Traced.result_bind] at compiled
        cases made : (table.inferred query).result with
        | error fault =>
            rw [made] at compiled
            cases compiled
        | ok own =>
            rw [made] at compiled
            obtain rfl : own = template := by simpa [Except.bind] using compiled
            exact Inferred.read_of_compiled query own made
    | literal query text =>
        simp only [Declaration.compile, Traced.result_bind, Traced.ofResult] at compiled
        cases read : Template.read .positional text <;> simp [read, Except.bind] at compiled

theorem call_settles (success : (define table declarations).result = .ok defined)
    (arguments : Arguments) (query : Query) (found : defined.query name = .ok query) :
    Strand.Settles (fun quoting => ((defined.withQuoting quoting).call name arguments).result)
      (query.Woven table arguments) := by
  have own : defined.table = table := by
    obtain ⟨-, -, rfl⟩ := (define_eq_ok_iff defined).mp success
    rfl
  have called (quoting : Quoting) :
      ((defined.withQuoting quoting).call name arguments).result =
        (query.format table quoting arguments).result := by
    have same : (defined.withQuoting quoting).query name = .ok query := found
    rw [call_of_query query same]
    exact congrArg (fun table => (query.format table quoting arguments).result) own
  simp only [called]
  cases query with
  | standard which => exact standard_settles table which arguments
  | inferred template =>
      obtain ⟨text, read⟩ := read_of_inferred success template found
      exact Query.inferred_settles template read
  | literal template => exact Query.literal_settles template

-- Where a call succeeds the two texts have the same strands, and differ only by the quotes
-- of values that stand between quotes.
theorem quoting_conservative (table : Table) (declarations : List Declaration)
    (defined : Gateway) (success : (define table declarations).result = .ok defined)
    (name : String) (arguments : Arguments) :
    let called (quoting : Quoting) :=
      ((defined.withQuoting quoting).call name arguments).result
    (∀ fault, called .raw = .error fault ↔ called .escaped = .error fault) ∧
    ((∃ template, defined.query name = .ok (.literal template)) ∨
        (∀ value, arguments.Supplies value → mark ∉ value.render.toList) →
      called .raw = called .escaped) ∧
    ∀ text, called .raw = .ok text → ∃ query strands,
      defined.query name = .ok query ∧ query.Woven table arguments strands ∧
      text = Strand.text .raw strands ∧
      called .escaped = .ok (Strand.text .escaped strands) := by
  intro called
  cases found : defined.query name with
  | error missing =>
      have absent (quoting : Quoting) : called quoting = .error missing := by
        have unknown : (defined.withQuoting quoting).query name = .error missing := found
        simp only [called, call, Traced.result_bind, Traced.emit, Traced.ofResult, unknown]
        rfl
      simp [absent]
  | ok query =>
      rcases call_settles success arguments query found with
        ⟨fault, failed⟩ | ⟨strands, woven, written⟩
      · have failed (quoting : Quoting) : called quoting = .error fault := failed quoting
        simp [failed]
      · have written (quoting : Quoting) : called quoting = .ok (Strand.text quoting strands) :=
          written quoting
        refine ⟨by simp [written], ?_, ?_⟩
        · intro plain
          rw [written, written]
          refine congrArg Except.ok (Strand.text_of_clean strands fun content member => ?_)
          rcases plain with ⟨template, literal⟩ | clean
          · obtain rfl := Except.ok.inj literal
            obtain ⟨letters, rfl⟩ := woven
            cases member
          · rcases woven.supplied content member with rfl | ⟨value, supplied, rfl⟩
            · exact List.not_mem_nil
            · exact clean value supplied
        · intro text same
          rw [written] at same
          exact ⟨query, strands, rfl, woven, (Except.ok.inj same).symm, written .escaped⟩

theorem quoting_conservative_people :
    let people : Table := ⟨"people", [{ name := "id", type := "integer" },
      { name := "name", type := "text" }]⟩
    let quote := "SELECT * FROM people WHERE name = '\x7b\x7d'"
    ∃ defined, (define people [.inferred "sql_find_all_by_name", .literal "quote" quote]).result =
        .ok defined ∧
      let called (quoting : Quoting) (name : String) (arguments : Arguments) :=
        ((defined.withQuoting quoting).call name arguments).result
      let brien := Record.ofPairs [("name", .text "O'Brien")]
      let differ (name : String) (arguments : Arguments) (raw escaped : String) : Prop :=
        called .raw name arguments = .ok raw ∧ called .escaped name arguments = .ok escaped ∧
          ∃ query strands, defined.query name = .ok query ∧
            query.Woven people arguments strands ∧
            raw = Strand.text .raw strands ∧ escaped = Strand.text .escaped strands
      differ "sql_save" (.record brien) "INSERT INTO people(name)\nVALUES ('O'Brien')"
        "INSERT INTO people(name)\nVALUES ('O''Brien')" ∧
      differ "sql_find_all_by_name" (.keywords brien)
        "SELECT * FROM people WHERE name = 'O'Brien'"
        "SELECT * FROM people WHERE name = 'O''Brien'" ∧
      called .raw "quote" (.positional [.text "O'Brien"]) =
        called .escaped "quote" (.positional [.text "O'Brien"]) ∧
      called .escaped "sql_find_all_by_name" .nothing =
        .error (.missingKeyword "name" "SELECT * FROM people WHERE name = '\x7bname\x7d'") := by
  intro people quote
  obtain ⟨defined, success⟩ := exists_ok (define people
      [.inferred "sql_find_all_by_name", .literal "quote" quote]).result (by decide)
  refine ⟨defined, success, ?_⟩
  intro called brien differ
  have conservative := quoting_conservative people _ defined success
  have differs (name : String) (arguments : Arguments) (raw escaped : String)
      (rawCalled : called .raw name arguments = .ok raw)
      (escapedCalled : called .escaped name arguments = .ok escaped) :
      differ name arguments raw escaped := by
    obtain ⟨query, strands, own, woven, same, other⟩ :=
      (conservative name arguments).2.2 raw rawCalled
    exact ⟨rawCalled, escapedCalled, query, strands, own, woven, same,
      Except.ok.inj (escapedCalled.symm.trans other)⟩
  obtain ⟨-, literal, -⟩ := conservative "quote" (.positional [.text "O'Brien"])
  obtain ⟨faults, -, -⟩ := conservative "sql_find_all_by_name" .nothing
  obtain ⟨-, -, rfl⟩ := (define_eq_ok_iff defined).mp success
  obtain ⟨read, verbatim, -⟩ := Option.map_eq_some_iff.mp
    (by decide : (Template.read .positional quote).toOption.map (·.arity) = some 1)
  have same : ((registry people
      [.inferred "sql_find_all_by_name", .literal "quote" quote]).query "quote").toOption =
        (Template.read .positional quote).toOption.map .literal := by decide
  rw [verbatim] at same
  refine ⟨differs _ _ _ _ ?_ ?_, differs _ _ _ _ ?_ ?_,
    literal (.inl ⟨read, (toOption_eq_some_iff _ _).mp same⟩), (faults _).mp (by decide)⟩
  all_goals exact (toOption_eq_some_iff _ _).mp (by decide)

end Gateway

end NamedSql
