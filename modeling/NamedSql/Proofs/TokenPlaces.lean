import NamedSql.Proofs.NameCut
import Mathlib.Data.List.Chain
import Mathlib.Data.String.Basic

/-!
Tokens in their name. What the tokens of a name look like is said here without the
splitting: their texts joined, the bytes they stand at, and which of them are control
words. Only one list of tokens looks like that, so each token has no other place and no
other text than the splitting gives it. Names are any text, and letters may take several
bytes, but an underscore always takes one.
-/
namespace NamedSql

namespace Span

/-- A text that is read between two bytes of another, neither of them inside a letter. -/
structure Reads (span : Span) (whole text : String) : Prop where
  ordered : span.start ≤ span.stop
  opens : String.Pos.Raw.IsValid whole ⟨span.start⟩
  closes : String.Pos.Raw.IsValid whole ⟨span.stop⟩
  slice : String.Pos.Raw.extract whole ⟨span.start⟩ ⟨span.stop⟩ = text

variable {whole text : String} {span : Span}

theorem extract_between (before text after : String) :
    String.Pos.Raw.extract (before ++ text ++ after) ⟨before.utf8ByteSize⟩
      ⟨before.utf8ByteSize + text.utf8ByteSize⟩ = text := by
  have read := String.extract_of_valid before.toList text.toList after.toList
  simpa [String.append_assoc] using read

theorem reads_between (before text after : String) :
    Reads ⟨before.utf8ByteSize, before.utf8ByteSize + text.utf8ByteSize⟩
      (before ++ text ++ after) text where
  ordered := Nat.le_add_right _ _
  opens := String.Pos.Raw.isValid_iff_exists_append.mpr
    ⟨before, text ++ after, String.append_assoc, rfl⟩
  closes := String.Pos.Raw.isValid_iff_exists_append.mpr ⟨before ++ text, after, rfl, by
    simp [String.Pos.Raw.ext_iff]⟩
  slice := extract_between before text after

/-- Of two beginnings of a text the one with fewer bytes begins the other. -/
theorem append_of_le (left right long rest : String) (same : left ++ right = long ++ rest)
    (fewer : left.utf8ByteSize ≤ long.utf8ByteSize) : ∃ between, long = left ++ between := by
  have letters : left.toList ++ right.toList = long.toList ++ rest.toList := by
    simpa using congrArg String.toList same
  rcases List.append_eq_append_iff.mp letters with ⟨between, longer, -⟩ | ⟨between, shorter, -⟩
  · exact ⟨String.ofList between, String.toList_inj.mp (by simp [longer])⟩
  · have whole : left = long ++ String.ofList between := String.toList_inj.mp (by simp [shorter])
    have sizes := congrArg String.utf8ByteSize whole
    rw [String.utf8ByteSize_append] at sizes
    have nothing : String.ofList between = "" := String.utf8ByteSize_eq_zero_iff.mp (by omega)
    exact ⟨"", by simpa [nothing] using whole.symm⟩

theorem Reads.size (reads : span.Reads whole text) :
    span.stop = span.start + text.utf8ByteSize := by
  obtain ⟨before, _, front, start⟩ := String.Pos.Raw.isValid_iff_exists_append.mp reads.opens
  obtain ⟨upto, after, back, stop⟩ := String.Pos.Raw.isValid_iff_exists_append.mp reads.closes
  have start : span.start = before.utf8ByteSize := congrArg String.Pos.Raw.byteIdx start
  have stop : span.stop = upto.utf8ByteSize := congrArg String.Pos.Raw.byteIdx stop
  have fewer : before.utf8ByteSize ≤ upto.utf8ByteSize := by
    have ordered := reads.ordered
    omega
  obtain ⟨between, rfl⟩ := append_of_le before _ upto after (front.symm.trans back) fewer
  rw [String.utf8ByteSize_append] at stop
  have slice := reads.slice
  rw [back, start, stop, extract_between] at slice
  rw [stop, start, slice]

end Span

namespace Token

/-- What is seen of the tokens of a name: the name when they are joined, and each of
them where it stands. -/
structure Splits (name : String) (list : List Token) : Prop where
  joined : "_".intercalate (list.map (·.word.text)) = name
  unbarred : ∀ token ∈ list, '_' ∉ token.word.text.toList
  opened : list.head?.map (·.span.start) = some 0
  spaced : list.IsChain fun left right => right.span.start = left.span.stop + 1
  closed : list.getLast?.map (·.span.stop) = some name.utf8ByteSize
  placed : ∀ token ∈ list, token.span.Reads name token.word.text
  steered : ∀ token ∈ list, ∀ keyword,
    token.word = .control keyword ↔ keyword.text = token.word.text
  plain : ∀ token ∈ list, (∀ keyword : Keyword, keyword.text ≠ token.word.text) →
    token.word = .plain token.word.text

theorem place_head? (start : Nat) (texts : List String) (nonempty : texts ≠ []) :
    (place start texts).head?.map (·.span.start) = some start := by
  cases texts with
  | nil => exact absurd rfl nonempty
  | cons text rest => rfl

theorem place_spaced (start : Nat) (texts : List String) :
    (place start texts).IsChain fun left right => right.span.start = left.span.stop + 1 := by
  induction texts generalizing start with
  | nil => exact .nil
  | cons text rest ih =>
      have later := ih (start + text.utf8ByteSize + 1)
      cases rest with
      | nil => exact .singleton _
      | cons second more => exact List.isChain_cons_cons.mpr ⟨rfl, later⟩

theorem place_getLast? (start : Nat) (first : String) (rest : List String) :
    (place start (first :: rest)).getLast?.map (·.span.stop) =
      some (start + ("_".intercalate (first :: rest)).utf8ByteSize) := by
  induction rest generalizing start first with
  | nil => simp [place]
  | cons second more ih =>
      have bar : "_".utf8ByteSize = 1 := rfl
      have later := ih (start + first.utf8ByteSize + 1) second
      rw [String.intercalate_cons_cons, String.utf8ByteSize_append, String.utf8ByteSize_append, bar]
      rw [place, place, List.getLast?_cons_cons, ← place, later]
      congr 1
      omega

-- The text before the first word grows by the word and the underscore after it.
theorem place_reads (before : String) (texts : List String) :
    ∀ token ∈ place before.utf8ByteSize texts,
      token.span.Reads (before ++ "_".intercalate texts) token.word.text := by
  induction texts generalizing before with
  | nil => simp [place]
  | cons text rest ih =>
      rw [place, List.forall_mem_cons]
      cases rest with
      | nil => simpa [place] using Span.reads_between before text ""
      | cons second more =>
          have here := Span.reads_between before text ("_" ++ "_".intercalate (second :: more))
          have later := ih (before ++ text ++ "_")
          have bar : "_".utf8ByteSize = 1 := rfl
          rw [String.utf8ByteSize_append, String.utf8ByteSize_append, bar] at later
          rw [String.intercalate_cons_cons]
          simp only [String.append_assoc] at here later ⊢
          exact ⟨by simpa using here, later⟩

theorem place_worded (start : Nat) (texts : List String) :
    ∀ token ∈ place start texts, token.word = .ofText token.word.text := by
  induction texts generalizing start with
  | nil => simp [place]
  | cons text rest ih =>
      rw [place, List.forall_mem_cons]
      exact ⟨by rw [Word.text_ofText], ih _⟩

theorem place_of_spaced (start : Nat) (list : List Token)
    (opened : ∀ token ∈ list.head?, token.span.start = start)
    (spaced : list.IsChain fun left right => right.span.start = left.span.stop + 1)
    (sized : ∀ token ∈ list, token.span.stop = token.span.start + token.word.text.utf8ByteSize)
    (worded : ∀ token ∈ list, token.word = .ofText token.word.text) :
    place start (list.map (·.word.text)) = list := by
  induction list generalizing start with
  | nil => rfl
  | cons token rest ih =>
      have first := opened token rfl
      have stop := sized token List.mem_cons_self
      have text := worded token List.mem_cons_self
      have next : ∀ other ∈ rest.head?, other.span.start = token.span.stop + 1 :=
        (List.isChain_cons.mp spaced).1
      have tail := ih (token.span.stop + 1) next spaced.of_cons
        (fun other member => sized other (List.mem_cons_of_mem token member))
        fun other member => worded other (List.mem_cons_of_mem token member)
      rw [List.map_cons, place, ← text, ← first, ← stop, tail]

theorem Splits.eq_tokens {name : String} {list : List Token} (splits : Splits name list) :
    list = tokens name := by
  have nonempty : list.map (·.word.text) ≠ [] := by
    intro none
    have opened := splits.opened
    rw [List.map_eq_nil_iff.mp none] at opened
    cases opened
  have texts := words_intercalate _ nonempty (List.forall_mem_map.mpr splits.unbarred)
  rw [splits.joined] at texts
  rw [tokens, texts]
  refine (place_of_spaced 0 list ?_ splits.spaced ?_ ?_).symm
  · intro token first
    have opened := splits.opened
    rw [Option.mem_def.mp first] at opened
    exact Option.some.inj opened
  · intro token member
    exact (splits.placed token member).size
  · intro token member
    exact token.word.eq_ofText (splits.steered token member)

theorem splits_tokens (name : String) : Splits name (tokens name) where
  joined := by rw [tokens, text_place, intercalate_words]
  unbarred := by
    have texts := words_unbarred name
    rw [← text_place 0 (words name), List.forall_mem_map] at texts
    exact texts
  opened := place_head? 0 _ (words_ne_nil name)
  spaced := place_spaced 0 _
  closed := by
    obtain ⟨first, rest, whole⟩ := List.exists_cons_of_ne_nil (words_ne_nil name)
    rw [tokens, whole, place_getLast?, ← whole, intercalate_words, Nat.zero_add]
  placed := by
    have reads := place_reads "" (words name)
    rw [intercalate_words, String.empty_append] at reads
    exact reads
  steered := by
    intro token member keyword
    rw [place_worded 0 _ token member, Word.ofText_eq_control_iff, Word.text_ofText]
  plain := by
    intro token member bare
    exact (place_worded 0 _ token member).trans (Word.ofText_eq_plain _ bare)

end Token

-- One token more than underscores, because an empty name is still one empty word.
theorem splits_iff_tokens (name : String) :
    (∀ list, Token.Splits name list ↔ list = tokens name) ∧
      (tokens name).length = name.toList.count '_' + 1 := by
  refine ⟨fun list => ⟨Token.Splits.eq_tokens, ?_⟩, ?_⟩
  · rintro rfl
    exact Token.splits_tokens name
  · have texts := congrArg List.length (Token.text_place 0 (words name))
    rw [List.length_map, length_words] at texts
    exact texts

example : tokens "é__by" =
    [⟨.plain "é", ⟨0, 2⟩⟩, ⟨.plain "", ⟨3, 3⟩⟩, ⟨.control .whose, ⟨4, 6⟩⟩] := by decide

end NamedSql
