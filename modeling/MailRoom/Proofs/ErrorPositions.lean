import MailRoom.ParseError.Diagnostic
import MailRoom.Proofs.Places
import MailRoom.Proofs.Safety
import MailRoom.Proofs.Stages
import MailRoom.Proofs.Statements

/-! What errors in a text point to. Main statement: `Program.error_points`, by which every error has
line and column of a place in the text, and by which that place is the character that starts no
token, the first label that is declared again, or the first jump to a label that is not declared. -/
namespace MailRoom

/-- Line and column of a place in a text, line feeds alone ending lines; the end of a line has a
column, too. -/
structure Position.Inside (chars : List Char) (position : Position) : Prop where
  line : 1 ≤ position.line ∧ position.line ≤ 1 + chars.count '\n'
  column : ∃ line, (chars.splitOn '\n')[(position.line - 1).toNat]? = some line ∧
    1 ≤ position.column ∧ position.column ≤ 1 + line.length

theorem Position.behind_inside (before after : List Char) :
    (behind before).Inside (before ++ after) := by
  obtain ⟨earlier, head, tail, later, rfl, rfl, fed, place⟩ :=
    Line.exists_fed before [] after List.not_mem_nil
  rw [List.nil_append, List.nil_append] at fed
  have found := fed.getElem?_splitOn
  have index : ((1 + earlier.count '\n' : Int) - 1).toNat = earlier.count '\n' := by omega
  refine ⟨?_, head ++ tail, ?_, ?_⟩
  · rw [place, List.append_assoc, List.count_append]
    constructor <;> simp only <;> omega
  · rw [place, index]
    exact found
  · rw [place, List.length_append]
    constructor <;> simp only <;> omega

/-- The first place of a text at which no token starts: tokens and blanks lead up to a character
that is no blank, and no stretch from there on spells a token. -/
def Lexer.Stuck (chars : List Char) (char : Char) (position : Position) : Prop :=
  ∃ before after, chars = before ++ char :: after ∧ position = .behind before ∧
    Reached before (char :: after) ∧ isSkipped char = false ∧
    ∀ middle further kind text, char :: after = middle ++ further →
      ¬Spelled before middle further kind text

theorem Lexer.stuck_of_unexpected {file text : String} {error : ParseError} {char : Char}
    {position : Position} (failed : Token.scan file text = .error error)
    (place : error.position = some position)
    (unexpected : error.cause = .unexpectedCharacter char) : Stuck text.toList char position := by
  have apart : Apart [] text.toList := by simp [Apart]
  obtain ⟨before, first, after, whole, reached, kept, failed⟩ :=
    scan_stuck (.start text.toList) apart failed
  rcases lexeme_stage error failed with misspelled | ⟨rfl, unstarted⟩
  · rw [Misspelled, unexpected] at misspelled
    cases misspelled
  · cases unexpected
    cases place
    refine ⟨before, after, whole, rfl, reached, kept,
      fun middle further kind text split spelled => ?_⟩
    obtain ⟨head, tail, rfl, starts⟩ := spelled.starts
    cases split
    exact unstarted starts

namespace Grammar

/-- The first word of a row of tokens to declare a label that a word before it has declared. -/
def Repeated (tokens : List Token) (name : String) (position : Position) : Prop :=
  ∃ earlier word later, Token.declarations tokens = earlier ++ word :: later ∧
    (earlier.map Token.text).Nodup ∧ name ∈ earlier.map Token.text ∧ word.text = name ∧
    word.position = position

/-- A row of tokens that is a sequence of items and declares no label twice, and the word that its
first jump to a label starts with that it does not declare at all. -/
def Undeclared (source : Source) (tokens : List Token) (name : String) (position : Position) :
    Prop :=
  ∃ items words earlier jump later word, Sequence source items tokens ∧ (Item.names items).Nodup ∧
    words.Sublist tokens ∧
    List.Forall₂ (Opens source tokens) (Item.instructions items) words ∧
    Item.instructions items = earlier ++ jump :: later ∧
    (∀ other ∈ earlier, ∀ label, other.label = some label → label ∈ Item.names items) ∧
    jump.label = some name ∧ name ∉ Item.names items ∧
    words[earlier.length]? = some word ∧ word.position = position

variable {source : Source} {tokens : List Token} {error : ParseError} {position : Position}

theorem repeated_of_unread (native : source.mnemonics.foreign? = none) (row : Token.Row tokens)
    (failed : Item.readAll source [] tokens = .error (.rejected error))
    (place : error.position = some position) :
    error.cause.stage = .reading ∨
      ∃ name, error.cause = .repeatedLabel name ∧ Repeated tokens name position := by
  obtain ⟨items, word, rest, path, distinct, _, failed⟩ := readAll_error native row failed
  rcases read_stage _ failed with reading | ⟨same, declares, again⟩
  · exact .inl (reading error rfl)
  · cases same
    cases place
    obtain ⟨earlier, split, named⟩ := path.declarations
    rw [Token.declarations, if_pos declares] at split
    rw [List.append_nil, List.mem_reverse, ← named] at again
    exact .inr ⟨_, rfl, earlier, word, _, split, named ▸ distinct, again, rfl, rfl⟩

theorem undeclared_of_unresolved (native : source.mnemonics.foreign? = none)
    (row : Token.Row tokens) {items : List Item} {last : Token}
    {earlier later values : List Instruction} {jump : Instruction}
    (read : Item.readAll source [] tokens = .ok (items, last))
    (split : Item.instructions items = earlier ++ jump :: later)
    (taken : earlier.mapM (Program.resolve source.file (Item.labels items)) = .ok values)
    (failed : Program.resolve source.file (Item.labels items) jump = .error (.rejected error))
    (place : error.position = some position) :
    ∃ name, error.cause = .undeclaredLabel name ∧ Undeclared source tokens name position := by
  obtain ⟨sequence, distinct, _⟩ := readAll_sound native row read
  obtain ⟨words, sublist, opens⟩ := sequence.exists_words
  obtain ⟨name, labelled, missing, reported⟩ := resolve_error failed
  have keys := Item.labels_keys distinct
  have undeclared : name ∉ Item.names items := by
    rw [← keys]
    exact fun member => by
      obtain ⟨⟨_, index⟩, entry, rfl⟩ := List.mem_map.mp member
      cases (Table.find?_eq_some.mpr entry).symm.trans missing
  have settled : ∀ other ∈ earlier, ∀ label, other.label = some label →
      label ∈ Item.names items := by
    intro other member
    have unaimed := sequence.unaimed other (by simp [split, member])
    obtain ⟨value, resolved⟩ := of_mapM_eq_ok taken other member
    rw [← keys]
    exact ((resolve_eq_ok unaimed).mp resolved).1
  have index : earlier.length < (Item.instructions items).length := by simp [split]
  have opened := opens.get index (opens.length_eq ▸ index)
  simp only [List.get_eq_getElem, split, List.getElem_append_right (Nat.le_refl _), Nat.sub_self,
    List.getElem_cons_zero] at opened
  cases reported _ opened.located.2.2
  cases place
  exact ⟨name, rfl, items, words, earlier, jump, later, _, sequence, distinct, sublist, opens,
    split, settled, labelled, undeclared, List.getElem?_eq_getElem _, rfl⟩

theorem ofTokens_points (row : Token.Row tokens)
    (failed : Program.ofTokens source tokens = .error (.rejected error))
    (place : error.position = some position) :
    error.cause.stage = .reading ∨
      (∃ name, error.cause = .repeatedLabel name ∧ Repeated tokens name position) ∨
      ∃ name, error.cause = .undeclaredLabel name ∧ Undeclared source tokens name position := by
  cases foreign : source.mnemonics.foreign? with
  | some pair => simp [Program.ofTokens, foreign] at failed
  | none =>
    rcases ofTokens_error foreign failed with
      unread | ⟨items, last, earlier, jump, later, values, read, split, taken, failed⟩
    · exact (repeated_of_unread foreign row unread place).imp_right .inl
    · exact .inr (.inr (undeclared_of_unresolved foreign row read split taken failed place))

end Grammar

theorem ParseCause.eq_repeatedLabel {cause : ParseCause} (kind : cause.kind = "DuplicateLabel") :
    ∃ name, cause = .repeatedLabel name := by
  cases cause with
  | repeatedLabel name => exact ⟨name, rfl⟩
  | _ => simp [ParseCause.kind] at kind

theorem ParseCause.eq_undeclaredLabel {cause : ParseCause} (kind : cause.kind = "UnresolvedLabel") :
    ∃ name, cause = .undeclaredLabel name := by
  cases cause with
  | undeclaredLabel name => exact ⟨name, rfl⟩
  | _ => simp [ParseCause.kind] at kind

/-- An error points to a place of a text, and to which. -/
structure ParseError.Points (file text : String) (mnemonics : Mnemonics) (error : ParseError)
    (position : Position) : Prop where
  place : error.position = some position
  line : (Diagnostic.ofError error).line = some position.line
  column : (Diagnostic.ofError error).column = some position.column
  inside : position.Inside text.toList
  unexpected : ∀ char, error.cause = .unexpectedCharacter char →
    Lexer.Stuck text.toList char position
  repeated : error.cause.kind = "DuplicateLabel" → ∃ name tokens,
    error.cause = .repeatedLabel name ∧ Token.scan file text = .ok tokens ∧
      Grammar.Repeated tokens name position
  undeclared : error.cause.kind = "UnresolvedLabel" → ∃ name tokens,
    error.cause = .undeclaredLabel name ∧ Token.scan file text = .ok tokens ∧
      Grammar.Undeclared
        (Source.ofLines file ((Line.split text.toList).map String.ofList) mnemonics) tokens name
        position

/-- Every error that a text gives points to a place in it. -/
theorem Program.error_points {file text : String} {mnemonics : Mnemonics} {error : ParseError}
    (failed : parse file text mnemonics = .error (.rejected error)) :
    ∃ position, error.Points file text mnemonics position := by
  obtain ⟨before, after, whole, place⟩ := error_place failed
  have line : (Diagnostic.ofError error).line = some (Position.behind before).line :=
    congrArg (Option.map Position.line) place
  have column : (Diagnostic.ofError error).column = some (Position.behind before).column :=
    congrArg (Option.map Position.column) place
  have inside : (Position.behind before).Inside text.toList :=
    whole ▸ Position.behind_inside before after
  rcases bind_eq_error.mp failed with unscanned | ⟨tokens, scanned, failed⟩
  · obtain ⟨_, unscanned, same⟩ := mapError_eq_error.mp unscanned
    cases same
    have early : error.cause.stage = .starting ∨ error.cause.stage = .spelling :=
      Lexer.scan_stage _ unscanned
    refine ⟨_, place, line, column, inside,
      fun char => Lexer.stuck_of_unexpected unscanned place, fun kind => ?_, fun kind => ?_⟩
    · obtain ⟨name, cause⟩ := ParseCause.eq_repeatedLabel kind
      rw [cause] at early
      rcases early with early | early <;> cases early
    · obtain ⟨name, cause⟩ := ParseCause.eq_undeclaredLabel kind
      rw [cause] at early
      rcases early with early | early <;> cases early
  · have scanned := mapError_eq_ok.mp scanned
    have outcomes := Grammar.ofTokens_points (Lexer.scan_row scanned) failed place
    refine ⟨_, place, line, column, inside, fun char unexpected => ?_, fun kind => ?_,
      fun kind => ?_⟩
    · rcases outcomes with reading | ⟨name, cause, _⟩ | ⟨name, cause, _⟩
      · rw [unexpected] at reading
        cases reading
      · cases cause.symm.trans unexpected
      · cases cause.symm.trans unexpected
    · obtain ⟨label, repeated⟩ := ParseCause.eq_repeatedLabel kind
      rcases outcomes with reading | ⟨name, cause, points⟩ | ⟨name, cause, _⟩
      · rw [repeated] at reading
        cases reading
      · exact ⟨name, tokens, cause, scanned, points⟩
      · cases cause.symm.trans repeated
    · obtain ⟨label, undeclared⟩ := ParseCause.eq_undeclaredLabel kind
      rcases outcomes with reading | ⟨name, cause, _⟩ | ⟨name, cause, points⟩
      · rw [undeclared] at reading
        cases reading
      · cases cause.symm.trans undeclared
      · exact ⟨name, tokens, cause, scanned, points⟩

/-- A label twice, behind a jump to one that is nowhere: it is the label that is reported. -/
theorem Program.error_points_again : ∃ error,
    parse "" "JUMP c\na:\nb: a:" .standard = .error (.rejected error) ∧
      error.cause = .repeatedLabel "a" ∧ error.position = some ⟨3, 4⟩ ∧
      ∃ position, error.Points "" "JUMP c\na:\nb: a:" .standard position := by
  have failed : parse "" "JUMP c\na:\nb: a:" .standard =
      .error (.rejected ⟨.repeatedLabel "a", "", some ⟨3, 4⟩⟩) := by
    decide +kernel
  exact ⟨_, failed, rfl, rfl, error_points failed⟩

end MailRoom
