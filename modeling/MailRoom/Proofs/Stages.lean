import MailRoom.Proofs.Assembly
import MailRoom.Proofs.Spans

/-! The stages at which errors in a text come up. Main statements: `Lexer.scan_stuck`, by which
tokens lead up to the place at which a text cannot be cut on, `Grammar.readAll_error`, by which
items lead up to the token from which on nothing is read, and `Grammar.ofTokens_error`, by which a
jump without its label is only reported once all items have been read. -/
namespace MailRoom

/-- The stages that a text goes through, one after the other. -/
inductive ParseCause.Stage where
  /-- No token starts. -/
  | starting
  /-- A token that has started does not come to its end. -/
  | spelling
  /-- The tokens are not those of an item. -/
  | reading
  /-- A label is declared again. -/
  | declaring
  /-- The label of a jump is looked up. -/
  | resolving
  deriving DecidableEq

def ParseCause.stage : ParseCause → Stage
  | unexpectedCharacter _ => .starting
  | bareMinus | malformedNumber _ | defineWithoutKind | unknownDefineKind _
  | defineWithoutNumber _ | unterminatedDefine .. => .spelling
  | repeatedLabel _ => .declaring
  | undeclaredLabel _ => .resolving
  | _ => .reading

namespace Lexer

/-- A character that some token starts with. -/
def Starts (char : Char) : Prop :=
  char = '\n' ∨ (bracket? char).isSome ∨ char = '-' ∨ isDigit char = true ∨ isWordStart char = true

/-- What is wrong with a token that has started. -/
def Misspelled (error : ParseError) : Prop := error.cause.stage = .spelling

variable {file : String} {position : Position} {first : Char} {rest before middle after : List Char}
  {error : ParseError}

theorem number_stage : FailsOnly Misspelled (number file position first rest) := by
  unfold number
  extract_lets sign body row written
  split
  · exact .error rfl
  split
  · exact .error rfl
  · exact .ok _

theorem define_stage {keyword behind : Position} :
    FailsOnly Misspelled (define file keyword behind rest) := by
  simp only [define]
  split
  · exact .error rfl
  split
  · exact .error rfl
  split
  · exact .error rfl
  split
  · exact .error rfl
  split
  · exact .error rfl
  · exact .ok _

theorem word_stage : FailsOnly Misspelled (word file position first rest) := by
  simp only [word]
  split
  · intro error failed
    cases defined : define file position
        (position.afterAll (first :: rest.takeWhile isWordPart))
        (rest.drop (rest.takeWhile isWordPart).length) with
    | ok block => simp [defined, Except.map] at failed
    | error failure =>
      rw [defined] at failed
      cases failed
      exact define_stage _ defined
  · exact .ok _

/-- A lexeme is not read because it does not come to its end, or because none starts. -/
theorem lexeme_stage :
    FailsOnly (fun error => Misspelled error ∨
        error = ⟨.unexpectedCharacter first, file, position⟩ ∧ ¬Starts first)
      (lexeme file position first rest) := by
  simp only [lexeme]
  split
  · exact .ok _
  rename_i inLine
  split
  · exact .ok _
  split
  · exact .ok _
  rename_i plain
  split
  · exact fun error failed => .inl (number_stage error failed)
  rename_i unnumbered
  split
  · exact fun error failed => .inl (word_stage error failed)
  rename_i unworded
  refine .error (.inr ⟨rfl, ?_⟩)
  rintro (line | bracket | minus | digit | letter)
  · exact inLine line
  · simp [plain] at bracket
  · exact unnumbered (.inl minus)
  · exact unnumbered (.inr digit)
  · exact unworded letter

theorem Spelled.starts {kind : TokenKind} {text : String}
    (spelled : Spelled before middle after kind text) :
    ∃ first tail, middle = first :: tail ∧ Starts first := by
  cases spelled with
  | newline => exact ⟨_, _, rfl, .inl rfl⟩
  | openBracket | closeBracket | colon => exact ⟨_, _, rfl, .inr (.inl rfl)⟩
  | word maximal free =>
    have starts := maximal.formed.starts
    rw [String.toList_ofList] at starts
    cases middle with
    | nil => cases starts
    | cons first tail => exact ⟨first, tail, rfl, .inr (.inr (.inr (.inr starts)))⟩
  | number maximal =>
    cases middle with
    | nil =>
      obtain ⟨value, denotes⟩ := maximal.formed
      generalize written : String.ofList [] = text at denotes
      cases denotes with
      | natural nonempty digits => exact absurd (String.ofList_injective written).symm nonempty
      | negative nonempty digits => cases String.ofList_injective written
    | cons first tail =>
      refine ⟨first, tail, rfl, .inr (.inr ?_)⟩
      exact maximal.formed.parts.1.imp_right .inl
  | header dashes line last ends =>
    obtain ⟨further, rfl⟩ := dashes
    exact ⟨_, _, rfl, .inr (.inr (.inl rfl))⟩
  | define gaps usual spaces digits stops first =>
    exact ⟨'D', _, rfl, .inr (.inr (.inr (.inr (by decide +kernel))))⟩

/-- Tokens and blanks lead from the start of a text to a place in it. -/
inductive Reached : List Char → List Char → Prop where
  | start (chars : List Char) : Reached [] chars
  | blank {before after : List Char} {char : Char} (reached : Reached before (char :: after))
      (skipped : isSkipped char = true) : Reached (before ++ [char]) after
  | token {before middle after : List Char} {kind : TokenKind} {text : String}
      (reached : Reached before (middle ++ after))
      (spelled : Spelled before middle after kind text) : Reached (before ++ middle) after

/-- What is wrong with a text comes up at the first place that tokens lead to and from which on no
lexeme is read. -/
theorem scan_stuck {chars : List Char} (reached : Reached before chars)
    (apart : Apart before chars) (failed : scan file (.behind before) chars = .error error) :
    ∃ passed first rest, before ++ chars = passed ++ first :: rest ∧
      Reached passed (first :: rest) ∧ isSkipped first = false ∧
      lexeme file (.behind passed) first rest = .error error := by
  generalize placed : Position.behind before = position at failed
  induction position, chars using scan.induct generalizing before with
  | case1 position =>
    rw [scan] at failed
    cases failed
  | case2 position first rest skipped ih =>
    subst placed
    rw [scan, if_pos skipped] at failed
    obtain ⟨passed, further⟩ := ih (reached.blank skipped) (apart_skipped before skipped rest)
      (Position.behind_afterAll before [first]).symm failed
    rw [List.append_assoc] at further
    exact ⟨passed, further⟩
  | case3 position first rest kept ih =>
    subst placed
    rw [scan, if_neg kept] at failed
    rcases bind_eq_error.mp failed with stuck | ⟨found, lexed, failed⟩
    · exact ⟨before, first, rest, rfl, reached, by simpa using kept, stuck⟩
    rcases bind_eq_error.mp failed with failed | ⟨_, _, failed⟩
    · obtain ⟨tail, after, rfl, extra, spelled, apart⟩ := lexeme_covers apart lexed
      have behind := @ih found (before ++ first :: tail)
      simp only [extra, List.take_left, List.drop_left] at failed behind
      obtain ⟨passed, further⟩ := behind (.token reached spelled) apart
        (Position.behind_afterAll before (first :: tail)).symm failed
      rw [List.append_assoc] at further
      exact ⟨passed, further⟩
    · cases failed

theorem scan_stage {chars : List Char} :
    FailsOnly (fun error => error.cause.stage = .starting ∨ error.cause.stage = .spelling)
      (scan file position chars) := by
  induction position, chars using scan.induct with
  | case1 position =>
    rw [scan]
    exact .ok _
  | case2 position first rest skipped ih =>
    rw [scan, if_pos skipped]
    exact ih
  | case3 position first rest kept ih =>
    rw [scan, if_neg kept]
    refine .bind ?_ fun found _ => .bind (ih found) fun _ _ => .ok _
    intro error failed
    rcases lexeme_stage error failed with misspelled | ⟨rfl, _⟩
    · exact .inr misspelled
    · exact .inl rfl

end Lexer

/-- An error that reading items comes to, if it comes to an error. -/
def ReadFailure.Reading (failure : ReadFailure) : Prop :=
  ∀ error, failure = .rejected error → error.cause.stage = .reading

namespace Grammar

variable {source : Source} {word token : Token} {tokens rest behind : List Token}
  {declared : List String}

theorem reject_reading (source : Source) (token : Token) {cause : ParseCause}
    (stage : cause.stage = .reading) :
    FailsOnly ReadFailure.Reading (source.reject cause token : Except ReadFailure α) := by
  refine .error fun error same => ?_
  cases same
  exact stage

theorem readNumeral_reading (text : String) :
    FailsOnly ReadFailure.Reading (Item.readNumeral text) :=
  .mapError fun failure _ error same => by cases same

theorem readDefinition_reading (text : String) :
    FailsOnly ReadFailure.Reading (Item.readDefinition text) := by
  unfold Item.readDefinition
  dsimp only
  split
  · exact .error fun error same => by cases same
  · exact .bind (readNumeral_reading _) fun _ _ => .ok _

theorem outOfTokens_reading :
    FailsOnly ReadFailure.Reading (.error .outOfTokens : Except ReadFailure α) :=
  .error fun error same => by cases same

theorem endOfLine_reading : FailsOnly ReadFailure.Reading (Item.endOfLine source tokens) := by
  cases tokens with
  | nil => exact outOfTokens_reading
  | cons token rest =>
    simp only [Item.endOfLine]
    split
    · exact .ok _
    split
    · exact .ok _
    · exact reject_reading source token rfl

theorem expect_reading (kind : TokenKind) :
    FailsOnly ReadFailure.Reading (Item.expect source kind tokens) := by
  cases tokens with
  | nil => exact outOfTokens_reading
  | cons token rest =>
    simp only [Item.expect]
    split
    · exact .ok _
    · exact reject_reading source token rfl

theorem tile_reading : FailsOnly ReadFailure.Reading (Item.tile source word tokens) := by
  cases tokens with
  | nil => exact outOfTokens_reading
  | cons token rest =>
    simp only [Item.tile]
    split
    · exact reject_reading source word rfl
    · exact reject_reading source word rfl
    · refine .bind (readNumeral_reading _) fun number _ => ?_
      split
      · exact reject_reading source token rfl
      · exact .ok _
    · exact reject_reading source token rfl
    · exact reject_reading source token rfl

theorem address_reading : FailsOnly ReadFailure.Reading (Item.address source word tokens) := by
  cases tokens with
  | nil => exact outOfTokens_reading
  | cons token rest =>
    simp only [Item.address]
    split
    · refine .bind tile_reading fun tile _ => ?_
      split
      · exact outOfTokens_reading
      · split
        · exact .ok _
        · exact reject_reading source _ rfl
    · exact .bind tile_reading fun tile _ => .ok _

theorem jumpLabel_reading : FailsOnly ReadFailure.Reading (Item.jumpLabel source word tokens) := by
  cases tokens with
  | nil => exact outOfTokens_reading
  | cons token rest =>
    simp only [Item.jumpLabel]
    split
    · exact reject_reading source word rfl
    · exact reject_reading source word rfl
    · exact .ok _
    · exact reject_reading source token rfl

theorem readInstruction_reading :
    FailsOnly ReadFailure.Reading (Item.readInstruction source word tokens) := by
  simp only [Item.readInstruction]
  split
  · exact reject_reading source word rfl
  split
  · exact .bind address_reading fun _ _ => .ok _
  · exact .bind jumpLabel_reading fun _ _ => .ok _
  · exact .ok _

/-- A word that a colon follows declares the label that it spells. -/
def Declares (token : Token) (rest : List Token) : Prop :=
  token.kind = .word ∧ (rest.head?.any fun next => next.kind = .colon) = true

instance (token : Token) (rest : List Token) : Decidable (Declares token rest) :=
  inferInstanceAs (Decidable (_ ∧ _))

/-- An item is not read because its tokens are not those of an item, or because it declares a label
again. -/
theorem read_stage :
    FailsOnly (fun failure => failure.Reading ∨
        failure = .rejected ⟨.repeatedLabel token.text, source.file, token.position⟩ ∧
          Declares token rest ∧ token.text ∈ declared)
      (Item.read source declared token rest) := by
  have only {α : Type} {result : Except ReadFailure α}
      (reading : FailsOnly ReadFailure.Reading result) :
      FailsOnly (fun failure => failure.Reading ∨
        failure = .rejected ⟨.repeatedLabel token.text, source.file, token.position⟩ ∧
          Declares token rest ∧ token.text ∈ declared) result :=
    fun failure failed => .inl (reading failure failed)
  simp only [Item.read]
  split
  · exact .ok _
  · exact .ok _
  · refine only (.bind (readDefinition_reading _) fun _ _ => .bind endOfLine_reading fun _ _ => ?_)
    exact .ok _
  · rename_i named
    split
    · rename_i colon
      split
      · rename_i again
        exact .error (.inr ⟨rfl, ⟨named, colon⟩, again⟩)
      · exact .ok _
    split
    · refine only (.bind (expect_reading _) fun _ _ => .bind endOfLine_reading fun _ _ => ?_)
      exact .ok _
    · refine only (.bind readInstruction_reading fun _ _ => .bind endOfLine_reading fun _ _ => ?_)
      exact .ok _
  · exact only (reject_reading source token rfl)

/-- Items one after the other lead from a row of tokens to a row behind them. -/
inductive Path (source : Source) : List Item → List Token → List Token → Prop where
  | here (tokens : List Token) : Path source [] tokens tokens
  | item {item : Item} {items : List Item} {tokens rest behind : List Token}
      (phrase : Phrase source item tokens rest) (further : Path source items rest behind) :
      Path source (item :: items) tokens behind

/-- A row is read item by item up to the token from which on no item is read. -/
theorem readAll_error {failure : ReadFailure} (native : source.mnemonics.foreign? = none)
    (row : Token.Row tokens) (failed : Item.readAll source declared tokens = .error failure) :
    ∃ items token rest, Path source items tokens (token :: rest) ∧ (Item.names items).Nodup ∧
      (∀ name ∈ Item.names items, name ∉ declared) ∧
      Item.read source ((Item.names items).reverse ++ declared) token rest = .error failure := by
  induction declared, tokens using Item.readAll.induct with
  | case1 declared => cases row
  | case2 declared token rest ends =>
    rw [Item.readAll, if_pos ends] at failed
    cases failed
  | case3 declared token rest goesOn ih =>
    rw [Item.readAll, if_neg goesOn] at failed
    rcases bind_eq_error.mp failed with here | ⟨⟨item, taken⟩, read, failed⟩
    · exact ⟨[], token, rest, .here _, .nil, by simp [Item.names], here⟩
    rcases bind_eq_error.mp failed with failed | ⟨_, _, failed⟩
    · obtain ⟨phrase, fresh⟩ := read_sound native row read
      obtain ⟨items, stuck, others, path, distinct, apart, there⟩ :=
        ih item taken (phrase.row row) failed
      obtain ⟨distinct, apart⟩ := names_cons fresh distinct apart
      refine ⟨item :: items, stuck, others, .item phrase path, distinct, apart, ?_⟩
      have same : (Item.names (item :: items)).reverse ++ declared =
          (Item.names items).reverse ++ item.declare declared := by
        cases item <;> simp [Item.names, Item.declare]
      rw [same]
      exact there
    · cases failed

end Grammar

/-- The words of a row that declare labels. -/
def Token.declarations : List Token → List Token
  | [] => []
  | token :: rest =>
    if Grammar.Declares token rest then token :: declarations rest else declarations rest

namespace Grammar

open Token (declarations)

variable {source : Source} {token : Token} {tokens rest behind : List Token} {items : List Item}

theorem declarations_other (other : token.kind ≠ .word) :
    declarations (token :: rest) = declarations rest :=
  if_neg fun declares => other declares.1

theorem declarations_unmarked
    (unmarked : (rest.head?.any fun next => next.kind = .colon) = false) :
    declarations (token :: rest) = declarations rest :=
  if_neg fun declares => by cases unmarked.symm.trans declares.2

theorem LineEnd.declarations (ends : LineEnd rest behind) :
    Token.declarations rest = Token.declarations behind := by
  cases ends with
  | newline kind => exact declarations_other (by simp [kind])
  | endOfText kind => rfl

theorem LineEnd.unmarked (ends : LineEnd rest behind) :
    (rest.head?.any fun next => next.kind = .colon) = false := by
  cases ends with
  | newline kind => simp [kind]
  | endOfText kind => simp [kind]

theorem Operand.declarations {shape : OperandShape} {address : Option Address}
    {label : Option String} {between : List Token}
    (operand : Operand shape tokens address label between) (ends : LineEnd between behind) :
    Token.declarations tokens = Token.declarations between := by
  cases operand with
  | none => rfl
  | direct number => exact declarations_other (by simp [number.kind])
  | indirect opens number closes =>
    rw [declarations_other (by simp [opens]), declarations_other (by simp [number.kind]),
      declarations_other (by simp [closes])]
  | label word => exact declarations_unmarked ends.unmarked

theorem Phrase.declarations {item : Item} (phrase : Phrase source item tokens behind) :
    ∃ words, Token.declarations tokens = words ++ Token.declarations behind ∧
      words.map Token.text = Item.names [item] := by
  cases phrase with
  | blank kind =>
    exact ⟨[], declarations_other (by rcases kind with kind | kind <;> simp [kind]), rfl⟩
  | definition kind drawn short ends =>
    exact ⟨[], (declarations_other (by simp [kind])).trans ends.declarations, rfl⟩
  | @label word colon rest named marked =>
    refine ⟨[word], ?_, rfl⟩
    have declares : Declares word (colon :: behind) := ⟨named, by simp [marked]⟩
    rw [Token.declarations, if_pos declares, declarations_other (by simp [marked])]
    rfl
  | comment named spelled number ends =>
    refine ⟨[], ?_, rfl⟩
    rw [declarations_unmarked (by simp [number]), declarations_other (by simp [number]),
      ends.declarations]
    rfl
  | instruction named free found shaped operand ends =>
    refine ⟨[], ?_, rfl⟩
    rw [declarations_unmarked (operand.head ends), operand.declarations ends, ends.declarations]
    rfl

theorem Path.declarations (path : Path source items tokens behind) :
    ∃ words, Token.declarations tokens = words ++ Token.declarations behind ∧
      words.map Token.text = Item.names items := by
  induction path with
  | here tokens => exact ⟨[], rfl, rfl⟩
  | @item item items tokens rest behind phrase further ih =>
    obtain ⟨words, split, named⟩ := phrase.declarations
    obtain ⟨others, split', named'⟩ := ih
    refine ⟨words ++ others, by rw [split, split', List.append_assoc], ?_⟩
    rw [List.map_append, named, named']
    cases item <;> rfl

/-- A label that is not declared is reported where the jump to it stands. -/
theorem resolve_error {instruction : Instruction} {file : String} {labels : Table String Int}
    {failure : ReadFailure} (failed : Program.resolve file labels instruction = .error failure) :
    ∃ name, instruction.label = some name ∧ labels.find? name = none ∧
      ∀ location, instruction.location = some location →
        failure = .rejected ⟨.undeclaredLabel name, file, some ⟨location.line, location.column⟩⟩ := by
  unfold Program.resolve at failed
  split at failed
  · cases failed
  rename_i name labelled
  split at failed
  · cases failed
  rename_i missing
  refine ⟨name, labelled, missing, fun location located => ?_⟩
  rw [located] at failed
  cases failed
  rfl

/-- Tokens give no program because no item is read from some place on, or because a label is looked
up that is not declared. -/
theorem ofTokens_error {failure : ReadFailure} (native : source.mnemonics.foreign? = none)
    (failed : Program.ofTokens source tokens = .error failure) :
    Item.readAll source [] tokens = .error failure ∨
      ∃ items last earlier jump later values, Item.readAll source [] tokens = .ok (items, last) ∧
        Item.instructions items = earlier ++ jump :: later ∧
        earlier.mapM (Program.resolve source.file (Item.labels items)) = .ok values ∧
        Program.resolve source.file (Item.labels items) jump = .error failure := by
  simp only [Program.ofTokens, native] at failed
  rcases bind_eq_error.mp failed with unread | ⟨⟨items, last⟩, read, failed⟩
  · exact .inl unread
  rcases bind_eq_error.mp failed with unresolved | ⟨_, _, failed⟩
  · obtain ⟨earlier, jump, later, values, split, taken, failed⟩ := mapM_eq_error.mp unresolved
    exact .inr ⟨items, last, earlier, jump, later, values, read, split, taken, failed⟩
  · cases failed

end Grammar

end MailRoom
