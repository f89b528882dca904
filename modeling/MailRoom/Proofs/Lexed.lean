import MailRoom.Program.Basic
import MailRoom.Proofs.Numeral
import MailRoom.Proofs.Outcome

/-! What the tokens of a text look like. Main statement: `Lexer.scan_row`, by which a text gives
well-written tokens and then the token that marks its end. -/
namespace MailRoom

namespace Lexer

/-- A word starts like a word and goes on like one. -/
structure IsWord (text : String) : Prop where
  starts : startsWith isWordStart text.toList = true
  parts : ∀ char ∈ text.toList, isWordPart char = true

/-- Data as a drawing's token keeps it. -/
structure CleanData (data : String) : Prop where
  noSemicolon : ';' ∉ data.toList
  noReturn : '\r' ∉ data.toList
  trimmed : trimChars data.toList = data.toList

/-- The text of a drawing's token, and the drawing that it stands for. -/
inductive Drawn : String → Definition → Prop where
  | drawn {kind : MarkerKind} {row : List Char} (data : String)
      (usual : kind = .comment ∨ kind = .label) (nonempty : row ≠ [])
      (digits : ∀ char ∈ row, isDigit char = true) :
      Drawn (kind.name ++ " " ++ String.ofList row ++ "\n" ++ data)
        ⟨kind, Nat.ofDigitChars 10 row 0, data⟩

/-- Kinds and texts of the tokens before the end of a text. -/
inductive Lexed : TokenKind → String → Prop where
  | newline : Lexed .newline "\n"
  | header (text : String) : Lexed .header text
  | word {text : String} (word : IsWord text) (free : text ≠ "DEFINE") : Lexed .word text
  | number {text : String} {value : Int} (denotes : Numeral.Denotes text value) :
      Lexed .number text
  | define {text : String} {definition : Definition} (drawn : Drawn text definition)
      (clean : CleanData definition.data) : Lexed .define text
  | openBracket : Lexed .openBracket "["
  | closeBracket : Lexed .closeBracket "]"
  | colon : Lexed .colon ":"

end Lexer

/-- The row of tokens that a text gives. -/
inductive Token.Row : List Token → Prop where
  | last {token : Token} (ends : token.kind = .endOfText) : Row [token]
  | cons {token : Token} {rest : List Token} (lexed : Lexer.Lexed token.kind token.text)
      (row : Row rest) : Row (token :: rest)

theorem Token.Row.tail {token : Token} {rest : List Token} (row : Token.Row (token :: rest))
    (further : token.kind ≠ .endOfText) : Token.Row rest := by
  cases row with
  | last ends => exact absurd ends further
  | cons lexed row => exact row

theorem Token.Row.lexed {token : Token} {rest : List Token} (row : Token.Row (token :: rest))
    (further : token.kind ≠ .endOfText) : Lexer.Lexed token.kind token.text := by
  cases row with
  | last ends => exact absurd ends further
  | cons lexed row => exact lexed

theorem Token.Row.drawn {token : Token} {rest : List Token} (row : Token.Row (token :: rest))
    (kind : token.kind = .define) :
    ∃ definition, Lexer.Drawn token.text definition ∧ Lexer.CleanData definition.data := by
  have lexed := row.lexed (by simp [kind])
  rw [kind] at lexed
  cases lexed with
  | define drawn clean => exact ⟨_, drawn, clean⟩

theorem Token.Row.word {token : Token} {rest : List Token} (row : Token.Row (token :: rest))
    (kind : token.kind = .word) : Lexer.IsWord token.text ∧ token.text ≠ "DEFINE" := by
  have lexed := row.lexed (by simp [kind])
  rw [kind] at lexed
  cases lexed with
  | word word free => exact ⟨word, free⟩

theorem Token.Row.number {token : Token} {rest : List Token} (row : Token.Row (token :: rest))
    (kind : token.kind = .number) : ∃ value, Numeral.Denotes token.text value := by
  have lexed := row.lexed (by simp [kind])
  rw [kind] at lexed
  cases lexed with
  | number denotes => exact ⟨_, denotes⟩

namespace Lexer

section Span

variable {belongs : Char → Bool} {run rest : List Char}

/-- A run of characters of a class ends where another character stands. -/
theorem takeWhile_run (inside : ∀ char ∈ run, belongs char = true)
    (stops : startsWith belongs rest = false) : (run ++ rest).takeWhile belongs = run := by
  rw [List.takeWhile_append_of_pos inside]
  cases rest with
  | nil => simp
  | cons head tail => simp [show belongs head = false from stops]

theorem dropWhile_run (inside : ∀ char ∈ run, belongs char = true)
    (stops : startsWith belongs rest = false) : (run ++ rest).dropWhile belongs = rest := by
  rw [List.dropWhile_append_of_pos inside]
  cases rest with
  | nil => rfl
  | cons head tail => simp [show belongs head = false from stops]

theorem exists_run (belongs : Char → Bool) (chars : List Char) :
    ∃ run rest, chars = run ++ rest ∧ (∀ char ∈ run, belongs char = true) ∧
      startsWith belongs rest = false := by
  refine ⟨chars.takeWhile belongs, chars.dropWhile belongs,
    List.takeWhile_append_dropWhile.symm, fun _ => List.mem_takeWhile_imp, ?_⟩
  have head := List.head?_dropWhile_not belongs chars
  cases rest : chars.dropWhile belongs with
  | nil => rfl
  | cons first further => simpa [rest, startsWith] using head

end Span

theorem isWordPart_of_isWordStart {char : Char} (starts : isWordStart char = true) :
    isWordPart char = true := by
  simp only [isWordStart, isWordPart, Bool.or_eq_true] at starts ⊢
  rcases starts with letter | underscore
  · exact .inl (.inl letter)
  · exact .inr underscore

theorem bracket_lexed {char : Char} {kind : TokenKind} (found : bracket? char = some kind) :
    Lexed kind char.toString := by
  unfold bracket? at found
  split at found
  · cases found; exact .openBracket
  · cases found; exact .closeBracket
  · cases found; exact .colon
  · cases found

section Number

variable {first : Char} {row after : List Char} (starts : first = '-' ∨ isDigit first = true)
  (digits : ∀ char ∈ row, isDigit char = true)

include starts digits

theorem number_run (ends : startsWith isDigit after = false) (file : String)
    (position : Position) :
    number file position first (row ++ after) =
      if first = '-' ∧ row = [] then .error ⟨.bareMinus, file, position⟩
      else if startsWith isWordPart after then
        .error ⟨.malformedNumber (String.ofList (first :: row)), file, position⟩
      else .ok ⟨.number, String.ofList (first :: row), row.length⟩ := by
  by_cases minus : first = '-'
  · simp [number, minus, takeWhile_run digits ends]
  · have digits : ∀ char ∈ first :: row, isDigit char = true :=
      List.forall_mem_cons.mpr ⟨starts.resolve_left minus, digits⟩
    have run := takeWhile_run digits ends
    rw [List.cons_append] at run
    simp [number, minus, run]

theorem exists_denotes (written : ¬(first = '-' ∧ row = [])) :
    ∃ value, Numeral.Denotes (String.ofList (first :: row)) value := by
  by_cases minus : first = '-'
  · subst minus
    exact ⟨_, .negative (fun none => written ⟨rfl, none⟩) digits⟩
  · exact ⟨_, .natural (List.cons_ne_nil first row)
      (List.forall_mem_cons.mpr ⟨starts.resolve_left minus, digits⟩)⟩

end Number

theorem number_lexed {file : String} {position : Position} {first : Char} {rest : List Char}
    {found : Lexeme} (starts : first = '-' ∨ isDigit first = true)
    (success : number file position first rest = .ok found) : Lexed found.kind found.text := by
  obtain ⟨row, after, rfl, digits, ends⟩ := exists_run isDigit rest
  rw [number_run starts digits ends] at success
  split at success
  · cases success
  rename_i written
  split at success
  · cases success
  · cases success
    obtain ⟨value, denotes⟩ := exists_denotes starts digits written
    exact .number denotes

/-- A drawing of which nothing is missing. -/
structure Drawing.Complete (drawing : Drawing) : Prop where
  named : startsWith isWordStart drawing.kind = true
  usual : drawing.kindText = "COMMENT" ∨ drawing.kindText = "LABEL"
  numbered : drawing.row ≠ []
  unparted : startsWith isWordPart (drawing.data ++ drawing.rest) = false
  terminated : drawing.rest ≠ []

/-- A drawing is read if it is complete, wherever it stands. -/
theorem define_eq_ok {file : String} {keyword after : Position}
    {chars : List Char} {found : Lexeme} :
    define file keyword after chars = .ok found ↔
      (Drawing.cut chars).Complete ∧
        ⟨.define, (Drawing.cut chars).text, (Drawing.cut chars).length⟩ = found := by
  simp only [define]
  generalize Drawing.cut chars = drawing
  constructor
  · intro success
    split at success
    · cases success
    rename_i named
    split at success
    · cases success
    rename_i usual
    split at success
    · cases success
    rename_i numbered
    split at success
    · cases success
    rename_i unparted
    split at success
    · cases success
    rename_i terminated
    cases success
    exact ⟨⟨by simpa using named, by simpa [Classical.or_iff_not_imp_left] using usual,
      by simpa using numbered, by simpa using unparted, by simpa using terminated⟩, rfl⟩
  · rintro ⟨⟨named, usual, numbered, unparted, terminated⟩, rfl⟩
    have usual : ¬(drawing.kindText ≠ "COMMENT" ∧ drawing.kindText ≠ "LABEL") := by
      simpa [Classical.or_iff_not_imp_left] using usual
    simp [named, usual, numbered, unparted, terminated]

theorem define_lexed {file : String} {keyword after : Position} {rest : List Char}
    {found : Lexeme} (success : define file keyword after rest = .ok found) :
    Lexed found.kind found.text := by
  have data : ∀ char ∈ (Drawing.cut rest).data, char ≠ ';' := fun char member => by
    simpa using List.mem_takeWhile_imp member
  have digits : ∀ char ∈ (Drawing.cut rest).row, isDigit char = true :=
    fun char member => List.mem_takeWhile_imp member
  obtain ⟨⟨_, usual, nonempty, _, _⟩, rfl⟩ := define_eq_ok.mp success
  generalize Drawing.cut rest = drawing at data digits usual nonempty
  have drawn : ∃ kind,
      Drawn drawing.text ⟨kind, Nat.ofDigitChars 10 drawing.row 0, drawing.dataText⟩ := by
    rcases usual with comment | label
    · refine ⟨.comment, ?_⟩
      have drawn := Drawn.drawn drawing.dataText (.inl rfl) nonempty digits
      rwa [show MarkerKind.comment.name = drawing.kindText from comment.symm] at drawn
    · refine ⟨.label, ?_⟩
      have drawn := Drawn.drawn drawing.dataText (.inr rfl) nonempty digits
      rwa [show MarkerKind.label.name = drawing.kindText from label.symm] at drawn
  obtain ⟨kind, drawn⟩ := drawn
  refine .define drawn ?_
  · have member {char : Char} (present : char ∈ drawing.dataText.toList) :
        char ∈ drawing.data ∧ char ≠ '\r' := by
      rw [Drawing.dataText, String.toList_ofList] at present
      simpa using List.mem_filter.mp (mem_of_mem_trimBoth present)
    refine ⟨fun present => data _ (member present).1 rfl, fun present => (member present).2 rfl, ?_⟩
    rw [Drawing.dataText, String.toList_ofList]
    exact trimBoth_idem _

theorem word_lexed {file : String} {position : Position} {first : Char} {rest : List Char}
    {found : Lexeme} (starts : isWordStart first = true)
    (success : word file position first rest = .ok found) : Lexed found.kind found.text := by
  simp only [word] at success
  split at success
  · obtain ⟨block, defined, rfl⟩ := map_eq_ok.mp success
    have lexed := define_lexed defined
    exact lexed
  · rename_i free
    cases success
    refine .word ⟨by simpa [startsWith] using starts, ?_⟩ free
    intro char member
    rw [String.toList_ofList] at member
    rcases List.mem_cons.mp member with same | member
    · exact isWordPart_of_isWordStart (same ▸ starts)
    · exact List.mem_takeWhile_imp member

theorem lexeme_lexed {file : String} {position : Position} {first : Char} {rest : List Char}
    {found : Lexeme} (success : lexeme file position first rest = .ok found) :
    Lexed found.kind found.text := by
  simp only [lexeme] at success
  split at success
  · cases success
    exact .newline
  split at success
  · cases success
    exact .header _
  split at success
  · rename_i bracket
    cases success
    exact bracket_lexed bracket
  split at success
  · rename_i starts
    exact number_lexed starts success
  split at success
  · rename_i starts
    exact word_lexed starts success
  · cases success

/-- A text gives well-written tokens, and behind them the token that marks its end. -/
theorem scan_row {file : String} {position : Position} {chars : List Char} {tokens : List Token}
    (success : scan file position chars = .ok tokens) : Token.Row tokens := by
  induction position, chars using scan.induct generalizing tokens with
  | case1 position =>
    rw [scan] at success
    cases success
    exact .last rfl
  | case2 position first rest skipped ih =>
    rw [scan, if_pos skipped] at success
    exact ih success
  | case3 position first rest kept ih =>
    rw [scan, if_neg kept] at success
    obtain ⟨found, lexeme, success⟩ := bind_eq_ok.mp success
    obtain ⟨further, scanned, success⟩ := bind_eq_ok.mp success
    cases success
    exact .cons (lexeme_lexed lexeme) (ih found scanned)

end Lexer

end MailRoom
