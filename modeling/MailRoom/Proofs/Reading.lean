import MailRoom.Proofs.Lexed

/-! Written text as tokens. Main statements: one for each kind of token, by which its text is read
as that token wherever it stands before a rest that does not go on with it, and `Reads.append`, by
which such texts may be put together. -/
namespace MailRoom

def Token.bare (token : Token) : TokenKind × String := (token.kind, token.text)

namespace Lexer

/-- Characters before a rest are read as tokens of these kinds with these texts. -/
def Reads (chars : List Char) (bare : List (TokenKind × String)) (rest : List Char) : Prop :=
  ∀ file position, ∃ tokens : List Token, tokens.map Token.bare = bare ∧
    scan file position (chars ++ rest) =
      (scan file (position.afterAll chars) rest).map (tokens ++ ·)

variable {chars first second rest : List Char} {bare : List (TokenKind × String)}

theorem Reads.nil (rest : List Char) : Reads [] [] rest := by
  intro file position
  refine ⟨[], rfl, ?_⟩
  simp only [List.nil_append, Position.afterAll, List.foldl_nil]
  cases scan file position rest <;> rfl

theorem Reads.append {before after : List (TokenKind × String)}
    (reads : Reads first before (second ++ rest)) (further : Reads second after rest) :
    Reads (first ++ second) (before ++ after) rest := by
  intro file position
  obtain ⟨tokens, same, scanned⟩ := reads file position
  obtain ⟨tokens', same', scanned'⟩ := further file (position.afterAll first)
  refine ⟨tokens ++ tokens', by rw [List.map_append, same, same'], ?_⟩
  rw [List.append_assoc, scanned, scanned', map_of_map, Position.afterAll_append]
  simp only [List.append_assoc]

theorem reads_lexeme {kind : TokenKind} {text : String} {head : Char} {tail : List Char}
    (kept : isSkipped head = false)
    (found : ∀ file position,
      lexeme file position head (tail ++ rest) = .ok ⟨kind, text, tail.length⟩) :
    Reads (head :: tail) [(kind, text)] rest := by
  intro file position
  refine ⟨[⟨kind, text, position⟩], rfl, ?_⟩
  rw [List.cons_append, scan, if_neg (by simp [kept]), found]
  simp only [bind, Except.bind, List.take_left, List.drop_left]
  cases scan file (position.afterAll (head :: tail)) rest <;> rfl

theorem reads_blanks (count : Nat) (rest : List Char) :
    Reads (List.replicate count ' ') [] rest := by
  induction count with
  | zero => exact .nil rest
  | succ count ih =>
    intro file position
    obtain ⟨tokens, same, scanned⟩ := ih file (position.after ' ')
    refine ⟨tokens, same, ?_⟩
    rw [List.replicate_succ, List.cons_append, scan, if_pos (by decide)]
    exact scanned

theorem reads_newline (rest : List Char) : Reads ['\n'] [(.newline, "\n")] rest :=
  reads_lexeme (by decide) fun _ _ => rfl

theorem reads_bracket {char : Char} {kind : TokenKind} (bracket : bracket? char = some kind)
    (rest : List Char) : Reads [char] [(kind, char.toString)] rest := by
  have plain : char = '[' ∨ char = ']' ∨ char = ':' := by
    unfold bracket? at bracket
    split at bracket <;> simp_all
  apply reads_lexeme
  · rcases plain with rfl | rfl | rfl <;> decide
  · intro file position
    rcases plain with rfl | rfl | rfl <;> cases bracket <;> rfl

theorem not_isWordStart_of_isDigit {char : Char} (digit : isDigit char = true) :
    isWordStart char = false := by
  obtain ⟨low, high⟩ := (isDigit_iff char).mp digit
  have none : ∀ code ∈ List.range' 48 10, isWordStart (Char.ofNat code) = false := by
    decide +kernel
  have foreign := none char.toNat (List.mem_range'_1.mpr ⟨low, by omega⟩)
  rwa [Char.ofNat_toNat] at foreign

/-- The characters that stand for themselves, are skipped, or start what no letter and no digit
starts. -/
def marks : List Char := [' ', '\t', '\r', '\n', '-', '[', ']', ':']

theorem plain_of_class {belongs : Char → Bool} {char : Char} (inside : belongs char = true)
    (outside : (marks.all fun mark => !belongs mark) = true) :
    isSkipped char = false ∧ char ≠ '\n' ∧ char ≠ '-' ∧ bracket? char = none := by
  have apart : ∀ mark ∈ marks, char ≠ mark := fun mark member =>
    ne_of_class inside (by simpa using List.all_eq_true.mp outside mark member)
  have blank := apart ' ' (by decide)
  have tab := apart '\t' (by decide)
  have back := apart '\r' (by decide)
  refine ⟨by simp [isSkipped, blank, tab, back], apart '\n' (by decide), apart '-' (by decide), ?_⟩
  unfold bracket?
  split
  · exact absurd rfl (apart '[' (by decide))
  · exact absurd rfl (apart ']' (by decide))
  · exact absurd rfl (apart ':' (by decide))
  · rfl

theorem isWordStart_plain {char : Char} (starts : isWordStart char = true) :
    isSkipped char = false ∧ char ≠ '\n' ∧ char ≠ '-' ∧ bracket? char = none :=
  plain_of_class starts (by decide +kernel)

theorem isDigit_plain {char : Char} (digit : isDigit char = true) :
    isSkipped char = false ∧ char ≠ '\n' ∧ char ≠ '-' ∧ bracket? char = none :=
  plain_of_class digit (by decide)

theorem not_isDigit_of_isWordStart {char : Char} (starts : isWordStart char = true) :
    isDigit char = false := by
  apply Bool.eq_false_iff.mpr
  intro digit
  simp [not_isWordStart_of_isDigit digit] at starts

/-- A word is read as such where no further part of a word follows. -/
theorem reads_word {text : String} (word : IsWord text) (free : text ≠ "DEFINE")
    (stops : startsWith isWordPart rest = false) : Reads text.toList [(.word, text)] rest := by
  obtain ⟨starts, parts⟩ := word
  cases letters : text.toList with
  | nil => simp [letters, startsWith] at starts
  | cons head tail =>
    have starts : isWordStart head = true := by simpa [letters, startsWith] using starts
    have inside : ∀ char ∈ tail, isWordPart char = true := fun char member =>
      parts char (letters ▸ List.mem_cons_of_mem _ member)
    have written : String.ofList (head :: tail) = text := by rw [← letters, String.ofList_toList]
    obtain ⟨kept, line, minus, bracket⟩ := isWordStart_plain starts
    have digit := not_isDigit_of_isWordStart starts
    refine reads_lexeme kept fun file position => ?_
    simp only [lexeme, line, minus, bracket, digit, starts, false_and, false_or, if_false, if_true,
      Bool.false_eq_true, word, takeWhile_run inside stops, written, free]

theorem startsWith_isDigit (stops : startsWith isWordPart rest = false) :
    startsWith isDigit rest = false := by
  cases rest with
  | nil => rfl
  | cons head tail =>
    apply Bool.eq_false_iff.mpr
    intro digit
    have part : startsWith isWordPart (head :: tail) = true :=
      isWordPart_of_isDigit digit
    simp [part] at stops

theorem reads_number {text : String} {value : Int} (denotes : Numeral.Denotes text value)
    (stops : startsWith isWordPart rest = false) : Reads text.toList [(.number, text)] rest := by
  have ends := startsWith_isDigit stops
  cases denotes with
  | @natural row nonempty digits =>
    cases row with
    | nil => exact absurd rfl nonempty
    | cons head tail =>
      rw [String.toList_ofList]
      have digit := digits head (by simp)
      obtain ⟨kept, line, minus, bracket⟩ := isDigit_plain digit
      have row : (head :: (tail ++ rest)).takeWhile isDigit = head :: tail :=
        takeWhile_run digits ends
      refine reads_lexeme kept fun file position => ?_
      simp [lexeme, line, minus, bracket, digit, number, row, stops]
  | @negative row nonempty digits =>
    rw [String.toList_ofList]
    have written : (row ++ rest).takeWhile isDigit = row := takeWhile_run digits ends
    have follows : row.head? ≠ some '-' := by
      cases row with
      | nil => exact absurd rfl nonempty
      | cons head tail =>
        have minus := (isDigit_plain (digits head (by simp))).2.2.1
        simpa using minus
    refine reads_lexeme (by decide) fun file position => ?_
    simp [lexeme, follows, bracket?, number, written, nonempty, stops]

theorem reads_header {tail : List Char} (line : '\n' ∉ tail) (plain : '\r' ∉ tail)
    (rest : List Char) :
    Reads ('-' :: '-' :: tail) [(.header, String.ofList ('-' :: '-' :: tail))] ('\n' :: rest) := by
  have inside : ∀ char ∈ '-' :: '-' :: tail, decide (char ≠ '\n') = true := by
    rintro char member
    have other : char ≠ '\n' := by
      rintro rfl
      exact line (by simpa using member)
    simpa using other
  have kept : ('-' :: '-' :: tail).reverse.dropWhile (· = '\r') = ('-' :: '-' :: tail).reverse := by
    apply List.dropWhile_eq_self_iff.mpr
    intro nonempty
    have member := List.mem_reverse.mp (List.getElem_mem nonempty)
    generalize ('-' :: '-' :: tail).reverse[0] = last at member
    have other : last ≠ '\r' := by
      rintro rfl
      exact plain (by simpa using member)
    simpa using other
  have run : ('-' :: '-' :: (tail ++ '\n' :: rest)).takeWhile (· ≠ '\n') = '-' :: '-' :: tail :=
    takeWhile_run inside rfl
  have found : header ('-' :: '-' :: (tail ++ '\n' :: rest)) =
      ⟨.header, String.ofList ('-' :: '-' :: tail), ('-' :: tail).length⟩ := by
    simp only [header, run, kept, List.reverse_reverse]
    rfl
  refine reads_lexeme (by decide) fun file position => ?_
  rw [lexeme, if_neg (by decide), if_pos ⟨rfl, rfl⟩]
  exact congrArg Except.ok found

theorem isWordPart_blank : isWordPart ' ' = false := by decide +kernel

theorem isWordPart_newline : isWordPart '\n' = false := by decide +kernel

/-- A word and a numeral end where a character stands that is no part of a word. -/
theorem stops_at {char : Char} (foreign : isWordPart char = false) (rest : List Char) :
    startsWith isWordPart (char :: rest) = false := by
  simp [startsWith, foreign]

section Drawing

theorem cut_parts {gap kind space row data rest : List Char}
    (gaps : ∀ char ∈ gap, isBetweenParts char = true)
    (gapEnds : startsWith isBetweenParts (kind ++ (space ++ (row ++ (data ++ rest)))) = false)
    (letters : ∀ char ∈ kind, isWordPart char = true)
    (kindEnds : startsWith isWordPart (space ++ (row ++ (data ++ rest))) = false)
    (spaces : ∀ char ∈ space, isBetweenParts char = true)
    (spaceEnds : startsWith isBetweenParts (row ++ (data ++ rest)) = false)
    (digits : ∀ char ∈ row, isDigit char = true)
    (rowEnds : startsWith isDigit (data ++ rest) = false)
    (inside : ∀ char ∈ data, decide (char ≠ ';') = true)
    (dataEnds : startsWith (fun char => decide (char ≠ ';')) rest = false) :
    Drawing.cut (gap ++ (kind ++ (space ++ (row ++ (data ++ rest))))) =
      ⟨gap, kind, space, row, data, rest⟩ := by
  simp only [Drawing.cut, takeWhile_run gaps gapEnds, takeWhile_run letters kindEnds,
    takeWhile_run spaces spaceEnds, takeWhile_run digits rowEnds, takeWhile_run inside dataEnds,
    List.drop_left]

variable {kind : MarkerKind} {row : List Char} {data : String}

/-- A drawing behind its keyword, as it is written. -/
def drawingChars (kind : MarkerKind) (row : List Char) (data : String) : List Char :=
  [' '] ++ (kind.name.toList ++ ([' '] ++ (row ++ (('\n' :: data.toList) ++ [';']))))

theorem cut_drawingChars (usual : kind = .comment ∨ kind = .label) (nonempty : row ≠ [])
    (digits : ∀ char ∈ row, isDigit char = true) (clean : CleanData data) (rest : List Char) :
    Drawing.cut (drawingChars kind row data ++ rest) =
      ⟨[' '], kind.name.toList, [' '], row, '\n' :: data.toList, ';' :: rest⟩ := by
  simp only [drawingChars, List.append_assoc]
  apply cut_parts
  · exact List.forall_mem_singleton.mpr (by decide)
  · rcases usual with rfl | rfl <;> rfl
  · rcases usual with rfl | rfl <;> exact List.all_eq_true.mp (by decide +kernel)
  · exact stops_at isWordPart_blank _
  · exact List.forall_mem_singleton.mpr (by decide)
  · cases row with
    | nil => exact absurd rfl nonempty
    | cons head tail =>
      obtain ⟨kept, line, _⟩ := isDigit_plain (digits head (by simp))
      simp [startsWith, isBetweenParts, kept, line]
  · exact digits
  · rfl
  · intro char member
    rcases List.mem_cons.mp member with rfl | member
    · decide
    · have other : char ≠ ';' := fun same => clean.noSemicolon (same ▸ member)
      simpa using other
  · rfl

/-- Data is kept as it is when it starts on a line of its own. -/
theorem dataText_written (clean : CleanData data) {drawing : Drawing}
    (written : drawing.data = '\n' :: data.toList) : drawing.dataText = data := by
  have kept : ('\n' :: data.toList).filter (· ≠ '\r') = '\n' :: data.toList := by
    apply List.filter_eq_self.mpr
    intro char member
    rcases List.mem_cons.mp member with rfl | member
    · decide
    · have other : char ≠ '\r' := fun same => clean.noReturn (same ▸ member)
      simpa using other
  have trimmed : trimChars ('\n' :: data.toList) = data.toList :=
    (trimBoth_cons '\n' (by decide)).trans clean.trimmed
  rw [Drawing.dataText, written, kept, trimmed, String.ofList_toList]

theorem define_written (usual : kind = .comment ∨ kind = .label) (nonempty : row ≠ [])
    (digits : ∀ char ∈ row, isDigit char = true) (clean : CleanData data) (rest : List Char)
    (file : String) (keyword after : Position) :
    define file keyword after (drawingChars kind row data ++ rest) =
      .ok ⟨.define, kind.name ++ " " ++ String.ofList row ++ "\n" ++ data,
        (drawingChars kind row data).length⟩ := by
  have cut := cut_drawingChars usual nonempty digits clean rest
  have kindStarts : startsWith isWordStart kind.name.toList = true := by
    rcases usual with rfl | rfl <;> decide +kernel
  have known : ¬(kind.name ≠ "COMMENT" ∧ kind.name ≠ "LABEL") := by
    rcases usual with rfl | rfl <;> decide
  have rowEnds : startsWith isWordPart ('\n' :: (data.toList ++ ';' :: rest)) = false :=
    stops_at isWordPart_newline _
  have dataText : (Drawing.mk [' '] kind.name.toList [' '] row ('\n' :: data.toList)
      (';' :: rest)).dataText = data := dataText_written clean rfl
  have length : 1 + kind.name.toList.length + 1 + row.length + (data.toList.length + 1) + 1 =
      (drawingChars kind row data).length := by
    simp [drawingChars]
    omega
  simp [define, cut, Drawing.kindText, Drawing.rowText, kindStarts, known, nonempty, rowEnds,
    dataText, Drawing.text, Drawing.length, ← length]

theorem reads_define (usual : kind = .comment ∨ kind = .label) (nonempty : row ≠ [])
    (digits : ∀ char ∈ row, isDigit char = true) (clean : CleanData data) (rest : List Char) :
    Reads ('D' :: ("EFINE".toList ++ drawingChars kind row data))
      [(.define, kind.name ++ " " ++ String.ofList row ++ "\n" ++ data)] rest := by
  have letters : ∀ char ∈ "EFINE".toList, isWordPart char = true :=
    List.all_eq_true.mp (by decide +kernel)
  have ends : startsWith isWordPart (drawingChars kind row data ++ rest) = false :=
    stops_at isWordPart_blank _
  have tail := takeWhile_run letters ends
  have starts : isWordStart 'D' = true := by decide +kernel
  obtain ⟨kept, line, minus, bracket⟩ := isWordStart_plain starts
  have digit := not_isDigit_of_isWordStart starts
  refine reads_lexeme kept fun file position => ?_
  simp only [lexeme, line, minus, bracket, digit, starts, false_and, false_or, if_false, if_true,
    Bool.false_eq_true, word]
  rw [List.append_assoc, tail, List.drop_left, if_pos (by decide),
    define_written usual nonempty digits clean]
  simp [Except.map]
  omega

end Drawing

end Lexer

end MailRoom
