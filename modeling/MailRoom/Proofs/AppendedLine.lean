import MailRoom.Proofs.Spans

/-! Texts that go on with a further line. Main statement: `Token.scan_joined`, by which the tokens
of two texts with a line feed between them are those of the one, a newline, and those of the other,
which stand so many lines further down. -/
namespace MailRoom

namespace Position

def lowered (lines : Int) (position : Position) : Position where
  line := position.line + lines
  column := position.column

theorem lowered_zero (position : Position) : position.lowered 0 = position := by
  simp [lowered]

theorem after_lowered (lines : Int) (position : Position) (char : Char) :
    (position.lowered lines).after char = (position.after char).lowered lines := by
  unfold after
  split
  · simp [lowered, Int.add_right_comm]
  · rfl

theorem afterAll_lowered (lines : Int) (position : Position) (chars : List Char) :
    (position.lowered lines).afterAll chars = (position.afterAll chars).lowered lines := by
  induction chars generalizing position with
  | nil => rfl
  | cons char rest ih =>
    have first := after_lowered lines position char
    exact (congrArg (·.afterAll rest) first).trans (ih _)

end Position

def Token.lowered (lines : Int) (token : Token) : Token where
  kind := token.kind
  text := token.text
  position := token.position.lowered lines

theorem Token.lowered_zero (token : Token) : token.lowered 0 = token := by
  rw [Token.lowered, Position.lowered_zero]

theorem Token.map_lowered_zero (tokens : List Token) : tokens.map (Token.lowered 0) = tokens :=
  (List.map_congr_left fun token _ => token.lowered_zero).trans (List.map_id _)

namespace Lexer

variable {belongs : Char → Bool} {first : Char} {rest chars more : List Char}
  {file : String} {position : Position} {found : Lexeme} {tokens : List Token}

theorem startsWith_append (nonempty : chars ≠ []) (more : List Char) :
    startsWith belongs (chars ++ more) = startsWith belongs chars := by
  obtain ⟨char, further, rfl⟩ := List.exists_cons_of_ne_nil nonempty
  rfl

/-- A drawing with a semicolon is cut without regard to what is behind that. -/
theorem cut_append (terminated : (Drawing.cut chars).rest ≠ []) (more : List Char) :
    Drawing.cut (chars ++ more) =
      { Drawing.cut chars with rest := (Drawing.cut chars).rest ++ more } := by
  obtain ⟨gap, fromKind, rfl, gaps, gapEnds⟩ := exists_run isBetweenParts chars
  obtain ⟨kind, fromSpace, rfl, letters, kindEnds⟩ := exists_run isWordPart fromKind
  obtain ⟨space, fromRow, rfl, spaces, spaceEnds⟩ := exists_run isBetweenParts fromSpace
  obtain ⟨row, fromData, rfl, digits, rowEnds⟩ := exists_run isDigit fromRow
  obtain ⟨data, rest, rfl, inside, dataEnds⟩ := exists_run (· ≠ ';') fromData
  have cut :=
    cut_parts gaps gapEnds letters kindEnds spaces spaceEnds digits rowEnds inside dataEnds
  rw [cut] at terminated ⊢
  -- With the semicolon still ahead, every run stops at the character where it stopped.
  have on {belongs : Char → Bool} (before : List Char)
      (ends : startsWith belongs (before ++ rest) = false) :
      startsWith belongs (before ++ (rest ++ more)) = false := by
    rw [← List.append_assoc, startsWith_append (List.append_ne_nil_of_right_ne_nil _ terminated),
      ends]
  simp only [List.append_assoc]
  simp only [← List.append_assoc] at gapEnds kindEnds spaceEnds
  refine cut_parts gaps ?_ letters ?_ spaces ?_ digits (on data rowEnds) inside (on [] dataEnds)
  · simpa only [List.append_assoc] using on _ gapEnds
  · simpa only [List.append_assoc] using on _ kindEnds
  · simpa only [List.append_assoc] using on _ spaceEnds

theorem Drawing.Complete.append {drawing : Drawing} (complete : drawing.Complete)
    (more : List Char) : { drawing with rest := drawing.rest ++ more }.Complete where
  named := complete.named
  usual := complete.usual
  numbered := complete.numbered
  unparted := by
    rw [← List.append_assoc,
      startsWith_append (List.append_ne_nil_of_right_ne_nil _ complete.terminated)]
    exact complete.unparted
  terminated := List.append_ne_nil_of_left_ne_nil complete.terminated more

theorem define_append {keyword after : Position}
    (success : define file keyword after rest = .ok found) (more : List Char) (file' : String)
    (keyword' after' : Position) : define file' keyword' after' (rest ++ more) = .ok found := by
  obtain ⟨complete, same⟩ := define_eq_ok.mp success
  rw [define_eq_ok, cut_append complete.terminated]
  generalize Drawing.cut rest = drawing at complete same
  exact ⟨complete.append more, same⟩

section Line

variable (line : ∀ next ∈ more.head?, next = '\n')

include line

/-- A class without the line feed is left where a line ends, and where more lines follow. -/
theorem startsWith_line (without : belongs '\n' = false) (chars : List Char) :
    startsWith belongs (chars ++ more) = startsWith belongs chars := by
  cases chars with
  | nil =>
    cases more with
    | nil => rfl
    | cons next further => rw [line next rfl]; exact without
  | cons char rest => rfl

theorem number_append (starts : first = '-' ∨ isDigit first = true)
    (success : number file position first rest = .ok found) (file' : String)
    (position' : Position) : number file' position' first (rest ++ more) = .ok found := by
  obtain ⟨row, after, rfl, digits, ends⟩ := exists_run isDigit rest
  have ends' := (startsWith_line line (show isDigit '\n' = false by decide) after).trans ends
  have parts := startsWith_line line isWordPart_newline after
  revert success
  rw [List.append_assoc, number_run starts digits ends, number_run starts digits ends', parts]
  split
  · intro success
    cases success
  split
  · intro success
    cases success
  · exact id

theorem word_append (success : word file position first rest = .ok found) (file' : String)
    (position' : Position) : word file' position' first (rest ++ more) = .ok found := by
  obtain ⟨tail, after, rfl, parts, stops⟩ := exists_run isWordPart rest
  have stops' := (startsWith_line line isWordPart_newline after).trans stops
  revert success
  rw [List.append_assoc]
  simp only [word, takeWhile_run parts stops, takeWhile_run parts stops', List.drop_left]
  split
  · intro success
    obtain ⟨block, defined, rfl⟩ := map_eq_ok.mp success
    rw [define_append defined]
    rfl
  · exact id

theorem header_append (rest : List Char) : header (rest ++ more) = header rest := by
  obtain ⟨tail, after, rfl, inside, stops⟩ := exists_run (fun char => decide (char ≠ '\n')) rest
  have stops' := (startsWith_line line (by decide) after).trans stops
  rw [List.append_assoc]
  simp only [header, takeWhile_run inside stops, takeWhile_run inside stops']

/-- A lexeme is read wherever it stands, and whatever lines follow. -/
theorem lexeme_append (success : lexeme file position first rest = .ok found) (file' : String)
    (position' : Position) : lexeme file' position' first (rest ++ more) = .ok found := by
  have dash : ((rest ++ more).head? = some '-') = (rest.head? = some '-') := by
    cases rest with
    | nil =>
      have none : more.head? ≠ some '-' := fun head => absurd (line '-' head) (by decide)
      simp [none]
    | cons char rest => rfl
  have headed := header_append line (first :: rest)
  rw [List.cons_append] at headed
  revert success
  simp only [lexeme, dash, headed]
  split
  · exact id
  split
  · exact id
  split
  · exact id
  split
  · rename_i starts
    exact fun success => number_append line starts success file' position'
  split
  · exact fun success => word_append line success file' position'
  · intro success
    cases success

end Line

/-- The tokens of a text but for the last are also those that it gives further down and with more
lines behind it. -/
theorem scan_append (success : scan file position chars = .ok tokens) :
    ∃ found, tokens = found ++ [⟨.endOfText, "", position.afterAll chars⟩] ∧
      ∀ (lines : Int) (more : List Char), (∀ next ∈ more.head?, next = '\n') →
        scan file (position.lowered lines) (chars ++ more) =
          (scan file ((position.afterAll chars).lowered lines) more).map
            (found.map (Token.lowered lines) ++ ·) := by
  induction position, chars using scan.induct generalizing tokens with
  | case1 position =>
    rw [scan] at success
    cases success
    refine ⟨[], rfl, fun lines more _ => ?_⟩
    change scan file (position.lowered lines) more = _
    simp only [Position.afterAll, List.foldl_nil, List.map_nil, List.nil_append]
    cases scan file (position.lowered lines) more <;> rfl
  | case2 position first rest skipped ih =>
    rw [scan, if_pos skipped] at success
    obtain ⟨found, rfl, further⟩ := ih success
    refine ⟨found, rfl, fun lines more line => ?_⟩
    rw [List.cons_append, scan, if_pos skipped, Position.after_lowered]
    exact further lines more line
  | case3 position first rest kept ih =>
    rw [scan, if_neg kept] at success
    obtain ⟨lexed, lexeme, success⟩ := bind_eq_ok.mp success
    obtain ⟨tokens, scanned, success⟩ := bind_eq_ok.mp success
    cases success
    -- Only the length of the lexeme matters here, so nothing need stand before it.
    have apart : Apart [] (first :: rest) := by
      intro last found
      cases found
    obtain ⟨passed, after, rfl, extra, _⟩ := lexeme_covers apart lexeme
    have ih := @ih lexed
    simp only [extra, List.take_left, List.drop_left] at scanned ih
    obtain ⟨found, rfl, further⟩ := ih scanned
    have behind : (position.afterAll (first :: passed)).afterAll after =
        position.afterAll (first :: (passed ++ after)) :=
      (Position.afterAll_append position (first :: passed) after).symm
    rw [behind] at further ⊢
    refine ⟨⟨lexed.kind, lexed.text, position⟩ :: found, rfl, fun lines more line => ?_⟩
    rw [List.cons_append, scan, if_neg kept, lexeme_append line lexeme file _]
    simp only [bind, Except.bind, extra, List.append_assoc, List.take_left, List.drop_left,
      Position.afterAll_lowered, further lines more line]
    cases scan file ((position.afterAll (first :: (passed ++ after))).lowered lines) more <;> rfl

theorem scan_newline (file : String) (position : Position) (rest : List Char) :
    scan file position ('\n' :: rest) =
      (scan file (position.after '\n') rest).map (⟨.newline, "\n", position⟩ :: ·) := by
  have found : lexeme file position '\n' rest = .ok ⟨.newline, "\n", 0⟩ := rfl
  rw [scan, if_neg (by decide), found]
  change scan file (position.after '\n') rest >>= _ = _
  cases scan file (position.after '\n') rest <;> rfl

end Lexer

/-- Behind a text and a line feed, another text gives its tokens so many lines further down. -/
theorem Token.scan_joined {file text text' : String} {tokens tokens' : List Token}
    (scanned : Token.scan file text = .ok tokens) (scanned' : Token.scan file text' = .ok tokens') :
    ∃ found last newline, tokens = found ++ [last] ∧ last.kind = .endOfText ∧
      newline.kind = .newline ∧ Token.scan file (text ++ "\n" ++ text') =
        .ok (found ++ newline :: tokens'.map (Token.lowered (1 + text.toList.count '\n'))) := by
  obtain ⟨found, rfl, onward⟩ := Lexer.scan_append scanned
  obtain ⟨found', rfl, onward'⟩ := Lexer.scan_append scanned'
  have first := onward 0 ('\n' :: text'.toList) (by simp)
  have further := onward' (1 + text.toList.count '\n') [] (by simp)
  have start : (Position.behind text.toList).after '\n' =
      Position.start.lowered (1 + text.toList.count '\n') := by
    simp [Position.behind, Position.after, Position.start, Position.lowered]
    omega
  have whole : (text ++ "\n" ++ text').toList = text.toList ++ '\n' :: text'.toList := by simp
  refine ⟨found, _, ⟨.newline, "\n", .behind text.toList⟩, rfl, rfl, rfl, ?_⟩
  rw [Position.lowered_zero, Position.lowered_zero, Token.map_lowered_zero,
    Position.afterAll_start] at first
  rw [List.append_nil] at further
  rw [Token.scan, whole, first, Lexer.scan_newline, start, further, Lexer.scan]
  simp [Except.map, Token.lowered]

end MailRoom
