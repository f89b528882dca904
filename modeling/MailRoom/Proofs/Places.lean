import MailRoom.Proofs.Lines
import MailRoom.Proofs.Moved

/-! Where the tokens of a text stand, and the errors in it. Main statement: `Program.error_place`,
by which the position of an error is that of a place in the text. -/
namespace MailRoom

namespace Lexer

variable {file : String} {position : Position} {first : Char} {rest chars : List Char}
  {error : ParseError}

/-- An error stands where some of the characters at hand have been passed. -/
def Behind (position : Position) (chars : List Char) (error : ParseError) : Prop :=
  ∃ passed after, chars = passed ++ after ∧ error.position = some (position.afterAll passed)

theorem behind_nil (position : Position) (chars : List Char) (cause : ParseCause) (file : String) :
    Behind position chars ⟨cause, file, position⟩ :=
  ⟨[], chars, rfl, rfl⟩

theorem number_error :
    FailsOnly (Behind position (first :: rest)) (number file position first rest) := by
  unfold number
  extract_lets sign body row written
  split
  · exact .error (behind_nil _ _ _ _)
  split
  · exact .error (behind_nil _ _ _ _)
  · exact .ok _

/-- What is wrong with a drawing is reported at its keyword, or where its kind or its number were to
stand. -/
theorem define_error {keyword after : Position} {word : List Char}
    (passed : after = keyword.afterAll word) :
    FailsOnly (Behind keyword (word ++ rest)) (define file keyword after rest) := by
  obtain ⟨gap, kind, space, row, data, further, rfl, cut, _⟩ := exists_cut rest
  subst passed
  have atKind (cause : ParseCause) : Behind keyword
      (word ++ (gap ++ (kind ++ (space ++ (row ++ (data ++ further))))))
      ⟨cause, file, (keyword.afterAll word).afterAll gap⟩ :=
    ⟨word ++ gap, _, (List.append_assoc ..).symm,
      congrArg some (Position.afterAll_append ..).symm⟩
  have atRow (cause : ParseCause) : Behind keyword
      (word ++ (gap ++ (kind ++ (space ++ (row ++ (data ++ further))))))
      ⟨cause, file, (((keyword.afterAll word).afterAll gap).afterAll kind).afterAll space⟩ := by
    refine ⟨word ++ (gap ++ (kind ++ space)), row ++ (data ++ further), by simp, ?_⟩
    simp only [Position.afterAll_append]
  simp only [define, cut]
  split
  · exact .error (atKind _)
  split
  · exact .error (behind_nil _ _ _ _)
  split
  · exact .error (atRow _)
  split
  · exact .error (atRow _)
  split
  · exact .error (behind_nil _ _ _ _)
  · exact .ok _

theorem word_error :
    FailsOnly (Behind position (first :: rest)) (word file position first rest) := by
  obtain ⟨tail, after, rfl, parts, stops⟩ := exists_run isWordPart rest
  simp only [word, takeWhile_run parts stops, List.drop_left]
  split
  · intro error failed
    have reported := @define_error file after position _ (first :: tail) rfl
    cases defined : define file position (position.afterAll (first :: tail)) after with
    | ok block => simp [defined, Except.map] at failed
    | error failure =>
      rw [defined] at failed
      cases failed
      exact reported _ defined
  · exact .ok _

/-- What cannot be read as a lexeme is reported at a place of the text. -/
theorem lexeme_error :
    FailsOnly (Behind position (first :: rest)) (lexeme file position first rest) := by
  simp only [lexeme]
  split
  · exact .ok _
  split
  · exact .ok _
  split
  · exact .ok _
  split
  · exact number_error
  split
  · exact word_error
  · exact .error (behind_nil _ _ _ _)

theorem Behind.step {passed : List Char} (behind : Behind (position.afterAll passed) rest error) :
    Behind position (passed ++ rest) error := by
  obtain ⟨further, after, rfl, there⟩ := behind
  exact ⟨passed ++ further, after, (List.append_assoc ..).symm,
    there.trans (congrArg some (Position.afterAll_append ..).symm)⟩

theorem scan_error : FailsOnly (Behind position chars) (scan file position chars) := by
  induction position, chars using scan.induct with
  | case1 position =>
    rw [scan]
    exact .ok _
  | case2 position first rest skipped ih =>
    rw [scan, if_pos skipped]
    intro error failed
    exact (show Behind (position.afterAll [first]) rest error from ih _ failed).step
  | case3 position first rest kept ih =>
    rw [scan, if_neg kept]
    refine .bind lexeme_error fun found _ => .bind ?_ fun _ _ => .ok _
    intro error failed
    have behind := (ih found error failed).step
    rwa [List.cons_append, List.take_append_drop] at behind

end Lexer

theorem Token.stands_or_ends {file text : String} {tokens : List Token} {token : Token}
    (scanned : Token.scan file text = .ok tokens) (member : token ∈ tokens) :
    (∃ span, token.Stands text.toList span) ∨
      token = ⟨.endOfText, "", .behind text.toList⟩ := by
  obtain ⟨found, spans, rfl, spread⟩ := (scan_lossless file text).1 _ scanned
  rcases List.mem_append.mp member with member | last
  · obtain ⟨place, there, same⟩ := List.getElem_of_mem member
    have span := spread.stand.get there (spread.stand.length_eq ▸ there)
    simp only [List.get_eq_getElem, same] at span
    exact .inl ⟨_, span⟩
  · exact .inr (List.mem_singleton.mp last)

theorem Token.exists_place {file text : String} {tokens : List Token} {token : Token}
    (scanned : Token.scan file text = .ok tokens) (member : token ∈ tokens) :
    ∃ before after, text.toList = before ++ after ∧ token.position = .behind before := by
  rcases Token.stands_or_ends scanned member with ⟨span, stands⟩ | rfl
  · exact ⟨_, _, (List.take_append_drop _ _).symm, stands.position⟩
  · exact ⟨text.toList, [], (List.append_nil _).symm, rfl⟩

/-- A text's error has the position of a place in it. -/
theorem Program.error_place {file text : String} {mnemonics : Mnemonics} {error : ParseError}
    (failed : parse file text mnemonics = .error (.rejected error)) :
    ∃ before after, text.toList = before ++ after ∧ error.position = some (.behind before) := by
  rcases bind_eq_error.mp failed with failed | ⟨tokens, scanned, failed⟩
  · obtain ⟨_, failed, same⟩ := mapError_eq_error.mp failed
    cases same
    obtain ⟨passed, after, whole, there⟩ := Lexer.scan_error error failed
    exact ⟨passed, after, whole, there.trans (congrArg some (Position.afterAll_start passed))⟩
  · have scanned := mapError_eq_ok.mp scanned
    -- Tokens paired with themselves: the error is at one of them.
    have still : Grammar.Move (fun token token' => token' = token ∧ token ∈ tokens)
        (Source.ofLines file ((Line.split text.toList).map String.ofList) mnemonics)
        (Source.ofLines file ((Line.split text.toList).map String.ofList) mnemonics) :=
      ⟨rfl, rfl, fun same => by rw [same.1], fun same => by rw [same.1]⟩
    have outcomes := Grammar.ofTokens_moved still
      (List.forall₂_same.mpr fun token member => ⟨rfl, member⟩)
    dsimp only at failed
    rw [failed] at outcomes
    cases outcomes with
    | error alike =>
      obtain ⟨token, _, ⟨_, member⟩, there, _⟩ := alike.exists_tokens rfl rfl
      obtain ⟨before, after, whole, place⟩ := Token.exists_place scanned member
      exact ⟨before, after, whole, there.trans (congrArg some place)⟩

end MailRoom
