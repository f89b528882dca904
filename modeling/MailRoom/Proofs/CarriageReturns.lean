import MailRoom.Proofs.Moved
import MailRoom.Proofs.Spans

/-! Lines that end with a carriage return and a line feed. Main statement:
`Program.parse_withReturns`, by which a text gives the same program with such line ends as with line
feeds alone, or an error with the same cause in the same line. -/
namespace MailRoom

namespace Line

/-- The text with a carriage return before every line feed. -/
def withReturns (chars : List Char) : List Char :=
  chars.flatMap fun char => if char = '\n' then ['\r', '\n'] else [char]

variable {chars rest : List Char} {char : Char}

theorem withReturns_append (first second : List Char) :
    withReturns (first ++ second) = withReturns first ++ withReturns second :=
  List.flatMap_append

theorem withReturns_newline (rest : List Char) :
    withReturns ('\n' :: rest) = '\r' :: '\n' :: withReturns rest := rfl

theorem withReturns_other (other : char ≠ '\n') (rest : List Char) :
    withReturns (char :: rest) = char :: withReturns rest := by
  simp [withReturns, other]

theorem withReturns_of_single (single : '\n' ∉ chars) : withReturns chars = chars := by
  induction chars with
  | nil => rfl
  | cons char rest ih =>
    obtain ⟨other, single⟩ := List.ne_and_not_mem_of_not_mem_cons single
    rw [withReturns_other (Ne.symm other), ih single]

/-- Carriage returns before line feeds leave the places behind these where they are. -/
theorem afterAll_withReturns (position : Position) (chars : List Char) :
    position.afterAll (withReturns chars) = position.afterAll chars := by
  induction chars generalizing position with
  | nil => rfl
  | cons char rest ih =>
    by_cases feed : char = '\n'
    · subst feed
      exact ih _
    · rw [withReturns_other feed]
      exact ih _

theorem filter_withReturns (chars : List Char) :
    (withReturns chars).filter (· ≠ '\r') = chars.filter (· ≠ '\r') := by
  induction chars with
  | nil => rfl
  | cons char rest ih =>
    by_cases feed : char = '\n'
    · subst feed
      simpa [withReturns_newline] using ih
    · rw [withReturns_other feed, List.filter_cons, List.filter_cons, ih]

theorem split_withReturns (plain : '\r' ∉ chars) : split (withReturns chars) = split chars := by
  induction chars with
  | nil => rfl
  | cons char rest ih =>
    obtain ⟨other, plain⟩ := List.ne_and_not_mem_of_not_mem_cons plain
    by_cases feed : char = '\n'
    · subst feed
      rw [withReturns_newline, split, split_break rfl (by simp),
        ih (List.not_mem_of_not_mem_cons plain)]
    · rw [withReturns_other feed]
      cases breaks : isBreak char with
      | true =>
        rw [split_break breaks fun same => absurd same.symm other,
          split_break breaks fun same => absurd same.symm other, ih plain]
      | false => rw [split_plain breaks, split_plain breaks, ih plain]

end Line

namespace Lexer

open Line

variable {belongs : Char → Bool} {chars rest : List Char} {first : Char} {file : String}
  {position : Position}

section Class

variable (both : belongs '\r' = belongs '\n')

include both

theorem startsWith_withReturns (chars : List Char) :
    startsWith belongs (withReturns chars) = startsWith belongs chars := by
  cases chars with
  | nil => rfl
  | cons char rest =>
    by_cases feed : char = '\n'
    · subst feed
      exact both
    · rw [withReturns_other feed]
      rfl

theorem inside_withReturns {run : List Char} (inside : ∀ char ∈ run, belongs char = true) :
    ∀ char ∈ withReturns run, belongs char = true := by
  intro char member
  obtain ⟨origin, present, member⟩ := List.mem_flatMap.mp member
  have belongs := inside origin present
  split at member
  · rename_i feed
    subst feed
    rcases List.mem_pair.mp member with rfl | rfl
    · exact both.trans belongs
    · exact belongs
  · exact List.mem_singleton.mp member ▸ belongs

theorem takeWhile_withReturns (chars : List Char) :
    (withReturns chars).takeWhile belongs = withReturns (chars.takeWhile belongs) := by
  obtain ⟨run, rest, rfl, inside, stops⟩ := exists_run belongs chars
  rw [withReturns_append, takeWhile_run inside stops,
    takeWhile_run (inside_withReturns both inside) ((startsWith_withReturns both rest).trans stops)]

end Class

theorem drop_withReturns (belongs : Char → Bool) (chars : List Char) :
    (withReturns chars).drop (withReturns (chars.takeWhile belongs)).length =
      withReturns (chars.drop (chars.takeWhile belongs).length) := by
  obtain ⟨run, rest, rfl, inside, stops⟩ := exists_run belongs chars
  rw [takeWhile_run inside stops, withReturns_append, List.drop_left, List.drop_left]

theorem isEmpty_withReturns (chars : List Char) : (withReturns chars).isEmpty = chars.isEmpty := by
  cases chars with
  | nil => rfl
  | cons char rest =>
    by_cases feed : char = '\n'
    · subst feed
      rfl
    · rw [withReturns_other feed]
      rfl

/-- Lexemes of the same kind and text, of which one spans a stretch of a text and the other the same
stretch with carriage returns. -/
structure Respelled (rest : List Char) (found found' : Lexeme) : Prop where
  kind : found'.kind = found.kind
  text : found'.text = found.text
  spans : ∃ passed after, rest = passed ++ after ∧ found.extra = passed.length ∧
    found'.extra = (withReturns passed).length

/-- The parts of a drawing with carriage returns. -/
def Drawing.withReturns (drawing : Drawing) : Drawing where
  gap := Line.withReturns drawing.gap
  kind := Line.withReturns drawing.kind
  space := Line.withReturns drawing.space
  row := Line.withReturns drawing.row
  data := Line.withReturns drawing.data
  rest := Line.withReturns drawing.rest

theorem cut_withReturns (chars : List Char) :
    Drawing.cut (withReturns chars) = (Drawing.cut chars).withReturns := by
  have gaps : isBetweenParts '\r' = isBetweenParts '\n' := by decide
  have parts : isWordPart '\r' = isWordPart '\n' := by decide +kernel
  have digits : isDigit '\r' = isDigit '\n' := by decide
  have data : decide ('\r' ≠ ';') = decide ('\n' ≠ ';') := by decide
  simp only [Drawing.cut, Drawing.withReturns, takeWhile_withReturns gaps,
    takeWhile_withReturns parts, takeWhile_withReturns digits,
    @takeWhile_withReturns (fun char => decide (char ≠ ';')) data, drop_withReturns]

theorem define_withReturns (file : String) (keyword after : Position) (rest : List Char) :
    Paired Eq (Respelled rest) (define file keyword after rest)
      (define file keyword after (withReturns rest)) := by
  have letters : '\n' ∉ (Drawing.cut rest).kind := fun member => by
    have part := List.mem_takeWhile_imp member
    rw [isWordPart_newline] at part
    cases part
  have cut' := cut_withReturns rest
  obtain ⟨gap, kind, space, row, data, further, whole, cut, _, _, _, digits, _, semicolon⟩ :=
    exists_cut rest
  have digits : '\n' ∉ row := fun member => absurd (digits _ member) (by decide)
  rw [cut] at letters cut'
  simp only [Drawing.withReturns, withReturns_of_single letters, withReturns_of_single digits]
    at cut'
  have behind : startsWith isWordPart (withReturns data ++ withReturns further) =
      startsWith isWordPart (data ++ further) := by
    rw [← withReturns_append, startsWith_withReturns (by decide +kernel)]
  simp only [define, cut, cut', Drawing.kindText, Drawing.rowText, afterAll_withReturns, behind,
    isEmpty_withReturns]
  split
  · exact .error rfl
  split
  · exact .error rfl
  split
  · exact .error rfl
  split
  · exact .error rfl
  split
  · exact .error rfl
  rename_i terminated
  obtain ⟨char, after, rfl⟩ : ∃ char after, further = char :: after := by
    cases further with
    | nil => cases terminated rfl
    | cons char after => exact ⟨char, after, rfl⟩
  obtain rfl := semicolon char rfl
  refine .ok ⟨rfl, ?_, gap ++ (kind ++ (space ++ (row ++ (data ++ [';'])))), after, ?_, ?_, ?_⟩
  · simp only [Drawing.text, Drawing.kindText, Drawing.rowText, Drawing.dataText,
      filter_withReturns]
  · simp [whole]
  · simp [Drawing.length, Nat.add_assoc]
  · simp [Drawing.length, withReturns_append, withReturns_of_single letters,
      withReturns_of_single digits, Nat.add_assoc]
    rfl

theorem number_withReturns (file : String) (position : Position)
    (starts : first = '-' ∨ isDigit first = true) (rest : List Char) :
    Paired Eq (Respelled rest) (number file position first rest)
      (number file position first (withReturns rest)) := by
  obtain ⟨row, after, rfl, digits, ends⟩ := exists_run isDigit rest
  have single : '\n' ∉ row := fun member => absurd (digits _ member) (by decide)
  have ends' := (@startsWith_withReturns isDigit (by decide) after).trans ends
  have parts := @startsWith_withReturns isWordPart (by decide +kernel) after
  rw [withReturns_append, withReturns_of_single single, number_run starts digits ends,
    number_run starts digits ends', parts]
  split
  · exact .error rfl
  split
  · exact .error rfl
  · exact .ok ⟨rfl, rfl, row, after, rfl, rfl, by rw [withReturns_of_single single]⟩

theorem word_withReturns (file : String) (position : Position) (first : Char)
    (rest : List Char) :
    Paired Eq (Respelled rest) (word file position first rest)
      (word file position first (withReturns rest)) := by
  obtain ⟨tail, after, rfl, parts, stops⟩ := exists_run isWordPart rest
  have single : '\n' ∉ tail := fun member => by
    have part := parts _ member
    rw [isWordPart_newline] at part
    cases part
  have stops' := (@startsWith_withReturns isWordPart (by decide +kernel) after).trans stops
  rw [withReturns_append, withReturns_of_single single]
  simp only [word, takeWhile_run parts stops, takeWhile_run parts stops', List.drop_left]
  split
  · refine (define_withReturns _ _ _ _).map fun {block block'} same => ?_
    obtain ⟨passed, further, rfl, extra, extra'⟩ := same.spans
    refine ⟨same.kind, same.text, tail ++ passed, further, by simp, ?_, ?_⟩
    · rw [extra, List.length_append]
    · rw [extra', withReturns_append, withReturns_of_single single, List.length_append]
  · exact .ok ⟨rfl, rfl, tail, after, rfl, rfl, by rw [withReturns_of_single single]⟩

/-- What a lexeme stands before is read on from, perhaps without a carriage return that it has taken
along. -/
def Follows (file : String) (position : Position) (first : Char) (rest : List Char)
    (found found' : Lexeme) : Prop :=
  found'.kind = found.kind ∧ found'.text = found.text ∧
    scan file (position.afterAll (first :: (withReturns rest).take found'.extra))
        ((withReturns rest).drop found'.extra) =
      scan file (position.afterAll (first :: rest.take found.extra))
        (withReturns (rest.drop found.extra))

theorem Respelled.follows {found found' : Lexeme} (same : Respelled rest found found')
    (other : first ≠ '\n') : Follows file position first rest found found' := by
  obtain ⟨passed, after, rfl, extra, extra'⟩ := same.spans
  refine ⟨same.kind, same.text, ?_⟩
  rw [extra, extra', withReturns_append, List.take_left, List.take_left, List.drop_left,
    List.drop_left, ← withReturns_other other, afterAll_withReturns]

/-- A header is kept without the carriage returns at its end, which it spans. -/
theorem header_returns {tail after : List Char} (single : '\n' ∉ tail)
    (stops : startsWith (fun char => decide (char ≠ '\n')) after = false) (returns : Nat) :
    header ('-' :: '-' :: tail ++ (List.replicate returns '\r' ++ after)) =
      ⟨.header, String.ofList (('-' :: '-' :: tail).reverse.dropWhile (· = '\r')).reverse,
        ('-' :: tail ++ List.replicate returns '\r').length⟩ := by
  have inside : ∀ char ∈ '-' :: '-' :: tail ++ List.replicate returns '\r',
      decide (char ≠ '\n') = true := by
    intro char member
    have other : char ≠ '\n' := by
      rintro rfl
      simp [single] at member
    simpa using other
  have line := takeWhile_run inside stops
  have returned : ∀ char ∈ List.replicate returns '\r', decide (char = '\r') = true := by simp
  rw [List.append_assoc] at line
  simp only [header, line, List.reverse_append, List.reverse_replicate,
    List.dropWhile_append_of_pos returned]
  rfl

theorem exists_returns (rest : List Char)
    (stops : startsWith (fun char => decide (char ≠ '\n')) rest = false) :
    ∃ returns after, withReturns rest = List.replicate returns '\r' ++ after ∧
      startsWith (fun char => decide (char ≠ '\n')) after = false ∧
      ∀ file position, scan file position (withReturns rest) =
        scan file (position.afterAll (List.replicate returns '\r')) after := by
  cases rest with
  | nil => exact ⟨0, [], rfl, rfl, fun _ _ => rfl⟩
  | cons next rest =>
    obtain rfl : next = '\n' := by simpa [startsWith] using stops
    refine ⟨1, '\n' :: withReturns rest, rfl, rfl, fun file position => ?_⟩
    rw [withReturns_newline, scan, if_pos (by decide)]
    rfl

/-- A header takes along the carriage return at its end, which would be skipped otherwise. -/
theorem header_withReturns (file : String) (position : Position) (rest : List Char) :
    Follows file position '-' ('-' :: rest) (header ('-' :: '-' :: rest))
      (header ('-' :: withReturns ('-' :: rest))) := by
  obtain ⟨tail, rest, rfl, inside, stops⟩ := exists_run (fun char => decide (char ≠ '\n')) rest
  have single : '\n' ∉ tail := fun member => by simpa using inside '\n' member
  obtain ⟨returns, after, split, stops', skipped⟩ := exists_returns rest stops
  have line : withReturns ('-' :: (tail ++ rest)) =
      '-' :: tail ++ (List.replicate returns '\r' ++ after) := by
    rw [withReturns_other (by decide), withReturns_append, withReturns_of_single single, split]
    rfl
  have found : header ('-' :: '-' :: (tail ++ rest)) = _ := header_returns single stops 0
  have found' := header_returns single stops' returns
  simp only [List.cons_append] at found' line
  -- The scan goes on behind the carriage return, where it would have skipped to.
  have spans : '-' :: (tail ++ rest) = ('-' :: tail ++ List.replicate 0 '\r') ++ rest := by simp
  have spans' : '-' :: (tail ++ (List.replicate returns '\r' ++ after)) =
      '-' :: (tail ++ List.replicate returns '\r') ++ after := by simp
  rw [Follows, line, found, found']
  refine ⟨rfl, rfl, ?_⟩
  dsimp only
  rw [spans, spans', List.take_left, List.drop_left, List.take_left, List.drop_left, skipped,
    ← Position.afterAll_append]
  simp

/-- A character that is no line feed starts the same lexeme as before. -/
theorem lexeme_withReturns (file : String) (position : Position) (kept : first ≠ '\n')
    (rest : List Char) :
    Paired Eq (Follows file position first rest) (lexeme file position first rest)
      (lexeme file position first (withReturns rest)) := by
  have dash : ((withReturns rest).head? = some '-') = (rest.head? = some '-') := by
    cases rest with
    | nil => rfl
    | cons char rest =>
      by_cases feed : char = '\n'
      · simp [feed, withReturns_newline]
      · rw [withReturns_other feed, List.head?_cons, List.head?_cons]
  simp only [lexeme, kept, if_false, dash]
  split
  · rename_i dashes
    obtain ⟨rfl, next⟩ := dashes
    obtain ⟨further, rfl⟩ := List.head?_eq_some_iff.mp next
    exact .ok (header_withReturns file position further)
  split
  · exact .ok (Respelled.follows ⟨rfl, rfl, [], rest, rfl, rfl, rfl⟩ kept)
  split
  · rename_i starts
    have starts : first = '-' ∨ isDigit first = true := by simpa using starts
    exact (number_withReturns file position starts rest).imp id fun same => same.follows kept
  split
  · exact (word_withReturns file position first rest).imp id fun same => same.follows kept
  · exact .error rfl

end Lexer

/-- Tokens that differ in their columns at most, and there only if they are newlines. -/
inductive Token.Alike : Token → Token → Prop where
  | same (token : Token) : Alike token token
  | newline (text : String) (line column column' : Int) :
      Alike ⟨.newline, text, ⟨line, column⟩⟩ ⟨.newline, text, ⟨line, column'⟩⟩

theorem Lexer.scan_withReturns (file : String) (position : Position) (chars : List Char) :
    Paired Eq (List.Forall₂ Token.Alike) (scan file position chars)
      (scan file position (Line.withReturns chars)) := by
  induction position, chars using scan.induct with
  | case1 position =>
    rw [Line.withReturns, List.flatMap_nil, scan]
    exact .ok (.cons (.same _) .nil)
  | case2 position first rest skipped ih =>
    have other : first ≠ '\n' := by
      rintro rfl
      cases skipped
    rw [Line.withReturns_other other, scan, if_pos skipped, scan, if_pos skipped]
    exact ih
  | case3 position first rest kept ih =>
    by_cases feed : first = '\n'
    · subst feed
      -- The carriage return is skipped, and the newline is one column further on.
      rw [Line.withReturns_newline, scan, if_neg kept, scan, if_pos (by decide), scan, if_neg kept]
      refine (ih ⟨.newline, "\n", 0⟩).bind fun further => ?_
      exact .ok (.cons (.newline ..) further)
    · rw [Line.withReturns_other feed, scan, if_neg kept, scan, if_neg kept]
      refine (lexeme_withReturns file position feed rest).bind fun {found found'} follows => ?_
      obtain ⟨kind, text, scanned⟩ := follows
      simp only [scanned, kind, text]
      refine (ih found).bind fun further => ?_
      exact .ok (.cons (.same _) further)

/-- Failures with the same cause in the same line. -/
inductive ReadFailure.Alike : ReadFailure → ReadFailure → Prop where
  | rejected {cause : ParseCause} {file : String} {place place' : Option Position}
      (line : place.map Position.line = place'.map Position.line) :
      Alike (.rejected ⟨cause, file, place⟩) (.rejected ⟨cause, file, place'⟩)
  | unread {failure : ReadFailure} (placeless : ∀ error, failure ≠ .rejected error) :
      Alike failure failure

theorem Token.Alike.bare {token token' : Token} (alike : token.Alike token') :
    token'.kind = token.kind ∧ token'.text = token.text := by
  cases alike <;> exact ⟨rfl, rfl⟩

theorem Token.Alike.position {token token' : Token} (alike : token.Alike token') :
    ∃ line column column', token.position = ⟨line, column⟩ ∧ token'.position = ⟨line, column'⟩ := by
  cases alike with
  | same => exact ⟨_, _, _, rfl, rfl⟩
  | newline => exact ⟨_, _, _, rfl, rfl⟩

theorem Token.Alike.eq {token token' : Token} (alike : token.Alike token')
    (kind : token.kind ≠ .newline) : token' = token := by
  cases alike with
  | same => rfl
  | newline => exact absurd rfl kind

theorem ReadFailure.Moved.alike {file : String} {failure failure' : ReadFailure}
    (same : failure.Moved Token.Alike file failure') : failure.Alike failure' := by
  cases same with
  | rejected there cause =>
    obtain ⟨line, column, column', place, place'⟩ := there.position
    rw [place, place']
    exact .rejected rfl
  | trailing there kind =>
    rw [there.eq kind]
    exact .rejected rfl
  | unread placeless => exact .unread placeless

theorem Program.Moved.eq {source : Source} {program program' : Program}
    (same : program.Moved Token.Alike source source program') : program' = program := by
  obtain ⟨instructions, labels, markers, definitions, last, last', there, ends, place, place'⟩ :=
    same
  have instructions : program'.instructions = program.instructions := by
    refine (List.forall₂_eq_eq_eq ▸ instructions.imp fun one other same => ?_).symm
    cases same with
    | moved there kind => rw [there.eq (by simp [kind])]
  have location : program'.location = program.location := by
    rw [place, place', there.eq (by simp [ends])]
  cases program
  cases program'
  simp_all

/-- A text without carriage returns gives the same program when each of its lines ends with one
before the line feed, or an error with the same cause in the same line. -/
theorem Program.parse_withReturns {text : String} (plain : '\r' ∉ text.toList) (file : String)
    (mnemonics : Mnemonics) :
    Paired ReadFailure.Alike Eq (parse file text mnemonics)
      (parse file (String.ofList (Line.withReturns text.toList)) mnemonics) := by
  have move (source : Source) : Grammar.Move Token.Alike source source :=
    ⟨rfl, rfl, fun alike => alike.bare.1, fun alike => alike.bare.2⟩
  have scanned : Paired ReadFailure.Alike (List.Forall₂ Token.Alike)
      ((Lexer.scan file .start text.toList).mapError .rejected)
      ((Lexer.scan file .start (Line.withReturns text.toList)).mapError .rejected) := by
    refine (Lexer.scan_withReturns file .start text.toList).mapError ?_
    rintro error _ rfl
    exact .rejected rfl
  rw [parse, parse, String.toList_ofList, Line.split_withReturns plain, Token.scan, Token.scan,
    String.toList_ofList]
  refine scanned.bind fun rows => ?_
  exact (Grammar.ofTokens_moved (move _) rows).imp (·.alike) (·.eq.symm)

theorem Program.parse_withReturns_drawn : '\r' ∉ "-- a\nDEFINE LABEL\n0\nbc;\n".toList ∧
    Paired ReadFailure.Alike Eq (parse "" "-- a\nDEFINE LABEL\n0\nbc;\n" .standard)
      (parse "" "-- a\r\nDEFINE LABEL\r\n0\r\nbc;\r\n" .standard) := by
  have plain : '\r' ∉ "-- a\nDEFINE LABEL\n0\nbc;\n".toList := by decide
  have written : String.ofList (Line.withReturns "-- a\nDEFINE LABEL\n0\nbc;\n".toList) =
      "-- a\r\nDEFINE LABEL\r\n0\r\nbc;\r\n" := by
    decide
  exact ⟨plain, written ▸ parse_withReturns plain "" .standard⟩

end MailRoom
