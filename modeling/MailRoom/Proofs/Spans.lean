import MailRoom.Proofs.Reading

/-! Where the tokens of a text stand. Main statement: `Token.scan_lossless`, by which the tokens of
a text are spans of it in order with nothing but blanks outside them, and by which going over a text
takes no more rounds than the text has characters. -/
namespace MailRoom

namespace Position

/-- The position behind some characters. Its line counts their line feeds, its column the
characters behind the last of these. -/
def behind (before : List Char) : Position where
  line := 1 + before.count '\n'
  column := 1 + (before.reverse.takeWhile (· ≠ '\n')).length

theorem afterAll_start (before : List Char) : start.afterAll before = behind before := by
  induction before using List.reverseRecOn with
  | nil => rfl
  | append_singleton before char ih =>
    rw [afterAll_append, ih]
    by_cases line : char = '\n'
    · simp [afterAll, after, behind, line]
      omega
    · simp [afterAll, after, behind, line]
      omega

theorem behind_afterAll (before chars : List Char) :
    (behind before).afterAll chars = behind (before ++ chars) := by
  rw [← afterAll_start, ← afterAll_start, afterAll_append]

end Position

namespace Lexer

/-- A stretch between others is of a form, and no longer stretch around it is. -/
structure Maximal (form : List Char → Prop) (before middle after : List Char) : Prop where
  formed : form middle
  longest : ∀ left right, left <:+ before → right <+: after → form (left ++ middle ++ right) →
    left = [] ∧ right = []

def IsWordRow (chars : List Char) : Prop := IsWord (String.ofList chars)

def IsNumeral (chars : List Char) : Prop := ∃ value, Numeral.Denotes (String.ofList chars) value

/-- The kind and the text of the token that a stretch between others stands for. -/
inductive Spelled : List Char → List Char → List Char → TokenKind → String → Prop where
  | newline {before after : List Char} : Spelled before ['\n'] after .newline "\n"
  | openBracket {before after : List Char} : Spelled before ['['] after .openBracket "["
  | closeBracket {before after : List Char} : Spelled before [']'] after .closeBracket "]"
  | colon {before after : List Char} : Spelled before [':'] after .colon ":"
  | word {before middle after : List Char} (maximal : Maximal IsWordRow before middle after)
      (free : String.ofList middle ≠ "DEFINE") :
      Spelled before middle after .word (String.ofList middle)
  | number {before middle after : List Char} (maximal : Maximal IsNumeral before middle after) :
      Spelled before middle after .number (String.ofList middle)
  /-- The rest of a line, of which the carriage returns at its end are not kept. -/
  | header {before kept after : List Char} {returns : Nat} (dashes : ['-', '-'] <+: kept)
      (line : '\n' ∉ kept) (last : kept.getLast? ≠ some '\r')
      (ends : ∀ next ∈ after.head?, next = '\n') :
      Spelled before (kept ++ List.replicate returns '\r') after .header (String.ofList kept)
  /-- A drawing up to the first semicolon behind its number. -/
  | define {before gap kind space row data after : List Char}
      (gaps : gap ≠ [] ∧ ∀ char ∈ gap, isBetweenParts char = true)
      (usual : String.ofList kind = "COMMENT" ∨ String.ofList kind = "LABEL")
      (spaces : space ≠ [] ∧ ∀ char ∈ space, isBetweenParts char = true)
      (digits : row ≠ [] ∧ ∀ char ∈ row, isDigit char = true)
      (stops : startsWith isWordPart (data ++ [';']) = false) (first : ';' ∉ data) :
      Spelled before ("DEFINE".toList ++ (gap ++ (kind ++ (space ++ (row ++ (data ++ [';']))))))
        after .define
        (String.ofList kind ++ " " ++ String.ofList row ++ "\n" ++
          String.ofList (trimChars (data.filter (· ≠ '\r'))))

/-- Neither a word nor a numeral goes on from some characters into those behind them. -/
def Apart (before after : List Char) : Prop :=
  ∀ last ∈ before.getLast?, (isWordPart last = true → startsWith isWordPart after = false) ∧
    (last = '-' → startsWith isDigit after = false)

variable {before middle after : List Char}

theorem apart_of_stops (before : List Char) (stops : startsWith isWordPart after = false) :
    Apart before after :=
  fun _ _ => ⟨fun _ => stops, fun _ => startsWith_isDigit stops⟩

theorem apart_behind {last : Char} (before : List Char) (part : isWordPart last = false)
    (minus : last ≠ '-') (after : List Char) : Apart (before ++ [last]) after := by
  intro char found
  rw [List.getLast?_append_of_ne_nil _ (by simp)] at found
  cases found
  exact ⟨fun inside => by simp [part] at inside, fun same => absurd same minus⟩

theorem apart_skipped {first : Char} (before : List Char) (skipped : isSkipped first = true)
    (after : List Char) : Apart (before ++ [first]) after := by
  have blank : first = ' ' ∨ first = '\t' ∨ first = '\r' := by
    simpa [isSkipped, or_assoc] using skipped
  rcases blank with rfl | rfl | rfl <;> exact apart_behind _ (by decide +kernel) (by decide) after

theorem ne_nil_of_stops {belongs : Char → Bool} {gap row after : List Char}
    (stops : startsWith belongs (gap ++ (row ++ after)) = false)
    (starts : startsWith belongs row = true) : gap ≠ [] := by
  rintro rfl
  cases row with
  | nil => cases starts
  | cons first rest => cases starts.symm.trans stops

theorem Apart.of_suffix {left : List Char} {last : Char} (apart : Apart before after)
    (suffix : left ++ [last] <:+ before) :
    (isWordPart last = true → startsWith isWordPart after = false) ∧
      (last = '-' → startsWith isDigit after = false) := by
  obtain ⟨front, rfl⟩ := suffix
  exact apart last (by simp)

theorem maximal_word (word : IsWordRow middle) (apart : Apart before (middle ++ after))
    (stops : startsWith isWordPart after = false) : Maximal IsWordRow before middle after := by
  have starts : startsWith isWordStart middle = true := by
    simpa only [String.toList_ofList] using word.starts
  cases middle with
  | nil => cases starts
  | cons first rest =>
    have part : isWordPart first = true := isWordPart_of_isWordStart starts
    refine ⟨word, fun left right suffix further longer => ?_⟩
    have parts := longer.parts
    rw [String.toList_ofList] at parts
    constructor
    · rcases List.eq_nil_or_concat' left with none | ⟨front, last, rfl⟩
      · exact none
      · have stopped := (apart.of_suffix suffix).1 (parts last (by simp))
        simp [startsWith, part] at stopped
    · cases right with
      | nil => rfl
      | cons next others =>
        obtain ⟨beyond, rfl⟩ := further
        simp [startsWith, parts next (by simp)] at stops

theorem IsNumeral.parts {head : Char} {tail : List Char} (numeral : IsNumeral (head :: tail)) :
    (head = '-' ∨ isDigit head = true) ∧ ∀ char ∈ tail, isDigit char = true := by
  obtain ⟨value, denotes⟩ := numeral
  generalize written : String.ofList (head :: tail) = text at denotes
  cases denotes with
  | natural nonempty digits =>
    cases String.ofList_injective written
    exact ⟨.inr (digits head (by simp)), fun char member => digits char (by simp [member])⟩
  | negative nonempty digits =>
    cases String.ofList_injective written
    exact ⟨.inl rfl, digits⟩

theorem maximal_number {rest : List Char} {first : Char} (numeral : IsNumeral (first :: rest))
    (apart : Apart before (first :: rest ++ after)) (stops : startsWith isWordPart after = false) :
    Maximal IsNumeral before (first :: rest) after := by
  refine ⟨numeral, fun left right suffix further longer => ⟨?_, ?_⟩⟩
  · rcases List.eq_nil_or_concat' left with none | ⟨front, last, rfl⟩
    · exact none
    · obtain ⟨unparted, unsigned⟩ := apart.of_suffix suffix
      have inside : isDigit first = true ∧ (last = '-' ∨ isDigit last = true) := by
        cases front with
        | nil =>
          have parts := longer.parts
          exact ⟨parts.2 first (by simp), parts.1⟩
        | cons head tail =>
          have parts := longer.parts
          exact ⟨parts.2 first (by simp), .inr (parts.2 last (by simp))⟩
      obtain ⟨digit, minus | row⟩ := inside
      · have stopped := unsigned minus
        simp [startsWith, digit] at stopped
      · have stopped := unparted (isWordPart_of_isDigit row)
        simp [startsWith, isWordPart_of_isDigit digit] at stopped
  · cases right with
    | nil => rfl
    | cons next others =>
      have digit : isDigit next = true := by
        cases left with
        | nil => exact longer.parts.2 next (by simp)
        | cons head tail => exact longer.parts.2 next (by simp)
      obtain ⟨beyond, rfl⟩ := further
      simp [startsWith, isWordPart_of_isDigit digit] at stops

/-- A lexeme spans a stretch behind some characters that spells it, and neither a word nor a numeral
goes on from there. -/
def Covers (before : List Char) (first : Char) (rest : List Char) (found : Lexeme) : Prop :=
  ∃ tail after, rest = tail ++ after ∧ found.extra = tail.length ∧
    Spelled before (first :: tail) after found.kind found.text ∧
    Apart (before ++ first :: tail) after

variable {file : String} {position : Position} {first : Char} {rest : List Char} {found : Lexeme}

/-- What a line has before the carriage returns at its end. -/
theorem exists_kept (line : List Char) : ∃ kept returns,
    line = kept ++ List.replicate returns '\r' ∧ kept.getLast? ≠ some '\r' ∧
      (line.reverse.dropWhile (· = '\r')).reverse = kept := by
  obtain ⟨run, rest, split, returns, stops⟩ := exists_run (· = '\r') line.reverse
  have all : run = List.replicate run.length '\r' :=
    List.eq_replicate_length.mpr fun char member => by simpa using returns char member
  refine ⟨rest.reverse, run.length, ?_, ?_, ?_⟩
  · rw [← List.reverse_reverse line, split, List.reverse_append]
    nth_rewrite 1 [all]
    rw [List.reverse_replicate]
  · rw [List.getLast?_reverse]
    intro last
    simp [startsWith, last] at stops
  · rw [split, dropWhile_run returns stops]

theorem header_covers (before rest : List Char) :
    Covers before '-' ('-' :: rest) (header ('-' :: '-' :: rest)) := by
  obtain ⟨tail, after, rfl, inside, stops⟩ := exists_run (· ≠ '\n') rest
  have line : ('-' :: '-' :: (tail ++ after)).takeWhile (· ≠ '\n') = '-' :: '-' :: tail :=
    takeWhile_run (List.forall_mem_cons.mpr ⟨rfl, List.forall_mem_cons.mpr ⟨rfl, inside⟩⟩) stops
  obtain ⟨kept, returns, split, last, text⟩ := exists_kept ('-' :: '-' :: tail)
  have ends : ∀ next ∈ after.head?, next = '\n' := by
    intro next found
    simpa [startsWith, Option.mem_def.mp found] using stops
  have dashes : ['-', '-'] <+: kept := by
    cases kept with
    | nil => cases returns <;> cases split
    | cons first others =>
      cases others with
      | nil => cases returns <;> cases split
      | cons second others =>
        cases split
        exact ⟨_, rfl⟩
  have inLine : '\n' ∉ kept := by
    intro member
    have present : '\n' ∈ '-' :: '-' :: tail := split ▸ List.mem_append_left _ member
    have other := inside '\n' (by simpa using present)
    simp at other
  have spelled : Spelled before ('-' :: '-' :: tail) after .header (String.ofList kept) :=
    split ▸ .header dashes inLine last ends
  have unparted : startsWith isWordPart after = false := by
    cases after with
    | nil => rfl
    | cons next others => rw [ends next rfl]; exact stops_at isWordPart_newline others
  refine ⟨'-' :: tail, after, rfl, ?_, ?_, apart_of_stops _ unparted⟩
  · simp only [header, line]
    rfl
  · simp only [header, line, text]
    exact spelled

theorem number_covers (starts : first = '-' ∨ isDigit first = true)
    (apart : Apart before (first :: rest))
    (success : number file position first rest = .ok found) : Covers before first rest found := by
  obtain ⟨row, after, rfl, digits, ends⟩ := exists_run isDigit rest
  rw [number_run starts digits ends] at success
  split at success
  · cases success
  rename_i written
  split at success
  · cases success
  rename_i stops
  cases success
  have stops : startsWith isWordPart after = false := by simpa using stops
  have numeral : IsNumeral (first :: row) := exists_denotes starts digits written
  exact ⟨row, after, rfl, rfl, .number (maximal_number numeral apart stops),
    apart_of_stops _ stops⟩

/-- A text behind the word for drawings, cut where one class of characters gives way to the next. -/
theorem exists_cut (chars : List Char) : ∃ gap kind space row data rest,
    chars = gap ++ (kind ++ (space ++ (row ++ (data ++ rest)))) ∧
      Drawing.cut chars = ⟨gap, kind, space, row, data, rest⟩ ∧
      (∀ char ∈ gap, isBetweenParts char = true) ∧
      startsWith isWordPart (space ++ (row ++ (data ++ rest))) = false ∧
      (∀ char ∈ space, isBetweenParts char = true) ∧ (∀ char ∈ row, isDigit char = true) ∧
      ';' ∉ data ∧ ∀ char ∈ rest.head?, char = ';' := by
  obtain ⟨gap, fromKind, rfl, gaps, gapEnds⟩ := exists_run isBetweenParts chars
  obtain ⟨kind, fromSpace, rfl, letters, kindEnds⟩ := exists_run isWordPart fromKind
  obtain ⟨space, fromRow, rfl, spaces, spaceEnds⟩ := exists_run isBetweenParts fromSpace
  obtain ⟨row, fromData, rfl, digits, rowEnds⟩ := exists_run isDigit fromRow
  obtain ⟨data, rest, rfl, inside, dataEnds⟩ := exists_run (· ≠ ';') fromData
  refine ⟨gap, kind, space, row, data, rest, rfl,
    cut_parts gaps gapEnds letters kindEnds spaces spaceEnds digits rowEnds inside dataEnds,
    gaps, kindEnds, spaces, digits, ?_, ?_⟩
  · intro member
    simpa using inside ';' member
  · intro char found
    simpa [startsWith, Option.mem_def.mp found] using dataEnds

/-- A drawing that is read spans all up to a semicolon, and is spelled behind its keyword. -/
theorem define_spelled {keyword behind : Position} {block : Lexeme}
    (stops : startsWith isWordPart rest = false)
    (success : define file keyword behind rest = .ok block) :
    ∃ span after, rest = span ++ [';'] ++ after ∧ block.extra = (span ++ [';']).length ∧
      ∀ before, Spelled before ("DEFINE".toList ++ (span ++ [';'])) after block.kind block.text := by
  obtain ⟨gap, kind, space, row, data, rest, rfl, cut, gaps, kindEnds, spaces, digits, first,
    semicolon⟩ := exists_cut rest
  rw [define_eq_ok, cut] at success
  obtain ⟨⟨starts, usual, numbered, unparted, terminated⟩, rfl⟩ := success
  dsimp only at starts usual numbered unparted terminated
  cases rest with
  | nil => exact absurd rfl terminated
  | cons char after =>
    obtain rfl := semicolon char rfl
    have digits : row ≠ [] ∧ ∀ char ∈ row, isDigit char = true := ⟨numbered, digits⟩
    have unparted : startsWith isWordPart (data ++ [';']) = false := by
      cases data with
      | nil => exact stops_at (by decide +kernel) []
      | cons next others => simpa [startsWith] using unparted
    have named : startsWith isWordPart kind = true := by
      cases kind with
      | nil => cases starts
      | cons next others => exact isWordPart_of_isWordStart starts
    have numbered : startsWith isWordPart row = true := by
      obtain ⟨next, others, rfl⟩ := List.exists_cons_of_ne_nil digits.1
      exact isWordPart_of_isDigit (digits.2 next (by simp))
    have gaps : gap ≠ [] ∧ ∀ char ∈ gap, isBetweenParts char = true :=
      ⟨ne_nil_of_stops stops named, gaps⟩
    have spaces : space ≠ [] ∧ ∀ char ∈ space, isBetweenParts char = true :=
      ⟨ne_nil_of_stops kindEnds numbered, spaces⟩
    refine ⟨gap ++ (kind ++ (space ++ (row ++ data))), after, by simp, ?_, fun before => ?_⟩
    · simp [Drawing.length]
      omega
    · have spelled := @Spelled.define before gap kind space row data after gaps usual spaces digits
        unparted first
      simp only [List.append_assoc]
      exact spelled

theorem word_covers (starts : isWordStart first = true) (apart : Apart before (first :: rest))
    (success : word file position first rest = .ok found) : Covers before first rest found := by
  obtain ⟨tail, after, rfl, parts, stops⟩ := exists_run isWordPart rest
  simp only [word, takeWhile_run parts stops, List.drop_left] at success
  split at success
  · rename_i keyword
    obtain ⟨block, defined, rfl⟩ := map_eq_ok.mp success
    obtain ⟨span, after, rfl, extra, spelled⟩ := define_spelled stops defined
    have letters : first :: tail = "DEFINE".toList := by rw [← keyword, String.toList_ofList]
    refine ⟨tail ++ (span ++ [';']), after, by simp, by simp [extra], ?_, ?_⟩
    · rw [← List.cons_append, letters]
      exact spelled before
    · rw [← List.cons_append, ← List.append_assoc, ← List.append_assoc]
      exact apart_behind _ (by decide +kernel) (by decide) after
  · rename_i free
    cases success
    have row : IsWordRow (first :: tail) := by
      refine ⟨by simpa [startsWith] using starts, ?_⟩
      rw [String.toList_ofList]
      exact List.forall_mem_cons.mpr ⟨isWordPart_of_isWordStart starts, parts⟩
    exact ⟨tail, after, rfl, rfl, .word (maximal_word row apart stops) free,
      apart_of_stops _ stops⟩

theorem bracket_covers {kind : TokenKind} (before rest : List Char)
    (bracket : bracket? first = some kind) :
    Covers before first rest ⟨kind, first.toString, 0⟩ := by
  unfold bracket? at bracket
  split at bracket
  · cases bracket
    exact ⟨[], rest, rfl, rfl, .openBracket, apart_behind _ (by decide +kernel) (by decide) rest⟩
  · cases bracket
    exact ⟨[], rest, rfl, rfl, .closeBracket, apart_behind _ (by decide +kernel) (by decide) rest⟩
  · cases bracket
    exact ⟨[], rest, rfl, rfl, .colon, apart_behind _ (by decide +kernel) (by decide) rest⟩
  · cases bracket

/-- The lexeme at the head of a text spans a stretch that spells it. -/
theorem lexeme_covers (apart : Apart before (first :: rest))
    (success : lexeme file position first rest = .ok found) : Covers before first rest found := by
  simp only [lexeme] at success
  split at success
  · rename_i line
    subst line
    cases success
    exact ⟨[], rest, rfl, rfl, .newline, apart_behind _ isWordPart_newline (by decide) rest⟩
  split at success
  · rename_i dashes
    obtain ⟨rfl, next⟩ := dashes
    cases success
    obtain ⟨further, rfl⟩ := List.head?_eq_some_iff.mp next
    exact header_covers before further
  split at success
  · rename_i bracket
    cases success
    exact bracket_covers before rest bracket
  split at success
  · rename_i starts
    exact number_covers starts apart success
  split at success
  · rename_i starts
    exact word_covers starts apart success
  · cases success

end Lexer

/-- A stretch of a text, from the place of its first character up to the place behind its last. -/
structure Span where
  start : Nat
  stop : Nat

namespace Span

def Holds (span : Span) (place : Nat) : Prop := span.start ≤ place ∧ place < span.stop

end Span

/-- A token stands for a span of a text: the span spells it, and it has the span's position. -/
structure Token.Stands (chars : List Char) (token : Token) (span : Span) : Prop where
  nonempty : span.start < span.stop
  inside : span.stop ≤ chars.length
  spelled : Lexer.Spelled (chars.take span.start) ((chars.take span.stop).drop span.start)
    (chars.drop span.stop) token.kind token.text
  position : token.position = .behind (chars.take span.start)

/-- Tokens that stand for spans one behind the other, from a place on; nothing but blanks is left
out. -/
structure Token.Spread (chars : List Char) (start : Nat) (tokens : List Token) (spans : List Span) :
    Prop where
  stand : List.Forall₂ (Token.Stands chars) tokens spans
  ordered : spans.Pairwise fun first second => first.stop ≤ second.start
  behind : ∀ span ∈ spans, start ≤ span.start
  blank : ∀ place char, start ≤ place → chars[place]? = some char →
    (∀ span ∈ spans, ¬span.Holds place) → Lexer.isSkipped char = true

namespace Token.Spread

variable {before middle after : List Char} {first : Char} {tokens : List Token} {spans : List Span}

theorem skip (skipped : Lexer.isSkipped first = true)
    (spread : Spread (before ++ first :: after) (before.length + 1) tokens spans) :
    Spread (before ++ first :: after) before.length tokens spans := by
  refine ⟨spread.stand, spread.ordered, fun span member => ?_, ?_⟩
  · exact Nat.le_of_succ_le (spread.behind span member)
  · intro place char beyond present outside
    rcases Nat.eq_or_lt_of_le beyond with here | further
    · subst here
      simp at present
      exact present ▸ skipped
    · exact spread.blank place char further present outside

theorem cons {token : Token} (nonempty : middle ≠ [])
    (spelled : Lexer.Spelled before middle after token.kind token.text)
    (position : token.position = .behind before)
    (spread : Spread (before ++ (middle ++ after)) (before.length + middle.length) tokens spans) :
    Spread (before ++ (middle ++ after)) before.length (token :: tokens)
      (⟨before.length, before.length + middle.length⟩ :: spans) := by
  have length : 0 < middle.length := List.length_pos_iff.mpr nonempty
  have through : before ++ (middle ++ after) = (before ++ middle) ++ after := by simp
  refine ⟨.cons ⟨?_, ?_, ?_, ?_⟩ spread.stand, ?_, ?_, ?_⟩
  · exact Nat.lt_add_of_pos_right length
  · simp
  · rw [List.take_left]
    rw [← List.length_append, through, List.take_left, List.drop_left, List.drop_left]
    exact spelled
  · rw [List.take_left]
    exact position
  · exact .cons spread.behind spread.ordered
  · intro span member
    rcases List.mem_cons.mp member with rfl | member
    · exact Nat.le_refl _
    · exact Nat.le_of_add_right_le (spread.behind span member)
  · intro place char beyond present outside
    obtain ⟨here, outside⟩ := List.forall_mem_cons.mp outside
    have further : before.length + middle.length ≤ place := by
      simp only [Span.Holds] at here
      omega
    exact spread.blank place char further present outside

end Token.Spread

namespace Lexer

/-- The tokens of what stands behind some characters are spread over it. -/
theorem scan_spread {file : String} {before chars : List Char} {tokens : List Token}
    (apart : Apart before chars)
    (success : scan file (.behind before) chars = .ok tokens) :
    ∃ found spans, tokens = found ++ [⟨.endOfText, "", .behind (before ++ chars)⟩] ∧
      Token.Spread (before ++ chars) before.length found spans := by
  -- The induction is on the scan, and what has been passed grows along with it.
  generalize placed : Position.behind before = position at success
  induction position, chars using scan.induct generalizing before tokens with
  | case1 position =>
    subst placed
    rw [scan] at success
    cases success
    refine ⟨[], [], by simp, .nil, .nil, by simp, ?_⟩
    intro place char beyond present
    rw [List.append_nil, List.getElem?_eq_none beyond] at present
    cases present
  | case2 position first rest skipped ih =>
    subst placed
    rw [scan, if_pos skipped] at success
    obtain ⟨found, spans, rfl, spread⟩ := ih (apart_skipped before skipped rest)
      (Position.behind_afterAll before [first]).symm success
    rw [List.append_assoc, List.singleton_append] at spread ⊢
    rw [List.length_append] at spread
    exact ⟨found, spans, rfl, spread.skip skipped⟩
  | case3 position first rest kept ih =>
    subst placed
    rw [scan, if_neg kept] at success
    obtain ⟨found, lexed, success⟩ := bind_eq_ok.mp success
    obtain ⟨further, scanned, success⟩ := bind_eq_ok.mp success
    cases success
    obtain ⟨tail, after, rfl, extra, spelled, apart⟩ := lexeme_covers apart lexed
    have spread_after := @ih found (before ++ first :: tail)
    simp only [extra, List.take_left, List.drop_left] at scanned spread_after
    obtain ⟨found', spans, rfl, spread⟩ :=
      spread_after apart (Position.behind_afterAll before (first :: tail)).symm scanned
    rw [List.append_assoc] at spread ⊢
    rw [List.length_append] at spread
    exact ⟨_ :: found', _ :: spans, rfl, spread.cons (List.cons_ne_nil first tail) spelled rfl⟩

/-- How far the way over a text has come: the tokens found, the position, and what is left. -/
structure Progress where
  found : List Token
  position : Position
  rest : List Char

namespace Progress

/-- One round: a character is skipped or a token is passed. At the end nothing is left to do. -/
def round (file : String) (progress : Progress) : Except ParseError Progress :=
  match progress.rest with
  | [] => .ok progress
  | first :: rest =>
    if isSkipped first then .ok ⟨progress.found, progress.position.after first, rest⟩
    else (lexeme file progress.position first rest).map fun found =>
      ⟨progress.found ++ [⟨found.kind, found.text, progress.position⟩],
        progress.position.afterAll (first :: rest.take found.extra), rest.drop found.extra⟩

def rounds (file : String) : Nat → Progress → Except ParseError Progress
  | 0, progress => .ok progress
  | count + 1, progress => progress.round file >>= rounds file count

def tokens (progress : Progress) : List Token :=
  progress.found ++ [⟨.endOfText, "", progress.position⟩]

theorem round_shortens {progress next : Progress} (more : progress.rest ≠ [])
    (success : progress.round file = .ok next) : next.rest.length < progress.rest.length := by
  obtain ⟨found, position, rest⟩ := progress
  obtain ⟨first, rest, rfl⟩ := List.exists_cons_of_ne_nil more
  simp only [round] at success
  split at success
  · cases success
    exact Nat.lt_succ_self _
  · obtain ⟨lexeme, _, rfl⟩ := map_eq_ok.mp success
    simp only [List.length_drop, List.length_cons]
    omega

/-- What is left behind a round gives the tokens that were still to be found before it. -/
theorem round_scan (file : String) (progress : Progress) :
    (progress.round file >>= fun next =>
        (scan file next.position next.rest).map (next.found ++ ·)) =
      (scan file progress.position progress.rest).map (progress.found ++ ·) := by
  obtain ⟨found, position, rest⟩ := progress
  cases rest with
  | nil => rfl
  | cons first rest =>
    rw [scan]
    simp only [round]
    split
    · rfl
    · cases lexeme file position first rest with
      | error failure => rfl
      | ok lexeme =>
        simp only [Except.map, bind, Except.bind, pure, Except.pure]
        cases scan file (position.afterAll (first :: rest.take lexeme.extra))
            (rest.drop lexeme.extra) with
        | error failure => rfl
        | ok tokens => simp

/-- As many rounds as there are characters left find all tokens and leave nothing. -/
theorem rounds_scan {file : String} {count : Nat} {progress : Progress}
    (enough : progress.rest.length ≤ count) :
    (progress.rounds file count).map tokens =
        (scan file progress.position progress.rest).map (progress.found ++ ·) ∧
      ∀ last, progress.rounds file count = .ok last → last.rest = [] := by
  induction count generalizing progress with
  | zero =>
    obtain ⟨found, position, rest⟩ := progress
    obtain rfl := List.length_eq_zero_iff.mp (Nat.le_zero.mp enough)
    refine ⟨by rw [scan]; rfl, fun last success => ?_⟩
    cases success
    rfl
  | succ count ih =>
    have fewer {next : Progress} (success : progress.round file = .ok next) :
        next.rest.length ≤ count := by
      by_cases done : progress.rest = []
      · have same : progress.round file = .ok progress := by simp only [round, done]
        rw [same] at success
        cases success
        simp [done]
      · have shorter := round_shortens done success
        omega
    rw [← round_scan, rounds, map_of_bind]
    cases round_result : progress.round file with
    | error failure => exact ⟨rfl, fun last success => by cases success⟩
    | ok next =>
      obtain ⟨same, finished⟩ := ih (fewer round_result)
      exact ⟨same, finished⟩

end Progress

end Lexer

/-- The tokens of a text, but for the last, stand for spans of it one behind the other, and
everything outside the spans is blank. The last marks the end of the text. For every text, tokens or
not, as many rounds as it has characters are enough to go over it. -/
theorem Token.scan_lossless (file text : String) :
    (∀ tokens, Token.scan file text = .ok tokens →
      ∃ found spans, tokens = found ++ [⟨.endOfText, "", .behind text.toList⟩] ∧
        Token.Spread text.toList 0 found spans) ∧
    (Lexer.Progress.rounds file text.toList.length ⟨[], .start, text.toList⟩).map
        Lexer.Progress.tokens = Token.scan file text ∧
    ∀ last, Lexer.Progress.rounds file text.toList.length ⟨[], .start, text.toList⟩ = .ok last →
      last.rest = [] := by
  refine ⟨fun tokens success => ?_, ?_⟩
  · have apart : Lexer.Apart [] text.toList := by simp [Lexer.Apart]
    exact Lexer.scan_spread apart success
  · obtain ⟨same, finished⟩ :=
      @Lexer.Progress.rounds_scan file _ ⟨[], .start, text.toList⟩ (Nat.le_refl _)
    have plain (result : Except ParseError (List Token)) : result.map ([] ++ ·) = result := by
      cases result <;> rfl
    exact ⟨same.trans (plain _), finished⟩

private def drawn : String := "-- \r\n-07 a:\tDEFINE LABEL 1 \r\n x;"

private def drawnTokens : List Token :=
  [⟨.header, "-- ", ⟨1, 1⟩⟩, ⟨.newline, "\n", ⟨1, 5⟩⟩, ⟨.number, "-07", ⟨2, 1⟩⟩,
    ⟨.word, "a", ⟨2, 5⟩⟩, ⟨.colon, ":", ⟨2, 6⟩⟩, ⟨.define, "LABEL 1\nx", ⟨2, 8⟩⟩]

/-- A carriage return behind a header, and a drawing over two lines. -/
theorem Token.scan_lossless_drawn :
    Token.scan "" drawn = .ok (drawnTokens ++ [⟨.endOfText, "", ⟨3, 4⟩⟩]) ∧
      ∃ spans, Token.Spread drawn.toList 0 drawnTokens spans := by
  have scanned : Token.scan "" drawn = .ok (drawnTokens ++ [⟨.endOfText, "", ⟨3, 4⟩⟩]) := by
    decide +kernel
  obtain ⟨found, spans, same, spread⟩ := (scan_lossless "" drawn).1 _ scanned
  obtain rfl := (List.append_inj' same rfl).1
  exact ⟨scanned, spans, spread⟩

end MailRoom
