import MailRoom.Proofs.Writing

/-! How a text fails to be a program. Main statement: `Program.parse_outcome`, by which a text gives
a program or an error of a documented kind, unless going over its items leads to a number with more
digits than are read. -/
namespace MailRoom

def ParseCause.kinds : List String :=
  ["StaticInvalidSyntax", "UnknownOpcode", "UnresolvedLabel", "DuplicateLabel", "InvalidAddress"]

theorem ParseCause.kind_mem (cause : ParseCause) : cause.kind ∈ kinds := by
  cases cause <;> simp [kind, kinds]

namespace Grammar

/-- A number with more digits than are read stands first. -/
inductive LongNumber : List Token → Nat → Prop where
  | number {token : Token} {rest : List Token} (kind : token.kind = .number)
      (long : Numeral.maxDigits < Numeral.digitCount token.text) :
      LongNumber (token :: rest) (Numeral.digitCount token.text)

/-- An operand starts with such a number, perhaps behind a bracket. -/
inductive LongTile : List Token → Nat → Prop where
  | direct {tokens : List Token} {digits : Nat} (number : LongNumber tokens digits) :
      LongTile tokens digits
  | indirect {opening : Token} {rest : List Token} {digits : Nat}
      (opens : opening.kind = .openBracket) (number : LongNumber rest digits) :
      LongTile (opening :: rest) digits

/-- Items in which nothing is wrong lead to a drawing or to a tile whose number has more digits than
are read. -/
inductive Overlong (source : Source) : List String → List Token → Nat → Prop where
  | definition {declared : List String} {token : Token} {rest : List Token}
      (kind : token.kind = .define)
      (long : Numeral.maxDigits < (Token.numberDigits token.text).length) :
      Overlong source declared (token :: rest) (Token.numberDigits token.text).length
  | tile {declared : List String} {word : Token} {rest : List Token} {opcode : Opcode}
      {digits : Nat} (named : word.kind = .word) (free : word.text ≠ "COMMENT")
      (found : source.mnemonics.find? word.text = some opcode)
      (shaped : opcode.shape? = some .address) (long : LongTile rest digits) :
      Overlong source declared (word :: rest) digits
  | behind {declared : List String} {item : Item} {tokens rest : List Token} {digits : Nat}
      (phrase : Phrase source item tokens rest)
      (fresh : ∀ name, item = .label name → name ∉ declared)
      (further : Overlong source (item.declare declared) rest digits) :
      Overlong source declared tokens digits

/-- Why going over a row of tokens comes to nothing: an error is reported, or a number has so many
digits that it is not read. -/
inductive Stumble (long : Nat → Prop) : ReadFailure → Prop where
  | rejected (error : ParseError) : Stumble long (.rejected error)
  | tooLong {digits : Nat} (number : long digits) : Stumble long (.numeral (.tooLong digits))

section Stumble

variable {source : Source} {word : Token} {tokens : List Token} {long longer : Nat → Prop}

theorem Stumble.grow {result : Except ReadFailure α} (stumbles : FailsOnly (Stumble long) result)
    (grows : ∀ digits, long digits → longer digits) : FailsOnly (Stumble longer) result := by
  intro failure failed
  cases stumbles failure failed with
  | rejected error => exact .rejected error
  | tooLong number => exact .tooLong (grows _ number)

theorem reject_stumbles (source : Source) (cause : ParseCause) (token : Token) :
    FailsOnly (Stumble long) (source.reject cause token : Except ReadFailure α) :=
  .error (.rejected _)

theorem endOfLine_stumbles (row : Token.Row tokens) :
    FailsOnly (Stumble long) (Item.endOfLine source tokens) := by
  cases tokens with
  | nil => cases row
  | cons token rest =>
    simp only [Item.endOfLine]
    split
    · exact .ok 1
    split
    · exact .ok 0
    · exact reject_stumbles source _ token

theorem expect_sound {kind : TokenKind} {token : Token}
    (success : Item.expect source kind tokens = .ok token) :
    token.kind = kind ∧ tokens.head? = some token := by
  cases tokens with
  | nil => cases success
  | cons head rest =>
    simp only [Item.expect] at success
    split at success
    · rename_i same
      cases success
      exact ⟨same, rfl⟩
    · cases success

theorem expect_stumbles (kind : TokenKind) (row : Token.Row tokens) :
    FailsOnly (Stumble long) (Item.expect source kind tokens) := by
  cases tokens with
  | nil => cases row
  | cons token rest =>
    simp only [Item.expect]
    split
    · exact .ok token
    · exact reject_stumbles source _ token

theorem tile_stumbles (row : Token.Row tokens) :
    FailsOnly (Stumble (LongNumber tokens)) (Item.tile source word tokens) := by
  cases tokens with
  | nil => cases row
  | cons token rest =>
    simp only [Item.tile]
    split
    · exact reject_stumbles source _ word
    · exact reject_stumbles source _ word
    · rename_i kind
      obtain ⟨value, denotes⟩ := row.number kind
      rw [readNumeral_denotes denotes]
      refine .bind ?_ fun number _ => ?_
      · split
        · exact .ok value
        · rename_i long
          exact .error (.tooLong (.number kind (Nat.not_le.mp long)))
      · split
        · exact reject_stumbles source _ token
        · exact .ok number
    · exact reject_stumbles source _ token
    · exact reject_stumbles source _ token

theorem address_stumbles (row : Token.Row tokens) :
    FailsOnly (Stumble (LongTile tokens)) (Item.address source word tokens) := by
  cases tokens with
  | nil => cases row
  | cons token rest =>
    simp only [Item.address]
    split
    · rename_i opens
      have behind := row.tail (by simp [opens])
      refine .bind (.grow (tile_stumbles behind) fun _ => .indirect opens) fun tile read => ?_
      obtain ⟨number, further, rfl, numbered⟩ := tile_sound behind read
      cases further with
      | nil => cases behind.tail (by simp [numbered.kind])
      | cons closing further =>
        simp only [List.drop_succ_cons, List.drop_zero]
        split
        · exact .ok _
        · exact reject_stumbles source _ closing
    · exact .bind (.grow (tile_stumbles row) fun _ => .direct) fun tile _ => .ok _

theorem jumpLabel_stumbles (row : Token.Row tokens) :
    FailsOnly (Stumble long) (Item.jumpLabel source word tokens) := by
  cases tokens with
  | nil => cases row
  | cons token rest =>
    simp only [Item.jumpLabel]
    split
    · exact reject_stumbles source _ word
    · exact reject_stumbles source _ word
    · exact .ok token.text
    · exact reject_stumbles source _ token

theorem readInstruction_stumbles (row : Token.Row tokens) :
    FailsOnly (Stumble fun digits => ∃ opcode, source.mnemonics.find? word.text = some opcode ∧
      opcode.shape? = some .address ∧ LongTile tokens digits)
      (Item.readInstruction source word tokens) := by
  simp only [Item.readInstruction]
  split
  · exact reject_stumbles source _ word
  · rename_i opcode found
    split
    · rename_i shaped
      refine .bind (.grow (address_stumbles row) fun digits long => ?_) fun _ _ => .ok _
      exact ⟨opcode, found, shaped, long⟩
    · exact .bind (jumpLabel_stumbles row) fun _ _ => .ok _
    · exact .ok _

theorem readDefinition_stumbles {token : Token} {rest : List Token}
    (row : Token.Row (token :: rest)) (kind : token.kind = .define) :
    FailsOnly (Stumble fun digits => Numeral.maxDigits < (Token.numberDigits token.text).length ∧
      digits = (Token.numberDigits token.text).length) (Item.readDefinition token.text) := by
  obtain ⟨definition, drawn, _⟩ := row.drawn kind
  rw [readDefinition_drawn drawn]
  split
  · exact .ok definition
  · rename_i long
    exact .error (.tooLong ⟨Nat.not_le.mp long, rfl⟩)

variable {token : Token} {rest : List Token} {declared : List String}

theorem read_stumbles (native : source.mnemonics.foreign? = none)
    (row : Token.Row (token :: rest)) :
    FailsOnly (Stumble (Overlong source declared (token :: rest)))
      (Item.read source declared token rest) := by
  simp only [Item.read]
  split
  · exact .ok _
  · exact .ok _
  · rename_i kind
    have behind := row.tail (by simp [kind])
    refine .bind (.grow (readDefinition_stumbles row kind) ?_) fun drawn _ =>
      .bind (endOfLine_stumbles behind) fun _ _ => .ok _
    rintro _ ⟨long, rfl⟩
    exact .definition kind long
  · rename_i kind
    have behind := row.tail (by simp [kind])
    split
    · split
      · exact reject_stumbles source _ token
      · exact .ok _
    split
    · refine .bind (expect_stumbles .number behind) fun value expected => ?_
      obtain ⟨number, first⟩ := expect_sound expected
      obtain ⟨further, rfl⟩ := List.head?_eq_some_iff.mp first
      have row := behind.tail (by simp [number])
      exact .bind (endOfLine_stumbles row) fun _ _ => .ok _
    · rename_i free
      refine .bind (.grow (readInstruction_stumbles behind) ?_) ?_
      · rintro digits ⟨opcode, found, shaped, long⟩
        exact .tile kind free found shaped long
      · rintro ⟨found, taken⟩ read
        obtain ⟨_, _, _, _, _, _, operand, _⟩ := readInstruction_sound native behind read
        exact .bind (endOfLine_stumbles (operand.row behind)) fun _ _ => .ok _
  · exact reject_stumbles source _ token

theorem readAll_stumbles (native : source.mnemonics.foreign? = none) (row : Token.Row tokens) :
    FailsOnly (Stumble (Overlong source declared tokens))
      (Item.readAll source declared tokens) := by
  induction declared, tokens using Item.readAll.induct with
  | case1 declared => cases row
  | case2 declared token rest ends =>
    rw [Item.readAll, if_pos ends]
    exact .ok _
  | case3 declared token rest goesOn ih =>
    rw [Item.readAll, if_neg goesOn]
    refine .bind (read_stumbles native row) ?_
    rintro ⟨item, taken⟩ read
    obtain ⟨phrase, fresh⟩ := read_sound native row read
    refine .bind (.grow (ih item taken (phrase.row row)) fun digits long => ?_) fun _ _ => .ok _
    exact .behind phrase fresh long

end Stumble

section Long

variable {source : Source} {word : Token} {declared : List String} {tokens : List Token}
  {digits : Nat}

theorem tile_long (number : LongNumber tokens digits) (row : Token.Row tokens) :
    Item.tile source word tokens = .error (.numeral (.tooLong digits)) := by
  cases number with
  | number kind long =>
    obtain ⟨value, denotes⟩ := row.number kind
    simp only [Item.tile, kind, readNumeral_denotes denotes, Nat.not_le.mpr long]
    rfl

theorem address_long (tile : LongTile tokens digits) (row : Token.Row tokens) :
    Item.address source word tokens = .error (.numeral (.tooLong digits)) := by
  cases tile with
  | direct number =>
    have read := @tile_long source word _ _ number row
    cases number with
    | number kind long =>
      simp only [Item.address, kind, read]
      rfl
  | indirect opens number =>
    simp only [Item.address, opens, tile_long number (row.tail (by simp [opens]))]
    rfl

theorem LongTile.head (tile : LongTile tokens digits) :
    (tokens.head?.any fun next => next.kind = .colon) = false := by
  cases tile with
  | direct number => cases number with
    | number kind long => simp [kind]
  | indirect opens number => simp [opens]

/-- A number that is too long is come to, and nothing is read. -/
theorem readAll_long (long : Overlong source declared tokens digits) (row : Token.Row tokens) :
    Item.readAll source declared tokens = .error (.numeral (.tooLong digits)) := by
  induction long with
  | @definition declared token rest kind long =>
    obtain ⟨definition, drawn, _⟩ := row.drawn kind
    have read := readDefinition_drawn drawn
    rw [if_neg (Nat.not_le.mpr long)] at read
    rw [Item.readAll, if_neg (by simp [kind])]
    simp only [Item.read, kind, read]
    rfl
  | @tile declared word rest opcode digits named free found shaped long =>
    have read := @address_long source word _ _ long (row.tail (by simp [named]))
    rw [Item.readAll, if_neg (by simp [named])]
    simp only [Item.read, named, long.head, free, Item.readInstruction, found, shaped, read]
    rfl
  | behind phrase fresh further ih =>
    obtain ⟨token, rest, rfl, goesOn⟩ := phrase.starts
    obtain ⟨taken, read, rfl⟩ := read_complete phrase fresh
    rw [Item.readAll, if_neg goesOn, read]
    simp only [bind, Except.bind, ih (phrase.row row)]

end Long

theorem ofTokens_stumbles {source : Source} {tokens : List Token}
    (native : source.mnemonics.foreign? = none) (row : Token.Row tokens) :
    FailsOnly (Stumble (Overlong source [] tokens)) (Program.ofTokens source tokens) := by
  simp only [Program.ofTokens, native]
  refine .bind (readAll_stumbles native row) ?_
  rintro ⟨items, last⟩ _
  refine .bind (.mapM fun instruction _ => ?_) fun _ _ => .ok _
  unfold Program.resolve
  split
  · exact .ok _
  split
  · exact .ok _
  · exact .error (.rejected _)

end Grammar

namespace Program

/-- Going over the items of a text leads to a number with so many digits that it is not read. -/
def Overlong (file text : String) (mnemonics : Mnemonics) (digits : Nat) : Prop :=
  ∃ tokens, Token.scan file text = .ok tokens ∧
    Grammar.Overlong (Source.ofLines file ((Line.split text.toList).map String.ofList) mnemonics)
      [] tokens digits

/-- A program, or an error of a documented kind. -/
inductive Contained : Except ReadFailure Program → Prop where
  | program (program : Program) : Contained (.ok program)
  | rejected {error : ParseError} (documented : error.cause.kind ∈ ParseCause.kinds) :
      Contained (.error (.rejected error))

variable {file text : String} {mnemonics : Mnemonics} {digits : Nat}

theorem parse_stumbles (native : mnemonics.foreign? = none) :
    FailsOnly (Grammar.Stumble (Overlong file text mnemonics)) (parse file text mnemonics) := by
  unfold parse
  refine .bind (.mapError fun error _ => .rejected error) fun tokens scanned => ?_
  have scanned := mapError_eq_ok.mp scanned
  refine .grow (Grammar.ofTokens_stumbles native (Lexer.scan_row scanned)) fun digits long => ?_
  exact ⟨tokens, scanned, long⟩

theorem parse_long (native : mnemonics.foreign? = none)
    (long : Overlong file text mnemonics digits) :
    parse file text mnemonics = .error (.numeral (.tooLong digits)) := by
  obtain ⟨tokens, scanned, long⟩ := long
  have read := Grammar.readAll_long long (Lexer.scan_row scanned)
  have native : (Source.ofLines file ((Line.split text.toList).map String.ofList)
    mnemonics).mnemonics.foreign? = none := native
  simp only [parse, scanned, mapError_ok, ofTokens, bind, Except.bind, native, read]

/-- A text gives a program or an error of a documented kind, unless it leads to a number that is too
long, and only then the failure to read that number is what comes of it. -/
theorem parse_outcome (native : mnemonics.foreign? = none) (file text : String) :
    (Contained (parse file text mnemonics) ↔ ∀ digits, ¬Overlong file text mnemonics digits) ∧
      ∀ digits, parse file text mnemonics = .error (.numeral (.tooLong digits)) ↔
        Overlong file text mnemonics digits := by
  have long (digits : Nat) : parse file text mnemonics = .error (.numeral (.tooLong digits)) ↔
      Overlong file text mnemonics digits := by
    refine ⟨fun failed => ?_, parse_long native⟩
    cases parse_stumbles native _ failed with
    | tooLong number => exact number
  refine ⟨⟨fun contained digits number => ?_, fun short => ?_⟩, long⟩
  · rw [(long digits).mpr number] at contained
    cases contained
  · cases parsed : parse file text mnemonics with
    | ok program => exact .program program
    | error failure =>
      cases parse_stumbles native failure parsed with
      | rejected error => exact .rejected error.cause.kind_mem
      | tooLong number => exact absurd number (short _)

theorem overlong_of_reads {chars : List Char} {bare : List (TokenKind × String)}
    (reads : Lexer.Reads chars bare [])
    (long : ∀ source : Source, source.mnemonics = mnemonics → Grammar.Anywhere bare fun tokens =>
      ∀ rest, Grammar.Overlong source [] (tokens ++ rest) digits) (file : String) :
    Overlong file (String.ofList chars) mnemonics digits := by
  obtain ⟨tokens, rfl, scanned⟩ := reads file .start
  rw [Lexer.scan, List.append_nil] at scanned
  refine ⟨_, (congrArg (Lexer.scan file .start) String.toList_ofList).trans scanned, ?_⟩
  exact (long _ rfl).of_bare _

theorem overlong_copyFrom {row : List Char} (plain : ∀ char ∈ row, Lexer.isDigit char = true)
    (long : Numeral.maxDigits < row.length) (file : String) :
    Overlong file (String.ofList ("COPYFROM".toList ++ ' ' :: row)) .standard row.length := by
  have nonempty : row ≠ [] := List.length_pos_iff.mp (Nat.zero_lt_of_lt long)
  have number : Lexer.Reads (String.ofList row).toList [(.number, String.ofList row)] [] :=
    Lexer.reads_number (.natural nonempty plain) rfl
  rw [String.toList_ofList] at number
  have word : Lexer.IsWord "COPYFROM" :=
    ⟨by decide +kernel, List.all_eq_true.mp (by decide +kernel)⟩
  have reads := (Lexer.reads_word word (by decide) (Lexer.stops_at Lexer.isWordPart_blank _)).append
    ((Lexer.reads_blanks 1 _).append number)
  apply overlong_of_reads reads
  intro source same place place' rest
  have found : source.mnemonics.find? "COPYFROM" = some .copyFrom := by
    rw [same]
    decide +kernel
  have count := Numeral.digitCount_natural plain
  rw [← count] at long ⊢
  have free : "COPYFROM" ≠ "COMMENT" := by decide
  exact .tile rfl free found rfl (.direct (.number rfl long))

private def zeros : List Char := List.replicate (Numeral.maxDigits + 1) '0'

/-- A tile with one more zero than are read: no error of a documented kind comes of it. -/
theorem parse_zeros_not_contained :
    parse "" (String.ofList ("COPYFROM".toList ++ ' ' :: zeros)) .standard =
        .error (.numeral (.tooLong (Numeral.maxDigits + 1))) ∧
      ¬Contained (parse "" (String.ofList ("COPYFROM".toList ++ ' ' :: zeros)) .standard) := by
  have plain : ∀ char ∈ zeros, Lexer.isDigit char = true := by
    intro char member
    cases List.eq_of_mem_replicate member
    decide
  have count : zeros.length = Numeral.maxDigits + 1 := List.length_replicate
  have long : Numeral.maxDigits < zeros.length := count ▸ Nat.lt_succ_self Numeral.maxDigits
  have failed := parse_long Mnemonics.standard_native (overlong_copyFrom plain long "")
  rw [count] at failed
  refine ⟨failed, fun contained => ?_⟩
  rw [failed] at contained
  cases contained

theorem parse_outcome_copyFrom : Mnemonics.standard.foreign? = none ∧
    (∀ digits, ¬Overlong "" "COPYFROM 0" .standard digits) := by
  have parsed : (parse "" "COPYFROM 0" .standard).isOk = true := by decide +kernel
  refine ⟨Mnemonics.standard_native,
    (parse_outcome Mnemonics.standard_native "" "COPYFROM 0").1.mp ?_⟩
  cases read : parse "" "COPYFROM 0" .standard with
  | error failure => simp [read, Except.isOk, Except.toBool] at parsed
  | ok program => exact .program program

end Program

end MailRoom
