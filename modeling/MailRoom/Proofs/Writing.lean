import MailRoom.Program.Writer
import MailRoom.Proofs.Assembly
import MailRoom.Proofs.Reading

/-! Programs as written text. Main statement: `Program.format_renders`, by which a program whose
parts can be written is written as a text that reads as the items the program consists of. -/
namespace MailRoom

theorem Mnemonics.find?_of_spelling {mnemonics : Mnemonics} {opcode : Opcode} {spelling : String}
    (spelled : mnemonics.spelling opcode = .ok spelling) :
    mnemonics.find? spelling = some opcode := by
  unfold Mnemonics.spelling at spelled
  split at spelled
  · rename_i found
    cases spelled
    exact Table.find?_of_keyOf? found
  · cases spelled

theorem Mnemonics.standard_native : standard.foreign? = none := by decide +kernel

/-- A word that may stand for a label. -/
structure Lexer.IsName (text : String) : Prop where
  word : IsWord text
  free : text ≠ "DEFINE"

/-- An operand that can be written, beside the shape that it is for. -/
inductive WritableOperand : OperandShape → Option Address → Option String → Prop where
  | none : WritableOperand .none none none
  | address {address : Address} (natural : 0 ≤ address.tile)
      (short : address.tile.toNat < 10 ^ Numeral.maxDigits) :
      WritableOperand .address (some address) none
  | label {name : String} (named : Lexer.IsName name) : WritableOperand .label none (some name)

/-- An instruction with a spelling that is no other line's, and with its operand. -/
structure Instruction.Writable (mnemonics : Mnemonics) (instruction : Instruction) : Prop where
  spelled : ∃ spelling, mnemonics.spelling instruction.opcode = .ok spelling ∧
    Lexer.IsName spelling ∧ spelling ≠ Program.commentWord
  operand : ∃ shape, instruction.opcode.shape? = some shape ∧
    WritableOperand shape instruction.address instruction.label

/-- A label with a name or a comment with a number. -/
structure Marker.Writable (marker : Marker) : Prop where
  usual : marker.kind = .label ∨ marker.kind = .comment
  label : marker.kind = .label → Lexer.IsName marker.value
  comment : marker.kind = .comment → ∃ number, Numeral.Denotes marker.value number

structure Definition.Writable (definition : Definition) : Prop where
  usual : definition.kind = .comment ∨ definition.kind = .label
  natural : 0 ≤ definition.number
  short : definition.number.toNat < 10 ^ Numeral.maxDigits
  clean : Lexer.CleanData definition.data

def Instruction.unlocated (instruction : Instruction) : Instruction :=
  { instruction with location := none }

def Item.unlocated : Item → Item
  | instruction found => instruction found.unlocated
  | item => item

namespace Grammar

/-- Characters that read as items, whatever items are read behind them. -/
def Renders (mnemonics : Mnemonics) (chars : List Char) (items : List Item) : Prop :=
  ∀ (source : Source) (file : String) (position : Position) (rest : List Char)
    (tokens : List Token) (further : List Item), source.mnemonics = mnemonics →
    Lexer.scan file (position.afterAll chars) rest = .ok tokens → Sequence source further tokens →
    ∃ tokens' items', Lexer.scan file position (chars ++ rest) = .ok tokens' ∧
      Sequence source (items' ++ further) tokens' ∧ items'.map Item.unlocated = items

variable {mnemonics : Mnemonics} {first second chars : List Char}

theorem Renders.nil : Renders mnemonics [] [] := by
  intro source file position rest tokens further _ scanned sequence
  exact ⟨tokens, [], scanned, sequence, rfl⟩

theorem Renders.append {before after : List Item} (renders : Renders mnemonics first before)
    (continues : Renders mnemonics second after) :
    Renders mnemonics (first ++ second) (before ++ after) := by
  intro source file position rest tokens further spelled scanned sequence
  rw [Position.afterAll_append] at scanned
  obtain ⟨tokens, items, scanned, sequence, same⟩ :=
    continues _ _ _ _ _ _ spelled scanned sequence
  obtain ⟨tokens', items', scanned', sequence', same'⟩ :=
    renders _ _ _ _ _ _ spelled scanned sequence
  refine ⟨tokens', items' ++ items, ?_, ?_, ?_⟩
  · rw [List.append_assoc]
    exact scanned'
  · rw [List.append_assoc]
    exact sequence'
  · rw [List.map_append, same, same']

/-- What holds of tokens with these kinds and texts, wherever they stand. -/
def Anywhere : List (TokenKind × String) → (List Token → Prop) → Prop
  | [], good => good []
  | (kind, text) :: bare, good =>
    ∀ position, Anywhere bare fun tokens => good (⟨kind, text, position⟩ :: tokens)

theorem Anywhere.of_bare {tokens : List Token} {good : List Token → Prop}
    (anywhere : Anywhere (tokens.map Token.bare) good) : good tokens := by
  induction tokens generalizing good with
  | nil => exact anywhere
  | cons token further ih => exact ih (anywhere token.position)

/-- Characters read as tokens render the items that the tokens are a sequence of. -/
theorem renders_of_reads {bare : List (TokenKind × String)} {items : List Item}
    (reads : ∀ rest, Lexer.Reads chars bare rest)
    (sequence : ∀ {source : Source} {rest : List Token} {further : List Item},
      source.mnemonics = mnemonics → Sequence source further rest → Anywhere bare fun tokens =>
        ∃ items', Sequence source (items' ++ further) (tokens ++ rest) ∧
          items'.map Item.unlocated = items) :
    Renders mnemonics chars items := by
  intro source file position rest tokens further spelled scanned behind
  obtain ⟨tokens', rfl, read⟩ := reads rest file position
  obtain ⟨items', extended, same⟩ := (sequence spelled behind).of_bare
  refine ⟨tokens' ++ tokens, items', ?_, extended, same⟩
  rw [read, scanned]
  rfl

theorem renders_blank : Renders mnemonics ['\n'] [.blank] := by
  apply renders_of_reads Lexer.reads_newline
  intro source rest further _ behind newline
  exact ⟨[.blank], .item (.blank (.inl rfl)) behind, rfl⟩

theorem reads_headerLine (rest : List Char) :
    Lexer.Reads Program.headerLine.toList [(.header, Program.headerLine)] ('\n' :: rest) := by
  have dashes : Program.headerLine.toList =
      '-' :: '-' :: " HUMAN RESOURCE MACHINE PROGRAM --".toList := by decide
  have whole := congrArg String.ofList dashes
  rw [String.ofList_toList] at whole
  rw [dashes, whole]
  exact Lexer.reads_header (by decide) (by decide) rest

theorem renders_header :
    Renders mnemonics (Program.headerLine.toList ++ ['\n']) [.blank, .blank] := by
  apply renders_of_reads fun rest => (reads_headerLine rest).append (Lexer.reads_newline rest)
  intro source rest further _ behind header newline
  exact ⟨[.blank, .blank], .item (.blank (.inr rfl)) (.item (.blank (.inl rfl)) behind), rfl⟩

/-- The items that a marker's line consists of. -/
def markerItems (marker : Marker) : List Item :=
  if marker.kind = .label then [.label marker.value, .blank] else [.comment marker.value]

theorem renders_label {marker : Marker} (kind : marker.kind = .label)
    (named : Lexer.IsName marker.value) :
    Renders mnemonics ((Program.markerLine marker).toList ++ ['\n'])
      [.label marker.value, .blank] := by
  have written : (Program.markerLine marker).toList ++ ['\n'] =
      marker.value.toList ++ ([':'] ++ ['\n']) := by
    simp [Program.markerLine, kind]
  rw [written]
  apply renders_of_reads fun rest =>
    (Lexer.reads_word named.word named.free (Lexer.stops_at (by decide +kernel) _)).append
      ((@Lexer.reads_bracket ':' .colon rfl _).append (Lexer.reads_newline rest))
  intro source rest further _ behind name colon newline
  have blank := @Phrase.blank source ⟨.newline, "\n", newline⟩ rest (.inl rfl)
  have label := @Phrase.label source ⟨.word, marker.value, name⟩ ⟨.colon, ":", colon⟩
    (⟨.newline, "\n", newline⟩ :: rest) rfl rfl
  exact ⟨[.label marker.value, .blank], .item label (.item blank behind), rfl⟩

theorem renders_comment {marker : Marker} {number : Int} (kind : marker.kind ≠ .label)
    (denotes : Numeral.Denotes marker.value number) :
    Renders mnemonics ((Program.markerLine marker).toList ++ ['\n']) [.comment marker.value] := by
  have written : (Program.markerLine marker).toList ++ ['\n'] =
      List.replicate 4 ' ' ++ (Program.commentWord.toList ++
        (List.replicate 2 ' ' ++ (marker.value.toList ++ ['\n']))) := by
    simp [Program.markerLine, kind]
  have word : Lexer.IsWord Program.commentWord :=
    ⟨by decide +kernel, List.all_eq_true.mp (by decide +kernel)⟩
  rw [written]
  apply renders_of_reads fun rest =>
    (Lexer.reads_blanks 4 _).append <|
      (Lexer.reads_word word (by decide) (Lexer.stops_at Lexer.isWordPart_blank _)).append <|
        (Lexer.reads_blanks 2 _).append <|
          (Lexer.reads_number denotes (Lexer.stops_at Lexer.isWordPart_newline _)).append
            (Lexer.reads_newline rest)
  intro source rest further _ behind word value newline
  have comment :=
    @Phrase.comment source ⟨.word, Program.commentWord, word⟩ ⟨.number, marker.value, value⟩ _ _
      rfl rfl rfl (@LineEnd.newline ⟨.newline, "\n", newline⟩ rest rfl)
  exact ⟨[.comment marker.value], .item comment behind, rfl⟩

theorem renders_marker {marker : Marker} (writable : marker.Writable) :
    Renders mnemonics ((Program.markerLine marker).toList ++ ['\n']) (markerItems marker) := by
  by_cases kind : marker.kind = .label
  · rw [markerItems, if_pos kind]
    exact renders_label kind (writable.label kind)
  · obtain ⟨number, denotes⟩ := writable.comment (writable.usual.resolve_left kind)
    rw [markerItems, if_neg kind]
    exact renders_comment kind denotes

section Operand

variable {shape : OperandShape} {address : Option Address} {label : Option String}

/-- The tokens that an operand is written with. -/
def operandBare (address : Option Address) (label : Option String) : List (TokenKind × String) :=
  match address, label with
  | some ⟨tile, true⟩, _ =>
    [(.openBracket, "["), (.number, toString tile), (.closeBracket, "]")]
  | some ⟨tile, false⟩, _ => [(.number, toString tile)]
  | none, some name => [(.word, name)]
  | none, none => []

theorem tileNumber_toString {tile : Int} (natural : 0 ≤ tile)
    (short : tile.toNat < 10 ^ Numeral.maxDigits) (position : Position) :
    TileNumber ⟨.number, toString tile, position⟩ tile := by
  obtain ⟨value, rfl⟩ := Int.eq_ofNat_of_zero_le natural
  rw [Int.toNat_natCast] at short
  exact ⟨rfl, Numeral.denotes_toString value, natural, (Numeral.digitCount_toString value).mpr short⟩

theorem operand_anywhere (operand : WritableOperand shape address label) :
    Anywhere (operandBare address label) fun tokens =>
      ∀ rest, Operand shape (tokens ++ rest) address label rest := by
  cases operand with
  | none => exact fun rest => .none
  | @address address natural short =>
    obtain ⟨tile, indirect⟩ := address
    cases indirect with
    | false =>
      intro position rest
      exact .direct (tileNumber_toString natural short position)
    | true =>
      intro opening position closing rest
      exact @Operand.indirect ⟨_, _, opening⟩ ⟨_, _, position⟩ ⟨_, _, closing⟩ rest tile rfl
        (tileNumber_toString natural short position) rfl
  | @label name named =>
    intro position rest
    exact @Operand.label ⟨.word, name, position⟩ rest rfl

theorem reads_addressText {address : Address} (natural : 0 ≤ address.tile) {rest : List Char}
    (stops : Lexer.startsWith Lexer.isWordPart rest = false) :
    Lexer.Reads address.text.toList (operandBare (some address) none) rest := by
  obtain ⟨tile, indirect⟩ := address
  obtain ⟨value, rfl⟩ := Int.eq_ofNat_of_zero_le natural
  have denotes := Numeral.denotes_toString value
  cases indirect with
  | false => exact Lexer.reads_number denotes stops
  | true =>
    have written : (Address.text ⟨(value : Int), true⟩).toList =
        ['['] ++ ((toString (value : Int)).toList ++ [']']) := by
      simp [Address.text]
    rw [written]
    exact (@Lexer.reads_bracket '[' .openBracket rfl _).append <|
      (Lexer.reads_number denotes (Lexer.stops_at (by decide +kernel) _)).append <|
        @Lexer.reads_bracket ']' .closeBracket rfl rest

theorem reads_operandText {instruction : Instruction} {text : String} {rest : List Char}
    (operand : WritableOperand shape instruction.address instruction.label)
    (written : instruction.operandText = some text)
    (stops : Lexer.startsWith Lexer.isWordPart rest = false) :
    Lexer.Reads text.toList (operandBare instruction.address instruction.label) rest := by
  obtain ⟨opcode, address, label, target, location⟩ := instruction
  cases operand with
  | none => cases written
  | address natural short =>
    cases written
    exact reads_addressText natural stops
  | label named =>
    cases written
    exact Lexer.reads_word named.word named.free stops

theorem reads_column {instruction : Instruction} (width : Int) (spelling : String)
    (operand : WritableOperand shape instruction.address instruction.label) :
    ∃ column, (instruction.withSpelling width spelling).toList = spelling.toList ++ column ∧
      ∀ rest, Lexer.startsWith Lexer.isWordPart (column ++ '\n' :: rest) = false ∧
        Lexer.Reads column (operandBare instruction.address instruction.label) ('\n' :: rest) := by
  cases written : instruction.operandText with
  | none =>
    refine ⟨[], by simp [Instruction.withSpelling, written], fun rest => ⟨?_, ?_⟩⟩
    · exact Lexer.stops_at Lexer.isWordPart_newline rest
    · obtain ⟨opcode, address, label, target, location⟩ := instruction
      cases operand with
      | none => exact .nil _
      | address natural short => cases written
      | label named => cases written
  | some text =>
    refine ⟨List.replicate ((width - spelling.length).toNat + 1) ' ' ++ text.toList, ?_,
      fun rest => ⟨?_, ?_⟩⟩
    · simp [Instruction.withSpelling, written, padRight, List.replicate_succ']
    · rw [List.replicate_succ]
      exact Lexer.stops_at Lexer.isWordPart_blank _
    · exact (Lexer.reads_blanks _ _).append
        (reads_operandText operand written (Lexer.stops_at Lexer.isWordPart_newline rest))

end Operand

theorem Anywhere.append {first second : List (TokenKind × String)} {good : List Token → Prop}
    (anywhere : Anywhere first fun tokens => Anywhere second fun further => good (tokens ++ further)) :
    Anywhere (first ++ second) good := by
  induction first generalizing good with
  | nil => exact anywhere
  | cons pair rest ih =>
    intro position
    exact ih (anywhere position)

theorem Anywhere.imp {bare : List (TokenKind × String)} {good better : List Token → Prop}
    (anywhere : Anywhere bare good) (improves : ∀ tokens, good tokens → better tokens) :
    Anywhere bare better := by
  induction bare generalizing good better with
  | nil => exact improves _ anywhere
  | cons pair rest ih =>
    intro position
    exact ih (anywhere position) fun tokens => improves _

/-- An instruction on a line of its own, however far it is indented, renders the instruction with
its label not looked up. -/
theorem renders_withSpelling {instruction : Instruction} {spelling : String} {shape : OperandShape}
    (indent : Nat) (width : Int) (spelled : mnemonics.spelling instruction.opcode = .ok spelling)
    (named : Lexer.IsName spelling) (other : spelling ≠ Program.commentWord)
    (shaped : instruction.opcode.shape? = some shape)
    (operand : WritableOperand shape instruction.address instruction.label) :
    Renders mnemonics
      (List.replicate indent ' ' ++ (instruction.withSpelling width spelling).toList ++ ['\n'])
      [.instruction instruction.unresolved.unlocated] := by
  obtain ⟨word, free⟩ := named
  obtain ⟨column, split, reads⟩ := reads_column width spelling operand
  have written :
      List.replicate indent ' ' ++ (instruction.withSpelling width spelling).toList ++ ['\n'] =
        List.replicate indent ' ' ++ (spelling.toList ++ (column ++ ['\n'])) := by
    simp [split]
  rw [written]
  apply renders_of_reads fun rest =>
    (Lexer.reads_blanks indent _).append <|
      (Lexer.reads_word word free (by simpa using (reads rest).1)).append <|
        (reads rest).2.append (Lexer.reads_newline rest)
  intro source rest further same behind position
  refine @Anywhere.append (operandBare instruction.address instruction.label)
    [(.newline, "\n")] _ ?_
  apply (operand_anywhere operand).imp
  intro tokens operand newline
  have found : source.mnemonics.find? spelling = some instruction.opcode :=
    same ▸ Mnemonics.find?_of_spelling spelled
  have phrase := @Phrase.instruction source ⟨.word, spelling, position⟩ _ _ _ _ _ _ _ rfl other
    found shaped (operand (⟨.newline, "\n", newline⟩ :: rest))
    (@LineEnd.newline ⟨.newline, "\n", newline⟩ rest rfl)
  have sequence := Sequence.item phrase behind
  refine ⟨[.instruction ⟨instruction.opcode, instruction.address, instruction.label, none,
    some (source.locate position)⟩], ?_, rfl⟩
  simpa using sequence

/-- An instruction's line renders the instruction with its label not looked up. -/
theorem renders_instruction {instruction : Instruction}
    (writable : instruction.Writable mnemonics) :
    ∃ line, Program.instructionLine mnemonics instruction = .ok line ∧
      Renders mnemonics (line.toList ++ ['\n'])
        [.instruction instruction.unresolved.unlocated] := by
  obtain ⟨spelling, spelled, named, other⟩ := writable.spelled
  obtain ⟨shape, shaped, operand⟩ := writable.operand
  refine ⟨"    " ++ instruction.withSpelling 8 spelling, ?_, ?_⟩
  · simp [Program.instructionLine, Instruction.describeWith, spelled, Except.map]
  · simpa using renders_withSpelling 4 8 spelled named other shaped operand

theorem renders_definition {definition : Definition} (writable : definition.Writable) :
    Renders mnemonics
      ((Program.definitionLines definition).flatMap fun line => line.toList ++ ['\n'])
      [.definition definition] := by
  obtain ⟨kind, number, data⟩ := definition
  obtain ⟨usual, natural, short, clean⟩ := writable
  obtain ⟨value, rfl⟩ := Int.eq_ofNat_of_zero_le natural
  have digits := Numeral.digits_toDigits value
  have nonempty : Nat.toDigits 10 value ≠ [] := Nat.toDigits_ne_nil
  have written : ((Program.definitionLines ⟨kind, value, data⟩).flatMap fun line =>
      line.toList ++ ['\n']) =
      'D' :: ("EFINE".toList ++ Lexer.drawingChars kind (Nat.toDigits 10 value) data) ++ ['\n'] := by
    simp only [Program.definitionLines, Numeral.toString_natural]
    simp [Lexer.drawingChars]
  rw [written]
  apply renders_of_reads fun rest =>
    (Lexer.reads_define usual nonempty digits clean _).append (Lexer.reads_newline rest)
  intro source rest further _ behind position newline
  have drawn := Lexer.Drawn.drawn data usual nonempty digits
  rw [Nat.ofDigitChars_ten_toDigits] at drawn
  have fits : (Token.numberDigits (kind.name ++ " " ++ String.ofList (Nat.toDigits 10 value) ++
      "\n" ++ data)).length ≤ Numeral.maxDigits := by
    rw [numberDigits_drawn data usual digits]
    have count := (Numeral.digitCount_toString value).mpr short
    rwa [Numeral.toString_natural, Numeral.digitCount_natural digits] at count
  have phrase := @Phrase.definition source ⟨.define, _, position⟩ _ _ _ rfl drawn fits
    (@LineEnd.newline ⟨.newline, "\n", newline⟩ rest rfl)
  exact ⟨[.definition ⟨kind, value, data⟩], .item phrase behind, rfl⟩

theorem renders_flatMap {parts : List α} {chars : α → List Char} {items : α → List Item}
    (each : ∀ part ∈ parts, Renders mnemonics (chars part) (items part)) :
    Renders mnemonics (parts.flatMap chars) (parts.flatMap items) := by
  induction parts with
  | nil => exact .nil
  | cons part parts ih =>
    rw [List.flatMap_cons, List.flatMap_cons]
    exact (each part (by simp)).append (ih fun part member => each part (by simp [member]))

end Grammar

def lineChars (lines : List String) : List Char := lines.flatMap fun line => line.toList ++ ['\n']

theorem lineChars_append (before after : List String) :
    lineChars (before ++ after) = lineChars before ++ lineChars after :=
  List.flatMap_append

theorem toList_unlines (lines : List String) : (Line.unlines lines).toList = lineChars lines := by
  induction lines with
  | nil => rfl
  | cons line rest ih => simp [Line.unlines, lineChars, ih]

namespace Program

structure Writable (mnemonics : Mnemonics) (program : Program) : Prop where
  instructions : ∀ instruction ∈ program.instructions, instruction.Writable mnemonics
  markers : ∀ marker ∈ program.allMarkers, marker.Writable
  definitions : ∀ definition ∈ program.definitions, definition.Writable

/-- The items of the markers that stand before an index. -/
def itemsAt (program : Program) (index : Nat) : List Item :=
  (program.markersAt index).flatMap Grammar.markerItems

/-- The items of the instructions from an index on, each behind those of its markers. -/
def codeItems (program : Program) (index : Nat) : List Instruction → List Item
  | [] => program.itemsAt index
  | instruction :: rest =>
    program.itemsAt index ++
      .instruction instruction.unresolved.unlocated :: program.codeItems (index + 1) rest

def writtenItems (program : Program) : List Item :=
  [.blank, .blank] ++ ([.blank] ++ (program.codeItems 0 program.instructions ++
    if program.definitions.isEmpty then []
    else [.blank] ++ ([.blank] ++ program.definitions.flatMap fun found => [.definition found])))

variable {mnemonics : Mnemonics} {program : Program}

theorem itemsAt_renders (writable : program.Writable mnemonics) (index : Nat) :
    Grammar.Renders mnemonics (lineChars ((program.markersAt index).map markerLine))
      (program.itemsAt index) := by
  rw [lineChars, List.flatMap_map]
  apply Grammar.renders_flatMap
  intro marker member
  exact Grammar.renders_marker (writable.markers marker (List.mem_filter.mp member).1)

theorem codeLines_renders (writable : program.Writable mnemonics)
    {instructions : List Instruction}
    (each : ∀ instruction ∈ instructions, instruction.Writable mnemonics) (index : Nat) :
    ∃ lines, program.codeLines mnemonics index instructions = .ok lines ∧
      Grammar.Renders mnemonics (lineChars lines) (program.codeItems index instructions) := by
  induction instructions generalizing index with
  | nil => exact ⟨_, rfl, itemsAt_renders writable index⟩
  | cons instruction rest ih =>
    obtain ⟨line, written, renders⟩ := Grammar.renders_instruction (each instruction (by simp))
    obtain ⟨below, writtenBelow, rendersBelow⟩ :=
      ih (fun instruction member => each instruction (by simp [member])) (index + 1)
    refine ⟨(program.markersAt index).map markerLine ++ line :: below, ?_, ?_⟩
    · simp [codeLines, written, writtenBelow, bind, Except.bind, pure, Except.pure]
    · rw [lineChars_append]
      exact (itemsAt_renders writable index).append (renders.append rendersBelow)

/-- A program whose parts can be written is written, and what is written reads as its items. -/
theorem format_renders (writable : program.Writable mnemonics) :
    ∃ text, program.format mnemonics = .ok text ∧
      Grammar.Renders mnemonics text.toList program.writtenItems := by
  obtain ⟨code, written, renders⟩ := codeLines_renders writable writable.instructions 0
  let drawings := if program.definitions.isEmpty then []
    else "" :: "" :: program.definitions.flatMap definitionLines
  refine ⟨Line.unlines (headerLine :: "" :: code ++ drawings), ?_, ?_⟩
  · simp [format, written, bind, Except.bind, pure, Except.pure, drawings]
  have drawn : Grammar.Renders mnemonics (lineChars drawings)
      (if program.definitions.isEmpty then []
        else [.blank] ++ ([.blank] ++
          program.definitions.flatMap fun found => [.definition found])) := by
    simp only [drawings]
    split
    · exact .nil
    · have lines : lineChars ("" :: "" :: program.definitions.flatMap definitionLines) =
          ['\n'] ++ (['\n'] ++ program.definitions.flatMap fun definition =>
            (definitionLines definition).flatMap fun line => line.toList ++ ['\n']) := by
        simp [lineChars, List.flatMap_assoc]
      rw [lines]
      apply Grammar.renders_blank.append
      apply Grammar.renders_blank.append
      apply Grammar.renders_flatMap
      intro definition member
      exact Grammar.renders_definition (writable.definitions definition member)
  have whole : lineChars (headerLine :: "" :: code ++ drawings) =
      (headerLine.toList ++ ['\n']) ++ (['\n'] ++ (lineChars code ++ lineChars drawings)) := by
    simp [lineChars]
  rw [toList_unlines, whole]
  exact Grammar.renders_header.append (Grammar.renders_blank.append (renders.append drawn))

end Program

end MailRoom
