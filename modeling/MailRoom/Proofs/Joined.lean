import MailRoom.Proofs.AppendedLine
import MailRoom.Proofs.Statements

/-! Programs one behind the other. Main statement: `Program.parse_joined`, by which two texts that
declare no label in common give, with a line feed between them, the program of the one and behind it
that of the other. -/
namespace MailRoom

namespace Grammar

/-- A row of tokens, and the same row with a newline and further tokens in the place of its last. -/
inductive Extended (last newline : Token) (more : List Token) : List Token → List Token → Prop where
  | last : Extended last newline more [last] (newline :: more)
  | cons {token : Token} {tokens tokens' : List Token} (other : token.kind ≠ .endOfText)
      (rest : Extended last newline more tokens tokens') :
      Extended last newline more (token :: tokens) (token :: tokens')

variable {source : Source} {last newline token : Token}
  {more tokens tokens' rest behind : List Token}

theorem extended_append {found : List Token} (row : Token.Row (found ++ [last]))
    (newline : Token) (more : List Token) :
    Extended last newline more (found ++ [last]) (found ++ newline :: more) := by
  induction found with
  | nil => exact .last
  | cons token found ih =>
    generalize whole : token :: found ++ [last] = tokens at row
    cases row with
    | last ends => simp at whole
    | cons lexed row =>
      cases whole
      have other : token.kind ≠ .endOfText := by
        intro same
        rw [same] at lexed
        cases lexed
      exact .cons other (ih row)

section Rows

variable (ends : last.kind = .endOfText) (feed : newline.kind = .newline)

include ends

theorem Extended.tail (extended : Extended last newline more (token :: rest) tokens')
    (other : token.kind ≠ .endOfText) :
    ∃ rest', tokens' = token :: rest' ∧ Extended last newline more rest rest' := by
  cases extended with
  | last => exact absurd ends other
  | cons _ extended => exact ⟨_, rfl, extended⟩

theorem Operand.extended {shape : OperandShape} {address : Option Address}
    {label : Option String} (operand : Operand shape tokens address label behind)
    (extended : Extended last newline more tokens tokens') :
    ∃ behind', Operand shape tokens' address label behind' ∧
      Extended last newline more behind behind' := by
  cases operand with
  | none => exact ⟨_, .none, extended⟩
  | direct number =>
    obtain ⟨_, rfl, tail⟩ := extended.tail ends (by simp [number.kind])
    exact ⟨_, .direct number, tail⟩
  | indirect opens number closes =>
    obtain ⟨_, rfl, inner⟩ := extended.tail ends (by simp [opens])
    obtain ⟨_, rfl, close⟩ := inner.tail ends (by simp [number.kind])
    obtain ⟨_, rfl, tail⟩ := close.tail ends (by simp [closes])
    exact ⟨_, .indirect opens number closes, tail⟩
  | label named =>
    obtain ⟨_, rfl, tail⟩ := extended.tail ends (by simp [named])
    exact ⟨_, .label named, tail⟩

theorem Sequence.items_of_last {items : List Item} (sequence : Sequence source items [last]) :
    items = [] := by
  cases sequence with
  | finish => rfl
  | item phrase further =>
    obtain ⟨token, rest, same, other⟩ := phrase.starts
    cases same
    exact absurd ends other

include feed

/-- A line that ended with the text ends with the newline. -/
theorem LineEnd.extended (line : LineEnd tokens behind)
    (extended : Extended last newline more tokens tokens') :
    ∃ behind', LineEnd tokens' behind' ∧
      (Extended last newline more behind behind' ∨ behind = [last] ∧ behind' = more) := by
  cases line with
  | newline kind =>
    obtain ⟨_, rfl, tail⟩ := extended.tail ends (by simp [kind])
    exact ⟨_, .newline kind, .inl tail⟩
  | endOfText kind =>
    cases extended with
    | last => exact ⟨_, .newline feed, .inr ⟨rfl, rfl⟩⟩
    | cons other extended => exact absurd kind other

theorem Phrase.extended {item : Item} (phrase : Phrase source item tokens behind)
    (extended : Extended last newline more tokens tokens') :
    ∃ behind', Phrase source item tokens' behind' ∧
      (Extended last newline more behind behind' ∨ behind = [last] ∧ behind' = more) := by
  obtain ⟨token, rest, rfl, other⟩ := phrase.starts
  obtain ⟨rest', rfl, tail⟩ := extended.tail ends other
  cases phrase with
  | blank kind => exact ⟨_, .blank kind, .inl tail⟩
  | definition kind drawn short line =>
    obtain ⟨behind', line, further⟩ := line.extended ends feed tail
    exact ⟨behind', .definition kind drawn short line, further⟩
  | label named marked =>
    obtain ⟨_, rfl, onward⟩ := tail.tail ends (by simp [marked])
    exact ⟨_, .label named marked, .inl onward⟩
  | comment named spelled number line =>
    obtain ⟨_, rfl, behind⟩ := tail.tail ends (by simp [number])
    obtain ⟨behind', line, further⟩ := line.extended ends feed behind
    exact ⟨behind', .comment named spelled number line, further⟩
  | instruction named free found shaped operand line =>
    obtain ⟨_, operand, between⟩ := operand.extended ends tail
    obtain ⟨behind', line, further⟩ := line.extended ends feed between
    exact ⟨behind', .instruction named free found shaped operand line, further⟩

/-- Behind the items of a row there may be a blank for the newline, and then the further items. -/
theorem Sequence.extended {items items' : List Item} (sequence : Sequence source items tokens)
    (further : Sequence source items' more)
    (extended : Extended last newline more tokens tokens') :
    ∃ gap, (gap = [] ∨ gap = [.blank]) ∧ Sequence source (items ++ (gap ++ items')) tokens' := by
  induction sequence generalizing tokens' with
  | finish stops =>
    cases extended with
    | last =>
      -- The line before was over, so that the newline is an item of its own.
      exact ⟨[.blank], .inr rfl, .item (.blank (.inl feed)) further⟩
    | cons other extended => exact absurd stops other
  | @item item items tokens rest phrase sequence ih =>
    obtain ⟨behind', read, onward | ⟨rfl, rfl⟩⟩ := phrase.extended ends feed extended
    · obtain ⟨gap, blank, joined⟩ := ih onward
      exact ⟨gap, blank, .item read joined⟩
    · -- The line of the last item went up to the end; it takes the newline.
      obtain rfl := sequence.items_of_last ends
      exact ⟨[], .inl rfl, .item read further⟩

end Rows

end Grammar

/-- The instruction behind so many others. -/
def Instruction.raised (places : Nat) (instruction : Instruction) : Instruction :=
  { instruction with target := instruction.target.map (· + (places : Int)) }

def Marker.raised (places : Nat) (marker : Marker) : Marker :=
  { marker with index := marker.index + places }

/-- A program that consists of the parts of two others, those of the other raised. -/
structure Program.Appended (first second whole : Program) : Prop where
  instructions : whole.instructions =
    first.instructions ++ second.instructions.map (Instruction.raised first.instructions.length)
  labels : whole.labels.entries = first.labels.entries ++
    second.labels.entries.map fun entry => (entry.1, entry.2 + (first.instructions.length : Int))
  markers : whole.markers =
    first.markers ++ second.markers.map (Marker.raised first.instructions.length)
  definitions : whole.definitions = first.definitions ++ second.definitions

structure Instruction.Lowered (before : List Char) (instruction instruction' : Instruction) :
    Prop where
  same : instruction' = { instruction with location := instruction'.location }
  located : ∃ place statement, instruction.location = some place ∧
    instruction'.location =
      some ⟨place.file, place.line + before.count '\n', place.column, statement⟩ ∧
    (Line.strays before = 0 → statement = place.statement)

/-- The same program behind some lines of text. -/
structure Program.Lowered (before : List Char) (program program' : Program) : Prop where
  instructions : List.Forall₂ (Instruction.Lowered before) program.instructions
    program'.instructions
  labels : program'.labels = program.labels
  markers : program'.markers = program.markers
  definitions : program'.definitions = program.definitions

namespace Item

variable {items items' gap : List Item}

theorem markers_raised (places index : Nat) (items : List Item) :
    markers (places + index) items = (markers index items).map (Marker.raised places) := by
  induction items generalizing index with
  | nil => rfl
  | cons item rest ih =>
    cases item <;> simp [markers, ih, Marker.raised, Int.add_comm, Nat.add_assoc]

section Gap

variable (blank : gap = [] ∨ gap = [.blank])

include blank

theorem instructions_joined (items items' : List Item) :
    instructions (items ++ (gap ++ items')) = instructions items ++ instructions items' := by
  rcases blank with rfl | rfl <;> simp [instructions]

theorem names_joined (items items' : List Item) :
    names (items ++ (gap ++ items')) = names items ++ names items' := by
  rcases blank with rfl | rfl <;> simp [names]

theorem definitions_joined (items items' : List Item) :
    definitions (items ++ (gap ++ items')) = definitions items ++ definitions items' := by
  rcases blank with rfl | rfl <;> simp [definitions]

theorem markers_joined (items items' : List Item) :
    markers 0 (items ++ (gap ++ items')) =
      markers 0 items ++ (markers 0 items').map (Marker.raised (instructions items).length) := by
  have blanks : markers (0 + (instructions items).length) (gap ++ items') =
      markers ((instructions items).length + 0) items' := by
    rcases blank with rfl | rfl <;> simp [markers]
  rw [markers_append, blanks, markers_raised]

variable (distinct : (names (items ++ (gap ++ items'))).Nodup)

include distinct

theorem distinct_parts : (names items).Nodup ∧ (names items').Nodup := by
  rw [names_joined blank] at distinct
  exact ⟨(List.nodup_append.mp distinct).1, (List.nodup_append.mp distinct).2.1⟩

theorem labels_joined : (labels (items ++ (gap ++ items'))).entries = (labels items).entries ++
    (labels items').entries.map fun entry =>
      (entry.1, entry.2 + ((instructions items).length : Int)) := by
  obtain ⟨first, second⟩ := distinct_parts blank distinct
  rw [labels_entries distinct, labels_entries first, labels_entries second]
  simp only [labelEntries, markers_joined blank, List.filter_append, List.map_append,
    List.filter_map, List.map_map]
  rfl

theorem find_joined {name : String} (declared : name ∈ names items) :
    (labels (items ++ (gap ++ items'))).find? name = (labels items).find? name := by
  obtain ⟨before, after, rfl⟩ := exists_split declared
  have split : before ++ label name :: after ++ (gap ++ items') =
      before ++ label name :: (after ++ (gap ++ items')) := by simp
  rw [labels_find (distinct_parts blank distinct).1 rfl, labels_find distinct split]

theorem find_joined_behind {name : String} (declared : name ∈ names items') :
    (labels (items ++ (gap ++ items'))).find? name =
      ((labels items').find? name).map (· + ((instructions items).length : Int)) := by
  obtain ⟨before, after, rfl⟩ := exists_split declared
  have split : items ++ (gap ++ (before ++ label name :: after)) =
      (items ++ (gap ++ before)) ++ label name :: after := by simp
  rw [labels_find (distinct_parts blank distinct).2 rfl, labels_find distinct split,
    instructions_joined blank, List.length_append]
  simp [Int.add_comm]

theorem aimed_joined {instruction : Instruction}
    (declared : ∀ name, instruction.label = some name → name ∈ names items) :
    instruction.aimed (labels (items ++ (gap ++ items'))) = instruction.aimed (labels items) := by
  unfold Instruction.aimed
  cases named : instruction.label with
  | none => rfl
  | some name => simp [find_joined blank distinct (declared name named)]

theorem aimed_joined_behind {instruction : Instruction}
    (declared : ∀ name, instruction.label = some name → name ∈ names items') :
    instruction.aimed (labels (items ++ (gap ++ items'))) =
      (instruction.aimed (labels items')).raised (instructions items).length := by
  unfold Instruction.aimed Instruction.raised
  cases named : instruction.label with
  | none => rfl
  | some name => simp [find_joined_behind blank distinct (declared name named)]

end Gap

end Item

namespace Grammar

variable {source : Source} {items items' gap : List Item} {last last' token : Token}
  {tokens tokens' : List Token}

/-- Accepted items are accepted one behind the other when no label is declared in both. -/
theorem Accepted.joined (accepted : Accepted source items tokens)
    (accepted' : Accepted source items' tokens')
    (apart : ∀ name ∈ Item.names items, name ∉ Item.names items')
    (blank : gap = [] ∨ gap = [.blank]) {whole : List Token}
    (sequence : Sequence source (items ++ (gap ++ items')) whole) :
    Accepted source (items ++ (gap ++ items')) whole := by
  refine ⟨sequence, ?_, fun instruction member name named => ?_⟩
  · rw [Item.names_joined blank]
    refine List.nodup_append.mpr ⟨accepted.distinct, accepted'.distinct, ?_⟩
    rintro name declared _ declared' rfl
    exact apart name declared declared'
  · rw [Item.instructions_joined blank] at member
    rw [Item.names_joined blank]
    rcases List.mem_append.mp member with member | member
    · exact List.mem_append_left _ (accepted.declared instruction member name named)
    · exact List.mem_append_right _ (accepted'.declared instruction member name named)

theorem assemble_joined (accepted : Accepted source items tokens)
    (accepted' : Accepted source items' tokens') (blank : gap = [] ∨ gap = [.blank])
    (distinct : (Item.names (items ++ (gap ++ items'))).Nodup) (last last' final : Token) :
    Program.Appended (assemble source items last) (assemble source items' last')
      (assemble source (items ++ (gap ++ items')) final) := by
  have count : (assemble source items last).instructions.length =
      (Item.instructions items).length := List.length_map ..
  refine ⟨?_, ?_, ?_, Item.definitions_joined blank items items'⟩
  · simp only [assemble, Item.instructions_joined blank, List.map_append, List.map_map,
      List.length_map]
    congr 1
    · exact List.map_congr_left fun instruction member =>
        Item.aimed_joined blank distinct (accepted.declared instruction member)
    · exact List.map_congr_left fun instruction member =>
        Item.aimed_joined_behind blank distinct (accepted'.declared instruction member)
  · rw [count]
    exact Item.labels_joined blank distinct
  · rw [count]
    exact Item.markers_joined blank items items'

/-- A program that comes of a row comes of its moved tokens, too, but for the locations. -/
theorem ofTokens_reread {moved : Token → Token → Prop} {source' : Source} {program : Program}
    (move : Move moved source source') (rows : List.Forall₂ moved tokens tokens')
    (row : Token.Row tokens') (read : Program.ofTokens source tokens = .ok program) :
    ∃ items last, Accepted source' items tokens' ∧
      program.Moved moved source source' (assemble source' items last) := by
  have outcomes := ofTokens_moved move rows
  rw [read] at outcomes
  generalize again : Program.ofTokens source' tokens' = outcome at outcomes
  cases outcomes with
  | ok same =>
    obtain ⟨_, items, last, accepted, rfl⟩ := ofTokens_sound row again
    exact ⟨items, last, accepted, same⟩

end Grammar

theorem Token.Row.lowered {tokens : List Token} (lines : Int) (row : Token.Row tokens) :
    Token.Row (tokens.map (Token.lowered lines)) := by
  induction row with
  | last ends => exact .last ends
  | cons lexed row ih => exact .cons lexed ih

theorem Lexer.IsWord.ne_nil {text : String} (word : IsWord text) : text.toList ≠ [] := by
  intro none
  have starts := word.starts
  rw [none] at starts
  cases starts

abbrev Source.ofText (file : String) (chars : List Char) (mnemonics : Mnemonics) : Source :=
  ofLines file ((Line.split chars).map String.ofList) mnemonics

section Places

variable {file text : String} {mnemonics : Mnemonics} {tokens : List Token}
  (scanned : Token.scan file text = .ok tokens)

include scanned

/-- A word is located as before when lines follow its text. -/
theorem Source.locate_onward {word : Token} (member : word ∈ tokens) (named : word.kind = .word)
    {more : List Char} (begins : ∀ next ∈ more.head?, next = '\n') :
    (ofText file (text.toList ++ more) mnemonics).locate word.position =
      (ofText file text.toList mnemonics).locate word.position := by
  obtain ⟨isWord, earlier, head, tail, later, fed, place⟩ := Token.exists_line scanned member named
  have nonempty : head ++ (word.text.toList ++ tail) ≠ [] := by simp [isWord.ne_nil]
  rw [place, locate_split (fed.onward begins) nonempty, locate_split fed nonempty]

theorem Source.locate_behind {word : Token} (member : word ∈ tokens) (named : word.kind = .word)
    {before : List Char} (closed : ∀ last ∈ before.getLast?, last = '\n') :
    ∃ place statement, (ofText file text.toList mnemonics).locate word.position = place ∧
      (ofText file (before ++ text.toList) mnemonics).locate
          (word.position.lowered (before.count '\n')) =
        ⟨place.file, place.line + before.count '\n', place.column, statement⟩ ∧
      (Line.strays before = 0 → statement = place.statement) := by
  obtain ⟨isWord, earlier, head, tail, later, fed, place⟩ := Token.exists_line scanned member named
  have nonempty : head ++ (word.text.toList ++ tail) ≠ [] := by simp [isWord.ne_nil]
  have behind := locate_split (fed.behind closed) nonempty file mnemonics (1 + head.length)
  have line : (1 + earlier.count '\n' : Int) + before.count '\n' =
      1 + (before ++ earlier).count '\n' := by
    rw [List.count_append]
    omega
  refine ⟨_, String.ofList (trimChars (Line.shown (before ++ earlier)
    (head ++ (word.text.toList ++ tail)))), rfl, ?_, fun plain => ?_⟩
  · rw [place, locate_split fed nonempty, Position.lowered, line]
    exact behind
  · rw [place, locate_split fed nonempty, Line.shown_behind closed plain]

variable {program : Program}
  (read : Program.ofTokens (.ofText file text.toList mnemonics) tokens = .ok program)

include read

/-- A row of tokens gives the same parts of a program when lines follow its text. -/
theorem Grammar.exists_onward (more : List Char) (begins : ∀ next ∈ more.head?, next = '\n') :
    ∃ items last, Accepted (.ofText file (text.toList ++ more) mnemonics) items tokens ∧
      ∃ again, assemble (.ofText file (text.toList ++ more) mnemonics) items last = again ∧
        again.instructions = program.instructions ∧ again.labels = program.labels ∧
        again.markers = program.markers ∧ again.definitions = program.definitions := by
  have move : Move (fun token token' => token' = token ∧ token ∈ tokens)
      (.ofText file text.toList mnemonics) (.ofText file (text.toList ++ more) mnemonics) :=
    ⟨rfl, rfl, fun same => by rw [same.1], fun same => by rw [same.1]⟩
  have rows : List.Forall₂ (fun token token' => token' = token ∧ token ∈ tokens) tokens tokens :=
    List.forall₂_same.mpr fun token member => ⟨rfl, member⟩
  obtain ⟨items, last, accepted, same⟩ :=
    ofTokens_reread move rows (Lexer.scan_row scanned) read
  refine ⟨items, last, accepted, _, rfl, ?_, same.labels, same.markers, same.definitions⟩
  refine (List.forall₂_eq_eq_eq ▸ same.instructions.imp fun one other same => ?_).symm
  cases same with
  | moved there named =>
    obtain ⟨rfl, member⟩ := there
    rw [Source.locate_onward scanned member named begins]

theorem Grammar.exists_lowered (before : List Char)
    (closed : ∀ last ∈ before.getLast?, last = '\n') :
    ∃ items last, Accepted (.ofText file (before ++ text.toList) mnemonics) items
        (tokens.map (Token.lowered (before.count '\n'))) ∧
      program.Lowered before
        (assemble (.ofText file (before ++ text.toList) mnemonics) items last) := by
  have move : Move
      (fun token token' => token' = token.lowered (before.count '\n') ∧ token ∈ tokens)
      (.ofText file text.toList mnemonics) (.ofText file (before ++ text.toList) mnemonics) :=
    ⟨rfl, rfl, fun same => by rw [same.1]; rfl, fun same => by rw [same.1]; rfl⟩
  have rows : List.Forall₂
      (fun token token' => token' = token.lowered (before.count '\n') ∧ token ∈ tokens)
      tokens (tokens.map (Token.lowered (before.count '\n'))) :=
    List.forall₂_map_right_iff.mpr (List.forall₂_same.mpr fun token member => ⟨rfl, member⟩)
  obtain ⟨items, last, accepted, same⟩ :=
    ofTokens_reread move rows ((Lexer.scan_row scanned).lowered _) read
  refine ⟨items, last, accepted, same.instructions.imp fun one other same => ?_, same.labels,
    same.markers, same.definitions⟩
  cases same with
  | moved there named =>
    obtain ⟨rfl, member⟩ := there
    obtain ⟨place, statement, located, lower, plain⟩ :=
      Source.locate_behind scanned member named closed
    exact ⟨rfl, place, statement, congrArg some located, congrArg some lower, plain⟩

end Places

/-- Two texts that declare no label in common give, with a line feed between them, the program of
the one and behind it that of the other. -/
theorem Program.parse_joined {file text text' : String} {mnemonics : Mnemonics}
    {first second : Program} (parsed : parse file text mnemonics = .ok first)
    (parsed' : parse file text' mnemonics = .ok second)
    (apart : ∀ name ∈ first.labels.keys, name ∉ second.labels.keys) :
    ∃ lower whole, second.Lowered (text.toList ++ ['\n']) lower ∧ first.Appended lower whole ∧
      parse file (text ++ "\n" ++ text') mnemonics = .ok whole := by
  obtain ⟨tokens, scanned, read⟩ := parse_eq_ok.mp parsed
  obtain ⟨tokens', scanned', read'⟩ := parse_eq_ok.mp parsed'
  obtain ⟨found, last, newline, rfl, ends, feed, joined⟩ := Token.scan_joined scanned scanned'
  have row := Lexer.scan_row scanned
  have native : mnemonics.foreign? = none := (Grammar.ofTokens_sound row read).1
  have lines : (1 + text.toList.count '\n' : Int) = (text.toList ++ ['\n']).count '\n' := by
    simp [Int.add_comm]
  rw [lines] at joined
  have chars : text.toList ++ '\n' :: text'.toList = (text.toList ++ ['\n']) ++ text'.toList := by
    simp
  have whole : (text ++ "\n" ++ text').toList = text.toList ++ ['\n'] ++ text'.toList := by simp
  -- Both rows of tokens are read with the lines of the whole text.
  obtain ⟨items, end₁, accepted, again, same, instructions, labels, markers, definitions⟩ :=
    Grammar.exists_onward scanned read ('\n' :: text'.toList) (by simp)
  obtain ⟨items', end₂, accepted', lowered⟩ :=
    Grammar.exists_lowered scanned' read' (text.toList ++ ['\n']) (by simp)
  rw [chars] at accepted same
  obtain ⟨gap, blank, sequence⟩ := accepted.sequence.extended ends feed accepted'.sequence
    (Grammar.extended_append row newline _)
  have keys : first.labels.keys = Item.names items := by
    rw [← labels, ← same]
    exact Item.labels_keys accepted.distinct
  have keys' : second.labels.keys = Item.names items' := by
    rw [← lowered.labels]
    exact Item.labels_keys accepted'.distinct
  rw [keys, keys'] at apart
  have together := accepted.joined accepted' apart blank sequence
  obtain ⟨final, success⟩ := Grammar.ofTokens_complete native together
  have appended :=
    Grammar.assemble_joined accepted accepted' blank together.distinct end₁ end₂ final
  rw [← whole] at success
  refine ⟨_, _, lowered, ?_, parse_eq_ok.mpr ⟨_, joined, success⟩⟩
  rw [same] at appended
  exact ⟨instructions ▸ appended.instructions, instructions ▸ labels ▸ appended.labels,
    instructions ▸ markers ▸ appended.markers, definitions ▸ appended.definitions⟩

private theorem keys_parsed {text : String} {keys : List String}
    (read : ((Program.parse "" text .standard).toOption.map fun program => program.labels.keys) =
      some keys) :
    ∃ program, Program.parse "" text .standard = .ok program ∧ program.labels.keys = keys := by
  obtain ⟨program, parsed, same⟩ := Option.map_eq_some_iff.mp read
  exact ⟨program, toOption_eq_some.mp parsed, same⟩

private def upper : String := "-- a\x0cb\nx: JUMP x\nend:"

private def under : String := "y: INBOX\nJUMP y"

theorem Program.parse_joined_labels : ∃ first second,
    parse "" upper .standard = .ok first ∧ parse "" under .standard = .ok second ∧
      (∀ name ∈ first.labels.keys, name ∉ second.labels.keys) ∧
      ∃ lower whole, second.Lowered (upper.toList ++ ['\n']) lower ∧
        first.Appended lower whole ∧ parse "" (upper ++ "\n" ++ under) .standard = .ok whole := by
  have read : ((parse "" upper .standard).toOption.map fun program => program.labels.keys) =
      some ["x", "end"] := by
    decide +kernel
  have read' : ((parse "" under .standard).toOption.map fun program => program.labels.keys) =
      some ["y"] := by
    decide +kernel
  obtain ⟨first, parsed, keys⟩ := keys_parsed read
  obtain ⟨second, parsed', keys'⟩ := keys_parsed read'
  have apart : ∀ name ∈ first.labels.keys, name ∉ second.labels.keys := by
    rw [keys, keys']
    decide
  exact ⟨first, second, parsed, parsed', apart, parse_joined parsed parsed' apart⟩

end MailRoom
