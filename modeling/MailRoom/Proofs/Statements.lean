import MailRoom.Machine.Session
import MailRoom.Proofs.Places

/-! The lines that instructions are shown with. Main statement: `Program.instructions_stated`, by
which an instruction has line and column of the word that it starts with, and is shown with the line
of that number in the text as it is cut: the line the word stands on, unless other characters than
line feeds have ended lines by then. -/
namespace MailRoom

open Line (Fed shown strays)

theorem Lexer.not_isBlank_of_isWordStart {char : Char} (starts : isWordStart char = true) :
    isBlank char.toNat = false := by
  apply Bool.eq_false_iff.mpr
  intro blank
  obtain ⟨range, member, low, high⟩ := (Ranges.covers_iff _ _).mp blank
  have none : ∀ range ∈ Blank.ranges, ∀ code ∈ List.range' range.1 (range.2 + 1 - range.1),
      isWordStart (Char.ofNat code) = false := by
    decide +kernel
  have foreign := none range member char.toNat (List.mem_range'_1.mpr ⟨low, by omega⟩)
  rw [Char.ofNat_toNat, starts] at foreign
  cases foreign

theorem Lexer.Spelled.isWord {before middle after : List Char} {kind : TokenKind} {text : String}
    (spelled : Spelled before middle after kind text) (named : kind = .word) :
    text.toList = middle ∧ IsWord text := by
  cases spelled with
  | word maximal free => exact ⟨String.toList_ofList, maximal.formed⟩
  | _ => cases named

/-- A word stands in the text where its token does. -/
theorem Token.exists_written {file text : String} {tokens : List Token} {word : Token}
    (scanned : Token.scan file text = .ok tokens) (member : word ∈ tokens)
    (named : word.kind = .word) :
    Lexer.IsWord word.text ∧ ∃ before after, text.toList = before ++ (word.text.toList ++ after) ∧
      word.position = .behind before := by
  rcases Token.stands_or_ends scanned member with ⟨span, stands⟩ | rfl
  · obtain ⟨chars, isWord⟩ := stands.spelled.isWord named
    refine ⟨isWord, text.toList.take span.start, text.toList.drop span.stop, ?_, stands.position⟩
    have start : (text.toList.take span.stop).take span.start = text.toList.take span.start := by
      rw [List.take_take, Nat.min_eq_left stands.nonempty.le]
    rw [chars, ← List.append_assoc, ← start, List.take_append_drop, List.take_append_drop]
  · cases named

/-- The line around a word, which starts on it where its token does. -/
theorem Token.exists_line {file text : String} {tokens : List Token} {word : Token}
    (scanned : Token.scan file text = .ok tokens) (member : word ∈ tokens)
    (named : word.kind = .word) :
    Lexer.IsWord word.text ∧ ∃ earlier head tail later,
      Fed text.toList earlier (head ++ (word.text.toList ++ tail)) later ∧
        word.position = ⟨1 + earlier.count '\n', 1 + head.length⟩ := by
  obtain ⟨isWord, before, after, whole, place⟩ := Token.exists_written scanned member named
  have single : '\n' ∉ word.text.toList := by
    intro member
    have part := isWord.parts _ member
    rw [Lexer.isWordPart_newline] at part
    cases part
  obtain ⟨earlier, head, tail, later, _, _, fed, there⟩ :=
    Line.exists_fed before word.text.toList after single
  exact ⟨isWord, earlier, head, tail, later, whole ▸ fed, place.trans there⟩

namespace Grammar

variable {source : Source} {tokens behind : List Token} {items : List Item}

theorem LineEnd.suffix (ends : LineEnd tokens behind) : behind <:+ tokens := by
  cases ends with
  | newline kind => exact List.suffix_cons _ _
  | endOfText kind => exact List.suffix_rfl

theorem Operand.suffix {shape : OperandShape} {address : Option Address} {label : Option String}
    (operand : Operand shape tokens address label behind) : behind <:+ tokens := by
  cases operand with
  | none => exact List.suffix_rfl
  | direct number => exact List.suffix_cons _ _
  | indirect opens number closes => exact ⟨[_, _, _], rfl⟩
  | label named => exact List.suffix_cons _ _

theorem Phrase.suffix {item : Item} {token : Token} {rest : List Token}
    (phrase : Phrase source item (token :: rest) behind) : behind <:+ rest := by
  cases phrase with
  | blank kind => exact List.suffix_rfl
  | definition kind drawn short ends => exact ends.suffix
  | label named marked => exact List.suffix_cons _ _
  | comment named spelled number ends => exact ends.suffix.trans (List.suffix_cons _ _)
  | instruction named free found shaped operand ends => exact ends.suffix.trans operand.suffix

/-- A word of a row of tokens from which on an instruction is read. -/
def Opens (source : Source) (tokens : List Token) (instruction : Instruction) (word : Token) :
    Prop :=
  ∃ rest behind, word :: rest <:+ tokens ∧
    Phrase source (.instruction instruction) (word :: rest) behind

theorem Opens.located {instruction : Instruction} {word : Token}
    (opens : Opens source tokens instruction word) :
    word ∈ tokens ∧ word.kind = .word ∧
      instruction.location = some (source.locate word.position) := by
  obtain ⟨rest, behind, start, phrase⟩ := opens
  refine ⟨start.subset List.mem_cons_self, ?_⟩
  cases phrase with
  | instruction named free found shaped operand ends => exact ⟨named, rfl⟩

/-- The instructions of a sequence are opened by words of the row, in their order. -/
theorem Sequence.exists_words (sequence : Sequence source items tokens) :
    ∃ words, words.Sublist tokens ∧
      List.Forall₂ (Opens source tokens) (Item.instructions items) words := by
  induction sequence with
  | finish ends => exact ⟨[], List.nil_sublist _, .nil⟩
  | @item item items tokens rest phrase further ih =>
    obtain ⟨words, sublist, opens⟩ := ih
    obtain ⟨token, behind, rfl, _⟩ := phrase.starts
    have suffix := phrase.suffix
    have within := suffix.trans (List.suffix_cons token behind)
    have opens := opens.imp fun instruction word ⟨rest, behind, start, phrase⟩ =>
      (⟨rest, behind, start.trans within, phrase⟩ : Opens source (token :: _) instruction word)
    cases item with
    | instruction found =>
      refine ⟨token :: words, (sublist.trans suffix.sublist).cons_cons token, .cons ?_ opens⟩
      exact ⟨_, _, List.suffix_rfl, phrase⟩
    | _ => exact ⟨words, sublist.trans within.sublist, opens⟩

end Grammar

theorem Source.locate_split {chars earlier line later : List Char}
    (fed : Fed chars earlier line later) (nonempty : line ≠ []) (file : String)
    (mnemonics : Mnemonics) (column : Int) :
    (ofLines file ((Line.split chars).map String.ofList) mnemonics).locate
        ⟨1 + earlier.count '\n', column⟩ =
      ⟨file, 1 + earlier.count '\n', column, String.ofList (trimChars (shown earlier line))⟩ := by
  have found := fed.getElem?_split nonempty
  have index : ((1 + earlier.count '\n' : Int) - 1).toNat = earlier.count '\n' := by omega
  have natural : ¬(1 + earlier.count '\n' : Int) < 1 := by omega
  simp only [ofLines, locate, natural, index, if_false, List.map_map, List.getElem?_toArray,
    List.getElem?_map, found, Option.map_some, Option.getD_some, Function.comp_apply,
    String.toList_ofList]

/-- An instruction that starts with a word on a line, and the statement it is shown with. So long as
only line feeds end lines before it, the statement is that line up to its first break, which is the
whole line when only blanks follow. -/
structure Instruction.Stated (file : String) (chars earlier line later : List Char) (word : Token)
    (statement : String) (instruction : Instruction) : Prop where
  fed : Fed chars earlier line later
  written : ∃ head tail, line = head ++ (word.text.toList ++ tail) ∧
    word.position = ⟨1 + earlier.count '\n', 1 + head.length⟩
  located : instruction.location =
    some ⟨file, word.position.line, word.position.column, statement⟩
  plain : strays earlier = 0 →
    statement = String.ofList (trimChars (line.takeWhile fun char => !Line.isBreak char)) ∧
      (statement = String.ofList (trimChars line) ↔
        ∀ char ∈ line.dropWhile fun char => !Line.isBreak char, isBlank char.toNat = true)
  late : strays earlier ≠ 0 → ∃ other, (Line.split earlier)[earlier.count '\n']? = some other ∧
    statement = String.ofList (trimChars other)
  logged : statement = String.ofList (trimChars line) → ∀ (machine : Machine) (pc : Int)
    (state : State), (machine.entry pc instruction state).statement =
      some (String.ofList (trimChars line))

theorem Instruction.stated {file : String} {chars earlier head tail later : List Char}
    {word : Token} {mnemonics : Mnemonics} {instruction : Instruction}
    (isWord : Lexer.IsWord word.text)
    (fed : Fed chars earlier (head ++ (word.text.toList ++ tail)) later)
    (place : word.position = ⟨1 + earlier.count '\n', 1 + head.length⟩)
    (located : instruction.location =
      some ((Source.ofLines file ((Line.split chars).map String.ofList) mnemonics).locate
        word.position)) :
    instruction.Stated file chars earlier (head ++ (word.text.toList ++ tail)) later word
      (String.ofList (trimChars (shown earlier (head ++ (word.text.toList ++ tail))))) := by
  obtain ⟨first, letter, starts⟩ := (Option.any_eq_true ..).mp isWord.starts
  have member : first ∈ head ++ (word.text.toList ++ tail) := by
    simp [List.mem_of_head? letter]
  rw [place, Source.locate_split fed (List.ne_nil_of_mem member)] at located
  refine ⟨fed, ⟨head, tail, rfl, place⟩, by rw [place]; exact located, fun plain => ?_,
    fun more => ⟨_, fed.shown_of_strays more, rfl⟩, fun same machine pc state => ?_⟩
  · generalize head ++ (word.text.toList ++ tail) = line at fed
    rw [fed.shown_of_plain plain]
    refine ⟨rfl, ?_⟩
    rw [String.ofList_inj]
    nth_rewrite 2 [← List.takeWhile_append_dropWhile (p := fun char => !Line.isBreak char)
      (l := line)]
    exact trimBoth_append_eq_iff _ _
  · have kept : first ∈ trimChars (head ++ (word.text.toList ++ tail)) :=
      mem_trimBoth_of_not_drop member (Lexer.not_isBlank_of_isWordStart starts)
    have filled :
        (String.ofList (trimChars (head ++ (word.text.toList ++ tail)))).isEmpty = false := by
      simpa using List.ne_nil_of_mem kept
    rw [same] at located
    simp [Machine.entry, located, filled]

/-- The instructions of a program start with words of its text, each of which has the line and the
column of its instruction. -/
theorem Program.instructions_stated {file text : String} {mnemonics : Mnemonics}
    {program : Program} (success : parse file text mnemonics = .ok program) :
    ∃ tokens words, Token.scan file text = .ok tokens ∧ words.Sublist tokens ∧
      List.Forall₂ (fun instruction word =>
          Grammar.Opens (Source.ofLines file ((Line.split text.toList).map String.ofList) mnemonics)
            tokens instruction.unresolved word ∧
          ∃ earlier line later statement,
            instruction.Stated file text.toList earlier line later word statement)
        program.instructions words := by
  obtain ⟨tokens, scanned, read⟩ := parse_eq_ok.mp success
  obtain ⟨_, items, last, accepted, rfl⟩ := Grammar.ofTokens_sound (Lexer.scan_row scanned) read
  obtain ⟨words, sublist, opens⟩ := accepted.sequence.exists_words
  rw [← (Grammar.assembled_assemble last accepted).instructions, List.forall₂_map_left_iff] at opens
  refine ⟨tokens, words, scanned, sublist, opens.imp fun instruction word opens => ⟨opens, ?_⟩⟩
  obtain ⟨member, named, located⟩ := opens.located
  obtain ⟨isWord, earlier, head, tail, later, fed, place⟩ :=
    Token.exists_line scanned member named
  exact ⟨_, _, _, _, Instruction.stated isWord fed place located⟩

private def paged : String := "-- \x0cx\n  INBOX\r\n"

private theorem paged_parsed : ((Program.parse "" paged .standard).toOption.map
    Program.instructions) = some [⟨.inbox, none, none, none, some ⟨"", 2, 3, "x"⟩⟩] := by
  decide +kernel

/-- A form feed in a header: the instruction behind it is not shown with its own line. -/
theorem Program.statement_of_other_line : ∃ program instruction location line,
    parse "" paged .standard = .ok program ∧ instruction ∈ program.instructions ∧
      instruction.location = some location ∧
      (paged.toList.splitOn '\n')[(location.line - 1).toNat]? = some line ∧
      location.statement ≠ String.ofList (trimChars line) := by
  obtain ⟨program, parsed, instructions⟩ := Option.map_eq_some_iff.mp paged_parsed
  refine ⟨program, _, _, "  INBOX\r".toList, toOption_eq_some.mp parsed,
    instructions ▸ List.mem_singleton_self _, rfl, by decide +kernel, by decide +kernel⟩

theorem Program.instructions_stated_paged : ∃ program,
    parse "" paged .standard = .ok program ∧
      ∃ tokens words, Token.scan "" paged = .ok tokens ∧ words.Sublist tokens ∧
        List.Forall₂ (fun instruction word =>
            Grammar.Opens
              (Source.ofLines "" ((Line.split paged.toList).map String.ofList) .standard)
              tokens instruction.unresolved word ∧
            ∃ earlier line later statement,
              instruction.Stated "" paged.toList earlier line later word statement)
          program.instructions words := by
  obtain ⟨program, parsed, _⟩ := Option.map_eq_some_iff.mp paged_parsed
  have parsed := toOption_eq_some.mp parsed
  exact ⟨program, parsed, instructions_stated parsed⟩

end MailRoom
