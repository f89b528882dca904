import MailRoom.Program.Reader
import MailRoom.Proofs.Lexed

/-! The grammar of save files, on rows of tokens, and the operands of instructions in it. Main
statements: `Grammar.readInstruction_sound` and `Grammar.readInstruction_complete`, by which an
instruction is read exactly when its operand is the one that its opcode goes with. -/
namespace MailRoom

/-- The digits of a drawing's number, as its token spells them. -/
def Token.numberDigits (text : String) : List Char :=
  ((text.toList.dropWhile (· ≠ ' ')).drop 1).takeWhile (· ≠ '\n')

namespace Grammar

/-- A line ends with a newline, which is passed, or before the end of the text, which is not. -/
inductive LineEnd : List Token → List Token → Prop where
  | newline {token : Token} {rest : List Token} (kind : token.kind = .newline) :
      LineEnd (token :: rest) rest
  | endOfText {token : Token} {rest : List Token} (kind : token.kind = .endOfText) :
      LineEnd (token :: rest) (token :: rest)

/-- A number that is a tile's; no numeral is read that has too many digits. -/
structure TileNumber (token : Token) (tile : Int) : Prop where
  kind : token.kind = .number
  denotes : Numeral.Denotes token.text tile
  natural : 0 ≤ tile
  short : Numeral.digitCount token.text ≤ Numeral.maxDigits

/-- The operand that goes with a shape, read off a row of tokens. -/
inductive Operand : OperandShape → List Token → Option Address → Option String → List Token → Prop
    where
  | none {rest : List Token} : Operand .none rest none none rest
  | direct {token : Token} {rest : List Token} {tile : Int} (number : TileNumber token tile) :
      Operand .address (token :: rest) (some ⟨tile, false⟩) none rest
  | indirect {opening token closing : Token} {rest : List Token} {tile : Int}
      (opens : opening.kind = .openBracket) (number : TileNumber token tile)
      (closes : closing.kind = .closeBracket) :
      Operand .address (opening :: token :: closing :: rest) (some ⟨tile, true⟩) none rest
  | label {token : Token} {rest : List Token} (word : token.kind = .word) :
      Operand .label (token :: rest) none (some token.text) rest

/-- An item, the row of tokens that it starts, and the row behind it. -/
inductive Phrase (source : Source) : Item → List Token → List Token → Prop where
  | blank {token : Token} {rest : List Token} (kind : token.kind = .newline ∨ token.kind = .header) :
      Phrase source .blank (token :: rest) rest
  | definition {token : Token} {rest behind : List Token} {definition : Definition}
      (kind : token.kind = .define) (drawn : Lexer.Drawn token.text definition)
      (short : (Token.numberDigits token.text).length ≤ Numeral.maxDigits)
      (ends : LineEnd rest behind) : Phrase source (.definition definition) (token :: rest) behind
  | label {token colon : Token} {rest : List Token} (word : token.kind = .word)
      (marked : colon.kind = .colon) :
      Phrase source (.label token.text) (token :: colon :: rest) rest
  | comment {token value : Token} {rest behind : List Token} (word : token.kind = .word)
      (spelled : token.text = "COMMENT") (number : value.kind = .number)
      (ends : LineEnd rest behind) :
      Phrase source (.comment value.text) (token :: value :: rest) behind
  | instruction {token : Token} {rest between behind : List Token} {opcode : Opcode}
      {shape : OperandShape} {address : Option Address} {label : Option String}
      (word : token.kind = .word) (free : token.text ≠ "COMMENT")
      (found : source.mnemonics.find? token.text = some opcode)
      (shaped : opcode.shape? = some shape) (operand : Operand shape rest address label between)
      (ends : LineEnd between behind) :
      Phrase source
        (.instruction ⟨opcode, address, label, none, some (source.locate token.position)⟩)
        (token :: rest) behind

/-- Items one after the other, and the end of the text behind them. -/
inductive Sequence (source : Source) : List Item → List Token → Prop where
  | finish {token : Token} (ends : token.kind = .endOfText) : Sequence source [] [token]
  | item {item : Item} {items : List Item} {tokens rest : List Token}
      (phrase : Phrase source item tokens rest) (further : Sequence source items rest) :
      Sequence source (item :: items) tokens

variable {source : Source} {word : Token} {tokens rest behind : List Token}

theorem LineEnd.row (ends : LineEnd tokens behind) (row : Token.Row tokens) :
    Token.Row behind := by
  cases ends with
  | newline kind => exact row.tail (by simp [kind])
  | endOfText kind => exact row

theorem endOfLine_sound {taken : Nat} (success : Item.endOfLine source tokens = .ok taken) :
    LineEnd tokens (tokens.drop taken) := by
  cases tokens with
  | nil => cases success
  | cons token rest =>
    simp only [Item.endOfLine] at success
    split at success
    · rename_i newline
      cases success
      exact .newline newline
    split at success
    · rename_i ends
      cases success
      exact .endOfText ends
    · cases success

theorem endOfLine_complete (source : Source) (ends : LineEnd tokens behind) :
    ∃ taken, Item.endOfLine source tokens = .ok taken ∧ tokens.drop taken = behind := by
  cases ends with
  | newline kind => exact ⟨1, by simp [Item.endOfLine, kind], rfl⟩
  | endOfText kind => exact ⟨0, by simp [Item.endOfLine, kind], rfl⟩

theorem readNumeral_denotes {text : String} {value : Int}
    (denotes : Numeral.Denotes text value) :
    Item.readNumeral text =
      if Numeral.digitCount text ≤ Numeral.maxDigits then .ok value
      else .error (.numeral (.tooLong (Numeral.digitCount text))) := by
  rw [Item.readNumeral, Numeral.read_denotes denotes]
  split <;> rfl

theorem tile_sound {tile : Int} (row : Token.Row tokens)
    (success : Item.tile source word tokens = .ok tile) :
    ∃ token rest, tokens = token :: rest ∧ TileNumber token tile := by
  cases tokens with
  | nil => cases success
  | cons token rest =>
    refine ⟨token, rest, rfl, ?_⟩
    cases row with
    | last ends => simp [Item.tile, ends, Source.reject] at success
    | cons lexed row =>
      obtain ⟨kind, text, position⟩ := token
      simp only at lexed
      cases lexed with
      | number denotes =>
        simp only [Item.tile, readNumeral_denotes denotes] at success
        obtain ⟨number, read, success⟩ := bind_eq_ok.mp success
        split at read
        · rename_i short
          cases read
          split at success
          · cases success
          · rename_i natural
            cases success
            exact ⟨rfl, denotes, Int.not_lt.mp natural, short⟩
        · cases read
      | _ => simp [Item.tile, Source.reject] at success

theorem tile_complete (source : Source) (word : Token) {token : Token} {tile : Int}
    (number : TileNumber token tile) (rest : List Token) :
    Item.tile source word (token :: rest) = .ok tile := by
  have natural := Int.not_lt.mpr number.natural
  simp only [Item.tile, number.kind, readNumeral_denotes number.denotes, number.short]
  simp [bind, Except.bind, natural, pure, Except.pure]

theorem address_sound {address : Address} {taken : Nat} (row : Token.Row tokens)
    (success : Item.address source word tokens = .ok (address, taken)) :
    Operand .address tokens (some address) none (tokens.drop taken) := by
  cases tokens with
  | nil => cases success
  | cons token rest =>
    simp only [Item.address] at success
    split at success
    · rename_i opens
      obtain ⟨tile, read, success⟩ := bind_eq_ok.mp success
      have behind := row.tail (by simp [opens])
      obtain ⟨number, further, rfl, numbered⟩ := tile_sound behind read
      cases further with
      | nil => cases success
      | cons closing further =>
        simp only [List.drop_succ_cons, List.drop_zero] at success
        split at success
        · rename_i closes
          cases success
          exact .indirect opens numbered closes
        · cases success
    · obtain ⟨tile, read, success⟩ := bind_eq_ok.mp success
      cases success
      obtain ⟨number, further, same, numbered⟩ := tile_sound row read
      cases same
      exact .direct numbered

theorem address_complete {address : Address} (source : Source) (word : Token)
    (operand : Operand .address tokens (some address) none behind) :
    ∃ taken, Item.address source word tokens = .ok (address, taken) ∧
      tokens.drop taken = behind := by
  cases operand with
  | direct number =>
    have read := tile_complete source word number behind
    refine ⟨1, ?_, rfl⟩
    simp [Item.address, number.kind, read, bind, Except.bind, pure, Except.pure]
  | @indirect opening token closing _ tile opens number closes =>
    have read := tile_complete source word number (closing :: behind)
    refine ⟨3, ?_, rfl⟩
    simp [Item.address, opens, closes, read, bind, Except.bind, pure, Except.pure]

theorem jumpLabel_sound {label : String}
    (success : Item.jumpLabel source word tokens = .ok label) :
    Operand .label tokens none (some label) (tokens.drop 1) := by
  cases tokens with
  | nil => cases success
  | cons token rest =>
    simp only [Item.jumpLabel] at success
    split at success
    · cases success
    · cases success
    · rename_i named
      cases success
      exact .label named
    · cases success

theorem jumpLabel_complete {label : String} (source : Source) (word : Token)
    (operand : Operand .label tokens none (some label) behind) :
    Item.jumpLabel source word tokens = .ok label ∧ tokens.drop 1 = behind := by
  cases operand with
  | label named => exact ⟨by simp [Item.jumpLabel, named], rfl⟩

theorem Operand.row {shape : OperandShape} {address : Option Address} {label : Option String}
    (operand : Operand shape tokens address label behind) (row : Token.Row tokens) :
    Token.Row behind := by
  cases operand with
  | none => exact row
  | direct number => exact row.tail (by simp [number.kind])
  | indirect opens number closes =>
    have row := row.tail (by simp [opens])
    have row := row.tail (by simp [number.kind])
    exact row.tail (by simp [closes])
  | label named => exact row.tail (by simp [named])

theorem exists_shape {mnemonics : Mnemonics} {text : String} {opcode : Opcode}
    (native : mnemonics.foreign? = none) (found : mnemonics.find? text = some opcode) :
    ∃ shape, opcode.shape? = some shape := by
  have member : (text, opcode) ∈ mnemonics.entries := Table.find?_eq_some.mp found
  have plain := List.findSome?_eq_none_iff.mp native _ member
  cases opcode with
  | foreign name => simp at plain
  | _ => exact ⟨_, rfl⟩

theorem readInstruction_sound {instruction : Instruction} {taken : Nat}
    (native : source.mnemonics.foreign? = none) (row : Token.Row tokens)
    (success : Item.readInstruction source word tokens = .ok (instruction, taken)) :
    ∃ opcode shape address label, source.mnemonics.find? word.text = some opcode ∧
      opcode.shape? = some shape ∧ Operand shape tokens address label (tokens.drop taken) ∧
      instruction = ⟨opcode, address, label, none, some (source.locate word.position)⟩ := by
  simp only [Item.readInstruction] at success
  split at success
  · cases success
  · rename_i opcode found
    obtain ⟨shape, shaped⟩ := exists_shape native found
    cases shape with
    | address =>
      simp only [shaped] at success
      obtain ⟨⟨address, passed⟩, read, success⟩ := bind_eq_ok.mp success
      cases success
      exact ⟨opcode, .address, some address, none, found, shaped, address_sound row read, rfl⟩
    | label =>
      simp only [shaped] at success
      obtain ⟨label, read, success⟩ := bind_eq_ok.mp success
      cases success
      exact ⟨opcode, .label, none, some label, found, shaped, jumpLabel_sound read, rfl⟩
    | none =>
      simp only [shaped] at success
      cases success
      exact ⟨opcode, .none, none, none, found, shaped, .none, rfl⟩

theorem readInstruction_complete {opcode : Opcode} {shape : OperandShape}
    {address : Option Address} {label : Option String}
    (found : source.mnemonics.find? word.text = some opcode) (shaped : opcode.shape? = some shape)
    (operand : Operand shape tokens address label behind) :
    ∃ taken, Item.readInstruction source word tokens =
        .ok (⟨opcode, address, label, none, some (source.locate word.position)⟩, taken) ∧
      tokens.drop taken = behind := by
  cases shape with
  | none =>
    cases operand
    exact ⟨0, by simp [Item.readInstruction, found, shaped], rfl⟩
  | address =>
    cases operand with
    | direct number =>
      obtain ⟨taken, read, rest⟩ := address_complete source word (.direct number)
      exact ⟨taken, by simp [Item.readInstruction, found, shaped, read, bind, Except.bind, pure,
        Except.pure], rest⟩
    | indirect opens number closes =>
      obtain ⟨taken, read, rest⟩ :=
        address_complete source word (.indirect opens number closes)
      exact ⟨taken, by simp [Item.readInstruction, found, shaped, read, bind, Except.bind, pure,
        Except.pure], rest⟩
  | label =>
    cases operand with
    | label named =>
      obtain ⟨read, rest⟩ := jumpLabel_complete source word (.label named)
      exact ⟨1, by simp [Item.readInstruction, found, shaped, read, bind, Except.bind, pure,
        Except.pure], rest⟩

end Grammar

end MailRoom
