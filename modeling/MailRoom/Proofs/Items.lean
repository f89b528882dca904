import MailRoom.Proofs.Grammar

/-! Reading rows of tokens as items. Main statements: `Grammar.readAll_sound` and
`Grammar.readAll_complete`, by which a row is read to its end exactly when it is a sequence of items
that declares no label twice. -/
namespace MailRoom

namespace Grammar

variable {source : Source} {tokens rest behind : List Token}

theorem numberDigits_drawn {kind : MarkerKind} {row : List Char} (data : String)
    (usual : kind = .comment ∨ kind = .label)
    (digits : ∀ char ∈ row, Lexer.isDigit char = true) :
    Token.numberDigits (kind.name ++ " " ++ String.ofList row ++ "\n" ++ data) = row := by
  have letters : ∀ char ∈ kind.name.toList, decide (char ≠ ' ') = true := by
    rcases usual with rfl | rfl <;> exact List.all_eq_true.mp (by decide)
  have inLine : ∀ char ∈ row, decide (char ≠ '\n') = true := fun char member =>
    decide_eq_true (Lexer.ne_of_class (digits char member) (by decide))
  simp only [Token.numberDigits, String.toList_append, String.toList_ofList, List.append_assoc]
  rw [Lexer.dropWhile_run letters rfl]
  exact Lexer.takeWhile_run inLine rfl

theorem readDefinition_drawn {text : String} {definition : Definition}
    (drawn : Lexer.Drawn text definition) :
    Item.readDefinition text =
      if (Token.numberDigits text).length ≤ Numeral.maxDigits then .ok definition
      else .error (.numeral (.tooLong (Token.numberDigits text).length)) := by
  cases drawn with
  | @drawn kind row data usual nonempty digits =>
    have letters : ∀ char ∈ kind.name.toList, decide (char ≠ ' ') = true := by
      rcases usual with rfl | rfl <;> exact List.all_eq_true.mp (by decide)
    have oneLine : ∀ char ∈ kind.name.toList, decide (char ≠ '\n') = true := by
      rcases usual with rfl | rfl <;> exact List.all_eq_true.mp (by decide)
    have inHead : ∀ char ∈ kind.name.toList ++ ' ' :: row, decide (char ≠ '\n') = true := by
      intro char member
      rcases List.mem_append.mp member with inName | inRow
      · exact oneLine char inName
      · rcases List.mem_cons.mp inRow with rfl | inRow
        · decide
        · exact decide_eq_true (Lexer.ne_of_class (digits char inRow) (by decide))
    have named : MarkerKind.ofName (String.ofList kind.name.toList) = kind := by
      rcases usual with rfl | rfl <;> rfl
    have written : (kind.name ++ " " ++ String.ofList row ++ "\n" ++ data).toList =
        (kind.name.toList ++ ' ' :: row) ++ '\n' :: data.toList := by
      simp
    have read := readNumeral_denotes (Numeral.Denotes.natural nonempty digits)
    rw [Numeral.digitCount_natural digits] at read
    rw [numberDigits_drawn data usual digits]
    simp only [Item.readDefinition]
    rw [written, Lexer.takeWhile_run inHead rfl, Lexer.dropWhile_run inHead rfl,
      Lexer.takeWhile_run letters rfl, if_neg (by simp), List.drop_length_add_append, named]
    simp only [List.drop_succ_cons, List.drop_zero, read, String.ofList_toList]
    split <;> rfl

theorem Phrase.row {item : Item} (phrase : Phrase source item tokens behind)
    (row : Token.Row tokens) : Token.Row behind := by
  cases phrase with
  | blank kind => exact row.tail (by rcases kind with kind | kind <;> simp [kind])
  | definition kind drawn short ends => exact ends.row (row.tail (by simp [kind]))
  | label named marked =>
    have row := row.tail (by simp [named])
    exact row.tail (by simp [marked])
  | comment named spelled number ends =>
    have row := row.tail (by simp [named])
    exact ends.row (row.tail (by simp [number]))
  | instruction named free found shaped operand ends =>
    exact ends.row (operand.row (row.tail (by simp [named])))

/-- What is read at the head of a row is an item of the grammar, and no label read before. -/
theorem read_sound {declared : List String} {token : Token} {rest : List Token} {item : Item}
    {taken : Nat} (native : source.mnemonics.foreign? = none) (row : Token.Row (token :: rest))
    (success : Item.read source declared token rest = .ok (item, taken)) :
    Phrase source item (token :: rest) (rest.drop taken) ∧
      ∀ name, item = .label name → name ∉ declared := by
  simp only [Item.read] at success
  split at success
  · rename_i kind
    cases success
    exact ⟨.blank (.inl kind), by simp⟩
  · rename_i kind
    cases success
    exact ⟨.blank (.inr kind), by simp⟩
  · rename_i kind
    obtain ⟨definition, read, success⟩ := bind_eq_ok.mp success
    obtain ⟨ending, ended, success⟩ := bind_eq_ok.mp success
    cases success
    obtain ⟨drawing, drawn, clean⟩ := row.drawn kind
    rw [readDefinition_drawn drawn] at read
    split at read
    · rename_i short
      cases read
      exact ⟨.definition kind drawn short (endOfLine_sound ended), by simp⟩
    · cases read
  · rename_i kind
    split at success
    · rename_i colon
      split at success
      · cases success
      · rename_i fresh
        cases success
        cases rest with
        | nil => simp at colon
        | cons next rest =>
          refine ⟨.label kind (by simpa using colon), ?_⟩
          intro name same
          cases same
          exact fresh
    · split at success
      · rename_i spelled
        obtain ⟨value, expected, success⟩ := bind_eq_ok.mp success
        obtain ⟨ending, ended, success⟩ := bind_eq_ok.mp success
        cases success
        cases rest with
        | nil => cases expected
        | cons next rest =>
          simp only [Item.expect] at expected
          split at expected
          · rename_i number
            cases expected
            rw [Nat.add_comm]
            exact ⟨.comment kind spelled number (endOfLine_sound ended), by simp⟩
          · cases expected
      · rename_i free
        obtain ⟨⟨found, passed⟩, read, success⟩ := bind_eq_ok.mp success
        obtain ⟨ending, ended, success⟩ := bind_eq_ok.mp success
        cases success
        have row := row.tail (by simp [kind])
        obtain ⟨opcode, shape, address, label, named, shaped, operand, rfl⟩ :=
          readInstruction_sound native row read
        rw [← List.drop_drop]
        exact ⟨.instruction kind free named shaped operand (endOfLine_sound ended), by simp⟩
  · cases success

theorem Operand.head {shape : OperandShape} {address : Option Address} {label : Option String}
    {between : List Token} (operand : Operand shape tokens address label between)
    (ends : LineEnd between behind) :
    (tokens.head?.any fun next => next.kind = .colon) = false := by
  cases operand with
  | none => cases ends with
    | newline kind => simp [kind]
    | endOfText kind => simp [kind]
  | direct number => simp [number.kind]
  | indirect opens number closes => simp [opens]
  | label named => simp [named]

theorem read_complete {declared : List String} {token : Token} {rest : List Token} {item : Item}
    (phrase : Phrase source item (token :: rest) behind)
    (fresh : ∀ name, item = .label name → name ∉ declared) :
    ∃ taken, Item.read source declared token rest = .ok (item, taken) ∧
      rest.drop taken = behind := by
  cases phrase with
  | blank kind =>
    refine ⟨0, ?_, rfl⟩
    rcases kind with kind | kind <;> simp [Item.read, kind]
  | definition kind drawn short ends =>
    obtain ⟨ending, ended, rest⟩ := endOfLine_complete source ends
    refine ⟨ending, ?_, rest⟩
    simp [Item.read, kind, readDefinition_drawn drawn, short, ended, bind, Except.bind, pure,
      Except.pure]
  | label named marked =>
    have fresh := fresh _ rfl
    exact ⟨1, by simp [Item.read, named, marked, fresh], rfl⟩
  | comment named spelled number ends =>
    obtain ⟨ending, ended, rest⟩ := endOfLine_complete source ends
    refine ⟨1 + ending, ?_, by rw [Nat.add_comm]; exact rest⟩
    simp [Item.read, Item.expect, named, spelled, number, ended, bind, Except.bind, pure,
      Except.pure]
  | instruction named free found shaped operand ends =>
    obtain ⟨taken, read, between⟩ := readInstruction_complete found shaped operand
    obtain ⟨ending, ended, rest⟩ := endOfLine_complete source ends
    rw [← between] at ended rest
    refine ⟨taken + ending, ?_, by rw [← List.drop_drop]; exact rest⟩
    have head := operand.head ends
    simp [Item.read, named, head, free, read, ended, bind, Except.bind, pure, Except.pure]

theorem Phrase.starts {item : Item} (phrase : Phrase source item tokens behind) :
    ∃ token rest, tokens = token :: rest ∧ token.kind ≠ .endOfText := by
  cases phrase with
  | blank kind => exact ⟨_, _, rfl, by rcases kind with kind | kind <;> simp [kind]⟩
  | definition kind drawn short ends => exact ⟨_, _, rfl, by simp [kind]⟩
  | label named marked => exact ⟨_, _, rfl, by simp [named]⟩
  | comment named spelled number ends => exact ⟨_, _, rfl, by simp [named]⟩
  | instruction named free found shaped operand ends => exact ⟨_, _, rfl, by simp [named]⟩

end Grammar

def Item.names (items : List Item) : List String :=
  items.filterMap fun
    | label name => some name
    | _ => none

namespace Grammar

variable {items : List Item} {declared : List String}

theorem names_cons {item : Item} (fresh : ∀ name, item = .label name → name ∉ declared)
    (distinct : (Item.names items).Nodup)
    (apart : ∀ name ∈ Item.names items, name ∉ item.declare declared) :
    (Item.names (item :: items)).Nodup ∧
      ∀ name ∈ Item.names (item :: items), name ∉ declared := by
  cases item with
  | label name =>
    have apart : ∀ other ∈ Item.names items, other ≠ name ∧ other ∉ declared := by
      simpa [Item.declare] using apart
    refine ⟨List.nodup_cons.mpr ⟨fun member => (apart name member).1 rfl, distinct⟩, ?_⟩
    intro other member
    rcases List.mem_cons.mp member with rfl | member
    · exact fresh _ rfl
    · exact (apart other member).2
  | _ => exact ⟨distinct, apart⟩

theorem of_names_cons {item : Item} (distinct : (Item.names (item :: items)).Nodup)
    (apart : ∀ name ∈ Item.names (item :: items), name ∉ declared) :
    (∀ name, item = .label name → name ∉ declared) ∧ (Item.names items).Nodup ∧
      ∀ name ∈ Item.names items, name ∉ item.declare declared := by
  cases item with
  | label name =>
    obtain ⟨missing, distinct⟩ := List.nodup_cons.mp distinct
    refine ⟨fun other same => ?_, distinct, fun other member => ?_⟩
    · cases same
      exact apart name (by simp [Item.names])
    · have elsewhere := apart other (List.mem_cons_of_mem _ member)
      have different : other ≠ name := fun same => missing (same ▸ member)
      simp [Item.declare, different, elsewhere]
  | _ => exact ⟨by simp, distinct, apart⟩

/-- Reading a row to its end finds items of the grammar, and no label twice. -/
theorem readAll_sound {last : Token} (native : source.mnemonics.foreign? = none)
    (row : Token.Row tokens) (success : Item.readAll source declared tokens = .ok (items, last)) :
    Sequence source items tokens ∧ (Item.names items).Nodup ∧
      ∀ name ∈ Item.names items, name ∉ declared := by
  induction declared, tokens using Item.readAll.induct generalizing items with
  | case1 declared => simp [Item.readAll] at success
  | case2 declared token rest ends =>
    rw [Item.readAll, if_pos ends] at success
    cases success
    cases row with
    | last _ => exact ⟨.finish ends, by simp [Item.names], by simp [Item.names]⟩
    | cons lexed row =>
      rw [ends] at lexed
      cases lexed
  | case3 declared token rest goesOn ih =>
    rw [Item.readAll, if_neg goesOn] at success
    obtain ⟨⟨item, taken⟩, read, success⟩ := bind_eq_ok.mp success
    obtain ⟨⟨further, last'⟩, readRest, success⟩ := bind_eq_ok.mp success
    cases success
    obtain ⟨phrase, fresh⟩ := read_sound native row read
    obtain ⟨sequence, distinct, apart⟩ := ih item taken (phrase.row row) readRest
    exact ⟨.item phrase sequence, names_cons fresh distinct apart⟩

/-- A sequence of items that declares no label twice is read as these items. -/
theorem readAll_complete (sequence : Sequence source items tokens)
    (distinct : (Item.names items).Nodup)
    (apart : ∀ name ∈ Item.names items, name ∉ declared) :
    ∃ last, Item.readAll source declared tokens = .ok (items, last) := by
  induction sequence generalizing declared with
  | finish ends => exact ⟨_, by rw [Item.readAll, if_pos ends]⟩
  | @item item items tokens rest phrase further ih =>
    obtain ⟨token, behind, rfl, goesOn⟩ := phrase.starts
    obtain ⟨fresh, distinct, apart⟩ := of_names_cons distinct apart
    obtain ⟨taken, read, dropped⟩ := read_complete phrase fresh
    obtain ⟨last, readRest⟩ := ih distinct apart
    refine ⟨last, ?_⟩
    rw [Item.readAll, if_neg goesOn, read]
    simp [bind, Except.bind, dropped, readRest, pure, Except.pure]

end Grammar

end MailRoom
