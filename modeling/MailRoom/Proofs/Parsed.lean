import MailRoom.Program.Reader
import MailRoom.Proofs.Writing

/-! Programs that come from a text can be written. Main statement: `Grammar.assemble_writable`, by
which all that the items of a text consist of is of the form in which it is written. -/
namespace MailRoom

namespace Mnemonics

/-- The first spelling of an opcode, if it has one, names nothing else in a save file. -/
def Names (mnemonics : Mnemonics) (opcode : Opcode) : Prop :=
  ∀ spelling, mnemonics.spelling opcode = .ok spelling →
    Lexer.IsName spelling ∧ spelling ≠ Program.commentWord

theorem exists_spelling {mnemonics : Mnemonics} {opcode : Opcode} {text : String}
    (found : mnemonics.find? text = some opcode) :
    ∃ spelling, mnemonics.spelling opcode = .ok spelling := by
  have member := Table.find?_eq_some.mp found
  unfold spelling
  cases first : mnemonics.keyOf? opcode with
  | some spelling => exact ⟨spelling, rfl⟩
  | none =>
    have none := List.find?_eq_none.mp (Option.map_eq_none_iff.mp first) _ member
    simp at none

/-- The usual spellings name nothing else. -/
theorem standard_names (opcode : Opcode) : standard.Names opcode := by
  intro spelling spelled
  have found := Table.find?_eq_some.mp (find?_of_spelling spelled)
  have all : ∀ pair ∈ standard.entries,
      Lexer.startsWith Lexer.isWordStart pair.1.toList = true ∧
        pair.1.toList.all Lexer.isWordPart = true ∧
        pair.1 ≠ "DEFINE" ∧ pair.1 ≠ Program.commentWord := by
    decide +kernel
  obtain ⟨starts, parts, free, other⟩ := all _ found
  exact ⟨⟨⟨starts, List.all_eq_true.mp parts⟩, free⟩, other⟩

end Mnemonics

namespace Grammar

variable {source : Source} {tokens behind : List Token} {items : List Item}

theorem TileNumber.short_toNat {token : Token} {tile : Int} (number : TileNumber token tile) :
    tile.toNat < 10 ^ Numeral.maxDigits := by
  have bound := number.denotes.natAbs_lt
  have grown := Nat.pow_le_pow_right (show 0 < 10 by decide) number.short
  have same := Int.toNat_of_nonneg number.natural
  omega

theorem Operand.writable {shape : OperandShape} {address : Option Address} {label : Option String}
    (operand : Operand shape tokens address label behind) (row : Token.Row tokens) :
    WritableOperand shape address label := by
  cases operand with
  | none => exact .none
  | direct number => exact .address number.natural number.short_toNat
  | indirect opens number closes => exact .address number.natural number.short_toNat
  | label word =>
    obtain ⟨word, free⟩ := row.word word
    exact .label ⟨word, free⟩

theorem drawn_unique {text : String} {first second : Definition}
    (drawn : Lexer.Drawn text first) (again : Lexer.Drawn text second)
    (short : (Token.numberDigits text).length ≤ Numeral.maxDigits) : first = second := by
  have read := readDefinition_drawn drawn
  rw [readDefinition_drawn again, if_pos short, if_pos short] at read
  exact (Except.ok.inj read).symm

theorem drawn_writable {text : String} {definition : Definition}
    (drawn : Lexer.Drawn text definition) (clean : Lexer.CleanData definition.data)
    (short : (Token.numberDigits text).length ≤ Numeral.maxDigits) : definition.Writable := by
  cases drawn with
  | @drawn kind row data usual nonempty digits =>
    rw [numberDigits_drawn data usual digits] at short
    have bound := Numeral.ofDigitChars_lt digits
    have grown := Nat.pow_le_pow_right (show 0 < 10 by decide) short
    refine ⟨usual, Int.natCast_nonneg _, ?_, clean⟩
    rw [Int.toNat_natCast]
    omega

/-- What can be said of an item that was read: all of it can be written. -/
inductive ItemWritable (mnemonics : Mnemonics) : Item → Prop where
  | blank : ItemWritable mnemonics .blank
  | definition {definition : Definition} (writable : definition.Writable) :
      ItemWritable mnemonics (.definition definition)
  | label {name : String} (named : Lexer.IsName name) : ItemWritable mnemonics (.label name)
  | comment {text : String} {value : Int} (denotes : Numeral.Denotes text value) :
      ItemWritable mnemonics (.comment text)
  | instruction {instruction : Instruction} {text : String} {shape : OperandShape}
      (found : mnemonics.find? text = some instruction.opcode)
      (shaped : instruction.opcode.shape? = some shape)
      (operand : WritableOperand shape instruction.address instruction.label) :
      ItemWritable mnemonics (.instruction instruction)

theorem Phrase.writable {item : Item} (phrase : Phrase source item tokens behind)
    (row : Token.Row tokens) : ItemWritable source.mnemonics item := by
  cases phrase with
  | blank kind => exact .blank
  | definition kind drawn short ends =>
    obtain ⟨definition, again, clean⟩ := row.drawn kind
    cases drawn_unique drawn again short
    exact .definition (drawn_writable drawn clean short)
  | label named marked =>
    obtain ⟨word, free⟩ := row.word named
    exact .label ⟨word, free⟩
  | comment named spelled number ends =>
    obtain ⟨value, denotes⟩ := (row.tail (by simp [named])).number number
    exact .comment denotes
  | instruction named free found shaped operand ends =>
    exact .instruction found shaped (operand.writable (row.tail (by simp [named])))

theorem Sequence.writable (sequence : Sequence source items tokens) (row : Token.Row tokens) :
    ∀ item ∈ items, ItemWritable source.mnemonics item := by
  intro item member
  obtain ⟨tokens, behind, row, phrase⟩ := sequence.phrases row item member
  exact phrase.writable row

theorem mem_markers {index : Nat} {marker : Marker} (member : marker ∈ Item.markers index items) :
    (marker.kind = .label ∧ .label marker.value ∈ items) ∨
      (marker.kind = .comment ∧ .comment marker.value ∈ items) := by
  induction items generalizing index with
  | nil => simp [Item.markers] at member
  | cons item rest ih =>
    have later : marker ∈ Item.markers index rest ∨ marker ∈ Item.markers (index + 1) rest →
        (marker.kind = .label ∧ .label marker.value ∈ item :: rest) ∨
          (marker.kind = .comment ∧ .comment marker.value ∈ item :: rest) := by
      intro further
      have found := further.elim ih ih
      simpa using found.imp (fun label => ⟨label.1, .inr label.2⟩)
        fun comment => ⟨comment.1, .inr comment.2⟩
    cases item with
    | label name =>
      rcases List.mem_cons.mp member with rfl | member
      · exact .inl ⟨rfl, List.mem_cons_self⟩
      · exact later (.inl member)
    | comment value =>
      rcases List.mem_cons.mp member with rfl | member
      · exact .inr ⟨rfl, List.mem_cons_self⟩
      · exact later (.inl member)
    | instruction found => exact later (.inr member)
    | _ => exact later (.inl member)

/-- Every label of an assembled program has its marker. -/
theorem unmarked_assemble (last : Token) (distinct : (Item.names items).Nodup) :
    (assemble source items last).unmarked = [] := by
  have none : ∀ entry ∈ (assemble source items last).labels.entries,
      entry.1 ∈ ((assemble source items last).markers.filter fun marker =>
        marker.kind = .label).map Marker.value := by
    intro entry member
    rw [assemble, Item.labels_entries distinct] at member
    obtain ⟨marker, present, rfl⟩ := List.mem_map.mp member
    exact List.mem_map.mpr ⟨marker, present, rfl⟩
  rw [Program.unmarked, List.map_eq_nil_iff, List.filter_eq_nil_iff]
  intro entry member
  simpa [and_assoc] using none entry member

theorem allMarkers_assemble (source : Source) (last : Token) (distinct : (Item.names items).Nodup) :
    (assemble source items last).allMarkers = Item.markers 0 items := by
  rw [Program.allMarkers, unmarked_assemble last distinct, List.append_nil, assemble]

/-- All parts of a program that was read can be written, if its opcodes have spellings of their
own. -/
theorem assemble_writable (last : Token) (accepted : Accepted source items tokens)
    (row : Token.Row tokens)
    (named : ∀ instruction ∈ (assemble source items last).instructions,
      source.mnemonics.Names instruction.opcode) :
    (assemble source items last).Writable source.mnemonics := by
  have each := accepted.sequence.writable row
  refine ⟨?_, ?_, ?_⟩
  · intro instruction member
    have names := named instruction member
    obtain ⟨found, present, rfl⟩ := List.mem_map.mp member
    cases each _ (mem_instructions.mp present) with
    | instruction known shaped operand =>
      obtain ⟨spelling, spelled⟩ := Mnemonics.exists_spelling known
      obtain ⟨named, other⟩ := names spelling spelled
      exact ⟨⟨spelling, spelled, named, other⟩, _, shaped, operand⟩
  · intro marker member
    rw [allMarkers_assemble source last accepted.distinct] at member
    rcases mem_markers member with ⟨kind, present⟩ | ⟨kind, present⟩
    · cases each _ present with
      | label named => exact ⟨.inl kind, fun _ => named, fun other => by simp [kind] at other⟩
    · cases each _ present with
      | comment denotes =>
        exact ⟨.inr kind, fun other => by simp [kind] at other, fun _ => ⟨_, denotes⟩⟩
  · intro definition member
    obtain ⟨item, present, found⟩ := List.mem_filterMap.mp member
    cases item with
    | definition other =>
      cases found
      cases each _ present with
      | definition writable => exact writable
    | _ => cases found

end Grammar

end MailRoom
