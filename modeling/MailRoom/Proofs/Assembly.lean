import MailRoom.Proofs.Items

/-! Programs out of items. Main statement: `Grammar.accepts_iff`, by which a text's tokens are
accepted exactly when they are a sequence of items whose labels are declared once and whose jumps
go to declared labels, and by which the program is then the one that the items describe. -/
namespace MailRoom

/-- The instruction as it is before its label has been looked up. -/
def Instruction.unresolved (instruction : Instruction) : Instruction :=
  { instruction with target := none }

/-- The instruction with the index of its label. -/
def Instruction.aimed (labels : Table String Int) (instruction : Instruction) : Instruction :=
  { instruction with target := instruction.label.bind labels.find? }

namespace Item

/-- The marker that a label or a comment leaves before the instruction with this index. -/
def marker? (index : Nat) : Item → Option Marker
  | label name => some ⟨index, .label, name⟩
  | comment value => some ⟨index, .comment, value⟩
  | _ => none

def labelEntries (index : Nat) (items : List Item) : List (String × Int) :=
  ((markers index items).filter fun marker => marker.kind = .label).map
    fun marker => (marker.value, marker.index)

variable {items : List Item}

theorem markers_append (index : Nat) (before after : List Item) :
    markers index (before ++ after) =
      markers index before ++ markers (index + (instructions before).length) after := by
  induction before generalizing index with
  | nil => simp [markers, instructions]
  | cons item rest ih =>
    cases item with
    | instruction found =>
      have count : (instructions (instruction found :: rest)).length =
        (instructions rest).length + 1 := rfl
      rw [count, List.cons_append, markers, markers, ih, Nat.add_right_comm, Nat.add_assoc]
    | _ => simp [markers, ih, instructions]

theorem markers_eq (index : Nat) (items : List Item) :
    markers index items = (List.range items.length).filterMap fun place =>
      items[place]?.bind (marker? (index + (instructions (items.take place)).length)) := by
  induction items using List.reverseRecOn with
  | nil => rfl
  | append_singleton before item ih =>
    have same : ∀ place ∈ List.range before.length,
        (before ++ [item])[place]?.bind
          (marker? (index + (instructions ((before ++ [item]).take place)).length)) =
        before[place]?.bind (marker? (index + (instructions (before.take place)).length)) := by
      intro place member
      have inside := List.mem_range.mp member
      rw [List.getElem?_append_left inside, List.take_append_of_le_length inside.le]
    rw [markers_append, List.length_append, List.length_singleton, List.range_succ,
      List.filterMap_append, List.filterMap_congr same, ← ih]
    congr 1
    cases item <;> simp [markers, marker?]

theorem labelEntries_append (index : Nat) (before after : List Item) :
    labelEntries index (before ++ after) =
      labelEntries index before ++ labelEntries (index + (instructions before).length) after := by
  simp [labelEntries, markers_append]

theorem keys_labelEntries (index : Nat) (items : List Item) :
    (labelEntries index items).map Prod.fst = names items := by
  induction items generalizing index with
  | nil => rfl
  | cons item rest ih =>
    cases item with
    | label name =>
      have further := ih index
      simp_all [labelEntries, markers, names]
    | instruction found =>
      have further := ih (index + 1)
      simp_all [labelEntries, markers, names]
    | _ =>
      have further := ih index
      simp_all [labelEntries, markers, names]

theorem labels_entries (distinct : (names items).Nodup) :
    (labels items).entries = labelEntries 0 items :=
  Table.entries_ofList (show ((labelEntries 0 items).map Prod.fst).Nodup from
    (keys_labelEntries 0 items).symm ▸ distinct)

theorem labels_keys (distinct : (names items).Nodup) : (labels items).keys = names items := by
  rw [Table.keys, labels_entries distinct, keys_labelEntries]

theorem labels_find {before after : List Item} {name : String} (distinct : (names items).Nodup)
    (split : items = before ++ label name :: after) :
    (labels items).find? name = some ((instructions before).length : Int) := by
  apply Table.find?_eq_some.mpr
  rw [labels_entries distinct, split, labelEntries_append]
  apply List.mem_append_right
  simp [labelEntries, markers]

theorem exists_split {name : String} (declared : name ∈ names items) :
    ∃ before after, items = before ++ label name :: after := by
  obtain ⟨item, member, named⟩ := List.mem_filterMap.mp declared
  cases item with
  | label other =>
    cases named
    exact List.append_of_mem member
  | _ => cases named

end Item

theorem Program.parse_eq_ok {file text : String} {mnemonics : Mnemonics} {program : Program} :
    Program.parse file text mnemonics = .ok program ↔
      ∃ tokens, Token.scan file text = .ok tokens ∧
        Program.ofTokens (Source.ofLines file ((Line.split text.toList).map String.ofList) mnemonics)
          tokens = .ok program := by
  simp only [Program.parse, bind_eq_ok, mapError_eq_ok]

namespace Grammar

/-- Items without a label declared twice and without a jump to a label that is not declared. -/
structure Accepted (source : Source) (items : List Item) (tokens : List Token) : Prop where
  sequence : Sequence source items tokens
  distinct : (Item.names items).Nodup
  declared : ∀ instruction ∈ Item.instructions items, ∀ name,
    instruction.label = some name → name ∈ Item.names items

/-- The program that items describe. -/
structure Assembled (items : List Item) (program : Program) : Prop where
  instructions : program.instructions.map Instruction.unresolved = Item.instructions items
  keys : program.labels.keys = Item.names items
  index : ∀ before name after, items = before ++ .label name :: after →
    program.labels.find? name = some ((Item.instructions before).length : Int)
  aimed : ∀ instruction ∈ program.instructions,
    instruction.target = instruction.label.bind program.labels.find?
  inside : ∀ instruction ∈ program.instructions, ∀ name, instruction.label = some name →
    ∃ target : Nat, instruction.target = some (target : Int) ∧
      target ≤ program.instructions.length
  markers : program.markers = (List.range items.length).filterMap fun place =>
    items[place]?.bind (Item.marker? (Item.instructions (items.take place)).length)
  definitions : program.definitions = Item.definitions items

variable {source : Source} {tokens : List Token} {items : List Item}

theorem Phrase.unaimed {item : Item} {behind : List Token} {instruction : Instruction}
    (phrase : Phrase source item tokens behind) (same : item = .instruction instruction) :
    instruction.target = none := by
  cases phrase with
  | instruction named free found shaped operand ends =>
    cases same
    rfl
  | _ => cases same

theorem Sequence.unaimed (sequence : Sequence source items tokens) :
    ∀ instruction ∈ Item.instructions items, instruction.target = none := by
  induction sequence with
  | finish ends => simp [Item.instructions]
  | @item item items tokens rest phrase further ih =>
    intro instruction member
    cases item with
    | instruction found =>
      rcases List.mem_cons.mp member with rfl | member
      · exact phrase.unaimed rfl
      · exact ih instruction member
    | _ => exact ih instruction member

theorem Sequence.phrases (sequence : Sequence source items tokens) (row : Token.Row tokens) :
    ∀ item ∈ items, ∃ tokens behind, Token.Row tokens ∧ Phrase source item tokens behind := by
  induction sequence with
  | finish ends => simp
  | item phrase further ih =>
    intro item member
    rcases List.mem_cons.mp member with rfl | member
    · exact ⟨_, _, row, phrase⟩
    · exact ih (phrase.row row) item member

theorem mem_instructions {instruction : Instruction} :
    instruction ∈ Item.instructions items ↔ .instruction instruction ∈ items := by
  simp only [Item.instructions, List.mem_filterMap]
  constructor
  · rintro ⟨item, member, found⟩
    cases item with
    | instruction other =>
      cases found
      exact member
    | _ => cases found
  · intro member
    exact ⟨_, member, rfl⟩

theorem resolve_eq_ok {instruction found : Instruction} {file : String}
    {labels : Table String Int} (unaimed : instruction.target = none) :
    Program.resolve file labels instruction = .ok found ↔
      (∀ name, instruction.label = some name → name ∈ labels.keys) ∧
        instruction.aimed labels = found := by
  obtain ⟨opcode, address, label, target, location⟩ := instruction
  cases unaimed
  cases label with
  | none => simp [Program.resolve, Instruction.aimed]
  | some name =>
    cases lookup : labels.find? name with
    | none =>
      have missing : name ∉ labels.keys := fun member => by
        obtain ⟨⟨_, index⟩, entry, rfl⟩ := List.mem_map.mp member
        have hit := Table.find?_eq_some.mpr entry
        rw [lookup] at hit
        cases hit
      simp [Program.resolve, lookup, missing]
    | some index =>
      have present : name ∈ labels.keys :=
        List.mem_map.mpr ⟨_, Table.find?_eq_some.mp lookup, rfl⟩
      simp [Program.resolve, Instruction.aimed, lookup, present]

/-- The program out of items that have been read up to a last token. -/
def assemble (source : Source) (items : List Item) (last : Token) : Program where
  instructions := (Item.instructions items).map (Instruction.aimed (Item.labels items))
  labels := Item.labels items
  markers := Item.markers 0 items
  definitions := Item.definitions items
  location := some (source.locate last.position)

theorem assembled_assemble (last : Token) (accepted : Accepted source items tokens) :
    Assembled items (assemble source items last) where
  instructions := by
    have same : ∀ instruction ∈ Item.instructions items,
        (instruction.aimed (Item.labels items)).unresolved = instruction := by
      intro instruction member
      have unaimed := accepted.sequence.unaimed instruction member
      rw [Instruction.aimed, Instruction.unresolved, ← unaimed]
    rw [assemble, List.map_map]
    exact (List.map_congr_left same).trans (List.map_id _)
  keys := Item.labels_keys accepted.distinct
  index := fun before name after split => Item.labels_find accepted.distinct split
  aimed := by
    intro instruction member
    obtain ⟨before, _, rfl⟩ := List.mem_map.mp member
    rfl
  inside := by
    intro instruction member name named
    obtain ⟨found, present, rfl⟩ := List.mem_map.mp member
    have named : found.label = some name := named
    obtain ⟨before, after, split⟩ := Item.exists_split (accepted.declared found present name named)
    refine ⟨(Item.instructions before).length, ?_, ?_⟩
    · have lookup := Item.labels_find accepted.distinct split
      rw [Instruction.aimed, named]
      exact lookup
    · rw [assemble, List.length_map, split]
      simp [Item.instructions]
  markers := by
    have listed := Item.markers_eq 0 items
    simp only [Nat.zero_add] at listed
    exact listed
  definitions := rfl

/-- Jumps to declared labels are all resolved. -/
theorem mapM_resolve (file : String) (unaimed : ∀ instruction ∈ Item.instructions items,
      instruction.target = none) (distinct : (Item.names items).Nodup)
    (declared : ∀ instruction ∈ Item.instructions items, ∀ name,
      instruction.label = some name → name ∈ Item.names items) :
    (Item.instructions items).mapM (Program.resolve file (Item.labels items)) =
      .ok ((Item.instructions items).map (Instruction.aimed (Item.labels items))) := by
  apply mapM_eq_ok_map
  intro instruction member
  apply (resolve_eq_ok (unaimed instruction member)).mpr
  rw [Item.labels_keys distinct]
  exact ⟨declared instruction member, rfl⟩

theorem ofTokens_eq_ok {program : Program} (native : source.mnemonics.foreign? = none)
    {last : Token} (read : Item.readAll source [] tokens = .ok (items, last))
    (sequence : Sequence source items tokens) (distinct : (Item.names items).Nodup) :
    Program.ofTokens source tokens = .ok program ↔
      Accepted source items tokens ∧ assemble source items last = program := by
  have unaimed := sequence.unaimed
  simp only [Program.ofTokens, native, read]
  constructor
  · intro success
    obtain ⟨_, same, success⟩ := bind_eq_ok.mp success
    cases same
    obtain ⟨aimed, resolved, success⟩ := bind_eq_ok.mp success
    have declared : ∀ instruction ∈ Item.instructions items, ∀ name,
        instruction.label = some name → name ∈ Item.names items := by
      intro instruction member
      obtain ⟨found, one⟩ := of_mapM_eq_ok resolved instruction member
      rw [← Item.labels_keys distinct]
      exact ((resolve_eq_ok (unaimed _ member)).mp one).1
    rw [mapM_resolve source.file unaimed distinct declared] at resolved
    cases resolved
    cases success
    exact ⟨⟨sequence, distinct, declared⟩, rfl⟩
  · rintro ⟨accepted, rfl⟩
    have resolved := mapM_resolve source.file unaimed distinct accepted.declared
    simp [bind, Except.bind, resolved, pure, Except.pure, assemble]

/-- A program that a row of tokens gives is the program of the items that the row consists of. -/
theorem ofTokens_sound {program : Program} (row : Token.Row tokens)
    (success : Program.ofTokens source tokens = .ok program) :
    source.mnemonics.foreign? = none ∧
      ∃ items last, Accepted source items tokens ∧ assemble source items last = program := by
  have native : source.mnemonics.foreign? = none := by
    cases foreign : source.mnemonics.foreign? with
    | none => rfl
    | some pair => simp [Program.ofTokens, foreign] at success
  refine ⟨native, ?_⟩
  have begun := success
  simp only [Program.ofTokens, native] at begun
  obtain ⟨⟨items, last⟩, read, _⟩ := bind_eq_ok.mp begun
  obtain ⟨sequence, distinct, _⟩ := readAll_sound native row read
  exact ⟨items, last, (ofTokens_eq_ok native read sequence distinct).mp success⟩

/-- A row of tokens that consists of items gives their program. -/
theorem ofTokens_complete (native : source.mnemonics.foreign? = none)
    (accepted : Accepted source items tokens) :
    ∃ last, Program.ofTokens source tokens = .ok (assemble source items last) := by
  obtain ⟨last, read⟩ := readAll_complete accepted.sequence accepted.distinct
    (show ∀ name ∈ Item.names items, name ∉ [] from fun _ _ => List.not_mem_nil)
  refine ⟨last, ?_⟩
  apply (ofTokens_eq_ok native read accepted.sequence accepted.distinct).mpr
  exact ⟨accepted, rfl⟩

/-- The tokens of a text are accepted exactly when they are a sequence of items that declares no
label twice and each label that it jumps to; the program is then the one that the items describe. -/
theorem accepts_iff {file text : String} (scanned : Token.scan file text = .ok tokens)
    (source : Source) :
    ((∃ program, Program.ofTokens source tokens = .ok program) ↔
      source.mnemonics.foreign? = none ∧ ∃ items, Accepted source items tokens) ∧
    ∀ program items, Program.ofTokens source tokens = .ok program →
      Accepted source items tokens → Assembled items program := by
  have row := Lexer.scan_row scanned
  refine ⟨⟨?_, ?_⟩, ?_⟩
  · rintro ⟨program, success⟩
    obtain ⟨native, items, _, accepted, _⟩ := ofTokens_sound row success
    exact ⟨native, items, accepted⟩
  · rintro ⟨native, items, accepted⟩
    obtain ⟨last, success⟩ := ofTokens_complete native accepted
    exact ⟨_, success⟩
  · intro program items success accepted
    obtain ⟨native, _⟩ := ofTokens_sound row success
    obtain ⟨last, again⟩ := ofTokens_complete native accepted
    rw [again] at success
    cases success
    exact assembled_assemble last accepted

private def circle : Source := .ofLines "" ["a: COMMENT 0", "BUMPUP [2]", "JUMP a"] .standard

private def circleTokens : List Token :=
  [⟨.word, "a", ⟨1, 1⟩⟩, ⟨.colon, ":", ⟨1, 2⟩⟩, ⟨.word, "COMMENT", ⟨1, 4⟩⟩,
    ⟨.number, "0", ⟨1, 12⟩⟩, ⟨.newline, "\n", ⟨1, 13⟩⟩, ⟨.word, "BUMPUP", ⟨2, 1⟩⟩,
    ⟨.openBracket, "[", ⟨2, 8⟩⟩, ⟨.number, "2", ⟨2, 9⟩⟩, ⟨.closeBracket, "]", ⟨2, 10⟩⟩,
    ⟨.newline, "\n", ⟨2, 11⟩⟩, ⟨.word, "JUMP", ⟨3, 1⟩⟩, ⟨.word, "a", ⟨3, 6⟩⟩,
    ⟨.endOfText, "", ⟨3, 7⟩⟩]

private def circleItems : List Item :=
  [.label "a", .comment "0",
    .instruction ⟨.bumpUp, some ⟨2, true⟩, none, none, some (circle.locate ⟨2, 1⟩)⟩,
    .instruction ⟨.jump, none, some "a", none, some (circle.locate ⟨3, 1⟩)⟩]

theorem accepts_circle :
    Token.scan "" "a: COMMENT 0\nBUMPUP [2]\nJUMP a" = .ok circleTokens ∧
      ∃ program, Program.ofTokens circle circleTokens = .ok program ∧
        Assembled circleItems program := by
  have scanned : Token.scan "" "a: COMMENT 0\nBUMPUP [2]\nJUMP a" = .ok circleTokens := by
    decide +kernel
  have number : TileNumber ⟨.number, "2", ⟨2, 9⟩⟩ 2 :=
    ⟨rfl, Numeral.denotes_toString 2, by decide, by decide⟩
  have label : Phrase circle circleItems[0] circleTokens (circleTokens.drop 2) :=
    @Phrase.label circle circleTokens[0] circleTokens[1] _ rfl rfl
  have comment : Phrase circle circleItems[1] (circleTokens.drop 2) (circleTokens.drop 5) :=
    @Phrase.comment circle circleTokens[2] circleTokens[3] _ _ rfl rfl rfl
      (@LineEnd.newline circleTokens[4] _ rfl)
  have bump : Phrase circle circleItems[2] (circleTokens.drop 5) (circleTokens.drop 10) :=
    @Phrase.instruction circle circleTokens[5] _ _ _ .bumpUp .address _ _ rfl (by decide)
      (by decide) rfl (@Operand.indirect circleTokens[6] circleTokens[7] circleTokens[8] _ 2 rfl
        number rfl) (@LineEnd.newline circleTokens[9] _ rfl)
  have jump : Phrase circle circleItems[3] (circleTokens.drop 10) (circleTokens.drop 12) :=
    @Phrase.instruction circle circleTokens[10] _ _ _ .jump .label _ _ rfl (by decide)
      (by decide) rfl (@Operand.label circleTokens[11] _ rfl)
      (@LineEnd.endOfText circleTokens[12] _ rfl)
  have sequence : Sequence circle circleItems circleTokens :=
    .item label <| .item comment <| .item bump <| .item jump <|
      @Sequence.finish circle circleTokens[12] rfl
  have accepted : Accepted circle circleItems circleTokens :=
    ⟨sequence, by decide, by decide⟩
  have law := accepts_iff scanned circle
  obtain ⟨program, success⟩ := law.1.mpr ⟨by decide, circleItems, accepted⟩
  exact ⟨scanned, program, success, law.2 program circleItems success accepted⟩

end Grammar

end MailRoom
