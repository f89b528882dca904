import MailRoom.Proofs.Likeness
import MailRoom.Proofs.Order
import MailRoom.Proofs.Parsed

/-! Programs written and read again. Main statement: `Program.parse_format`. -/
namespace MailRoom

namespace Item

theorem instructions_unlocated (items : List Item) :
    instructions (items.map unlocated) = (instructions items).map Instruction.unlocated := by
  induction items with
  | nil => rfl
  | cons item rest ih => cases item <;> simp_all [instructions, unlocated]

theorem definitions_unlocated (items : List Item) :
    definitions (items.map unlocated) = definitions items := by
  induction items with
  | nil => rfl
  | cons item rest ih => cases item <;> simp_all [definitions, unlocated]

theorem markers_unlocated (index : Nat) (items : List Item) :
    markers index (items.map unlocated) = markers index items := by
  induction items generalizing index with
  | nil => rfl
  | cons item rest ih => cases item <;> simp_all [markers, unlocated]

theorem names_of_markers {items items' : List Item} (same : markers 0 items = markers 0 items') :
    names items = names items' := by
  rw [← keys_labelEntries 0, ← keys_labelEntries 0, labelEntries, labelEntries, same]

theorem instructions_append (before after : List Item) :
    instructions (before ++ after) = instructions before ++ instructions after :=
  List.filterMap_append

theorem definitions_append (before after : List Item) :
    definitions (before ++ after) = definitions before ++ definitions after :=
  List.filterMap_append

theorem index_mem_markers {index : Nat} {items : List Item} :
    ∀ marker ∈ markers index items, (index : Int) ≤ marker.index ∧
      marker.index ≤ index + (instructions items).length := by
  induction items generalizing index with
  | nil => simp [markers]
  | cons item rest ih =>
    intro marker member
    cases item with
    | instruction found =>
      have bounds := ih marker member
      have count : (instructions (instruction found :: rest)).length =
        (instructions rest).length + 1 := rfl
      rw [count]
      omega
    | label name =>
      rcases List.mem_cons.mp member with rfl | member
      · exact ⟨Int.le_refl _, Int.le_add_of_nonneg_right (Int.natCast_nonneg _)⟩
      · exact ih marker member
    | comment value =>
      rcases List.mem_cons.mp member with rfl | member
      · exact ⟨Int.le_refl _, Int.le_add_of_nonneg_right (Int.natCast_nonneg _)⟩
      · exact ih marker member
    | _ => exact ih marker member

theorem markers_sorted (index : Nat) (items : List Item) :
    (markers index items).Pairwise Marker.Before := by
  induction items generalizing index with
  | nil => exact .nil
  | cons item rest ih =>
    cases item with
    | label name => exact .cons (fun after member => (index_mem_markers after member).1) (ih index)
    | comment value =>
      exact .cons (fun after member => (index_mem_markers after member).1) (ih index)
    | instruction found => exact ih (index + 1)
    | _ => exact ih index

end Item

namespace Program

variable {program : Program} {mnemonics : Mnemonics}

theorem items_flatMap_markerItems {markers : List Marker} {index : Nat}
    (usual : ∀ marker ∈ markers, marker.kind = .label ∨ marker.kind = .comment)
    (placed : ∀ marker ∈ markers, marker.index = index) :
    Item.markers index (markers.flatMap Grammar.markerItems) = markers ∧
      Item.instructions (markers.flatMap Grammar.markerItems) = [] ∧
      Item.definitions (markers.flatMap Grammar.markerItems) = [] := by
  induction markers with
  | nil => exact ⟨rfl, rfl, rfl⟩
  | cons marker rest ih =>
    obtain ⟨further, none, drawn⟩ := ih (fun other member => usual other (by simp [member]))
      fun other member => placed other (by simp [member])
    have place := placed marker (by simp)
    have kind := usual marker (by simp)
    obtain ⟨place', kind', value⟩ := marker
    cases place
    rcases kind with rfl | rfl
    · refine ⟨?_, none, drawn⟩
      exact congrArg (_ :: ·) further
    · refine ⟨?_, none, drawn⟩
      exact congrArg (_ :: ·) further

theorem items_itemsAt (writable : program.Writable mnemonics) (index : Nat) :
    Item.markers index (program.itemsAt index) = program.markersAt index ∧
      Item.instructions (program.itemsAt index) = [] ∧
      Item.definitions (program.itemsAt index) = [] := by
  apply items_flatMap_markerItems
  · intro marker member
    exact (writable.markers marker (List.mem_filter.mp member).1).usual
  · intro marker member
    simpa using (List.mem_filter.mp member).2

/-- The markers that stand at an index or behind it, in order. -/
def markersFrom (program : Program) (index : Nat) : List Marker :=
  (Marker.inOrder program.allMarkers).filter fun marker => (index : Int) ≤ marker.index

theorem markersAt_append (program : Program) (index : Nat) :
    program.markersAt index ++ program.markersFrom (index + 1) = program.markersFrom index := by
  rw [markersAt, ← Marker.filter_index_inOrder]
  exact Marker.filter_from (Marker.inOrder_sorted program.allMarkers) index

theorem markersAt_last {index : Nat}
    (inside : ∀ marker ∈ program.allMarkers, marker.index ≤ index) :
    program.markersAt index = program.markersFrom index := by
  rw [markersAt, ← Marker.filter_index_inOrder]
  apply List.filter_congr
  intro marker member
  have bound := inside marker (Marker.mem_inOrder.mp member)
  simp only [decide_eq_decide]
  omega

theorem markersFrom_zero (inside : ∀ marker ∈ program.allMarkers, 0 ≤ marker.index) :
    program.markersFrom 0 = Marker.inOrder program.allMarkers := by
  apply List.filter_eq_self.mpr
  intro marker member
  exact decide_eq_true (inside marker (Marker.mem_inOrder.mp member))

/-- What the code's items amount to: the markers from the index on, in order, and the
instructions. -/
theorem items_codeItems (writable : program.Writable mnemonics) (index : Nat)
    (instructions : List Instruction)
    (inside : ∀ marker ∈ program.allMarkers, marker.index ≤ index + instructions.length) :
    Item.markers index (program.codeItems index instructions) = program.markersFrom index ∧
      Item.instructions (program.codeItems index instructions) =
        instructions.map (fun instruction => instruction.unresolved.unlocated) ∧
      Item.definitions (program.codeItems index instructions) = [] := by
  induction instructions generalizing index with
  | nil =>
    obtain ⟨markers, none, drawn⟩ := items_itemsAt writable index
    exact ⟨markers.trans (markersAt_last (by simpa using inside)), none, drawn⟩
  | cons instruction rest ih =>
    obtain ⟨markers, none, drawn⟩ := items_itemsAt writable index
    obtain ⟨markers', instructions', drawn'⟩ := ih (index + 1) fun marker member => by
      have bound := inside marker member
      simp only [List.length_cons] at bound
      omega
    refine ⟨?_, ?_, ?_⟩
    · rw [codeItems, Item.markers_append, markers, none, List.length_nil, Nat.add_zero,
        Item.markers, markers', markersAt_append]
    · rw [codeItems, Item.instructions_append, none, List.nil_append, List.map_cons, ← instructions']
      rfl
    · rw [codeItems, Item.definitions_append, drawn]
      exact drawn'

theorem items_definitions (index : Nat) (definitions : List Definition) :
    Item.markers index (definitions.flatMap fun found => [.definition found]) = [] ∧
      Item.instructions (definitions.flatMap fun found => [.definition found]) = [] ∧
      Item.definitions (definitions.flatMap fun found => [.definition found]) = definitions := by
  induction definitions with
  | nil => exact ⟨rfl, rfl, rfl⟩
  | cons definition rest ih =>
    obtain ⟨markers, instructions, found⟩ := ih
    exact ⟨markers, instructions, congrArg (definition :: ·) found⟩

/-- What is written of a program amounts to its markers in order, its instructions and its
drawings. -/
theorem items_writtenItems (writable : program.Writable mnemonics)
    (inside : ∀ marker ∈ program.allMarkers,
      0 ≤ marker.index ∧ marker.index ≤ program.instructions.length) :
    Item.markers 0 program.writtenItems = Marker.inOrder program.allMarkers ∧
      Item.instructions program.writtenItems =
        program.instructions.map (fun instruction => instruction.unresolved.unlocated) ∧
      Item.definitions program.writtenItems = program.definitions := by
  obtain ⟨markers, instructions, none⟩ := items_codeItems writable 0 program.instructions
    fun marker member => by simpa using (inside marker member).2
  obtain ⟨drawings, split, empty⟩ : ∃ drawings, program.writtenItems =
      [.blank, .blank, .blank] ++ (program.codeItems 0 program.instructions ++ drawings) ∧
      ∀ index, Item.markers index drawings = [] ∧ Item.instructions drawings = [] ∧
        Item.definitions drawings = program.definitions := by
    refine ⟨_, rfl, fun index => ?_⟩
    split
    · rename_i absent
      exact ⟨rfl, rfl, (List.isEmpty_iff.mp absent).symm⟩
    · exact items_definitions index program.definitions
  rw [split]
  refine ⟨?_, ?_, ?_⟩
  · rw [Item.markers_append, Item.markers_append, (empty _).1, List.append_nil]
    exact markers.trans (markersFrom_zero fun marker member => (inside marker member).1)
  · rw [Item.instructions_append, Item.instructions_append, (empty 0).2.1, List.append_nil]
    exact instructions
  · rw [Item.definitions_append, Item.definitions_append, (empty 0).2.2, none]
    rfl

end Program

namespace Grammar

variable {mnemonics : Mnemonics} {items : List Item}

/-- A text that renders items is read as these items, up to where their instructions stand. -/
theorem Renders.read {text : String} (renders : Renders mnemonics text.toList items)
    (source : Source) (spelled : source.mnemonics = mnemonics) (file : String) :
    ∃ tokens items', Token.scan file text = .ok tokens ∧ Sequence source items' tokens ∧
      items'.map Item.unlocated = items := by
  obtain ⟨tokens, items', scanned, sequence, same⟩ := renders source file .start []
    [⟨.endOfText, "", Position.start.afterAll text.toList⟩] [] spelled (by rw [Lexer.scan])
    (.finish rfl)
  rw [List.append_nil] at scanned sequence
  exact ⟨tokens, items', scanned, sequence, same⟩

/-- A text that renders items is read as the program that the items describe, if no label is
declared twice and each label that is jumped to is declared. -/
theorem Renders.parse {text : String} (renders : Renders mnemonics text.toList items)
    (native : mnemonics.foreign? = none) (distinct : (Item.names items).Nodup)
    (declared : ∀ instruction ∈ Item.instructions items, ∀ name,
      instruction.label = some name → name ∈ Item.names items) (file : String) :
    ∃ program, Program.parse file text mnemonics = .ok program ∧
      program.instructions.map Instruction.unlocated =
        ((Item.instructions items).map (Instruction.aimed (Item.labels items))).map
          Instruction.unlocated := by
  let source := Source.ofLines file ((Line.split text.toList).map String.ofList) mnemonics
  obtain ⟨tokens, items', scanned, sequence, rfl⟩ := renders.read source rfl file
  have names : Item.names (items'.map Item.unlocated) = Item.names items' :=
    Item.names_of_markers (Item.markers_unlocated 0 items')
  have labels : Item.labels (items'.map Item.unlocated) = Item.labels items' := by
    rw [Item.labels, Item.labels, Item.markers_unlocated]
  rw [names] at distinct
  rw [Item.instructions_unlocated, names] at declared
  have accepted : Accepted source items' tokens :=
    ⟨sequence, distinct, fun instruction member =>
      declared instruction.unlocated (List.mem_map_of_mem member)⟩
  obtain ⟨last, success⟩ := ofTokens_complete native accepted
  refine ⟨_, Program.parse_eq_ok.mpr ⟨tokens, scanned, success⟩, ?_⟩
  simp only [assemble, Item.instructions_unlocated, labels, List.map_map]
  rfl

theorem assemble_alike {source source' : Source} {items' : List Item} (last last' : Token)
    (markers : Item.markers 0 items = Item.markers 0 items')
    (instructions : (Item.instructions items).map Instruction.unlocated =
      (Item.instructions items').map Instruction.unlocated)
    (definitions : Item.definitions items = Item.definitions items') :
    (assemble source items last).Alike (assemble source' items' last') := by
  have labels : Item.labels items = Item.labels items' := by
    rw [Item.labels, Item.labels, markers]
  refine ⟨?_, labels, markers, definitions⟩
  have aimed (found : List Instruction) :
      (found.map (Instruction.aimed (Item.labels items))).map Instruction.unlocated =
        (found.map Instruction.unlocated).map (Instruction.aimed (Item.labels items)) := by
    simp only [List.map_map]
    rfl
  simp only [assemble, ← labels, aimed, instructions]

theorem Accepted.of_alike {source source' : Source} {tokens tokens' : List Token}
    {items' : List Item} (accepted : Accepted source items tokens)
    (sequence : Sequence source' items' tokens')
    (markers : Item.markers 0 items = Item.markers 0 items')
    (instructions : (Item.instructions items).map Instruction.unlocated =
      (Item.instructions items').map Instruction.unlocated) :
    Accepted source' items' tokens' := by
  have names := Item.names_of_markers markers
  refine ⟨sequence, names ▸ accepted.distinct, ?_⟩
  intro instruction member name labelled
  have present : instruction.unlocated ∈ (Item.instructions items).map Instruction.unlocated :=
    instructions ▸ List.mem_map_of_mem member
  obtain ⟨other, present, same⟩ := List.mem_map.mp present
  have label : other.unlocated.label = instruction.unlocated.label :=
    congrArg Instruction.label same
  exact names ▸ accepted.declared other present name (label.trans labelled)

/-- An assembled program is written, and what is written reads as a program that is alike. -/
theorem assemble_reads_back {source : Source} {tokens : List Token} (last : Token)
    (native : source.mnemonics.foreign? = none) (accepted : Accepted source items tokens)
    (row : Token.Row tokens)
    (named : ∀ instruction ∈ (assemble source items last).instructions,
      source.mnemonics.Names instruction.opcode) :
    ∃ written, (assemble source items last).format source.mnemonics = .ok written ∧
      ∀ (source' : Source) (file : String), source'.mnemonics = source.mnemonics →
        ∃ tokens' again, Token.scan file written = .ok tokens' ∧
          Program.ofTokens source' tokens' = .ok again ∧
          (assemble source items last).Alike again := by
  have writable := assemble_writable last accepted row named
  have markers := allMarkers_assemble source last accepted.distinct
  have assembled := assembled_assemble last accepted
  have count : (assemble source items last).instructions.length =
      (Item.instructions items).length := List.length_map _
  obtain ⟨writtenMarkers, writtenInstructions, writtenDefinitions⟩ :=
    Program.items_writtenItems writable <| by
      intro marker member
      rw [markers] at member
      have bounds := Item.index_mem_markers marker member
      omega
  -- Markers of an assembled program are in order already, so that sorting them changes nothing.
  rw [markers, Marker.inOrder_eq_self (Item.markers_sorted 0 items)] at writtenMarkers
  obtain ⟨written, formatted, renders⟩ := Program.format_renders writable
  refine ⟨written, formatted, fun source' file spelled => ?_⟩
  obtain ⟨tokens', items', scanned, sequence, same⟩ := renders.read source' spelled file
  have sameMarkers : Item.markers 0 items = Item.markers 0 items' := by
    rw [← writtenMarkers, ← same, Item.markers_unlocated]
  have sameInstructions : (Item.instructions items).map Instruction.unlocated =
      (Item.instructions items').map Instruction.unlocated := by
    rw [← Item.instructions_unlocated items', same, writtenInstructions, ← assembled.instructions,
      List.map_map]
    rfl
  have sameDefinitions : Item.definitions items = Item.definitions items' := by
    rw [← Item.definitions_unlocated items', same, writtenDefinitions]
    rfl
  have accepted' := accepted.of_alike sequence sameMarkers sameInstructions
  obtain ⟨last', success⟩ := ofTokens_complete (spelled ▸ native) accepted'
  exact ⟨tokens', _, scanned, success,
    assemble_alike last last' sameMarkers sameInstructions sameDefinitions⟩

end Grammar

/-- Machines that come from every state to the same state and to the same verdict, up to the place
that a fault names. -/
def Machine.RunsAlike (first second : Machine) : Prop :=
  ∀ state,
    ((first.session .empty state).execute first).1.state =
        ((second.session .empty state).execute second).1.state ∧
      ((first.session .empty state).execute first).2.map Verdict.unlocated =
        ((second.session .empty state).execute second).2.map Verdict.unlocated

/-- A program that a text gives, if its opcodes have spellings of their own as the usual ones do, is
written as a text that gives the same program up to places; that program is written as the same
text and runs alike. -/
theorem Program.parse_format {file text : String} {mnemonics : Mnemonics} {program : Program}
    (parsed : Program.parse file text mnemonics = .ok program)
    (named : mnemonics = .standard ∨
      ∀ instruction ∈ program.instructions, mnemonics.Names instruction.opcode)
    (file' : String) :
    ∃ written again, program.format mnemonics = .ok written ∧
      Program.parse file' written mnemonics = .ok again ∧ program.Alike again ∧
      again.format mnemonics = .ok written ∧
      ∀ config verbose capacity,
        Machine.RunsAlike ⟨program, config, verbose, capacity⟩ ⟨again, config, verbose, capacity⟩ := by
  have named : ∀ instruction ∈ program.instructions, mnemonics.Names instruction.opcode := by
    rcases named with rfl | named
    · exact fun instruction _ => Mnemonics.standard_names instruction.opcode
    · exact named
  obtain ⟨tokens, scanned, success⟩ := parse_eq_ok.mp parsed
  obtain ⟨native, items, last, accepted, rfl⟩ :=
    Grammar.ofTokens_sound (Lexer.scan_row scanned) success
  obtain ⟨written, formatted, reads⟩ :=
    Grammar.assemble_reads_back last native accepted (Lexer.scan_row scanned) named
  obtain ⟨tokens', again, scanned', success', alike⟩ :=
    reads (Source.ofLines file' ((Line.split written.toList).map String.ofList) mnemonics) file' rfl
  refine ⟨written, again, formatted, parse_eq_ok.mpr ⟨tokens', scanned', success'⟩, alike, ?_, ?_⟩
  · rw [← alike.format_eq]
    exact formatted
  · intro config verbose capacity state
    exact @Session.execute_alike ⟨Grammar.assemble _ items last, config, verbose, capacity⟩
      ⟨again, config, verbose, capacity⟩ rfl alike state

/-- A label named like a comment, leading zeros and a drawing over two lines, written and read. -/
theorem Program.parse_format_drawing :
    ∃ program written again,
      Program.parse "" "COMMENT: COMMENT -007\nBUMPUP [03]\nJUMP COMMENT\nDEFINE LABEL 01 x\ny;"
        .standard = .ok program ∧
      program.format .standard = .ok written ∧ Program.parse "" written .standard = .ok again ∧
      program.Alike again ∧ again.format .standard = .ok written := by
  have accepted : (Program.parse ""
      "COMMENT: COMMENT -007\nBUMPUP [03]\nJUMP COMMENT\nDEFINE LABEL 01 x\ny;"
      .standard).isOk = true := by
    decide +kernel
  cases parsed : Program.parse ""
      "COMMENT: COMMENT -007\nBUMPUP [03]\nJUMP COMMENT\nDEFINE LABEL 01 x\ny;" .standard with
  | error failure => simp [parsed, Except.isOk, Except.toBool] at accepted
  | ok program =>
    obtain ⟨written, again, formatted, reads, alike, formatted', _⟩ :=
      parse_format parsed (.inl rfl) ""
    exact ⟨program, written, again, rfl, formatted, reads, alike, formatted'⟩

end MailRoom
