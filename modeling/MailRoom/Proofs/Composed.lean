import MailRoom.Proofs.RoundTrip

/-! Programs that no text has given, with labels that no marker shows and markers in any order.
Main statement: `Program.parse_format_composed`, by which such a program is written as a text that
gives the program again, with its labels all marked and its markers in order. -/
namespace MailRoom

/-- Every instruction of the instruction set is spelled by its own name. -/
theorem Mnemonics.exists_standard {opcode : Opcode} {shape : OperandShape}
    (shaped : opcode.shape? = some shape) : ∃ spelling, standard.spelling opcode = .ok spelling := by
  have known : opcode ∈ Opcode.all := by
    cases opcode with
    | foreign name => cases shaped
    | _ => decide
  have named : ∀ opcode ∈ Opcode.all, standard.find? opcode.name = some opcode := by
    decide +kernel
  exact exists_spelling (named opcode known)

theorem Table.find?_eq_of_perm {Key Content : Type} [DecidableEq Key] {first second : Table Key Content}
    (perm : first.entries.Perm second.entries) : first.find? = second.find? := by
  funext key
  apply Option.ext
  intro content
  rw [find?_eq_some, find?_eq_some, perm.mem_iff]

theorem Lexer.IsName.ne_blank {name : String} (named : IsName name) (rest : List Char) :
    name.toList ≠ ' ' :: rest := by
  intro same
  have part := named.word.parts ' ' (by simp [same])
  rw [isWordPart_blank] at part
  cases part

namespace Program

/-- A program as it can be put together without a text. Its jumps go to declared labels; each marker
of a label is the only one and stands where the label does, but a label need not have a marker. -/
structure Composed (program : Program) : Prop where
  operands : ∀ instruction ∈ program.instructions, ∃ shape,
    instruction.opcode.shape? = some shape ∧
      WritableOperand shape instruction.address instruction.label
  declared : ∀ instruction ∈ program.instructions, ∀ name, instruction.label = some name →
    name ∈ program.labels.keys
  aimed : ∀ instruction ∈ program.instructions,
    instruction.target = instruction.label.bind program.labels.find?
  named : ∀ name ∈ program.labels.keys, Lexer.IsName name
  placed : ∀ entry ∈ program.labels.entries, 0 ≤ entry.2 ∧ entry.2 ≤ program.instructions.length
  marked : ∀ marker ∈ program.markers, marker.kind = .label →
    (marker.value, marker.index) ∈ program.labels.entries
  once : ((program.markers.filter fun marker => marker.kind = .label).map Marker.value).Nodup
  comments : ∀ marker ∈ program.markers, marker.kind ≠ .label →
    marker.kind = .comment ∧ (∃ number, Numeral.Denotes marker.value number) ∧
      0 ≤ marker.index ∧ marker.index ≤ program.instructions.length
  definitions : ∀ definition ∈ program.definitions, definition.Writable

/-- What a program keeps when it is written and read again. -/
structure Restored (program again : Program) : Prop where
  instructions : again.instructions.map Instruction.unlocated =
    program.instructions.map Instruction.unlocated
  labels : again.labels.entries.Perm program.labels.entries
  definitions : again.definitions = program.definitions
  comments : (again.markers.filter fun marker => marker.kind = .comment) =
    Marker.inOrder (program.markers.filter fun marker => marker.kind = .comment)

/-- The labels among some markers, each with the index at which its marker stands. -/
def labelled (markers : List Marker) : List (String × Int) :=
  (markers.filter fun marker => marker.kind = .label).map fun marker => (marker.value, marker.index)

theorem mem_labelled {markers : List Marker} {entry : String × Int} :
    entry ∈ labelled markers ↔ ⟨entry.2, .label, entry.1⟩ ∈ markers := by
  constructor
  · intro member
    obtain ⟨⟨index, kind, value⟩, present, rfl⟩ := List.mem_map.mp member
    obtain ⟨present, label⟩ := List.mem_filter.mp present
    cases of_decide_eq_true label
    exact present
  · intro present
    exact List.mem_map.mpr ⟨_, List.mem_filter.mpr ⟨present, decide_eq_true rfl⟩, rfl⟩

theorem labelled_inOrder (markers : List Marker) :
    (labelled (Marker.inOrder markers)).Perm (labelled markers) :=
  ((Marker.inOrder_perm markers).filter _).map _

variable {program : Program}

theorem keys_labelled (markers : List Marker) : (labelled markers).map Prod.fst =
    (markers.filter fun marker => marker.kind = .label).map Marker.value := by
  rw [labelled, List.map_map]
  rfl

theorem unmarked_eq (program : Program) : program.unmarked =
    (program.labels.entries.filter fun entry =>
      entry.1 ∉ (labelled program.markers).map Prod.fst).map
        fun entry => ⟨entry.2, .label, entry.1⟩ := by
  rw [unmarked, ← keys_labelled]
  congr 1
  apply List.filter_congr
  intro entry _
  simp

theorem labelled_unmarked (program : Program) : labelled program.unmarked =
    program.labels.entries.filter fun entry =>
      entry.1 ∉ (labelled program.markers).map Prod.fst := by
  rw [unmarked_eq, labelled, List.filter_map, List.map_map]
  simp [Function.comp_def]

theorem mem_unmarked {marker : Marker} (added : marker ∈ program.unmarked) :
    marker.kind = .label ∧ (marker.value, marker.index) ∈ program.labels.entries := by
  rw [unmarked_eq] at added
  obtain ⟨entry, member, rfl⟩ := List.mem_map.mp added
  exact ⟨rfl, (List.mem_filter.mp member).1⟩

section Lines

variable {mnemonics : Mnemonics} {name : String} (named : Lexer.IsName name)
include named

theorem indented_ne (text : String) : "    " ++ text ≠ name ++ ":" := by
  intro same
  have chars := congrArg String.toList same
  cases letters : name.toList with
  | nil => simp [letters] at chars
  | cons first rest =>
    rw [String.toList_append, String.toList_append, letters] at chars
    obtain ⟨rfl, _⟩ := List.cons.inj chars
    exact named.ne_blank rest letters

theorem count_markerLines (markers : List Marker) :
    (markers.map markerLine).count (name ++ ":") =
      ((labelled markers).map Prod.fst).count name := by
  induction markers with
  | nil => rfl
  | cons marker rest ih =>
    rw [keys_labelled] at ih ⊢
    by_cases label : marker.kind = .label
    · have line : markerLine marker = marker.value ++ ":" := if_pos label
      rw [List.filter_cons_of_pos (by simpa using label), List.map_cons, List.map_cons,
        List.count_cons, List.count_cons, ih, line]
      simp only [beq_iff_eq, String.append_left_inj]
    · have line : markerLine marker = "    " ++ (commentWord ++ "  " ++ marker.value) := by
        rw [markerLine, if_neg label, String.append_assoc, String.append_assoc, String.append_assoc]
      rw [List.filter_cons_of_neg (by simpa using label), List.map_cons,
        List.count_cons_of_ne (line ▸ indented_ne named _), ih]

/-- The code has a label's line as often as the label is among the markers. -/
theorem count_codeLines {instructions : List Instruction} {index : Nat} {lines : List String}
    (inside : ∀ marker ∈ program.allMarkers, marker.index ≤ index + instructions.length)
    (written : program.codeLines mnemonics index instructions = .ok lines) :
    lines.count (name ++ ":") =
      ((labelled (program.markersFrom index)).map Prod.fst).count name := by
  induction instructions generalizing index lines with
  | nil =>
    cases written
    rw [count_markerLines named, markersAt_last (by simpa using inside)]
  | cons instruction rest ih =>
    obtain ⟨line, spelled, written⟩ := bind_eq_ok.mp written
    obtain ⟨below, writtenBelow, written⟩ := bind_eq_ok.mp written
    cases written
    obtain ⟨text, _, rfl⟩ := map_eq_ok.mp spelled
    have later := ih (fun marker member => by
      have bound := inside marker member
      simp only [List.length_cons] at bound
      omega) writtenBelow
    have joined : labelled (program.markersFrom index) =
        labelled (program.markersAt index) ++ labelled (program.markersFrom (index + 1)) := by
      rw [← markersAt_append]
      simp [labelled]
    rw [List.count_append, List.count_cons_of_ne (indented_ne named text), later,
      count_markerLines named, joined, List.map_append, List.count_append]

end Lines

section Composed

variable (composed : program.Composed)
include composed

theorem writable_composed : program.Writable .standard where
  instructions := by
    intro instruction member
    obtain ⟨shape, shaped, operand⟩ := composed.operands instruction member
    obtain ⟨spelling, spelled⟩ := Mnemonics.exists_standard shaped
    exact ⟨⟨spelling, spelled, Mnemonics.standard_names _ spelling spelled⟩, shape, shaped, operand⟩
  markers := by
    intro marker member
    rcases List.mem_append.mp member with present | added
    · by_cases label : marker.kind = .label
      · have entry := composed.marked marker present label
        refine ⟨.inl label, fun _ => ?_, fun other => by simp [label] at other⟩
        exact composed.named _ (List.mem_map_of_mem entry)
      · obtain ⟨comment, number, _⟩ := composed.comments marker present label
        exact ⟨.inr comment, fun other => absurd other label, fun _ => number⟩
    · obtain ⟨label, entry⟩ := mem_unmarked added
      refine ⟨.inl label, fun _ => ?_, fun other => by simp [label] at other⟩
      exact composed.named _ (List.mem_map_of_mem entry)
  definitions := composed.definitions

theorem inside_composed : ∀ marker ∈ program.allMarkers,
    0 ≤ marker.index ∧ marker.index ≤ program.instructions.length := by
  intro marker member
  rcases List.mem_append.mp member with present | added
  · by_cases label : marker.kind = .label
    · exact composed.placed _ (composed.marked marker present label)
    · exact (composed.comments marker present label).2.2
  · exact composed.placed _ (mem_unmarked added).2

theorem keys_labelled_nodup : ((labelled program.allMarkers).map Prod.fst).Nodup := by
  have split : labelled program.allMarkers =
      labelled program.markers ++ labelled program.unmarked := by
    simp [labelled, allMarkers]
  have added : ((labelled program.unmarked).map Prod.fst).Sublist program.labels.keys := by
    rw [labelled_unmarked]
    exact List.filter_sublist.map Prod.fst
  rw [split, List.map_append]
  apply List.nodup_append.mpr
  refine ⟨keys_labelled program.markers ▸ composed.once, added.nodup program.labels.distinct, ?_⟩
  rintro _ present _ again rfl
  obtain ⟨entry, member, rfl⟩ := List.mem_map.mp again
  rw [labelled_unmarked] at member
  exact of_decide_eq_true (List.mem_filter.mp member).2 present

/-- The labels that are written are those that the program declares. -/
theorem labelled_composed : (labelled program.allMarkers).Perm program.labels.entries := by
  have once := keys_labelled_nodup composed
  apply (List.perm_ext_iff_of_nodup once.of_map program.labels.distinct.of_map).mpr
  intro entry
  rw [mem_labelled, allMarkers, List.mem_append]
  constructor
  · rintro (present | added)
    · exact composed.marked _ present rfl
    · exact (mem_unmarked added).2
  · intro member
    by_cases shown : entry.1 ∈ (labelled program.markers).map Prod.fst
    · -- The marker that shows the name stands where the name is declared.
      obtain ⟨marked, present, same⟩ := List.mem_map.mp shown
      have there := Table.find?_eq_some.mpr (composed.marked _ (mem_labelled.mp present) rfl)
      rw [same, Table.find?_eq_some.mpr member] at there
      have place := Option.some.inj there
      exact .inl (mem_labelled.mp (Prod.ext same place.symm ▸ present))
    · refine .inr (mem_labelled.mp ?_)
      rw [labelled_unmarked]
      exact List.mem_filter.mpr ⟨member, decide_eq_true shown⟩

open Grammar in
/-- Items with the markers of a program in order, its instructions and its drawings are accepted,
and their program is the one that they were taken from. -/
theorem restored_assemble {source : Source} {items : List Item} {tokens : List Token}
    (sequence : Sequence source items tokens)
    (markers : Item.markers 0 items = Marker.inOrder program.allMarkers)
    (instructions : (Item.instructions items).map Instruction.unlocated =
      program.instructions.map fun instruction => instruction.unresolved.unlocated)
    (definitions : Item.definitions items = program.definitions) :
    Accepted source items tokens ∧ ∀ last, program.Restored (assemble source items last) := by
  have declarations : (Item.labelEntries 0 items).Perm program.labels.entries := by
    have entries : Item.labelEntries 0 items = labelled (Item.markers 0 items) := rfl
    rw [entries, markers]
    exact (labelled_inOrder _).trans (labelled_composed composed)
  have keys : (Item.names items).Perm program.labels.keys := by
    rw [← Item.keys_labelEntries 0 items]
    exact declarations.map Prod.fst
  have distinct : (Item.names items).Nodup := keys.nodup_iff.mpr program.labels.distinct
  have labels : (Item.labels items).entries.Perm program.labels.entries := by
    rw [Item.labels_entries distinct]
    exact declarations
  refine ⟨⟨sequence, distinct, ?_⟩, fun last => ⟨?_, labels, definitions, ?_⟩⟩
  · intro instruction member name jumps
    have written : instruction.unlocated ∈ (Item.instructions items).map Instruction.unlocated :=
      List.mem_map_of_mem member
    rw [instructions] at written
    obtain ⟨origin, present, same⟩ := List.mem_map.mp written
    have label : origin.label = some name := (congrArg Instruction.label same).trans jumps
    exact keys.mem_iff.mpr (composed.declared origin present name label)
  · -- A jump is aimed by the labels that are read as it was by those that were declared.
    have aimed : ((Item.instructions items).map (Instruction.aimed (Item.labels items))).map
        Instruction.unlocated = ((Item.instructions items).map Instruction.unlocated).map
          (Instruction.aimed (Item.labels items)) := by
      simp only [List.map_map]
      rfl
    rw [assemble, aimed, instructions, List.map_map]
    apply List.map_congr_left
    intro instruction member
    have target := composed.aimed instruction member
    rw [← Table.find?_eq_of_perm labels] at target
    simp [Instruction.aimed, Instruction.unresolved, Instruction.unlocated, ← target]
  · have none : program.unmarked.filter (fun marker => marker.kind = .comment) = [] := by
      apply List.filter_eq_nil_iff.mpr
      intro marker added
      simp [(mem_unmarked added).1]
    rw [assemble, markers, Marker.filter_inOrder, allMarkers, List.filter_append, none,
      List.append_nil]

end Composed

/-- A program that is put together by hand, if its parts can be written, is written as a text that
gives it again up to places: its labels stand where they stood, its comments come in the order of
their indices. The code has exactly one line for each label, whether a marker shows it or not. -/
theorem parse_format_composed (composed : program.Composed) (file : String) :
    ∃ code drawings written again, program.codeLines .standard 0 program.instructions = .ok code ∧
      program.format .standard = .ok written ∧
      written = Line.unlines (headerLine :: "" :: code ++ drawings) ∧
      parse file written .standard = .ok again ∧ program.Restored again ∧
      ∀ name ∈ program.labels.keys, code.count (name ++ ":") = 1 := by
  have writable := writable_composed composed
  have inside := inside_composed composed
  obtain ⟨markers, instructions, definitions⟩ := items_writtenItems writable inside
  obtain ⟨code, coded, _⟩ := codeLines_renders writable writable.instructions 0
  obtain ⟨written, formatted, renders⟩ := format_renders writable
  have lines := formatted
  rw [format, coded] at lines
  obtain ⟨tokens, items, scanned, sequence, same⟩ := renders.read
    (Source.ofLines file ((Line.split written.toList).map String.ofList) .standard) rfl file
  rw [← same, Item.markers_unlocated] at markers
  rw [← same, Item.instructions_unlocated] at instructions
  rw [← same, Item.definitions_unlocated] at definitions
  obtain ⟨accepted, restored⟩ :=
    restored_assemble composed sequence markers instructions definitions
  obtain ⟨last, success⟩ := Grammar.ofTokens_complete Mnemonics.standard_native accepted
  refine ⟨code, _, written, _, coded, formatted, (Except.ok.inj lines).symm,
    parse_eq_ok.mpr ⟨tokens, scanned, success⟩, restored last, ?_⟩
  intro name member
  rw [count_codeLines (composed.named name member)
    (fun marker member => by simpa using (inside marker member).2) coded,
    markersFrom_zero fun marker member => (inside marker member).1]
  have keys := ((labelled_inOrder program.allMarkers).trans (labelled_composed composed)).map Prod.fst
  rw [keys.count_eq]
  exact List.count_eq_one_of_mem program.labels.distinct member

private def unread : Program where
  instructions := [⟨.inbox, none, none, none, none⟩, ⟨.copyFrom, some ⟨3, true⟩, none, none, none⟩,
    ⟨.jump, none, some "COMMENT", some 0, none⟩]
  labels := .ofList [("end", 3), ("mid", 1), ("COMMENT", 0)]
  markers := [⟨3, .comment, "-007"⟩, ⟨1, .label, "mid"⟩, ⟨0, .comment, "2"⟩]
  definitions := [⟨.comment, 7, "ab\ncd"⟩]
  location := none

private theorem unread_writable : unread.Composed where
  operands := by
    intro instruction member
    simp only [unread, List.mem_cons, List.not_mem_nil, or_false] at member
    have named : Lexer.IsName "COMMENT" :=
      ⟨⟨by decide +kernel, List.all_eq_true.mp (by decide +kernel)⟩, by decide⟩
    rcases member with rfl | rfl | rfl
    · exact ⟨.none, rfl, .none⟩
    · refine ⟨.address, rfl, .address (by decide) ?_⟩
      exact Nat.lt_of_lt_of_le (by decide : 3 < 10 ^ 1) (Nat.pow_le_pow_right (by decide) (by decide))
    · exact ⟨.label, rfl, .label named⟩
  declared := by decide +kernel
  aimed := by decide +kernel
  named := by
    have all : ∀ name ∈ unread.labels.keys,
        Lexer.startsWith Lexer.isWordStart name.toList = true ∧
          name.toList.all Lexer.isWordPart = true ∧ name ≠ "DEFINE" := by
      decide +kernel
    intro name member
    obtain ⟨starts, parts, free⟩ := all name member
    exact ⟨⟨starts, List.all_eq_true.mp parts⟩, free⟩
  placed := by decide +kernel
  marked := by decide +kernel
  once := by decide +kernel
  comments := by
    intro marker member other
    simp only [unread, List.mem_cons, List.not_mem_nil, or_false] at member
    rcases member with rfl | rfl | rfl
    · refine ⟨rfl, ⟨-7, ?_⟩, by decide, by decide⟩
      have digits : ['0', '0', '7'].all Lexer.isDigit = true := by decide
      exact .negative (by decide) (List.all_eq_true.mp digits)
    · exact absurd rfl other
    · refine ⟨rfl, ⟨2, ?_⟩, by decide, by decide⟩
      have digits : ['2'].all Lexer.isDigit = true := by decide
      exact .natural (by decide) (List.all_eq_true.mp digits)
  definitions := by
    intro definition member
    cases List.mem_singleton.mp member
    refine ⟨.inl rfl, by decide, ?_, by decide, by decide, by decide +kernel⟩
    exact Nat.lt_of_lt_of_le (by decide : 7 < 10 ^ 1) (Nat.pow_le_pow_right (by decide) (by decide))

theorem parse_format_unread : unread.Composed ∧
    ∃ code drawings written again, unread.codeLines .standard 0 unread.instructions = .ok code ∧
      unread.format .standard = .ok written ∧
      written = Line.unlines (headerLine :: "" :: code ++ drawings) ∧
      parse "" written .standard = .ok again ∧ unread.Restored again ∧
      ∀ name ∈ unread.labels.keys, code.count (name ++ ":") = 1 :=
  ⟨unread_writable, parse_format_composed unread_writable ""⟩

end Program

end MailRoom
