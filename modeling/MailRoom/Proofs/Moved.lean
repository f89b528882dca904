import MailRoom.Proofs.Assembly

/-! Rows of the same tokens in other places, read with other lines of text. Main statement:
`Grammar.ofTokens_moved`, by which they give the same program but for the locations, or the same
error but for the place. -/
namespace MailRoom

/-- Tokens that a relation pairs are the same but for their positions, and so are sources but for
their lines. -/
structure Grammar.Move (moved : Token → Token → Prop) (source source' : Source) : Prop where
  file : source'.file = source.file
  mnemonics : source'.mnemonics = source.mnemonics
  kind : ∀ {token token'}, moved token token' → token'.kind = token.kind
  text : ∀ {token token'}, moved token token' → token'.text = token.text

/-- Failures at paired tokens, for the same cause. -/
inductive ReadFailure.Moved (moved : Token → Token → Prop) (file : String) :
    ReadFailure → ReadFailure → Prop where
  | rejected {token token' : Token} (there : moved token token') (cause : ParseCause) :
      Moved moved file (.rejected ⟨cause, file, token.position⟩)
        (.rejected ⟨cause, file, token'.position⟩)
  | trailing {token token' : Token} (there : moved token token') (kind : token.kind ≠ .newline) :
      Moved moved file (.rejected ⟨.trailingToken token, file, token.position⟩)
        (.rejected ⟨.trailingToken token', file, token'.position⟩)
  | unread {failure : ReadFailure} (placeless : ∀ error, failure ≠ .rejected error) :
      Moved moved file failure failure

/-- Errors that are paired are reported at paired tokens. -/
theorem ReadFailure.Moved.exists_tokens {moved : Token → Token → Prop} {file : String}
    {failure failure' : ReadFailure} (same : failure.Moved moved file failure')
    {error error' : ParseError} (rejected : failure = .rejected error)
    (rejected' : failure' = .rejected error') :
    ∃ token token', moved token token' ∧ error.position = token.position ∧
      error'.position = token'.position := by
  cases same with
  | rejected there cause =>
    cases rejected
    cases rejected'
    exact ⟨_, _, there, rfl, rfl⟩
  | trailing there kind =>
    cases rejected
    cases rejected'
    exact ⟨_, _, there, rfl, rfl⟩
  | unread placeless => exact absurd rejected (placeless error)

/-- The same instructions, located at paired words. -/
inductive Instruction.Moved (moved : Token → Token → Prop) (source source' : Source) :
    Instruction → Instruction → Prop where
  | moved {word word' : Token} (there : moved word word') (kind : word.kind = .word)
      (opcode : Opcode) (address : Option Address) (label : Option String) (target : Option Int) :
      Moved moved source source'
        ⟨opcode, address, label, target, some (source.locate word.position)⟩
        ⟨opcode, address, label, target, some (source'.locate word'.position)⟩

inductive Item.Moved (moved : Token → Token → Prop) (source source' : Source) :
    Item → Item → Prop where
  | instruction {one other : Instruction} (same : one.Moved moved source source' other) :
      Moved moved source source' (.instruction one) (.instruction other)
  | plain {item : Item} (unlocated : ∀ found, item ≠ .instruction found) :
      Moved moved source source' item item

/-- The same programs but for the locations. -/
structure Program.Moved (moved : Token → Token → Prop) (source source' : Source)
    (program program' : Program) : Prop where
  instructions : List.Forall₂ (Instruction.Moved moved source source') program.instructions
    program'.instructions
  labels : program'.labels = program.labels
  markers : program'.markers = program.markers
  definitions : program'.definitions = program.definitions
  location : ∃ last last', moved last last' ∧ last.kind = .endOfText ∧
    program.location = some (source.locate last.position) ∧
    program'.location = some (source'.locate last'.position)

namespace Grammar

variable {moved : Token → Token → Prop} {source source' : Source}

/-- Outcomes of reading rows of paired tokens. -/
abbrev Outcomes (moved : Token → Token → Prop) (source : Source) (Same : α → β → Prop) :
    Except ReadFailure α → Except ReadFailure β → Prop :=
  Paired (ReadFailure.Moved moved source.file) Same

section Reading

variable {Same : α → β → Prop} {token token' word word' : Token}
  {rest rest' tokens tokens' : List Token}

theorem reject_moved (move : Move moved source source') (there : moved token token')
    (cause : ParseCause) :
    Outcomes moved source Same (source.reject cause token) (source'.reject cause token') := by
  unfold Source.reject
  rw [move.file]
  exact .error (.rejected there cause)

theorem readNumeral_moved (text : String) :
    Outcomes moved source Eq (Item.readNumeral text) (Item.readNumeral text) := by
  unfold Item.readNumeral
  cases Numeral.read (Text.ofString text) with
  | ok value => exact .ok rfl
  | error error => exact .error (.unread (by simp))

theorem readDefinition_moved (text : String) :
    Outcomes moved source Eq (Item.readDefinition text) (Item.readDefinition text) := by
  unfold Item.readDefinition
  dsimp only
  split
  · exact .error (.unread (by simp))
  · refine (readNumeral_moved _).bind ?_
    rintro number _ rfl
    exact .ok rfl

theorem endOfLine_moved (move : Move moved source source')
    (rows : List.Forall₂ moved tokens tokens') :
    Outcomes moved source Eq (Item.endOfLine source tokens) (Item.endOfLine source' tokens') := by
  cases rows with
  | nil => exact .error (.unread (by simp))
  | cons there rows =>
    simp only [Item.endOfLine, move.kind there]
    split
    · exact .ok rfl
    split
    · exact .ok rfl
    · rename_i further _
      unfold Source.reject
      rw [move.file]
      exact .error (.trailing there further)

theorem expect_moved (move : Move moved source source') (kind : TokenKind)
    (rows : List.Forall₂ moved tokens tokens') :
    Outcomes moved source moved (Item.expect source kind tokens)
      (Item.expect source' kind tokens') := by
  cases rows with
  | nil => exact .error (.unread (by simp))
  | cons there rows =>
    simp only [Item.expect, move.kind there]
    split
    · exact .ok there
    · exact reject_moved move there _

theorem tile_moved (move : Move moved source source') (named : moved word word')
    (rows : List.Forall₂ moved tokens tokens') :
    Outcomes moved source Eq (Item.tile source word tokens) (Item.tile source' word' tokens') := by
  cases rows with
  | nil => exact .error (.unread (by simp))
  | @cons token token' _ _ there rows =>
    simp only [Item.tile, move.kind there, move.text there, move.text named]
    cases token.kind with
    | newline => exact reject_moved move named _
    | endOfText => exact reject_moved move named _
    | number =>
      refine (readNumeral_moved token.text).bind ?_
      rintro number _ rfl
      split
      · exact reject_moved move there _
      · exact .ok rfl
    | word => exact reject_moved move there _
    | _ => exact reject_moved move there _

theorem address_moved (move : Move moved source source') (named : moved word word')
    (rows : List.Forall₂ moved tokens tokens') :
    Outcomes moved source Eq (Item.address source word tokens)
      (Item.address source' word' tokens') := by
  cases rows with
  | nil => exact .error (.unread (by simp))
  | @cons token token' rest rest' there rows =>
    simp only [Item.address, move.kind there]
    split
    · refine (tile_moved move named rows).bind ?_
      rintro tile _ rfl
      have behind := List.forall₂_drop 1 rows
      generalize rest.drop 1 = closings at behind ⊢
      generalize rest'.drop 1 = closings' at behind ⊢
      cases behind with
      | nil => exact .error (.unread (by simp))
      | cons closing behind =>
        dsimp only
        rw [move.kind closing]
        split
        · exact .ok rfl
        · exact reject_moved move closing _
    · refine (tile_moved move named (.cons there rows)).bind ?_
      rintro tile _ rfl
      exact .ok rfl

theorem jumpLabel_moved (move : Move moved source source') (named : moved word word')
    (rows : List.Forall₂ moved tokens tokens') :
    Outcomes moved source Eq (Item.jumpLabel source word tokens)
      (Item.jumpLabel source' word' tokens') := by
  cases rows with
  | nil => exact .error (.unread (by simp))
  | @cons token token' _ _ there rows =>
    simp only [Item.jumpLabel, move.kind there, move.text there, move.text named]
    cases token.kind with
    | newline => exact reject_moved move named _
    | endOfText => exact reject_moved move named _
    | word => exact .ok rfl
    | _ => exact reject_moved move there _

theorem readInstruction_moved (move : Move moved source source') (named : moved word word')
    (kind : word.kind = .word) (rows : List.Forall₂ moved tokens tokens') :
    Outcomes moved source (fun read read' =>
        read.1.Moved moved source source' read'.1 ∧ read'.2 = read.2)
      (Item.readInstruction source word tokens) (Item.readInstruction source' word' tokens') := by
  simp only [Item.readInstruction, move.mnemonics, move.text named]
  split
  · exact reject_moved move named _
  · rename_i opcode _
    split
    · refine (address_moved move named rows).bind ?_
      rintro read _ rfl
      exact .ok ⟨.moved named kind opcode _ none none, rfl⟩
    · refine (jumpLabel_moved move named rows).bind ?_
      rintro label _ rfl
      exact .ok ⟨.moved named kind opcode none _ none, rfl⟩
    · exact .ok ⟨.moved named kind opcode none none none, rfl⟩

theorem read_moved (move : Move moved source source') (declared : List String)
    (there : moved token token') (rows : List.Forall₂ moved rest rest') :
    Outcomes moved source (fun read read' =>
        read.1.Moved moved source source' read'.1 ∧ read'.2 = read.2)
      (Item.read source declared token rest) (Item.read source' declared token' rest') := by
  have colon : (rest'.head?.any fun next => next.kind = .colon) =
      rest.head?.any fun next => next.kind = .colon := by
    cases rows with
    | nil => rfl
    | cons next further => simp [move.kind next]
  simp only [Item.read, move.kind there, move.text there, colon]
  cases kind : token.kind with
  | newline => exact .ok ⟨.plain (by simp), rfl⟩
  | header => exact .ok ⟨.plain (by simp), rfl⟩
  | define =>
    refine (readDefinition_moved token.text).bind ?_
    rintro drawn _ rfl
    refine (endOfLine_moved move rows).bind ?_
    rintro ending _ rfl
    exact .ok ⟨.plain (by simp), rfl⟩
  | word =>
    dsimp only
    split
    · split
      · exact reject_moved move there _
      · exact .ok ⟨.plain (by simp), rfl⟩
    split
    · refine (expect_moved move .number rows).bind fun {value value'} same => ?_
      refine (endOfLine_moved move (List.forall₂_drop 1 rows)).bind ?_
      rintro ending _ rfl
      rw [move.text same]
      exact .ok ⟨.plain (by simp), rfl⟩
    · refine (readInstruction_moved move there kind rows).bind ?_
      rintro ⟨found, taken⟩ ⟨found', taken'⟩ ⟨same, passed⟩
      obtain rfl : taken' = taken := passed
      refine (endOfLine_moved move (List.forall₂_drop taken' rows)).bind ?_
      rintro ending _ rfl
      exact .ok ⟨.instruction same, rfl⟩
  | _ => exact reject_moved move there _

theorem declare_moved {declared : List String} {item item' : Item}
    (same : item.Moved moved source source' item') :
    item'.declare declared = item.declare declared := by
  cases same <;> rfl

theorem readAll_moved (move : Move moved source source') (declared : List String)
    (rows : List.Forall₂ moved tokens tokens') :
    Outcomes moved source (fun read read' =>
        List.Forall₂ (Item.Moved moved source source') read.1 read'.1 ∧ moved read.2 read'.2 ∧
          read.2.kind = .endOfText)
      (Item.readAll source declared tokens) (Item.readAll source' declared tokens') := by
  induction declared, tokens using Item.readAll.induct generalizing tokens' with
  | case1 declared =>
    cases rows
    rw [Item.readAll, Item.readAll]
    exact .error (.unread (by simp))
  | case2 declared token rest ends =>
    cases rows with
    | cons there rows =>
      rw [Item.readAll, Item.readAll, if_pos ends, if_pos (by rw [move.kind there, ends])]
      exact .ok ⟨.nil, there, ends⟩
  | case3 declared token rest goesOn ih =>
    cases rows with
    | cons there rows =>
      rw [Item.readAll, Item.readAll, if_neg goesOn, if_neg (by rw [move.kind there]; exact goesOn)]
      refine (read_moved move declared there rows).bind ?_
      rintro ⟨item, taken⟩ ⟨item', taken'⟩ ⟨same, passed⟩
      obtain rfl : taken' = taken := passed
      dsimp only
      rw [declare_moved same]
      refine (ih item taken' (List.forall₂_drop taken' rows)).bind ?_
      rintro ⟨items, last⟩ ⟨items', last'⟩ ⟨further, ends⟩
      exact .ok ⟨.cons same further, ends⟩

end Reading

section Assembling

variable {items items' : List Item}

theorem instructions_moved (same : List.Forall₂ (Item.Moved moved source source') items items') :
    List.Forall₂ (Instruction.Moved moved source source') (Item.instructions items)
      (Item.instructions items') := by
  induction same with
  | nil => exact .nil
  | @cons item item' items items' head tail ih =>
    cases head with
    | instruction same => exact .cons same ih
    | plain unlocated =>
      cases item with
      | instruction found => exact absurd rfl (unlocated found)
      | _ => exact ih

theorem definitions_moved (same : List.Forall₂ (Item.Moved moved source source') items items') :
    Item.definitions items' = Item.definitions items := by
  induction same with
  | nil => rfl
  | @cons item item' items items' head tail ih =>
    cases head with
    | instruction same => exact ih
    | plain unlocated =>
      cases item with
      | definition found => exact congrArg (found :: ·) ih
      | _ => exact ih

theorem markers_moved (same : List.Forall₂ (Item.Moved moved source source') items items')
    (index : Nat) : Item.markers index items' = Item.markers index items := by
  induction same generalizing index with
  | nil => rfl
  | @cons item item' items items' head tail ih =>
    cases head with
    | instruction same => exact ih (index + 1)
    | plain unlocated => cases item <;> simp [Item.markers, ih]

theorem labels_moved (same : List.Forall₂ (Item.Moved moved source source') items items') :
    Item.labels items' = Item.labels items := by
  rw [Item.labels, Item.labels, markers_moved same]

end Assembling

theorem resolve_moved {instruction instruction' : Instruction} (labels : Table String Int)
    (same : instruction.Moved moved source source' instruction') :
    Outcomes moved source (Instruction.Moved moved source source')
      (Program.resolve source.file labels instruction)
      (Program.resolve source.file labels instruction') := by
  cases same with
  | moved there kind opcode address label target =>
    cases label with
    | none => exact .ok (.moved there kind opcode address none target)
    | some name =>
      simp only [Program.resolve]
      split
      · exact .ok (.moved there kind opcode address (some name) _)
      · exact .error (.rejected there _)

/-- Rows of paired tokens give the same program but for the locations, or the same error but for
the place. -/
theorem ofTokens_moved (move : Move moved source source') {tokens tokens' : List Token}
    (rows : List.Forall₂ moved tokens tokens') :
    Outcomes moved source (Program.Moved moved source source') (Program.ofTokens source tokens)
      (Program.ofTokens source' tokens') := by
  simp only [Program.ofTokens, move.mnemonics, move.file]
  split
  · exact .error (.unread (by simp))
  · refine (readAll_moved move [] rows).bind ?_
    rintro ⟨items, last⟩ ⟨items', last'⟩ ⟨same, there, ends⟩
    dsimp only
    rw [labels_moved same, markers_moved same, definitions_moved same]
    refine (Paired.mapM (fun same => resolve_moved _ same) (instructions_moved same)).bind
      fun further => ?_
    exact .ok ⟨further, rfl, rfl, rfl, last, last', there, ends, rfl, rfl⟩

end Grammar

end MailRoom
