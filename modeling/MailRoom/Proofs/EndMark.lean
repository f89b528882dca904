import MailRoom.Proofs.Stages

/-! Rows of tokens that nobody has cut from a text: of any kinds, in any order, with an end mark
anywhere or nowhere. Main statement: `Grammar.ofTokens_up_to_mark`, by which a row is read up to its
first end mark and no further, and comes to nothing if it has none. -/
namespace MailRoom

namespace Grammar

/-- What is read of a row is read of every longer one, unless its tokens run out. -/
def Steady (reader : List Token → Except ReadFailure α) : Prop :=
  ∀ tokens more, reader tokens = .error .outOfTokens ∨ reader (tokens ++ more) = reader tokens

namespace Steady

variable {reader : List Token → Except ReadFailure α}

theorem const (result : Except ReadFailure α) : Steady fun _ => result :=
  fun _ _ => .inr rfl

/-- Who looks at the first token only does not look further in a longer row. -/
theorem of_head (empty : reader [] = .error .outOfTokens)
    (head : ∀ token rest more, reader (token :: rest ++ more) = reader (token :: rest)) :
    Steady reader := by
  intro tokens more
  cases tokens with
  | nil => exact .inl empty
  | cons token rest => exact .inr (head token rest more)

theorem drop (steady : Steady reader) (empty : reader [] = .error .outOfTokens) (taken : Nat) :
    Steady fun tokens => reader (tokens.drop taken) := by
  intro tokens more
  by_cases inside : taken ≤ tokens.length
  · simp only [List.drop_append_of_le_length inside]
    exact steady _ more
  · exact .inl ((congrArg reader (List.drop_eq_nil_of_le (Nat.le_of_not_le inside))).trans empty)

theorem bind {rest : α → List Token → Except ReadFailure β} (steady : Steady reader)
    (further : ∀ value, Steady (rest value)) :
    Steady fun tokens => reader tokens >>= fun value => rest value tokens := by
  intro tokens more
  rcases steady tokens more with out | same
  · simp only [out]
    exact .inl rfl
  · simp only [same]
    cases reader tokens with
    | error failure => exact .inr rfl
    | ok value => exact further value tokens more

end Steady

section Steady

variable (source : Source) (word : Token)

theorem endOfLine_steady : Steady (Item.endOfLine source) := .of_head rfl fun _ _ _ => rfl

theorem expect_steady (kind : TokenKind) : Steady (Item.expect source kind) :=
  .of_head rfl fun _ _ _ => rfl

theorem tile_steady : Steady (Item.tile source word) := .of_head rfl fun _ _ _ => rfl

theorem jumpLabel_steady : Steady (Item.jumpLabel source word) := .of_head rfl fun _ _ _ => rfl

/-- What an address comes to that has been read up to the tile within its brackets. -/
def bracketed (source : Source) (tile : Int) : List Token → Except ReadFailure (Address × Nat)
  | [] => .error .outOfTokens
  | closing :: _ =>
    if closing.kind = .closeBracket then return (⟨tile, true⟩, 3)
    else source.reject .unclosedAddress closing

theorem bracketed_steady (tile : Int) : Steady (bracketed source tile) :=
  .of_head rfl fun _ _ _ => rfl

theorem address_steady : Steady (Item.address source word) := by
  intro tokens more
  cases tokens with
  | nil => exact .inl rfl
  | cons token rest =>
    by_cases opens : token.kind = .openBracket
    · have steady := (tile_steady source word).bind fun tile =>
        (bracketed_steady source tile).drop rfl 1
      simp only [Item.address, List.cons_append, opens, if_true]
      exact steady rest more
    · have steady := (tile_steady source word).bind fun tile =>
        .const (.ok ((⟨tile, false⟩ : Address), 1))
      simp only [Item.address, List.cons_append, opens, if_false]
      exact steady (token :: rest) more

theorem readInstruction_steady : Steady (Item.readInstruction source word) := by
  unfold Item.readInstruction
  split
  · exact .const _
  split
  · exact (address_steady source word).bind fun _ => .const _
  · exact (jumpLabel_steady source word).bind fun _ => .const _
  · exact .const _

variable {source} {token : Token} {declared : List String} {tokens rest more : List Token}

/-- Whether a word declares a label shows at the token behind it. -/
theorem read_steady (same : ((rest ++ more).head?.any fun next => next.kind = .colon) =
      rest.head?.any fun next => next.kind = .colon) :
    Item.read source declared token rest = .error .outOfTokens ∨
      Item.read source declared token (rest ++ more) = Item.read source declared token rest := by
  unfold Item.read
  split
  · exact .inr rfl
  · exact .inr rfl
  · have steady := (Steady.const (Item.readDefinition token.text)).bind fun drawn =>
      (endOfLine_steady source).bind fun ending => .const (.ok (Item.definition drawn, ending))
    exact steady rest more
  · rw [same]
    split
    · exact .inr rfl
    split
    · have steady := (expect_steady source .number).bind fun value =>
        ((endOfLine_steady source).drop rfl 1).bind fun ending =>
          .const (.ok (Item.comment value.text, 1 + ending))
      exact steady rest more
    · have steady := (readInstruction_steady source token).bind fun read =>
        ((endOfLine_steady source).drop rfl read.2).bind fun ending =>
          .const (.ok (Item.instruction read.1, read.2 + ending))
      exact steady rest more
  · exact .inr rfl

end Steady

/-- What is read of a row with an end mark behind so many tokens: they do not run out, and those
that are taken come before the mark. -/
inductive Inside (room : Nat) (taken : α → Nat) : Except ReadFailure α → Prop where
  | ok {value : α} (within : taken value ≤ room) : Inside room taken (.ok value)
  | error {failure : ReadFailure} (short : failure ≠ .outOfTokens) :
      Inside room taken (.error failure)

section Inside

variable {room room' : Nat} {taken : α → Nat} {taken' : β → Nat} {source : Source}
  {word token ends : Token} {declared : List String} {before after : List Token}

theorem Inside.bind {result : Except ReadFailure α} {rest : α → Except ReadFailure β}
    (inside : Inside room taken result)
    (further : ∀ value, taken value ≤ room → Inside room' taken' (rest value)) :
    Inside room' taken' (result >>= rest) := by
  cases inside with
  | ok within => exact further _ within
  | error short => exact .error short

theorem reject_inside (source : Source) (cause : ParseCause) (token : Token) :
    Inside room taken (source.reject cause token) := .error (by simp)

theorem readNumeral_inside (text : String) :
    Inside 0 (fun _ => 0) (Item.readNumeral text) := by
  unfold Item.readNumeral
  cases Numeral.read (Text.ofString text) with
  | ok value => exact .ok (Nat.le_refl _)
  | error failure => exact .error (by simp)

theorem readDefinition_inside (text : String) :
    Inside 0 (fun _ => 0) (Item.readDefinition text) := by
  unfold Item.readDefinition
  dsimp only
  split
  · exact .error (by simp)
  · exact (readNumeral_inside _).bind fun _ within => .ok within

section Mark

variable (mark : ends.kind = .endOfText)
include mark

theorem endOfLine_inside :
    Inside before.length id (Item.endOfLine source (before ++ ends :: after)) := by
  cases before with
  | nil =>
    simp only [List.nil_append, Item.endOfLine, mark]
    exact .ok (Nat.le_refl 0)
  | cons token before =>
    simp only [List.cons_append, Item.endOfLine]
    split
    · exact .ok (Nat.succ_le_succ (Nat.zero_le _))
    split
    · exact .ok (Nat.zero_le _)
    · exact reject_inside source _ token

theorem expect_inside {kind : TokenKind} (apart : kind ≠ .endOfText) :
    Inside before.length (fun _ => 1) (Item.expect source kind (before ++ ends :: after)) := by
  cases before with
  | nil =>
    simp only [List.nil_append, Item.expect, mark, apart.symm, if_false]
    exact reject_inside source _ ends
  | cons token before =>
    simp only [List.cons_append, Item.expect]
    split
    · exact .ok (Nat.succ_le_succ (Nat.zero_le _))
    · exact reject_inside source _ token

theorem tile_inside :
    Inside before.length (fun _ => 1) (Item.tile source word (before ++ ends :: after)) := by
  cases before with
  | nil =>
    simp only [List.nil_append, Item.tile, mark]
    exact reject_inside source _ word
  | cons token before =>
    have first : 1 ≤ (token :: before).length := Nat.succ_le_succ (Nat.zero_le _)
    simp only [List.cons_append, Item.tile]
    split
    · exact reject_inside source _ word
    · exact reject_inside source _ word
    · refine (readNumeral_inside token.text).bind fun number _ => ?_
      split
      · exact reject_inside source _ token
      · exact .ok first
    · exact reject_inside source _ token
    · exact reject_inside source _ token

theorem jumpLabel_inside :
    Inside before.length (fun _ => 1) (Item.jumpLabel source word (before ++ ends :: after)) := by
  cases before with
  | nil =>
    simp only [List.nil_append, Item.jumpLabel, mark]
    exact reject_inside source _ word
  | cons token before =>
    simp only [List.cons_append, Item.jumpLabel]
    split
    · exact reject_inside source _ word
    · exact reject_inside source _ word
    · exact .ok (Nat.succ_le_succ (Nat.zero_le _))
    · exact reject_inside source _ token

/-- A bracket that is opened is closed before the mark, or else the mark is what is found there. -/
theorem address_inside :
    Inside before.length Prod.snd (Item.address source word (before ++ ends :: after)) := by
  cases before with
  | nil =>
    simp only [List.nil_append, Item.address, Item.tile, mark]
    exact reject_inside source _ word
  | cons token before =>
    simp only [List.cons_append, Item.address]
    split
    · refine (tile_inside mark).bind fun tile within => ?_
      cases before with
      | nil => cases within
      | cons number before =>
        cases before with
        | nil =>
          simp only [List.cons_append, List.nil_append, List.drop_succ_cons, List.drop_zero, mark]
          exact reject_inside source _ ends
        | cons closing before =>
          simp only [List.cons_append, List.drop_succ_cons, List.drop_zero]
          split
          · exact .ok (by simp)
          · exact reject_inside source _ closing
    · have direct := @tile_inside source word ends (token :: before) after mark
      exact direct.bind fun tile within => .ok within

theorem readInstruction_inside :
    Inside before.length Prod.snd
      (Item.readInstruction source word (before ++ ends :: after)) := by
  simp only [Item.readInstruction]
  split
  · exact reject_inside source _ word
  split
  · exact (address_inside mark).bind fun _ within => .ok within
  · exact (jumpLabel_inside mark).bind fun _ within => .ok within
  · exact .ok (Nat.zero_le _)

theorem ending_inside {count : Nat} (within : count ≤ before.length) :
    Inside before.length (count + ·)
      (Item.endOfLine source ((before ++ ends :: after).drop count)) := by
  rw [List.drop_append_of_le_length within]
  have inside := @endOfLine_inside source ends (before.drop count) after mark
  rw [List.length_drop] at inside
  generalize Item.endOfLine source (before.drop count ++ ends :: after) = ending at inside ⊢
  cases inside with
  | ok left => exact .ok (by simp only [id] at left; omega)
  | error short => exact .error short

theorem read_inside :
    Inside before.length Prod.snd (Item.read source declared token (before ++ ends :: after)) := by
  simp only [Item.read]
  split
  · exact .ok (Nat.zero_le _)
  · exact .ok (Nat.zero_le _)
  · refine (readDefinition_inside token.text).bind fun drawn _ => ?_
    exact (endOfLine_inside mark).bind fun ending within => .ok within
  · split
    · rename_i colon
      split
      · exact reject_inside source _ token
      · refine .ok ?_
        cases before with
        | nil => simp [mark] at colon
        | cons next before => exact Nat.succ_le_succ (Nat.zero_le _)
    split
    · refine (expect_inside mark (by simp)).bind fun value within => ?_
      exact (ending_inside mark within).bind fun ending within => .ok within
    · refine (readInstruction_inside mark).bind fun found within => ?_
      exact (ending_inside mark within).bind fun ending within => .ok within
  · exact reject_inside source _ token

end Mark

end Inside

/-- Where reading stands: the labels declared so far and the tokens that lie ahead. -/
structure Cursor where
  declared : List String
  ahead : List Token

/-- Turns of reading, an item each, lead from one place to another. -/
inductive Turns (source : Source) : Cursor → List Item → Cursor → Prop where
  | here (cursor : Cursor) : Turns source cursor [] cursor
  | turn {declared : List String} {token : Token} {rest : List Token} {item : Item} {taken : Nat}
      {items : List Item} {last : Cursor} (goesOn : token.kind ≠ .endOfText)
      (read : Item.read source declared token rest = .ok (item, taken))
      (further : Turns source ⟨item.declare declared, rest.drop taken⟩ items last) :
      Turns source ⟨declared, token :: rest⟩ (item :: items) last

/-- A place from which there is no further turn, and why: the tokens have run out, the next one
marks the end, or no item is read from there. -/
inductive Stops (source : Source) : Cursor → Except ReadFailure Token → Prop where
  | out (declared : List String) : Stops source ⟨declared, []⟩ (.error .outOfTokens)
  | mark {declared : List String} {token : Token} {rest : List Token}
      (ends : token.kind = .endOfText) : Stops source ⟨declared, token :: rest⟩ (.ok token)
  | failed {declared : List String} {token : Token} {rest : List Token} {failure : ReadFailure}
      (goesOn : token.kind ≠ .endOfText)
      (failed : Item.read source declared token rest = .error failure) :
      Stops source ⟨declared, token :: rest⟩ (.error failure)

section Turns

variable {source : Source} {ends : Token} {declared : List String}
  {tokens before after : List Token} {items : List Item} {first last : Cursor}
  {outcome : Except ReadFailure Token}

/-- Reading takes turns until there is none. -/
theorem exists_turns (source : Source) (declared : List String) (tokens : List Token) :
    ∃ items last outcome, Turns source ⟨declared, tokens⟩ items last ∧
      Stops source last outcome ∧
      Item.readAll source declared tokens = outcome.map fun mark => (items, mark) := by
  induction declared, tokens using Item.readAll.induct with
  | case1 declared => exact ⟨[], _, _, .here _, .out declared, by rw [Item.readAll]; rfl⟩
  | case2 declared token rest ends =>
    exact ⟨[], _, _, .here _, .mark ends, by rw [Item.readAll, if_pos ends]; rfl⟩
  | case3 declared token rest goesOn ih =>
    rw [Item.readAll, if_neg goesOn]
    cases read : Item.read source declared token rest with
    | error failure => exact ⟨[], _, _, .here _, .failed goesOn read, rfl⟩
    | ok found =>
      obtain ⟨item, taken⟩ := found
      obtain ⟨items, last, outcome, turns, stops, outcome_eq⟩ := ih item taken
      refine ⟨item :: items, last, outcome, .turn goesOn read turns, stops, ?_⟩
      simp only [bind, Except.bind, outcome_eq]
      cases outcome <;> rfl

theorem Turns.length_le (turns : Turns source first items last) :
    items.length + last.ahead.length ≤ first.ahead.length := by
  induction turns with
  | here cursor => simp
  | @turn declared token rest item taken items last goesOn read further ih =>
    have left := List.length_drop (i := taken) (l := rest)
    simp only [List.length_cons] at ih ⊢
    omega

theorem Turns.suffix (turns : Turns source first items last) : last.ahead <:+ first.ahead := by
  induction turns with
  | here cursor => exact List.suffix_refl _
  | @turn declared token rest item taken items last goesOn read further ih =>
    exact (ih.trans (List.drop_suffix taken rest)).trans (List.suffix_cons token rest)

/-- Whoever stops at an end mark stops at the first one ahead. -/
theorem Stops.at_mark {token : Token} (stops : Stops source last (.ok token))
    (free : ∀ token ∈ before, token.kind ≠ .endOfText)
    (ahead : last.ahead = before ++ ends :: after) : token = ends := by
  cases stops with
  | mark found =>
    cases before with
    | nil => exact (List.cons.inj ahead).1
    | cons head before =>
      have first : token = head := (List.cons.inj ahead).1
      exact absurd (first ▸ found) (free head List.mem_cons_self)

section Mark

variable (mark : ends.kind = .endOfText)
include mark

theorem Turns.up_to_mark (turns : Turns source ⟨declared, before ++ ends :: after⟩ items last) :
    ∃ passed, items.length ≤ passed ∧ passed ≤ before.length ∧
      last.ahead = before.drop passed ++ ends :: after := by
  generalize place : Cursor.mk declared (before ++ ends :: after) = first at turns
  induction turns generalizing declared before with
  | here cursor =>
    subst place
    exact ⟨0, Nat.le_refl 0, Nat.zero_le _, rfl⟩
  | @turn declared' token rest item taken items last goesOn read further ih =>
    cases before with
    | nil =>
      cases place
      exact absurd mark goesOn
    | cons head before =>
      obtain ⟨rfl, rfl, rfl⟩ : declared = declared' ∧ head = token ∧
        before ++ ends :: after = rest := by simpa using place
      have inside := @read_inside source head ends declared before after mark
      rw [read] at inside
      obtain ⟨within⟩ := inside
      obtain ⟨passed, many, inner, ahead⟩ :=
        @ih _ (before.drop taken) (by rw [List.drop_append_of_le_length within])
      rw [List.length_drop] at inner
      refine ⟨passed + taken + 1, ?_, ?_, ?_⟩
      · simp only [List.length_cons]
        omega
      · simp only [List.length_cons]
        omega
      · rw [ahead, List.drop_drop, List.drop_succ_cons, Nat.add_comm]

theorem Stops.ne_outOfTokens (stops : Stops source last outcome)
    (ahead : last.ahead = before ++ ends :: after) : outcome ≠ .error .outOfTokens := by
  cases stops with
  | out declared => simp at ahead
  | mark found => simp
  | @failed declared token rest failure goesOn failed =>
    cases before with
    | nil =>
      cases ahead
      exact absurd mark goesOn
    | cons head before =>
      obtain ⟨rfl, rfl⟩ : token = head ∧ rest = before ++ ends :: after := by simpa using ahead
      have inside := @read_inside source token ends declared before after mark
      rw [failed] at inside
      cases inside with
      | error short => simpa using short

end Mark

end Turns

/-- More tokens do not show at the token ahead of them whether it declares a label: there is an end
mark in between, or they do not start with a colon. -/
def Apart (tokens more : List Token) : Prop :=
  (∃ token ∈ tokens, token.kind = .endOfText) ∨
    (more.head?.any fun next => next.kind = .colon) = false

section Whole

variable {source : Source} {token : Token} {declared : List String} {tokens rest more : List Token}

theorem Apart.colon (apart : Apart (token :: rest) more) (goesOn : token.kind ≠ .endOfText) :
    ((rest ++ more).head?.any fun next => next.kind = .colon) =
      rest.head?.any fun next => next.kind = .colon := by
  cases rest with
  | cons next rest => rfl
  | nil =>
    rcases apart with ⟨other, member, ends⟩ | free
    · rw [List.mem_singleton.mp member] at ends
      exact absurd ends goesOn
    · exact free

theorem Apart.onward {item : Item} {taken : Nat} (apart : Apart (token :: rest) more)
    (goesOn : token.kind ≠ .endOfText)
    (read : Item.read source declared token rest = .ok (item, taken)) :
    Apart (rest.drop taken) more := by
  refine apart.imp_left fun ⟨mark, member, ends⟩ => ⟨mark, ?_, ends⟩
  have behind : mark ∈ rest := (List.mem_cons.mp member).resolve_left fun same =>
    goesOn (same ▸ ends)
  obtain ⟨before, after, rfl⟩ := List.append_of_mem behind
  have inside := @read_inside source token mark declared before after ends
  rw [read] at inside
  obtain ⟨within⟩ := inside
  rw [List.drop_append_of_le_length within]
  exact List.mem_append_right _ List.mem_cons_self

/-- What comes of a row comes of a longer one, unless its tokens run out. -/
theorem readAll_steady (apart : Apart tokens more) :
    Item.readAll source declared tokens = .error .outOfTokens ∨
      Item.readAll source declared (tokens ++ more) = Item.readAll source declared tokens := by
  induction declared, tokens using Item.readAll.induct with
  | case1 declared => exact .inl (by rw [Item.readAll])
  | case2 declared token rest ends =>
    right
    rw [List.cons_append, Item.readAll, Item.readAll, if_pos ends, if_pos ends]
  | case3 declared token rest goesOn ih =>
    rw [List.cons_append, Item.readAll, Item.readAll, if_neg goesOn, if_neg goesOn]
    rcases @read_steady source token declared rest more (apart.colon goesOn) with out | same
    · exact .inl (by rw [out]; rfl)
    rw [same]
    cases read : Item.read source declared token rest with
    | error failure => exact .inr rfl
    | ok found =>
      obtain ⟨item, taken⟩ := found
      simp only [bind, Except.bind]
      by_cases within : taken ≤ rest.length
      · rw [List.drop_append_of_le_length within]
        rcases ih item taken (apart.onward goesOn read) with out | same
        · exact .inl (by rw [out])
        · exact .inr (by rw [same])
      · rw [List.drop_eq_nil_of_le (Nat.le_of_not_le within), Item.readAll]
        exact .inl rfl

theorem ofTokens_steady (apart : Apart tokens more) :
    Program.ofTokens source tokens = .error .outOfTokens ∨
      Program.ofTokens source (tokens ++ more) = Program.ofTokens source tokens := by
  unfold Program.ofTokens
  split
  · exact .inr rfl
  · rcases @readAll_steady source [] tokens more apart with out | same
    · exact .inl (by rw [out]; rfl)
    · exact .inr (by rw [same])

/-- Jumps are only resolved once all items have been read. -/
theorem ofTokens_of_error {failure : ReadFailure}
    (failed : Item.readAll source [] tokens = .error failure) :
    ∃ failure', Program.ofTokens source tokens = .error failure' ∧
      (failure' = failure ∨ ∃ spelling name, failure' = .foreignMnemonic spelling name) := by
  unfold Program.ofTokens
  split
  · rename_i spelling name _
    exact ⟨_, rfl, .inr ⟨spelling, name, rfl⟩⟩
  · exact ⟨failure, by rw [failed]; rfl, .inl rfl⟩

theorem ofTokens_ne_outOfTokens (read : Item.readAll source [] tokens ≠ .error .outOfTokens) :
    Program.ofTokens source tokens ≠ .error .outOfTokens := by
  intro failed
  cases native : source.mnemonics.foreign? with
  | some pair => simp [Program.ofTokens, native] at failed
  | none =>
    rcases ofTokens_error native failed with out | ⟨_, _, _, jump, _, _, _, _, _, unresolved⟩
    · exact read out
    · unfold Program.resolve at unresolved
      split at unresolved
      · cases unresolved
      · split at unresolved <;> cases unresolved

theorem location_of_read {program : Program}
    (success : Program.ofTokens source tokens = .ok program) :
    ∃ items last, Item.readAll source [] tokens = .ok (items, last) ∧
      program.location = some (source.locate last.position) := by
  cases native : source.mnemonics.foreign? with
  | some pair => simp [Program.ofTokens, native] at success
  | none =>
    simp only [Program.ofTokens, native] at success
    obtain ⟨⟨items, last⟩, read, success⟩ := bind_eq_ok.mp success
    obtain ⟨_, _, success⟩ := bind_eq_ok.mp success
    cases success
    exact ⟨items, last, read, rfl⟩

section Mark

variable {ends : Token} {before : List Token} (mark : ends.kind = .endOfText)
include mark

/-- Tokens with an end mark among them do not run out. -/
theorem ofTokens_marked (source : Source) (after : List Token) :
    Program.ofTokens source (before ++ ends :: after) ≠ .error .outOfTokens := by
  obtain ⟨items, last, outcome, turns, stops, read⟩ :=
    exists_turns source [] (before ++ ends :: after)
  obtain ⟨passed, _, _, ahead⟩ := turns.up_to_mark mark
  have short := stops.ne_outOfTokens mark ahead
  refine ofTokens_ne_outOfTokens fun out => short ?_
  cases outcome with
  | ok last => cases read.symm.trans out
  | error failure => cases read.symm.trans out; rfl

theorem ofTokens_behind_mark (source : Source) (after : List Token) :
    Program.ofTokens source (before ++ ends :: after) =
      Program.ofTokens source (before ++ [ends]) := by
  have apart : Apart (before ++ [ends]) after :=
    .inl ⟨ends, List.mem_append_right _ List.mem_cons_self, mark⟩
  rcases @ofTokens_steady source _ _ apart with out | same
  · exact absurd out (ofTokens_marked mark source [])
  · rwa [List.append_assoc] at same

/-- The program ends where the first end mark stands. -/
theorem location_of_marked {after : List Token} {program : Program}
    (free : ∀ token ∈ before, token.kind ≠ .endOfText)
    (success : Program.ofTokens source (before ++ ends :: after) = .ok program) :
    program.location = some (source.locate ends.position) := by
  obtain ⟨items, found, success, located⟩ := location_of_read success
  obtain ⟨_, last, outcome, turns, stops, read⟩ := exists_turns source [] (before ++ ends :: after)
  obtain ⟨passed, _, _, ahead⟩ := turns.up_to_mark mark
  rw [read] at success
  obtain ⟨_, rfl, same⟩ := map_eq_ok.mp success
  cases same
  obtain rfl := stops.at_mark (fun token member => free token (List.mem_of_mem_drop member)) ahead
  exact located

end Mark

theorem readAll_unmarked (free : ∀ token ∈ tokens, token.kind ≠ .endOfText) :
    ∃ failure, Item.readAll source declared tokens = .error failure ∧
      ∀ error, failure = .rejected error →
        error.cause.stage = .reading ∨ error.cause.stage = .declaring := by
  obtain ⟨items, last, outcome, turns, stops, read⟩ := exists_turns source declared tokens
  have suffix := turns.suffix
  rw [read]
  cases stops with
  | out declared => exact ⟨_, rfl, fun error same => by cases same⟩
  | mark ends => exact absurd ends (free _ (suffix.subset List.mem_cons_self))
  | failed goesOn failed =>
    refine ⟨_, rfl, fun error same => ?_⟩
    rcases read_stage _ failed with reading | ⟨again, _⟩
    · exact .inl (reading error same)
    · cases same.symm.trans again
      exact .inr rfl

end Whole

/-- Tokens of any making. Reading takes turns, of which there are no more than tokens, and stops. If
there is an end mark, no turn leads behind the first one, the tokens do not run out, and what comes
behind it does not matter; a program that comes of them ends there. If there is none, nothing comes
of the tokens: they run out, unless a failure comes up before, which no further tokens then change,
save that a colon can make the last word a label; the labels of jumps are not even looked up. -/
theorem ofTokens_up_to_mark (source : Source) (tokens : List Token) :
    (∃ items last outcome, Turns source ⟨[], tokens⟩ items last ∧ Stops source last outcome ∧
      items.length ≤ tokens.length ∧
      Item.readAll source [] tokens = outcome.map fun mark => (items, mark)) ∧
    (∀ before ends after, tokens = before ++ ends :: after →
      (∀ token ∈ before, token.kind ≠ .endOfText) → ends.kind = .endOfText →
      (∀ items last, Turns source ⟨[], tokens⟩ items last → ∃ passed,
        passed ≤ before.length ∧ last.ahead = before.drop passed ++ ends :: after) ∧
      Program.ofTokens source tokens ≠ .error .outOfTokens ∧
      (∀ other, Program.ofTokens source (before ++ ends :: other) =
        Program.ofTokens source tokens) ∧
      ∀ program, Program.ofTokens source tokens = .ok program →
        program.location = some (source.locate ends.position)) ∧
    ((∀ token ∈ tokens, token.kind ≠ .endOfText) →
      ∃ failure, Program.ofTokens source tokens = .error failure ∧
        (∀ error, failure = .rejected error →
          error.cause.stage = .reading ∨ error.cause.stage = .declaring) ∧
        (failure ≠ .outOfTokens →
          ∀ more, (more.head?.any fun next => next.kind = .colon) = false →
            Program.ofTokens source (tokens ++ more) = .error failure)) := by
  refine ⟨?_, ?_, fun free => ?_⟩
  · obtain ⟨items, last, outcome, turns, stops, read⟩ := exists_turns source [] tokens
    have many := turns.length_le
    exact ⟨items, last, outcome, turns, stops, Nat.le_of_add_right_le many, read⟩
  · rintro before ends after rfl free mark
    refine ⟨fun items last turns => ?_, ofTokens_marked mark source after, fun other => ?_,
      fun program => location_of_marked mark free⟩
    · obtain ⟨passed, _, within, ahead⟩ := turns.up_to_mark mark
      exact ⟨passed, within, ahead⟩
    · rw [ofTokens_behind_mark mark, ofTokens_behind_mark mark source after]
  · obtain ⟨failure, failed, stage⟩ := @readAll_unmarked source [] tokens free
    obtain ⟨failure', failed', cause⟩ := ofTokens_of_error failed
    refine ⟨failure', failed', fun error same => ?_, fun short more apart => ?_⟩
    · rcases cause with rfl | ⟨_, _, rfl⟩
      · exact stage error same
      · cases same
    · rcases @ofTokens_steady source tokens more (.inr apart) with out | same
      · cases failed'.symm.trans out
        exact absurd rfl short
      · exact same.trans failed'

private def bare : Source := ⟨"", #[], .standard⟩

private def inbox : Token := ⟨.word, "INBOX", ⟨1, 1⟩⟩

private def stray : Token := ⟨.other "STRAY", "", ⟨1, 7⟩⟩

private def mark : Token := ⟨.endOfText, "", ⟨4, 2⟩⟩

/-- A second end mark behind something that is no token of any text, and a row without an end mark
that goes wrong before it runs out. -/
theorem ofTokens_up_to_mark_early : ∃ (program : Program) (failure : ReadFailure),
    Program.ofTokens bare [inbox, mark, stray, mark] = .ok program ∧
    program.location = some (bare.locate mark.position) ∧
    (∀ other, Program.ofTokens bare (inbox :: mark :: other) = .ok program) ∧
    Program.ofTokens bare [inbox, stray] = .error failure ∧ failure ≠ .outOfTokens ∧
    Program.ofTokens bare [inbox, stray, inbox, mark] = .error failure ∧
    Program.ofTokens bare [inbox] = .error .outOfTokens := by
  have read : (Program.ofTokens bare [inbox, mark, stray, mark]).isOk = true := by decide +kernel
  have wrong : (Program.ofTokens bare [inbox, stray]).map (fun _ => ()) =
    .error (.rejected ⟨.trailingToken stray, "", stray.position⟩) := by decide +kernel
  have out : (Program.ofTokens bare [inbox]).map (fun _ => ()) = .error .outOfTokens := by
    decide +kernel
  obtain ⟨_, marked, _⟩ := ofTokens_up_to_mark bare [inbox, mark, stray, mark]
  obtain ⟨_, _, unmarked⟩ := ofTokens_up_to_mark bare [inbox, stray]
  obtain ⟨_, _, alone⟩ := ofTokens_up_to_mark bare [inbox]
  obtain ⟨failure, failed, _, kept⟩ := unmarked (by decide)
  obtain ⟨last, ended, _⟩ := alone (by decide)
  rw [failed] at wrong
  cases wrong
  rw [ended] at out
  cases out
  cases success : Program.ofTokens bare [inbox, mark, stray, mark] with
  | error failure => simp [success, Except.isOk, Except.toBool] at read
  | ok program =>
    obtain ⟨_, _, same, located⟩ := marked [inbox] mark [stray, mark] rfl (by decide) rfl
    exact ⟨program, _, rfl, located program success, fun other => (same other).trans success,
      failed, by simp, kept (by simp) [inbox, mark] rfl, ended⟩

end Grammar

end MailRoom
