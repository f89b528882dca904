import MailRoom.Proofs.Bounded
import MailRoom.Proofs.StepHistory

/-! What a run takes, puts and keeps, beside the instructions that it carries out. Main statements:
`State.Conserved.trans` and `State.Does.conserved`, by which every state that a program comes to
keeps account with the one it started from, and `Program.execute_conserves`, the same of whole
runs. -/
namespace MailRoom

open Spec (lying laid)

/-- How many of some deeds are of one kind of instruction. -/
def Deed.tally (opcode : Opcode) (deeds : List Deed) : Nat :=
  deeds.countP fun deed => deed.instruction.opcode = opcode

theorem Deed.tally_append (opcode : Opcode) (earlier later : List Deed) :
    tally opcode (earlier ++ later) = tally opcode earlier + tally opcode later :=
  List.countP_append

theorem Deed.tally_singleton (opcode : Opcode) (deed : Deed) :
    tally opcode [deed] = if deed.instruction.opcode = opcode then 1 else 0 := by
  simp [tally, List.countP_singleton]

/-- A letter is somewhere outside the inbox. -/
inductive State.Holds (state : State) (char : Char) : Prop where
  | hands (held : state.hands = some (.letter char))
  | floor {tile : Int} (lies : lying state.floor tile = some (.letter char))
  | outbox (put : .letter char ∈ state.outbox)

namespace Spec

variable {config : Config} {instruction : Instruction} {state : State} {pc : Int}

theorem exists_held (met : Met config instruction state)
    (asked : .hands ∈ demands instruction.opcode) : ∃ value, state.hands = some value := by
  have held : state.hands ≠ none := by simpa [lacks] using met .hands asked
  exact Option.ne_none_iff_exists'.mp held

theorem exists_number (met : Met config instruction state)
    (written : .written ∈ demands instruction.opcode)
    (numbers : .numbers ∈ demands instruction.opcode) :
    ∃ tile, operand? instruction state = some (.number tile) := by
  have there : operand? instruction state ≠ none := by
    simpa [lacks] using met .written written
  obtain ⟨value, found⟩ := Option.ne_none_iff_exists'.mp there
  have plain : ∀ value ∈ workedOn instruction state, ¬value.kind = .letter := by
    simpa [lacks] using met .numbers numbers
  cases value with
  | number tile => exact ⟨tile, found⟩
  | letter char => exact absurd rfl (plain (.letter char) (by simp [workedOn, written, found]))

/-- A result that was checked against the bound is a value. -/
theorem exists_computed (met : Met config instruction state)
    (checked : .bound ∈ demands instruction.opcode) {result : Int}
    (exact : result? instruction state = some result) :
    ∃ value, computed? instruction state = some value := by
  have inside : -(config.numberBound : Int) ≤ result ∧ result ≤ config.numberBound := by
    simpa [lacks, exact] using met .bound checked
  have bound := config.bound_fits
  have fits : -2147483648 ≤ result ∧ result ≤ 2147483647 := by omega
  exact ⟨.number ⟨result, fits.1, fits.2⟩, by simp [computed?, exact, Number.ofInt?, fits]⟩

/-- The floor is as it was, or it has on one tile what is in hands afterwards. -/
theorem floorAfter_cases (met : Met config instruction state) :
    floorAfter instruction state = state.floor ∨
      ∃ value, handsAfter instruction state = some value ∧ floorAfter instruction state =
        laid state.floor (target? instruction state) (some value) := by
  cases opcode : instruction.opcode with
  | copyTo =>
    obtain ⟨value, held⟩ := exists_held met (by simp [demands, opcode])
    exact .inr ⟨value, by simp [handsAfter, opcode, held], by simp [floorAfter, opcode, held]⟩
  | bumpUp | bumpDown =>
    obtain ⟨tile, there⟩ :=
      exists_number met (by simp [demands, opcode]) (by simp [demands, opcode])
    obtain ⟨result, exact⟩ : ∃ result, result? instruction state = some result := by
      simp [result?, opcode, there]
    obtain ⟨value, computed⟩ := exists_computed met (by simp [demands, opcode]) exact
    exact .inr
      ⟨value, by simp [handsAfter, opcode, computed], by simp [floorAfter, opcode, computed]⟩
  | _ => exact .inl (by simp [floorAfter, opcode])

theorem isSome_lying_laid {floor : Floor} {other : Int} (tile : Option Int) (value : Value)
    (written : (lying floor other).isSome) :
    (lying (laid floor tile (some value)) other).isSome := by
  cases tile with
  | none => exact written
  | some tile =>
    unfold lying at written ⊢
    split at written
    · rename_i natural
      simp only [natural, if_true, laid, Array.getElem?_setIfInBounds]
      split
      · rename_i same
        split
        · rfl
        · rename_i outside
          simp [← same, Array.getElem?_eq_none (Nat.le_of_not_lt outside)] at written
      · exact written
    · cases written

theorem letter_of_handsAfter {char : Char}
    (held : handsAfter instruction state = some (.letter char)) :
    state.Holds char ∨
      instruction.opcode = .inbox ∧ state.inbox[state.cursor]? = some (.letter char) := by
  cases opcode : instruction.opcode with
  | inbox =>
    simp only [handsAfter, opcode] at held
    exact .inr ⟨rfl, held⟩
  | copyFrom =>
    simp only [handsAfter, opcode] at held
    obtain ⟨tile, _, lies⟩ := Option.bind_eq_some_iff.mp held
    exact .inl (.floor lies)
  | add | sub | bumpUp | bumpDown =>
    simp only [handsAfter, opcode] at held
    obtain ⟨_, _, other⟩ := Option.map_eq_some_iff.mp held
    cases other
  | _ =>
    simp only [handsAfter, opcode] at held
    exact .inl (.hands held)

/-- An instruction makes no letter: those that there are were there before, or one has just been
taken from the inbox. -/
theorem letter_of_after (met : Met config instruction state) {char : Char}
    (holds : (after instruction state pc).Holds char) :
    state.Holds char ∨
      instruction.opcode = .inbox ∧ state.inbox[state.cursor]? = some (.letter char) := by
  cases holds with
  | hands held => exact letter_of_handsAfter held
  | floor lies =>
    rcases floorAfter_cases met with same | ⟨value, held, laidOut⟩
    · rw [show (after instruction state pc).floor = state.floor from same] at lies
      exact .inl (.floor lies)
    · rw [show (after instruction state pc).floor = _ from laidOut] at lies
      rcases mem_laid (mem_tiles.mpr ⟨_, lies⟩) with before | same
      · obtain ⟨tile, lies⟩ := mem_tiles.mp before
        exact .inl (.floor lies)
      · exact letter_of_handsAfter (held.trans same)
  | outbox put =>
    simp only [after] at put
    split at put
    · rcases List.mem_append.mp put with before | new
      · exact .inl (.outbox before)
      · exact .inl (.hands (Option.mem_toList.mp new))
    · exact .inl (.outbox put)

end Spec

namespace State

variable {config : Config} {program : Program} {start between reached : State}
  {earlier later deeds : List Deed}

/-- What some deeds have left of the state that they started from: its inbox as a whole, its outbox
as the beginning of the new one, each written tile written. What they took and put they have
counted, and the letters that they have come from that state or from the part of the inbox that they
took. -/
structure Conserved (start : State) (deeds : List Deed) (reached : State) : Prop where
  inbox : reached.inbox = start.inbox
  taken : reached.cursor = start.cursor + Deed.tally .inbox deeds
  put : reached.outbox.length = start.outbox.length + Deed.tally .outbox deeds
  outbox : start.outbox <+: reached.outbox
  written : ∀ tile, (lying start.floor tile).isSome → (lying reached.floor tile).isSome
  letters : ∀ char, reached.Holds char → start.Holds char ∨
    ∃ place, start.cursor ≤ place ∧ place < reached.cursor ∧
      start.inbox[place]? = some (.letter char)

theorem Conserved.refl (state : State) : state.Conserved [] state where
  inbox := rfl
  taken := rfl
  put := rfl
  outbox := List.prefix_refl _
  written _ := id
  letters _ := .inl

theorem Conserved.trans (first : start.Conserved earlier between)
    (second : between.Conserved later reached) : start.Conserved (earlier ++ later) reached where
  inbox := second.inbox.trans first.inbox
  taken := by rw [second.taken, first.taken, Deed.tally_append, Nat.add_assoc]
  put := by rw [second.put, first.put, Deed.tally_append, Nat.add_assoc]
  outbox := first.outbox.trans second.outbox
  written tile before := second.written tile (first.written tile before)
  letters char holds := by
    have early := first.taken
    have late := second.taken
    rcases second.letters char holds with held | ⟨place, low, high, there⟩
    · rcases first.letters char held with atStart | ⟨place, low, high, there⟩
      · exact .inl atStart
      · exact .inr ⟨place, low, by omega, there⟩
    · exact .inr ⟨place, by omega, high, first.inbox ▸ there⟩

/-- One instruction keeps account with the state that it was carried out in. -/
theorem conserved_after {instruction : Instruction} {state : State} {pc : Int} {deed : Deed}
    (same : deed.instruction = instruction) (met : Spec.Met config instruction state) :
    state.Conserved [deed] (Spec.after instruction state pc) where
  inbox := rfl
  taken := by
    simp only [Deed.tally_singleton, same, Spec.after]
    split <;> rfl
  put := by
    simp only [Deed.tally_singleton, same, Spec.after]
    split
    · rename_i puts
      obtain ⟨value, held⟩ := Spec.exists_held met (by simp [Spec.demands, puts])
      simp [held]
    · rfl
  outbox := Spec.outbox_after instruction state pc
  written tile before := by
    rcases Spec.floorAfter_cases met with same | ⟨value, _, laidOut⟩
    · rwa [show (Spec.after instruction state pc).floor = state.floor from same]
    · rw [show (Spec.after instruction state pc).floor = _ from laidOut]
      exact Spec.isSome_lying_laid _ value before
  letters char holds := by
    rcases Spec.letter_of_after met holds with before | ⟨takes, there⟩
    · exact .inl before
    · exact .inr ⟨state.cursor, Nat.le_refl _, by simp [Spec.after, takes], there⟩

/-- Every state that a program comes to keeps account with the one that it started from. -/
theorem Does.conserved (does : start.Does config program deeds reached)
    (formed : program.Formed) : start.Conserved deeds reached := by
  induction does with
  | nothing state => exact .refl state
  | next found carried rest ih =>
    obtain ⟨met, _, rfl⟩ := Spec.outcome_eq_next.mp (outcome_of_carried formed found carried)
    exact (conserved_after rfl met).trans ih

end State

namespace Session

variable {machine : Machine} {first last : Session} {passed : List Session} {reason : Stop}

theorem step_does (machine : Machine) (session : Session) :
    ∃ deeds, session.state.Does machine.config machine.program deeds
      (session.step machine).1.state := by
  rcases step_state machine session with same | moved
  · rw [same]
    exact ⟨[], .nothing _⟩
  · obtain ⟨pc, instruction, found, _, carried⟩ := State.next_eq_ok moved
    exact ⟨_, .next found carried (.nothing _)⟩

/-- Whatever state a run passes through has been reached by some instructions. -/
theorem Run.does (course : Run machine first passed last reason) :
    ∀ visited ∈ passed ++ [last], ∃ deeds,
      first.state.Does machine.config machine.program deeds visited.state := by
  obtain ⟨atEnd, before⟩ := course.keeps
    (fun session => ∃ deeds,
      first.state.Does machine.config machine.program deeds session.state)
    ⟨[], .nothing _⟩ fun session ⟨deeds, does⟩ => by
      obtain ⟨further, onward⟩ := step_does machine session
      exact ⟨deeds ++ further, does.append onward⟩
  intro visited member
  rcases List.mem_append.mp member with earlier | latest
  · exact before visited earlier
  · exact List.mem_singleton.mp latest ▸ atEnd

/-- A run comes from each of its states to all that are behind it. -/
theorem Run.pairwise_does (course : Run machine first passed last reason) :
    (passed ++ [last]).Pairwise fun earlier later => ∃ deeds,
      earlier.state.Does machine.config machine.program deeds later.state := by
  induction course with
  | @stop first last _ stopped =>
    obtain ⟨deeds, does⟩ := step_does machine first
    rw [stopped] at does
    exact .cons (List.forall_mem_singleton.mpr ⟨deeds, does⟩) (List.pairwise_singleton _ _)
  | @step first next last passed _ moved rest ih =>
    refine .cons (fun later member => ?_) ih
    obtain ⟨deeds, does⟩ := step_does machine first
    rw [moved] at does
    obtain ⟨further, onward⟩ := rest.does later member
    exact ⟨deeds ++ further, does.append onward⟩

end Session

theorem Value.ofJson_eq_letter {raw : Json} {char : Char} :
    ofJson raw = .ok (.letter char) ↔ raw = .text [.scalar char] := by
  constructor
  · intro read
    unfold ofJson at read
    split at read
    · rename_i value
      unfold ofInt at read
      split at read <;> cases read
    · rename_i point
      cases point <;> cases read
      rfl
    · cases read
  · rintro rfl
    rfl

/-- What a state has to show for some deeds since the start of a run: the inbox as it was given, as
many values taken and put as there were instructions for it, and no letter but those that were laid
out on the floor or stood in the part of the inbox that was taken. -/
structure State.Accounts (layout : List (Int × Json)) (supply : List Json) (start : State)
    (deeds : List Deed) (reached : State) : Prop where
  inbox : reached.inbox = start.inbox
  taken : reached.cursor = Deed.tally .inbox deeds
  put : reached.outbox.length = Deed.tally .outbox deeds
  letters : ∀ char, reached.Holds char →
    (∃ tile, (tile, Json.text [.scalar char]) ∈ layout) ∨
      Json.text [.scalar char] ∈ supply.take reached.cursor

theorem State.Conserved.accounts {room : Nat} {config : Config} {layout : List (Int × Json)}
    {inbox : List Json} {start reached : State} {deeds : List Deed}
    (started : State.ofJson room config layout inbox = .ok start)
    (conserved : start.Conserved deeds reached) :
    start.Accounts layout inbox deeds reached := by
  obtain ⟨values, floor, taken, read, laid, filled, rfl⟩ := ofJson_eq_ok.mp started
  refine ⟨conserved.inbox, conserved.taken.trans (Nat.zero_add _),
    conserved.put.trans (Nat.zero_add _), fun char holds => ?_⟩
  rcases conserved.letters char holds with atStart | ⟨place, _, early, there⟩
  · left
    cases atStart with
    | hands held => cases held
    | @floor tile lies =>
      have member := Floor.mem_of_lying_layOut laid lies
      obtain ⟨⟨place, raw⟩, present, entry⟩ := (mem_of_mapM_eq_ok read).mp member
      obtain ⟨_, letter⟩ := entryOfJson_eq_ok.mp entry
      exact ⟨place, Value.ofJson_eq_letter.mp letter ▸ present⟩
    | outbox put => cases put
  · right
    have begun := mapM_eq_ok.mpr (List.forall₂_take reached.cursor (mapM_eq_ok.mp filled))
    have member : .letter char ∈ taken.take reached.cursor :=
      List.mem_of_getElem? ((List.getElem?_take_of_lt early).trans there)
    obtain ⟨raw, present, letter⟩ := (mem_of_mapM_eq_ok begun).mp member
    exact Value.ofJson_eq_letter.mp (mapError_eq_ok.mp letter) ▸ present

/-- A program that a text gives, run with nobody watching. Its run passes through states that it
reaches by some instructions, each of them from every one before it. Whatever state it reaches has
to show for the instructions since the start what they took, put and found there; and what it
reaches behind another has that one's outbox as its beginning and a value on each tile that was
written there. -/
theorem Program.execute_conserves {file text : String} {mnemonics : Mnemonics} {machine : Machine}
    (parsed : Program.parse file text mnemonics = .ok machine.program)
    {room : Nat} {layout : List (Int × Json)} {inbox : List Json} {start : State}
    (started : State.ofJson room machine.config layout inbox = .ok start) :
    (∃ passed last reason verdict,
      Session.Run machine (machine.session .empty start) passed last reason ∧
      (machine.session .empty start).execute machine = (last, .ok verdict) ∧
      (∀ visited ∈ passed ++ [last], ∃ deeds,
        start.Does machine.config machine.program deeds visited.state) ∧
      (passed ++ [last]).Pairwise fun earlier later => ∃ deeds,
        earlier.state.Does machine.config machine.program deeds later.state) ∧
    ∀ deeds before, start.Does machine.config machine.program deeds before →
      start.Accounts layout inbox deeds before ∧
      ∀ further reached, before.Does machine.config machine.program further reached →
        before.outbox <+: reached.outbox ∧
        ∀ tile, (lying before.floor tile).isSome → (lying reached.floor tile).isSome := by
  have formed := parse_formed parsed
  obtain ⟨sound, _⟩ := State.ofJson_sound started machine.program
  obtain ⟨passed, last, reason, verdict, course, _, executed⟩ := exists_judged_run parsed sound
  refine ⟨⟨passed, last, reason, verdict, course, executed, course.does, course.pairwise_does⟩,
    fun deeds before does => ⟨(does.conserved formed).accounts started, ?_⟩⟩
  intro further reached onward
  have conserved := onward.conserved formed
  exact ⟨conserved.outbox, conserved.written⟩

/-- One value is taken and put behind the one that lies on the floor. -/
private def pairedUp : Program where
  instructions := [⟨.inbox, none, none, none, some ⟨"<string>", 1, 1, "INBOX"⟩⟩,
    ⟨.copyTo, some ⟨1, false⟩, none, none, some ⟨"<string>", 2, 1, "COPYTO 1"⟩⟩,
    ⟨.copyFrom, some ⟨0, false⟩, none, none, some ⟨"<string>", 3, 1, "COPYFROM 0"⟩⟩,
    ⟨.outbox, none, none, none, some ⟨"<string>", 4, 1, "OUTBOX"⟩⟩,
    ⟨.copyFrom, some ⟨1, false⟩, none, none, some ⟨"<string>", 5, 1, "COPYFROM 1"⟩⟩,
    ⟨.outbox, none, none, none, some ⟨"<string>", 6, 1, "OUTBOX"⟩⟩]
  labels := .empty
  markers := []
  definitions := []
  location := some ⟨"<string>", 6, 7, "OUTBOX"⟩

/-- A letter from the floor and one from the inbox come out; the one that was not taken is nowhere
else. -/
theorem Program.execute_conserves_unread :
    Program.parse "<string>" "INBOX\nCOPYTO 1\nCOPYFROM 0\nOUTBOX\nCOPYFROM 1\nOUTBOX" .standard =
        .ok pairedUp ∧
      ∃ (machine : Machine) (start : State) (last : Session),
        machine = ⟨pairedUp, ⟨2, 999, 10, by decide, by decide⟩, false, none⟩ ∧
        State.ofJson 9 machine.config [(0, .text [.scalar 'z'])]
          [.text [.scalar 'x'], .text [.scalar 'y']] = .ok start ∧
        (machine.session .empty start).execute machine = (last, .ok ⟨6, none⟩) ∧
        last.state.outbox = [.letter 'z', .letter 'x'] ∧ last.state.inbox = start.inbox ∧
        last.state.cursor = 1 ∧ last.state.Holds 'z' ∧ ¬last.state.Holds 'y' := by
  have parsed : Program.parse "<string>"
      "INBOX\nCOPYTO 1\nCOPYFROM 0\nOUTBOX\nCOPYFROM 1\nOUTBOX" .standard = .ok pairedUp :=
    toOption_eq_some.mp (by decide +kernel)
  let machine : Machine := ⟨pairedUp, ⟨2, 999, 10, by decide, by decide⟩, false, none⟩
  have started : State.ofJson 9 machine.config [(0, .text [.scalar 'z'])]
      [.text [.scalar 'x'], .text [.scalar 'y']] =
        .ok (.initial ⟨#[some (.letter 'z'), none]⟩ [.letter 'x', .letter 'y']) := rfl
  obtain ⟨⟨passed, last, _, verdict, _, executed, reaches, _⟩, accounts⟩ :=
    @execute_conserves _ _ _ machine parsed _ _ _ _ started
  obtain ⟨deeds, does⟩ := reaches last (by simp)
  obtain ⟨shown, _⟩ := accounts deeds last.state does
  have judged : verdict = ⟨6, none⟩ :=
    Option.some.inj ((congrArg (·.2.toOption) executed).symm.trans (by decide +kernel))
  subst judged
  have put : last.state.outbox = [.letter 'z', .letter 'x'] := by
    rw [← congrArg (·.1.state.outbox) executed]
    decide +kernel
  have taken : last.state.cursor = 1 := by
    rw [← congrArg (·.1.state.cursor) executed]
    decide +kernel
  refine ⟨parsed, machine, _, last, rfl, started, executed, put, shown.inbox, taken,
    .outbox (by simp [put]), fun holds => ?_⟩
  have found := shown.letters 'y' holds
  rw [taken] at found
  simp at found

end MailRoom
