import MailRoom.Proofs.Layout

/-! What is asked of a floor and written on it, in any order and as often as one likes. Main
statement: `Floor.keeps_last_written`, by which each tile holds what was last written on it and
every answer is the one that a ledger of the writes would give. -/
namespace MailRoom

open Spec (OnFloor lying laid)

namespace Floor

/-- What can be asked of a floor. -/
inductive Command where
  | peek (tile : Int)
  | read (tile : Int)
  | write (tile : Int) (value : Value)
  | resolve (address : Address)
  | snapshot
  deriving DecidableEq

namespace Command

/-- The tile that a command names. -/
def tile? : Command → Option Int
  | peek tile | read tile | write tile _ => some tile
  | resolve address => some address.tile
  | snapshot => none

end Command

inductive Answer where
  | content (content : Option Value)
  | value (value : Value)
  | written
  | place (tile : Int)
  | entries (entries : List (Nat × Value))
  deriving DecidableEq

/-- The answer to a command, and the floor behind it. -/
def obey (floor : Floor) : Command → Except Fault Answer × Floor
  | .peek tile => ((floor.peek tile).map .content, floor)
  | .read tile => ((floor.read tile).map .value, floor)
  | .write tile value =>
    match floor.write tile value with
    | .ok written => (.ok .written, written)
    | .error fault => (.error fault, floor)
  | .resolve address => ((floor.resolve address).map fun tile => .place tile.val, floor)
  | .snapshot => (.ok (.entries floor.snapshot), floor)

structure Exchange where
  command : Command
  answer : Except Fault Answer

/-- What has been written, if the command was to write and has been obeyed. -/
def Exchange.written? (exchange : Exchange) : Option (Int × Value) :=
  match exchange.command, exchange.answer with
  | .write tile value, .ok _ => some (tile, value)
  | _, _ => none

/-- Commands one after the other; what fails does not keep the next one from being obeyed. -/
def obeyAll (floor : Floor) : List Command → List Exchange × Floor
  | [] => ([], floor)
  | command :: rest =>
    let (answer, next) := floor.obey command
    let (exchanges, last) := next.obeyAll rest
    (⟨command, answer⟩ :: exchanges, last)

/-- What has been written on a floor of so many tiles, in order. -/
structure Ledger where
  size : Nat
  writes : List (Int × Value)

namespace Ledger

variable (ledger : Ledger)

/-- The value that was last written on a tile. -/
def last (tile : Int) : Option Value := ledger.writes.reverse.lookup tile

/-- An answer about a tile, if there is such a tile. -/
def about (tile : Int) (answer : Except Fault α) : Except Fault α :=
  if 0 ≤ tile ∧ tile < ledger.size then answer else .error (.outsideFloor tile ledger.size)

/-- The tiles that have been written on, in ascending order. -/
def entries : List (Nat × Value) :=
  (List.range ledger.size).filterMap fun tile : Nat =>
    (ledger.last tile).map fun value => (tile, value)

/-- What a command is to be answered, as far as one can tell from the ledger. -/
def answer : Command → Except Fault Answer
  | .peek tile => ledger.about tile (.ok (.content (ledger.last tile)))
  | .read tile => ledger.about tile <|
    match ledger.last tile with
    | some value => .ok (.value value)
    | none => .error (.unwrittenTile tile)
  | .write tile _ => ledger.about tile (.ok .written)
  | .resolve ⟨tile, false⟩ => ledger.about tile (.ok (.place tile))
  | .resolve ⟨tile, true⟩ => ledger.about tile <|
    match ledger.last tile with
    | some (.number pointer) => ledger.about pointer.val (.ok (.place pointer.val))
    | some (.letter char) => .error (.pointerLetter tile char)
    | none => .error (.unwrittenPointer tile)
  | .snapshot => .ok (.entries ledger.entries)

def enter (exchanges : List Exchange) : Ledger :=
  { ledger with writes := ledger.writes ++ exchanges.filterMap Exchange.written? }

variable {ledger} {tile : Int}

theorem about_inside {answer : Except Fault α} (inside : 0 ≤ tile ∧ tile < ledger.size) :
    ledger.about tile answer = answer := if_pos inside

theorem about_outside {answer : Except Fault α} (outside : ¬(0 ≤ tile ∧ tile < ledger.size)) :
    ledger.about tile answer = .error (.outsideFloor tile ledger.size) := if_neg outside

theorem about_eq_ok {answer : Except Fault α} {value : α} :
    ledger.about tile answer = .ok value ↔
      (0 ≤ tile ∧ tile < ledger.size) ∧ answer = .ok value := by
  unfold about
  split
  · rename_i inside
    exact (and_iff_right inside).symm
  · rename_i outside
    simp [outside]

theorem answer_outside {command : Command} (named : command.tile? = some tile)
    (outside : ¬(0 ≤ tile ∧ tile < ledger.size)) :
    ledger.answer command = .error (.outsideFloor tile ledger.size) := by
  cases command with
  | snapshot => cases named
  | resolve address =>
    obtain ⟨present, indirect⟩ := address
    cases named
    cases indirect <;> exact about_outside outside
  | _ =>
    cases named
    exact about_outside outside

/-- An address is only ever resolved to a tile that there is. -/
theorem inside_of_place {command : Command} (found : ledger.answer command = .ok (.place tile)) :
    0 ≤ tile ∧ tile < ledger.size := by
  cases command with
  | resolve address =>
    obtain ⟨named, indirect⟩ := address
    cases indirect with
    | false =>
      obtain ⟨inside, same⟩ := about_eq_ok.mp found
      cases same
      exact inside
    | true =>
      obtain ⟨_, leads⟩ := about_eq_ok.mp found
      split at leads
      · obtain ⟨inside, same⟩ := about_eq_ok.mp leads
        cases same
        exact inside
      · cases leads
      · cases leads
  | read named =>
    obtain ⟨_, found⟩ := about_eq_ok.mp found
    split at found <;> cases found
  | snapshot => cases found
  | _ => cases (about_eq_ok.mp found).2

theorem last_enter (written other : Int) (value : Value) (answer : Answer) :
    (ledger.enter [⟨.write written value, .ok answer⟩]).last other =
      if other = written then some value else ledger.last other := by
  have entered : ledger.enter [⟨.write written value, .ok answer⟩] =
      ⟨ledger.size, ledger.writes ++ [(written, value)]⟩ := rfl
  rw [entered, last, List.reverse_append, List.reverse_singleton, List.singleton_append]
  by_cases same : other = written
  · simp [same]
  · simp [last, List.lookup_cons, beq_false_of_ne same, same]

theorem enter_enter (earlier later : List Exchange) :
    (ledger.enter earlier).enter later = ledger.enter (earlier ++ later) := by
  simp only [enter, List.filterMap_append, List.append_assoc]

end Ledger

/-- A floor on which lies what the ledger says. -/
structure Keeps (floor : Floor) (ledger : Ledger) : Prop where
  size : floor.size = ledger.size
  tiles : ∀ tile, lying floor tile = ledger.last tile

namespace Keeps

variable {floor : Floor} {ledger : Ledger} (keeps : floor.Keeps ledger)
include keeps

theorem onFloor_iff {tile : Int} : OnFloor floor tile ↔ 0 ≤ tile ∧ tile < ledger.size := by
  rw [OnFloor, keeps.size]

theorem enter_nothing {exchanges : List Exchange}
    (kept : exchanges.filterMap Exchange.written? = []) : floor.Keeps (ledger.enter exchanges) := by
  rw [Ledger.enter, kept, List.append_nil]
  exact keeps

theorem place_eq (tile : Int) :
    (floor.place tile).map (fun found => Answer.place found.val) =
      ledger.about tile (.ok (.place tile)) := by
  by_cases inside : OnFloor floor tile
  · obtain ⟨found, placed, same⟩ := Spec.place_onFloor inside
    rw [placed, Ledger.about_inside (keeps.onFloor_iff.mp inside), Except.map, same]
  · rw [Spec.place_offFloor inside, Ledger.about_outside (mt keeps.onFloor_iff.mpr inside),
      Except.map, keeps.size]

theorem peek_eq (tile : Int) : floor.peek tile = ledger.about tile (.ok (ledger.last tile)) := by
  by_cases inside : OnFloor floor tile
  · rw [Spec.peek_onFloor inside, Ledger.about_inside (keeps.onFloor_iff.mp inside), keeps.tiles]
  · rw [peek, Spec.place_offFloor inside, Ledger.about_outside (mt keeps.onFloor_iff.mpr inside),
      Except.map, keeps.size]

theorem snapshot_eq : floor.snapshot = ledger.entries := by
  rw [snapshot, Ledger.entries, ← keeps.size, ← List.map_coe_finRange_eq_range, List.filterMap_map]
  refine List.filterMap_congr fun tile _ => ?_
  rw [Function.comp_apply, ← keeps.tiles, Spec.lying_val]

theorem peek_answer (tile : Int) :
    (floor.peek tile).map .content = ledger.answer (.peek tile) := by
  rw [keeps.peek_eq, Ledger.answer, Ledger.about, Ledger.about]
  split <;> rfl

theorem read_answer (tile : Int) : (floor.read tile).map .value = ledger.answer (.read tile) := by
  simp only [read, keeps.peek_eq, Ledger.answer]
  by_cases inside : 0 ≤ tile ∧ tile < ledger.size
  · rw [Ledger.about_inside inside, Ledger.about_inside inside]
    cases ledger.last tile <;> rfl
  · rw [Ledger.about_outside inside, Ledger.about_outside inside]
    rfl

theorem resolve_answer (address : Address) :
    ((floor.resolve address).map fun found => Answer.place found.val) =
      ledger.answer (.resolve address) := by
  obtain ⟨tile, indirect⟩ := address
  cases indirect with
  | false => exact keeps.place_eq tile
  | true =>
    simp only [resolve, keeps.peek_eq, Ledger.answer, if_true]
    by_cases inside : 0 ≤ tile ∧ tile < ledger.size
    · rw [Ledger.about_inside inside, Ledger.about_inside inside]
      cases ledger.last tile with
      | none => rfl
      | some value =>
        cases value with
        | letter char => rfl
        | number pointer => exact keeps.place_eq pointer.val
    · rw [Ledger.about_outside inside, Ledger.about_outside inside]
      rfl

/-- What is written on a tile is entered; where there is no such tile, nothing is. -/
theorem obey_write (tile : Int) (value : Value) :
    (floor.obey (.write tile value)).1 = ledger.answer (.write tile value) ∧
      (floor.obey (.write tile value)).2.Keeps
        (ledger.enter [⟨.write tile value, (floor.obey (.write tile value)).1⟩]) := by
  by_cases inside : OnFloor floor tile
  · have written : floor.write tile value = .ok (laid floor (some tile) (some value)) :=
      write_eq_ok.mpr ⟨inside, rfl⟩
    rw [Ledger.answer, Ledger.about_inside (keeps.onFloor_iff.mp inside)]
    simp only [obey, written]
    refine ⟨trivial, (size_write written).trans keeps.size, fun other => ?_⟩
    rw [lying_write written, keeps.tiles, Ledger.last_enter]
  · have refused : floor.write tile value = .error (.outsideFloor tile ledger.size) := by
      rw [write, Spec.place_offFloor inside, Except.map, keeps.size]
    rw [Ledger.answer, Ledger.about_outside (mt keeps.onFloor_iff.mpr inside)]
    simp only [obey, refused]
    exact ⟨trivial, keeps.enter_nothing rfl⟩

/-- A command is answered as the ledger says, and what it writes is entered. -/
theorem obey_answer (command : Command) : (floor.obey command).1 = ledger.answer command ∧
    (floor.obey command).2.Keeps (ledger.enter [⟨command, (floor.obey command).1⟩]) := by
  cases command with
  | peek tile => exact ⟨keeps.peek_answer tile, keeps.enter_nothing rfl⟩
  | read tile => exact ⟨keeps.read_answer tile, keeps.enter_nothing rfl⟩
  | write tile value => exact keeps.obey_write tile value
  | resolve address => exact ⟨keeps.resolve_answer address, keeps.enter_nothing rfl⟩
  | snapshot =>
    have entries := congrArg Answer.entries keeps.snapshot_eq
    exact ⟨congrArg Except.ok entries, keeps.enter_nothing rfl⟩

/-- What commands have written comes behind what was there before. -/
theorem obeyAll (commands : List Command) :
    (floor.obeyAll commands).2.Keeps (ledger.enter (floor.obeyAll commands).1) := by
  induction commands generalizing floor ledger with
  | nil => exact keeps.enter_nothing rfl
  | cons command rest ih =>
    have further := ih (keeps.obey_answer command).2
    rwa [Ledger.enter_enter] at further

end Keeps

theorem keeps_layOut {room size : Nat} {layout : List (Int × Value)} {floor : Floor}
    (success : layOut room size layout = .ok floor) : floor.Keeps ⟨size, layout⟩ where
  size := Int.ofNat_inj.mp (size_layOut success)
  tiles := lying_layOut success

theorem obey_of_error {floor : Floor} {command : Command} {fault : Fault}
    (failed : (floor.obey command).1 = .error fault) : (floor.obey command).2 = floor := by
  cases command with
  | write tile value =>
    simp only [obey] at failed ⊢
    split at failed
    · cases failed
    · rfl
  | _ => rfl

/-- A floor that has been laid out and then asked and written on, whether or not each command could
be obeyed. Each tile holds what was last written on it, the layout coming first, and nothing if it
has not been written on; the snapshot has the written tiles in ascending order. Whatever comes next
is answered as the writes would have it: a command that names a tile beyond the floor fails, one
that fails leaves the floor as it was, and an address is only ever resolved to a tile of the floor.
-/
theorem keeps_last_written {room size : Nat} {layout : List (Int × Value)} {floor after : Floor}
    {commands : List Command} {exchanges : List Exchange}
    (success : layOut room size layout = .ok floor)
    (obeyed : floor.obeyAll commands = (exchanges, after)) :
    after.size = size ∧
    (∀ tile : Int, 0 ≤ tile → tile < size →
      after.peek tile = .ok ((Ledger.enter ⟨size, layout⟩ exchanges).last tile)) ∧
    (after.snapshot.Pairwise fun first second => first.1 < second.1) ∧
    (∀ tile value, (tile, value) ∈ after.snapshot ↔
      (Ledger.enter ⟨size, layout⟩ exchanges).last tile = some value) ∧
    ∀ command,
      (after.obey command).1 = (Ledger.enter ⟨size, layout⟩ exchanges).answer command ∧
      (∀ tile, command.tile? = some tile → ¬(0 ≤ tile ∧ tile < size) →
        (after.obey command).1 = .error (.outsideFloor tile size)) ∧
      (∀ fault, (after.obey command).1 = .error fault → (after.obey command).2 = after) ∧
      ∀ tile, (after.obey command).1 = .ok (.place tile) → 0 ≤ tile ∧ tile < size := by
  -- All of it is read off the floor that keeps what the ledger says.
  have keeps := (keeps_layOut success).obeyAll commands
  rw [obeyed] at keeps
  refine ⟨keeps.size, fun tile natural small => ?_, after.ascending_snapshot, fun tile value => ?_,
    fun command => ?_⟩
  · rw [keeps.peek_eq]
    exact Ledger.about_inside ⟨natural, small⟩
  · rw [mem_snapshot, keeps.tiles]
  · have answered := (keeps.obey_answer command).1
    refine ⟨answered, fun tile named outside => ?_, fun fault => obey_of_error,
      fun tile found => ?_⟩
    · rw [answered]
      exact Ledger.answer_outside named outside
    · exact Ledger.inside_of_place (answered.symm.trans found)

/-- Writes beyond either end of the floor, pointers that are rewritten between two uses, and one
that points in front of the floor. -/
theorem keeps_last_written_pointers : ∃ (floor after : Floor) (exchanges : List Exchange)
      (two minus : Value),
    two.text = "2" ∧ minus.text = "-1" ∧
    layOut 9 3 [(0, two), (2, .letter 'x')] = .ok floor ∧
    floor.obeyAll [.resolve ⟨0, true⟩, .write (-1) two, .write 1 minus, .write 3 two,
      .write 0 minus, .resolve ⟨0, true⟩, .read 2] = (exchanges, after) ∧
    exchanges.filterMap Exchange.written? = [(1, minus), (0, minus)] ∧
    after.peek 0 = .ok (some minus) ∧ after.snapshot.length = 3 ∧
    (after.obey (.resolve ⟨0, true⟩)).1 = .error (.outsideFloor (-1) 3) ∧
    (after.obey (.resolve ⟨2, true⟩)).1 = .error (.pointerLetter 2 'x') ∧
    (after.obey (.write (-1) two)).1 = .error (.outsideFloor (-1) 3) ∧
    (after.obey (.write (-1) two)).2 = after := by
  let two : Value := .number ⟨2, by decide, by decide⟩
  let minus : Value := .number ⟨-1, by decide, by decide⟩
  obtain ⟨_, peeked, _, _, answers⟩ := @keeps_last_written 9 3 [(0, two), (2, .letter 'x')] _ _
    [.resolve ⟨0, true⟩, .write (-1) two, .write 1 minus, .write 3 two, .write 0 minus,
      .resolve ⟨0, true⟩, .read 2] _ rfl rfl
  obtain ⟨_, beyond, intact, _⟩ := answers (.write (-1) two)
  have refused := beyond (-1) rfl (by decide)
  exact ⟨_, _, _, two, minus, rfl, rfl, rfl, rfl, rfl, peeked 0 (by decide) (by decide), rfl,
    (answers (.resolve ⟨0, true⟩)).1, (answers (.resolve ⟨2, true⟩)).1, refused,
    intact _ refused⟩

end Floor

end MailRoom
