import MailRoom.Proofs.StepMeetsSpec

/-! Floors as they are laid out, and starts on them. Main statements: `Floor.lying_layOut`, by which
each tile holds the value that the layout gives it last, and `State.ofJson_eq_ok`, by which a start
from documents comes about when everything in them can be read and laid out. -/
namespace MailRoom

open Spec (OnFloor lying laid)

namespace Spec

theorem mem_tiles {floor : Floor} {value : Value} :
    some value ∈ floor.tiles ↔ ∃ tile, lying floor tile = some value := by
  rw [Array.mem_iff_getElem?]
  constructor
  · rintro ⟨place, there⟩
    exact ⟨place, by simp [lying, there]⟩
  · rintro ⟨tile, there⟩
    unfold lying at there
    split at there
    · exact ⟨tile.toNat, Option.join_eq_some_iff.mp there⟩
    · cases there

theorem lying_laid {floor : Floor} {tile : Int} (inside : OnFloor floor tile) (value : Value)
    (other : Int) :
    lying (laid floor (some tile) (some value)) other =
      if other = tile then some value else lying floor other := by
  obtain ⟨natural, small⟩ := inside
  by_cases same : other = tile
  · subst same
    have placed : other.toNat < floor.tiles.size := by simp only [Floor.size] at small; omega
    simp [lying, laid, natural, placed]
  · by_cases positive : 0 ≤ other
    · have apart : tile.toNat ≠ other.toNat := by omega
      simp [lying, laid, positive, same, apart]
    · simp [lying, positive, same]

end Spec

/-- Of several entries for a key the last one counts. -/
theorem lookup_reverse_cons {Key Content : Type} [DecidableEq Key] (entry : Key × Content)
    (rest : List (Key × Content)) (key : Key) :
    (entry :: rest).reverse.lookup key =
      (rest.reverse.lookup key).or (if key = entry.1 then some entry.2 else none) := by
  obtain ⟨present, content⟩ := entry
  rw [List.reverse_cons, List.lookup_append]
  congr 1
  by_cases hit : key = present
  · simp [hit]
  · simp [List.lookup_cons, beq_false_of_ne hit, hit]

namespace Floor

variable {floor written : Floor} {layout : List (Int × Value)}

theorem write_eq_ok {tile : Int} {value : Value} :
    floor.write tile value = .ok written ↔
      OnFloor floor tile ∧ written = laid floor (some tile) (some value) := by
  unfold write
  by_cases inside : OnFloor floor tile
  · obtain ⟨found, placed, rfl⟩ := Spec.place_onFloor inside
    simp [placed, Except.map, Spec.set_eq_laid, inside, eq_comm]
  · simp [Spec.place_offFloor inside, Except.map, inside]

theorem lying_write {tile : Int} {value : Value} (success : floor.write tile value = .ok written)
    (other : Int) :
    lying written other = if other = tile then some value else lying floor other := by
  obtain ⟨inside, rfl⟩ := write_eq_ok.mp success
  exact Spec.lying_laid inside value other

theorem size_write {tile : Int} {value : Value} (success : floor.write tile value = .ok written) :
    written.size = floor.size := by
  obtain ⟨_, rfl⟩ := write_eq_ok.mp success
  simp [laid, size]

/-- After some writes a tile holds the last of them to it, or what it held before. -/
theorem lying_writeAll (success : floor.writeAll layout = .ok written) :
    written.size = floor.size ∧
      ∀ tile, lying written tile = (layout.reverse.lookup tile).or (lying floor tile) := by
  unfold writeAll at success
  induction layout generalizing floor with
  | nil =>
    cases success
    exact ⟨rfl, fun _ => rfl⟩
  | cons entry rest ih =>
    obtain ⟨place, value⟩ := entry
    obtain ⟨between, first, further⟩ := bind_eq_ok.mp success
    obtain ⟨same, later⟩ := ih further
    refine ⟨same.trans (size_write first), fun tile => ?_⟩
    rw [later, lying_write first, lookup_reverse_cons, Option.or_assoc]
    congr 1
    split <;> rfl

/-- A floor of this size has an address for each tile and memory for all of them. -/
structure Fits (room : Nat) (size : Int) : Prop where
  addresses : tileWidth * size ≤ maxIndex
  memory : size ≤ room

variable {room : Nat} {size : Int}

theorem ofSize_eq_ok : ofSize room size = .ok floor ↔
    0 ≤ size ∧ Fits room size ∧ floor = ⟨Array.replicate size.toNat none⟩ := by
  unfold ofSize
  by_cases negative : size < 0
  · simp [negative, Int.not_le.mpr negative]
  by_cases addresses : maxIndex < tileWidth * size
  · have refused : ¬Fits room size := fun fits => Int.not_lt.mpr fits.addresses addresses
    simp only [negative, addresses, refused, if_true, if_false]
    split <;> simp
  have indices : ¬maxIndex < size := by
    simp only [maxIndex, tileWidth] at addresses ⊢
    omega
  by_cases memory : room < size
  · have refused : ¬Fits room size := fun fits => Int.not_lt.mpr fits.memory memory
    simp [refused, negative, indices, addresses, memory]
  · have fits : Fits room size := ⟨Int.not_lt.mp addresses, Int.not_lt.mp memory⟩
    simp [fits, negative, indices, addresses, memory, Int.not_lt.mp negative, eq_comm]

theorem layOut_eq_ok : layOut room size layout = .ok written ↔
    ∃ bare, ofSize room size = .ok bare ∧ bare.writeAll layout = .ok written := by
  simp only [layOut, bind_eq_ok, mapError_eq_ok]

theorem size_layOut (success : layOut room size layout = .ok floor) :
    (floor.size : Int) = size := by
  obtain ⟨bare, made, wrote⟩ := layOut_eq_ok.mp success
  obtain ⟨natural, _, rfl⟩ := ofSize_eq_ok.mp made
  rw [(lying_writeAll wrote).1]
  simpa [Floor.size] using Int.max_eq_left natural

theorem lying_layOut (success : layOut room size layout = .ok floor) (tile : Int) :
    lying floor tile = layout.reverse.lookup tile := by
  obtain ⟨bare, made, wrote⟩ := layOut_eq_ok.mp success
  obtain ⟨_, _, rfl⟩ := ofSize_eq_ok.mp made
  have empty : lying ⟨Array.replicate size.toNat none⟩ tile = none := by
    simp only [lying, Array.getElem?_replicate]
    split
    · split <;> rfl
    · rfl
  rw [(lying_writeAll wrote).2, empty, Option.or_none]

theorem mem_of_lying_layOut (success : layOut room size layout = .ok floor) {tile : Int}
    {value : Value} (there : lying floor tile = some value) : (tile, value) ∈ layout := by
  rw [lying_layOut success] at there
  obtain ⟨before, behind, parts, _⟩ := List.lookup_eq_some_iff.mp there
  exact List.mem_reverse.mp (parts ▸ by simp)

theorem ascending_snapshot (floor : Floor) :
    floor.snapshot.Pairwise fun first second => first.1 < second.1 := by
  rw [snapshot, List.pairwise_filterMap]
  refine (List.pairwise_lt_finRange _).imp fun {first second} before => ?_
  simp only [Option.map_eq_some_iff]
  rintro _ ⟨_, _, rfl⟩ _ ⟨_, _, rfl⟩
  exact before

theorem mem_snapshot {tile : Nat} {value : Value} :
    (tile, value) ∈ floor.snapshot ↔ lying floor tile = some value := by
  simp only [snapshot, List.mem_filterMap, List.mem_finRange, true_and, Option.map_eq_some_iff,
    Prod.mk.injEq]
  constructor
  · rintro ⟨place, _, there, rfl, rfl⟩
    exact (Spec.lying_val place).trans there
  · intro there
    have small : tile < floor.size := by
      by_contra outside
      simp [lying, Array.getElem?_eq_none (Nat.le_of_not_lt outside)] at there
    exact ⟨⟨tile, small⟩, value, (Spec.lying_val ⟨tile, small⟩).symm.trans there, rfl, rfl⟩

theorem lying_of_mem_layOut (success : layOut room size layout = .ok floor)
    (distinct : (layout.map Prod.fst).Nodup) {tile : Int} {value : Value}
    (member : (tile, value) ∈ layout) : lying floor tile = some value := by
  have reversed : (layout.reverse.map Prod.fst).Nodup := by
    rw [List.map_reverse]
    exact List.pairwise_reverse.mpr (distinct.imp Ne.symm)
  rw [lying_layOut success]
  exact (@Table.find?_eq_some _ _ _ ⟨layout.reverse, reversed⟩ _ _).mpr
    (List.mem_reverse.mpr member)

end Floor

namespace State

/-- One entry of a layout as it is read at a start. -/
def entryOfJson (entry : Int × Json) : Except StartError (Int × Value) :=
  ((Value.ofJson entry.2).map (entry.1, ·)).mapError .value

theorem entryOfJson_eq_ok {entry : Int × Json} {read : Int × Value} :
    entryOfJson entry = .ok read ↔ read.1 = entry.1 ∧ Value.ofJson entry.2 = .ok read.2 := by
  obtain ⟨tile, value⟩ := read
  unfold entryOfJson
  rw [mapError_eq_ok, map_eq_ok]
  constructor
  · rintro ⟨value, found, same⟩
    cases same
    exact ⟨rfl, found⟩
  · rintro ⟨rfl, found⟩
    exact ⟨value, found, rfl⟩

theorem ofJson_eq (room : Nat) (config : Config) (layout : List (Int × Json)) (inbox : List Json) :
    ofJson room config layout inbox = (do
      let values ← layout.mapM entryOfJson
      let floor ← (Floor.layOut room config.floorSize values).mapError .floor
      let inbox ← inbox.mapM fun raw => (Value.ofJson raw).mapError .value
      return initial floor inbox) := rfl

theorem ofJson_eq_ok {room : Nat} {config : Config} {layout : List (Int × Json)}
    {inbox : List Json} {start : State} :
    ofJson room config layout inbox = .ok start ↔ ∃ values floor taken,
      layout.mapM entryOfJson = .ok values ∧
        Floor.layOut room config.floorSize values = .ok floor ∧
        (inbox.mapM fun raw => (Value.ofJson raw).mapError StartError.value) = .ok taken ∧
        start = .initial floor taken := by
  rw [ofJson_eq]
  constructor
  · intro started
    obtain ⟨values, read, started⟩ := bind_eq_ok.mp started
    obtain ⟨floor, laid, started⟩ := bind_eq_ok.mp started
    obtain ⟨taken, filled, started⟩ := bind_eq_ok.mp started
    cases started
    exact ⟨values, floor, taken, read, mapError_eq_ok.mp laid, filled, rfl⟩
  · rintro ⟨values, floor, taken, read, laid, filled, rfl⟩
    exact bind_eq_ok.mpr ⟨values, read, bind_eq_ok.mpr ⟨floor, mapError_eq_ok.mpr laid,
      bind_eq_ok.mpr ⟨taken, filled, rfl⟩⟩⟩

end State

end MailRoom
