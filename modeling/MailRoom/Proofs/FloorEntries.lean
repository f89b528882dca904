import MailRoom.Proofs.Admission
import Mathlib.Data.List.Nodup
import Mathlib.Data.List.Perm.Subperm

/-! What becomes of the entries of a floor document. Main statement: `Level.floor_last_entry`, by
which a tile has the value of the last entry for it, so that an entry is lost exactly if a later one
states another value for the same tile, however that tile is spelled. -/
namespace MailRoom

namespace Table

variable {Key Content : Type} [DecidableEq Key] {pairs : List (Key × Content)}

theorem find?_foldl (pairs : List (Key × Content)) (table : Table Key Content) (key : Key) :
    (pairs.foldl (fun table (key, content) => table.insert key content) table).find? key =
      (pairs.reverse.lookup key).or (table.find? key) := by
  induction pairs generalizing table with
  | nil => rfl
  | cons pair rest ih =>
    obtain ⟨present, content⟩ := pair
    rw [List.foldl_cons, ih, find?_insert, lookup_reverse_cons, Option.or_assoc]
    congr 1
    split <;> rfl

/-- A key has the content of the last entry for it. -/
theorem find?_ofList {key : Key} {content : Content} :
    (ofList pairs).find? key = some content ↔
      ∃ before after, pairs = before ++ (key, content) :: after ∧ ∀ pair ∈ after, pair.1 ≠ key := by
  rw [ofList, find?_foldl, find?_empty, Option.or_none, List.lookup_eq_some_iff]
  constructor
  · rintro ⟨after, before, split, others⟩
    refine ⟨before.reverse, after.reverse, ?_, fun pair member same => ?_⟩
    · simpa using congrArg List.reverse split
    · exact bne_iff_ne.mp (others pair (List.mem_reverse.mp member)) same.symm
  · rintro ⟨before, after, rfl, others⟩
    refine ⟨after.reverse, before.reverse, by simp, fun pair member => ?_⟩
    exact bne_iff_ne.mpr (others pair (List.mem_reverse.mp member)).symm

theorem mem_keys_insert {table : Table Key Content} {key other : Key} {content : Content} :
    other ∈ (table.insert key content).keys ↔ other ∈ table.keys ∨ other = key := by
  rw [keys_insert]
  split
  · rename_i present
    exact ⟨.inl, fun either => either.elim id fun same => same ▸ present⟩
  · simp

theorem mem_keys_ofList {key : Key} : key ∈ (ofList pairs).keys ↔ key ∈ pairs.map Prod.fst := by
  suffices general : ∀ table : Table Key Content,
      key ∈ (pairs.foldl (fun table (key, content) => table.insert key content) table).keys ↔
        key ∈ table.keys ∨ key ∈ pairs.map Prod.fst by
    simpa [ofList, keys, empty] using general empty
  induction pairs with
  | nil => simp
  | cons pair rest ih =>
    intro table
    rw [List.foldl_cons, ih, mem_keys_insert, List.map_cons, List.mem_cons, or_assoc]

theorem length_ofList : (ofList pairs).entries.length = pairs.length ↔ (pairs.map Prod.fst).Nodup := by
  constructor
  · intro same
    have inside : (ofList pairs).keys ⊆ pairs.map Prod.fst := fun key => mem_keys_ofList.mp
    have all : (ofList pairs).keys.Perm (pairs.map Prod.fst) :=
      ((ofList pairs).distinct.subperm inside).perm_of_length_le (by simp [same])
    exact all.nodup_iff.mp (ofList pairs).distinct
  · intro distinct
    rw [entries_ofList distinct]

end Table

theorem forall₂_split {α β : Type} {R : α → β → Prop} {items : List α} {before after : List β}
    {value : β} (each : List.Forall₂ R items (before ++ value :: after)) :
    ∃ earlier item later, items = earlier ++ item :: later ∧ R item value ∧
      List.Forall₂ R later after := by
  obtain ⟨item, later, related, further, split⟩ :=
    List.forall₂_cons_right_iff.mp (List.forall₂_drop_append items before (value :: after) each)
  exact ⟨items.take before.length, item, later, by rw [← split, List.take_append_drop], related,
    further⟩

namespace Level

namespace Document

variable {entries : List (Text × Json)} {layout : List (Int × Value)} {entry : Text × Json}
  {laid other : Int × Value} {tile : Int} {value : Value}

theorem Lays.unique (first : Lays entry laid) (second : Lays entry other) : laid = other := by
  have tile := first.tile.symm.trans second.tile
  have value := (Value.ofJson_eq_ok.mpr first.value).symm.trans (Value.ofJson_eq_ok.mpr second.value)
  exact Prod.ext (Except.ok.inj tile) (Except.ok.inj value)

section Layout

variable (each : List.Forall₂ Lays entries layout)
include each

theorem tiles_laid :
    entries.map (fun entry => Numeral.read entry.1) = layout.map fun laid => .ok laid.1 := by
  induction each with
  | nil => rfl
  | cons lays further ih => rw [List.map_cons, List.map_cons, lays.tile, ih]

theorem none_laid : (∀ entry ∈ entries, Numeral.read entry.1 ≠ .ok tile) ↔
    ∀ laid ∈ layout, laid.1 ≠ tile := by
  induction each with
  | nil => simp
  | cons lays further ih => simp only [List.forall_mem_cons, lays.tile, ih, ne_eq, Except.ok.injEq]

theorem mem_laid (member : entry ∈ entries) : ∃ laid ∈ layout, Lays entry laid := by
  obtain ⟨earlier, later, rfl⟩ := List.append_of_mem member
  obtain ⟨before, laid, after, rfl, lays, _⟩ := forall₂_split each.flip
  exact ⟨laid, List.mem_append_right _ List.mem_cons_self, lays⟩

theorem find?_laid : (Table.ofList layout).find? tile = some value ↔
    ∃ before entry after, entries = before ++ entry :: after ∧ Lays entry (tile, value) ∧
      ∀ later ∈ after, Numeral.read later.1 ≠ .ok tile := by
  rw [Table.find?_ofList]
  constructor
  · rintro ⟨before, after, rfl, others⟩
    obtain ⟨earlier, entry, later, rfl, lays, further⟩ := forall₂_split each
    exact ⟨earlier, entry, later, rfl, lays, (none_laid further).mpr others⟩
  · rintro ⟨earlier, entry, later, rfl, lays, others⟩
    obtain ⟨before, laid, after, rfl, same, further⟩ := forall₂_split each.flip
    obtain rfl := Lays.unique lays same
    exact ⟨before, after, rfl, (none_laid further.flip).mp others⟩

/-- No entry is lost if those for one tile state the same value. -/
theorem kept_laid : (∀ entry ∈ entries, ∀ laid, Lays entry laid →
      (Table.ofList layout).find? laid.1 = some laid.2) ↔
    ∀ first ∈ entries, ∀ second ∈ entries, ∀ laid other, Lays first laid → Lays second other →
      laid.1 = other.1 → laid.2 = other.2 := by
  constructor
  · intro kept first here second there laid other lays lays' same
    have found := kept first here laid lays
    rw [same, kept second there other lays'] at found
    exact (Option.some.inj found).symm
  · intro agree entry member laid lays
    obtain ⟨same, present, lays'⟩ := mem_laid each member
    obtain rfl := lays.unique lays'
    have named : laid.1 ∈ (Table.ofList layout).keys :=
      Table.mem_keys_ofList.mpr (List.mem_map_of_mem present)
    obtain ⟨⟨_, value⟩, entered, rfl⟩ := List.mem_map.mp named
    have found := Table.find?_eq_some.mpr entered
    obtain ⟨_, last, _, rfl, counts, _⟩ := (find?_laid each).mp found
    have same : value = laid.2 :=
      agree last (by simp) entry member (laid.1, value) laid counts lays rfl
    rw [found, same]

end Layout

end Document

/-- The floor of a level is what its document lays out. -/
theorem exists_layout {depth : Nat} {standardName : Text} {members : Document.Members}
    {level : Level} {entries : List (Text × Json)}
    (made : ofDocument depth standardName members = .ok level)
    (present : Json.field? "floor" members = some (.object entries)) :
    ∃ layout, List.Forall₂ Document.Lays entries layout ∧ level.floor = .ofList layout := by
  have paves := (describedBy_of_ofDocument made).floor
  rw [present] at paves
  generalize level.floor = floor at paves ⊢
  cases paves with
  | entries each => exact ⟨_, each, rfl⟩

/-- The floor of a level that a document makes. Every entry names a tile and states a value, and
each tile has the value of the last entry for it. So there are as many tiles as entries exactly if
no tile is named twice, and no entry is lost exactly if those for one tile state the same value. -/
theorem floor_last_entry {depth : Nat} {standardName : Text} {members : Document.Members}
    {level : Level} {entries : List (Text × Json)}
    (made : ofDocument depth standardName members = .ok level)
    (present : Json.field? "floor" members = some (.object entries)) :
    (∀ entry ∈ entries, ∃ laid, Document.Lays entry laid) ∧
    (∀ tile value, level.floor.find? tile = some value ↔
      ∃ before entry after, entries = before ++ entry :: after ∧
        Document.Lays entry (tile, value) ∧ ∀ later ∈ after, Numeral.read later.1 ≠ .ok tile) ∧
    (level.floor.entries.length = entries.length ↔
      (entries.map fun entry => Numeral.read entry.1).Nodup) ∧
    ((∀ entry ∈ entries, ∀ laid, Document.Lays entry laid →
        level.floor.find? laid.1 = some laid.2) ↔
      ∀ first ∈ entries, ∀ second ∈ entries, ∀ laid other, Document.Lays first laid →
        Document.Lays second other → laid.1 = other.1 → laid.2 = other.2) := by
  obtain ⟨layout, each, floored⟩ := exists_layout made present
  rw [floored]
  refine ⟨fun entry member => ?_, fun tile value => Document.find?_laid each, ?_,
    Document.kept_laid each⟩
  · obtain ⟨laid, _, lays⟩ := Document.mem_laid each member
    exact ⟨laid, lays⟩
  · rw [each.length_eq, Table.length_ofList, Document.tiles_laid each]
    have tiles : layout.map (fun laid => Except.ok laid.1) =
        (layout.map Prod.fst).map (Except.ok : Int → Except NumeralError Int) :=
      List.map_map.symm
    have injective : Function.Injective (Except.ok : Int → Except NumeralError Int) :=
      fun _ _ => Except.ok.inj
    rw [tiles, List.nodup_map_iff injective]

/-- A tile that is spelled in three ways, and another one. -/
theorem floor_last_entry_thrice : ∃ (members : Document.Members) (entries : List (Text × Json))
      (level : Level),
    entries = [(.ofString "1", .int 4), (.ofString "0", .int 5), (.ofString "+1", .ofString "x"),
      (.ofString " 01", .int 6)] ∧
    Json.field? "floor" members = some (.object entries) ∧
    ofDocument 9 defaultName members = .ok level ∧
    level.floor.find? 0 = some (.number ⟨5, by decide, by decide⟩) ∧
    level.floor.find? 1 = some (.number ⟨6, by decide, by decide⟩) ∧
    level.floor.entries.length ≠ entries.length := by
  let entries : List (Text × Json) :=
    [(.ofString "1", .int 4), (.ofString "0", .int 5), (.ofString "+1", .ofString "x"),
      (.ofString " 01", .int 6)]
  let members : Document.Members :=
    [(.ofString "inbox", .array []), (.ofString "outbox", .array []),
      (.ofString "floor", .object entries), (.ofString "floor_size", .int 2),
      (.ofString "number_bound", .int 9), (.ofString "step_limit", .int 1)]
  let level : Level := {
    name := defaultName
    description := []
    inbox := []
    expected := []
    floor := .ofList [(1, .number ⟨6, by decide, by decide⟩), (0, .number ⟨5, by decide, by decide⟩)]
    floorSize := 2
    numberBound := 9
    stepLimit := 1
    size_natural := by decide
    limit_positive := by decide
    bound_fits := by decide
    tiles_inside := by decide
    values_within := by decide }
  have made : ofDocument 9 defaultName members = .ok level := rfl
  obtain ⟨_, last, many, _⟩ := @floor_last_entry _ _ _ _ entries made rfl
  refine ⟨members, entries, level, rfl, rfl, made, ?_, ?_, fun same => ?_⟩
  · exact (last 0 _).mpr ⟨entries.take 1, (.ofString "0", .int 5), entries.drop 2, rfl,
      ⟨rfl, .number ⟨5, by decide, by decide⟩⟩, by decide⟩
  · exact (last 1 _).mpr ⟨entries.take 3, (.ofString " 01", .int 6), [], rfl,
      ⟨rfl, .number ⟨6, by decide, by decide⟩⟩, by decide⟩
  · exact absurd (many.mp same) (by decide)

/-- Of two spellings of one tile the first is lost, although the value that it states is beyond the
bound. -/
theorem floor_entry_lost : ∃ (members : Document.Members) (entries : List (Text × Json))
      (level : Level) (wide narrow : Number),
    ofDocument 9 defaultName members = .ok level ∧
    Json.field? "floor" members = some (.object entries) ∧
    entries = [(.ofString "1", .int wide.val), (.ofString "01", .int narrow.val)] ∧
    (entries.map Prod.fst).Nodup ∧ wide.val = 5000 ∧ narrow.val = 6 ∧
    level.numberBound = 999 ∧
    Document.Lays (.ofString "1", .int wide.val) (1, .number wide) ∧
    Document.Lays (.ofString "01", .int narrow.val) (1, .number narrow) ∧
    level.floor.entries = [(1, .number narrow)] ∧
    level.floor.find? 1 ≠ some (.number wide) ∧ level.floor.entries.length ≠ entries.length := by
  let wide : Number := ⟨5000, by decide, by decide⟩
  let narrow : Number := ⟨6, by decide, by decide⟩
  let entries : List (Text × Json) :=
    [(.ofString "1", .int wide.val), (.ofString "01", .int narrow.val)]
  let members : Document.Members :=
    [(.ofString "inbox", .array []), (.ofString "outbox", .array []),
      (.ofString "floor", .object entries), (.ofString "floor_size", .int 2),
      (.ofString "number_bound", .int 999), (.ofString "step_limit", .int 10)]
  let level : Level := {
    name := defaultName
    description := []
    inbox := []
    expected := []
    floor := .ofList [(1, .number narrow)]
    floorSize := 2
    numberBound := 999
    stepLimit := 10
    size_natural := by decide
    limit_positive := by decide
    bound_fits := by decide
    tiles_inside := by decide
    values_within := by decide }
  have made : ofDocument 9 defaultName members = .ok level := rfl
  exact ⟨members, entries, level, wide, narrow, made, rfl, rfl, by decide, rfl, rfl, rfl,
    ⟨rfl, .number wide⟩, ⟨rfl, .number narrow⟩, rfl, by decide, by decide⟩

end Level

end MailRoom
