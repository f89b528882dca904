import MailRoom.Level.Document
import MailRoom.Proofs.Judgement
import MailRoom.Proofs.Nesting

/-! Which documents describe a level. Main statement: `Level.ofDocument_admits`, by which a document
makes a level exactly if it states all the parts of one and these agree with each other; what is
reported of any other document is wrong with it, and nothing is reported only where a part that has
to be put into words is nested deeper than is followed. -/
namespace MailRoom

theorem Number.ofInt?_eq_some {value : Int} {number : Number} :
    ofInt? value = some number ↔ number.val = value := by
  obtain ⟨integer, lower, upper⟩ := number
  unfold ofInt?
  by_cases fits : -2147483648 ≤ value ∧ value ≤ 2147483647
  · simp [fits, eq_comm]
  · simp only [fits, dite_false, reduceCtorEq, false_iff]
    omega

/-- A value as documents state it: an integer of 32 bits, or a text of one character. -/
inductive Value.Stated : Json → Value → Prop where
  | number (number : Number) : Stated (.int number.val) (.number number)
  | letter (char : Char) : Stated (.text [.scalar char]) (.letter char)

theorem Value.ofJson_eq_ok {raw : Json} {value : Value} : ofJson raw = .ok value ↔ Stated raw value := by
  constructor
  · intro read
    unfold ofJson at read
    split at read
    · unfold ofInt at read
      split at read
      · rename_i found
        cases read
        exact Number.ofInt?_eq_some.mp found ▸ .number _
      · cases read
    · rename_i point
      cases point <;> cases read
      exact .letter _
    · cases read
  · intro stated
    cases stated with
    | number number =>
      simp only [ofJson, ofInt, Number.ofInt?_eq_some.mpr (Eq.refl number.val)]
    | letter char => rfl

theorem Value.excess?_eq_some {bound : Int} {value : Value} {excess : Int} :
    value.excess? bound = some excess ↔ ∃ number, value = .number number ∧ number.val = excess ∧
      ¬(-bound ≤ number.val ∧ number.val ≤ bound) := by
  cases value <;> simp [excess?, isWithin, and_comm]

/-- The document that an error quotes. -/
def ValueError.quoted? : ValueError → Option Json
  | notInteger raw | notOneCharacter raw | loneSurrogate raw | unusable raw => some raw
  | tooWide _ | unknownKind _ => none

theorem ValueError.message_eq_none {error : ValueError} {depth : Nat} :
    error.message depth = none ↔ ∃ raw, error.quoted? = some raw ∧ depth < raw.height := by
  cases error <;> simp [message, quoted?, Json.display_eq_none]

theorem Json.plain_eq_none {raw : Json} {depth : Nat} (silent : raw.plain depth = none) :
    (∀ text, raw ≠ .text text) ∧ depth < raw.height := by
  cases raw with
  | text => cases silent
  | _ => exact ⟨fun _ => nofun, Json.display_eq_none.mp (Option.map_eq_none_iff.mp silent)⟩

namespace Level

namespace Document

inductive Names (depth : Nat) (standard : Text) : Option Json → Text → Prop where
  | absent : Names depth standard none standard
  | given {raw : Json} {text : Text} (words : raw.plain depth = some text) :
      Names depth standard (some raw) text

inductive Lists : Json → List Value → Prop where
  | items {items : List Json} {values : List Value} (each : List.Forall₂ Value.Stated items values) :
      Lists (.array items) values
  | mixed {text : Text} {values : List Value} (read : Mixed.read text = .ok values) :
      Lists (.text text) values

/-- An entry of a floor as documents state it, and the tile and the value that it stands for. -/
structure Lays (entry : Text × Json) (laid : Int × Value) : Prop where
  tile : Numeral.read entry.1 = .ok laid.1
  value : Value.Stated entry.2 laid.2

/-- A floor as documents state it, unless they leave it out. -/
inductive Paves : Option Json → Table Int Value → Prop where
  | bare : Paves none .empty
  | entries {entries : List (Text × Json)} {layout : List (Int × Value)}
      (each : List.Forall₂ Lays entries layout) : Paves (some (.object entries)) (.ofList layout)

/-- What may be wrong with the fields of a document, as it is reported. -/
inductive Misstates (depth : Nat) (members : Members) : LevelError → Prop where
  | absent {names : List String} (nonempty : names ≠ [])
      (each : ∀ name, name ∈ names ↔ name ∈ requiredFields ∧ Json.field? name members = none) :
      Misstates depth members (.missingFields names)
  | floor {raw : Json} (present : Json.field? "floor" members = some raw)
      (other : ∀ entries, raw ≠ .object entries) : Misstates depth members .floorNotObject
  | tile {entries : List (Text × Json)} {key : Text} {raw : Json} {error : NumeralError}
      (present : Json.field? "floor" members = some (.object entries))
      (member : (key, raw) ∈ entries) (unread : Numeral.read key = .error error) :
      Misstates depth members (.floorTile key error.message)
  | content {entries : List (Text × Json)} {key : Text} {raw : Json} {error : ValueError}
      {reason : String} (present : Json.field? "floor" members = some (.object entries))
      (member : (key, raw) ∈ entries) (unread : Value.ofJson raw = .error error)
      (words : error.message depth = some reason) :
      Misstates depth members (.floorTile key reason)
  | limit {field : String} (known : field ∈ ["floor_size", "number_bound", "step_limit"])
      (other : ∀ value, Json.field? field members ≠ some (.int value)) :
      Misstates depth members (.notInteger field)
  | values {field : String} (known : field ∈ ["inbox", "outbox"])
      (other : ∀ raw ∈ Json.field? field members,
        (∀ items, raw ≠ .array items) ∧ ∀ text, raw ≠ .text text) :
      Misstates depth members (.notValues field)
  | item {field : String} {items : List Json} {item : Json} {error : ValueError} {reason : String}
      (known : field ∈ ["inbox", "outbox"])
      (present : Json.field? field members = some (.array items)) (member : item ∈ items)
      (unread : Value.ofJson item = .error error) (words : error.message depth = some reason) :
      Misstates depth members (.badValue field reason)
  | mixed {field : String} {text : Text} {error : ValueError} {reason : String}
      (known : field ∈ ["inbox", "outbox"])
      (present : Json.field? field members = some (.text text))
      (unread : Mixed.read text = .error error) (words : error.message depth = some reason) :
      Misstates depth members (.badValue field reason)

/-- A part of a document that has to be put into words: what is no value in the place of one, or
what is no text in the place of a name or a description. -/
inductive Quoted (members : Members) : Json → Prop where
  | content {entries : List (Text × Json)} {key : Text} {given raw : Json} {error : ValueError}
      (present : Json.field? "floor" members = some (.object entries))
      (member : (key, given) ∈ entries) (unread : Value.ofJson given = .error error)
      (quotes : error.quoted? = some raw) : Quoted members raw
  | item {field : String} {items : List Json} {given raw : Json} {error : ValueError}
      (known : field ∈ ["inbox", "outbox"])
      (present : Json.field? field members = some (.array items)) (member : given ∈ items)
      (unread : Value.ofJson given = .error error) (quotes : error.quoted? = some raw) :
      Quoted members raw
  | mixed {field : String} {text : Text} {raw : Json} {error : ValueError}
      (known : field ∈ ["inbox", "outbox"])
      (present : Json.field? field members = some (.text text))
      (unread : Mixed.read text = .error error) (quotes : error.quoted? = some raw) :
      Quoted members raw
  | plain {field : String} {raw : Json} (known : field ∈ ["name", "description"])
      (present : Json.field? field members = some raw) (other : ∀ text, raw ≠ .text text) :
      Quoted members raw

inductive Refuses (depth : Nat) (members : Members) : DocumentError → Prop where
  | level {error : LevelError} (wrong : Misstates depth members error) :
      Refuses depth members (.level error)
  | tooDeep {raw : Json} (quoted : Quoted members raw) (deep : depth < raw.height) :
      Refuses depth members .tooDeep

variable {depth : Nat} {members : Members} {field : String}

theorem floorEntry_eq_ok {entry : Text × Json} {laid : Int × Value} :
    floorEntry depth entry.1 entry.2 = .ok laid ↔ Lays entry laid := by
  obtain ⟨tile, value⟩ := laid
  simp only [floorEntry, bind_eq_ok, mapError_eq_ok, Value.ofJson_eq_ok]
  constructor
  · rintro ⟨value, stated, tile, read, same⟩
    cases same
    exact ⟨read, stated⟩
  · rintro ⟨read, stated⟩
    exact ⟨value, stated, tile, read, rfl⟩

theorem floor_eq_ok {table : Table Int Value} :
    floor depth members = .ok table ↔ Paves (Json.field? "floor" members) table := by
  have entries_eq (entries : List (Text × Json)) (layout : List (Int × Value)) :
      (entries.mapM fun (key, raw) => floorEntry depth key raw) = .ok layout ↔
        List.Forall₂ Lays entries layout := by
    simp only [mapM_eq_ok, floorEntry_eq_ok]
  unfold floor
  split
  · rename_i absent
    rw [absent]
    constructor
    · intro empty
      cases empty
      exact .bare
    · rintro ⟨⟩
      rfl
  · rename_i entries present
    rw [present, map_eq_ok]
    constructor
    · rintro ⟨layout, read, rfl⟩
      exact .entries ((entries_eq entries layout).mp read)
    · rintro ⟨⟩
      rename_i layout each
      exact ⟨layout, (entries_eq entries layout).mpr each, rfl⟩
  · rename_i raw other present
    rw [present]
    constructor
    · intro refused
      cases refused
    · intro paves
      cases paves
      exact absurd rfl (other _)

theorem integer_eq_ok {value : Int} :
    integer members field = .ok value ↔ Json.field? field members = some (.int value) := by
  unfold integer
  split
  · rename_i found present
    simp [present]
  · rename_i other
    constructor
    · intro refused
      cases refused
    · intro present
      exact absurd present (other value)

theorem values_eq_ok {values : List Value} : Document.values depth members field = .ok values ↔
    ∃ raw, Json.field? field members = some raw ∧ Lists raw values := by
  unfold Document.values
  split
  · rename_i text present
    rw [mapError_eq_ok]
    constructor
    · intro read
      exact ⟨_, present, .mixed read⟩
    · rintro ⟨raw, found, lists⟩
      cases present.symm.trans found
      cases lists
      assumption
  · rename_i items present
    rw [mapError_eq_ok, mapM_eq_ok]
    simp only [Value.ofJson_eq_ok]
    constructor
    · intro each
      exact ⟨_, present, .items each⟩
    · rintro ⟨raw, found, lists⟩
      cases present.symm.trans found
      cases lists
      assumption
  · rename_i text_free item_free
    constructor
    · intro refused
      cases refused
    · rintro ⟨raw, found, lists⟩
      cases lists with
      | items => exact absurd found (item_free _)
      | mixed => exact absurd found (text_free _)

theorem textOr_eq_ok {standard text : Text} : textOr depth standard members field = .ok text ↔
    Names depth standard (Json.field? field members) text := by
  unfold textOr
  split
  · rename_i absent
    rw [absent]
    constructor
    · intro same
      cases same
      exact .absent
    · rintro ⟨⟩
      rfl
  · rename_i raw present
    rw [present]
    constructor
    · intro given
      split at given
      · rename_i words
        cases given
        exact .given words
      · cases given
    · rintro (_ | words)
      simp [words]

/-- A value that is not read is reported, if the report can be put into words. -/
theorem complaint_refuses {report : String → LevelError} {error : ValueError}
    (told : ∀ reason, error.message depth = some reason → Misstates depth members (report reason))
    (quoted : ∀ raw, error.quoted? = some raw → Quoted members raw) :
    Refuses depth members (complaint depth report error) := by
  unfold complaint
  split
  · rename_i reason words
    exact .level (told reason words)
  · rename_i silent
    obtain ⟨raw, quotes, deep⟩ := ValueError.message_eq_none.mp silent
    exact .tooDeep (quoted raw quotes) deep

theorem floor_refused : FailsOnly (Refuses depth members) (floor depth members) := by
  intro error failed
  unfold floor at failed
  split at failed
  · cases failed
  · rename_i entries present
    cases read : entries.mapM fun (key, raw) => floorEntry depth key raw with
    | ok layout =>
      rw [read] at failed
      cases failed
    | error failure =>
      rw [read] at failed
      cases failed
      obtain ⟨⟨key, raw⟩, member, failed⟩ := mem_of_mapM_eq_error read
      rcases bind_eq_error.mp failed with failed | ⟨value, _, failed⟩
      · obtain ⟨error, unread, rfl⟩ := mapError_eq_error.mp failed
        exact complaint_refuses (fun _ => .content present member unread)
          fun _ => .content present member unread
      · rcases bind_eq_error.mp failed with failed | ⟨tile, _, failed⟩
        · obtain ⟨error, unread, rfl⟩ := mapError_eq_error.mp failed
          exact .level (.tile present member unread)
        · cases failed
  · rename_i raw other present
    cases failed
    exact .level (.floor present other)

theorem integer_refused (known : field ∈ ["floor_size", "number_bound", "step_limit"]) :
    FailsOnly (Refuses depth members) (integer members field) := by
  intro error failed
  unfold integer at failed
  split at failed
  · cases failed
  · rename_i other
    cases failed
    exact .level (.limit known other)

theorem values_refused (known : field ∈ ["inbox", "outbox"]) :
    FailsOnly (Refuses depth members) (Document.values depth members field) := by
  intro error failed
  unfold Document.values at failed
  split at failed
  · rename_i text present
    obtain ⟨error, unread, rfl⟩ := mapError_eq_error.mp failed
    exact complaint_refuses (fun _ => .mixed known present unread)
      fun _ => .mixed known present unread
  · rename_i items present
    obtain ⟨error, unread, rfl⟩ := mapError_eq_error.mp failed
    obtain ⟨item, member, unread⟩ := mem_of_mapM_eq_error unread
    exact complaint_refuses (fun _ => .item known present member unread)
      fun _ => .item known present member unread
  · rename_i text_free item_free
    cases failed
    refine .level (.values known fun raw present => ⟨fun items same => ?_, fun text same => ?_⟩)
    · exact item_free items (same ▸ present)
    · exact text_free text (same ▸ present)

theorem textOr_refused {standard : Text} (known : field ∈ ["name", "description"]) :
    FailsOnly (Refuses depth members) (textOr depth standard members field) := by
  intro error failed
  unfold textOr at failed
  split at failed
  · cases failed
  · rename_i raw present
    split at failed
    · cases failed
    · rename_i silent
      cases failed
      obtain ⟨other, deep⟩ := Json.plain_eq_none silent
      exact .tooDeep (.plain known present other) deep

end Document

namespace Draft

/-- The document states all parts of a draft. -/
structure DescribedBy (draft : Draft) (depth : Nat) (standardName : Text)
    (members : Document.Members) : Prop where
  name : Document.Names depth standardName (Json.field? "name" members) draft.name
  description : Document.Names depth [] (Json.field? "description" members) draft.description
  inbox : ∃ raw, Json.field? "inbox" members = some raw ∧ Document.Lists raw draft.inbox
  expected : ∃ raw, Json.field? "outbox" members = some raw ∧ Document.Lists raw draft.expected
  floor : Document.Paves (Json.field? "floor" members) draft.floor
  floorSize : Json.field? "floor_size" members = some (.int draft.floorSize)
  numberBound : Json.field? "number_bound" members = some (.int draft.numberBound)
  stepLimit : Json.field? "step_limit" members = some (.int draft.stepLimit)

/-- The limits make sense, every tile is on the floor and every number within the bound. -/
structure Sound (draft : Draft) : Prop where
  floorSize : 0 ≤ draft.floorSize
  stepLimit : 0 < draft.stepLimit
  numberBound : 0 ≤ draft.numberBound ∧ draft.numberBound ≤ 2147483647
  tiles : ∀ tile ∈ draft.floor.keys, 0 ≤ tile ∧ tile < draft.floorSize
  numbers : ∀ number, .number number ∈ draft.values →
    -draft.numberBound ≤ number.val ∧ number.val ≤ draft.numberBound

/-- What in a draft may not agree with the rest, as it is reported. -/
inductive Clashes (draft : Draft) : LevelError → Prop where
  | floorSize (negative : draft.floorSize < 0) : Clashes draft (.negativeFloor draft.name)
  | stepLimit (spent : draft.stepLimit ≤ 0) : Clashes draft (.limitNotPositive draft.name)
  | numberBound (outside : ¬(0 ≤ draft.numberBound ∧ draft.numberBound ≤ 2147483647)) :
      Clashes draft (.boundOutside draft.name)
  | tile {tile : Int} (present : tile ∈ draft.floor.keys)
      (outside : ¬(0 ≤ tile ∧ tile < draft.floorSize)) :
      Clashes draft (.tileOutside draft.name tile draft.floorSize)
  | number {number : Number} (present : .number number ∈ draft.values)
      (outside : ¬(-draft.numberBound ≤ number.val ∧ number.val ≤ draft.numberBound)) :
      Clashes draft (.valueOutside draft.name number.val draft.numberBound)

variable {draft : Draft} {depth : Nat} {standardName : Text} {members : Document.Members}

theorem DescribedBy.complete (described : draft.DescribedBy depth standardName members) :
    (requiredFields.filter fun field => (Json.field? field members).isNone) = [] := by
  obtain ⟨_, inbox, _⟩ := described.inbox
  obtain ⟨_, outbox, _⟩ := described.expected
  simp [requiredFields, inbox, outbox, described.floorSize, described.numberBound,
    described.stepLimit]

theorem ofDocument_eq_ok : ofDocument depth standardName members = .ok draft ↔
    draft.DescribedBy depth standardName members := by
  constructor
  · intro drafted
    unfold ofDocument at drafted
    simp only at drafted
    split at drafted
    · cases drafted
    obtain ⟨floor, floored, drafted⟩ := bind_eq_ok.mp drafted
    obtain ⟨floorSize, sized, drafted⟩ := bind_eq_ok.mp drafted
    obtain ⟨numberBound, bounded, drafted⟩ := bind_eq_ok.mp drafted
    obtain ⟨stepLimit, limited, drafted⟩ := bind_eq_ok.mp drafted
    obtain ⟨name, named, drafted⟩ := bind_eq_ok.mp drafted
    obtain ⟨inbox, filled, drafted⟩ := bind_eq_ok.mp drafted
    obtain ⟨expected, awaited, drafted⟩ := bind_eq_ok.mp drafted
    obtain ⟨description, told, drafted⟩ := bind_eq_ok.mp drafted
    cases drafted
    exact {
      name := Document.textOr_eq_ok.mp named
      description := Document.textOr_eq_ok.mp told
      inbox := Document.values_eq_ok.mp filled
      expected := Document.values_eq_ok.mp awaited
      floor := Document.floor_eq_ok.mp floored
      floorSize := Document.integer_eq_ok.mp sized
      numberBound := Document.integer_eq_ok.mp bounded
      stepLimit := Document.integer_eq_ok.mp limited }
  · intro described
    unfold ofDocument
    simp only [described.complete, List.isEmpty_nil, Bool.not_true, Bool.false_eq_true, if_false,
      Document.floor_eq_ok.mpr described.floor, Document.integer_eq_ok.mpr described.floorSize,
      Document.integer_eq_ok.mpr described.numberBound,
      Document.integer_eq_ok.mpr described.stepLimit, Document.textOr_eq_ok.mpr described.name,
      Document.values_eq_ok.mpr described.inbox, Document.values_eq_ok.mpr described.expected,
      Document.textOr_eq_ok.mpr described.description]
    rfl

theorem ofDocument_refused :
    FailsOnly (Document.Refuses depth members) (ofDocument depth standardName members) := by
  unfold ofDocument
  simp only
  split
  · rename_i missing
    refine .error (.level (.absent (by simpa using missing) fun name => ?_))
    simp
  · refine .bind Document.floor_refused fun _ _ => ?_
    refine .bind (Document.integer_refused (by simp)) fun _ _ => ?_
    refine .bind (Document.integer_refused (by simp)) fun _ _ => ?_
    refine .bind (Document.integer_refused (by simp)) fun _ _ => ?_
    refine .bind (Document.textOr_refused (by simp)) fun _ _ => ?_
    refine .bind (Document.values_refused (by simp)) fun _ _ => ?_
    refine .bind (Document.values_refused (by simp)) fun _ _ => ?_
    exact .bind (Document.textOr_refused (by simp)) fun _ _ => .ok _

end Draft

variable {draft : Draft} {level : Level} {depth : Nat} {standardName : Text}
  {members : Document.Members}

theorem ofDraft_clashes : FailsOnly draft.Clashes (ofDraft draft) := by
  intro error failed
  unfold ofDraft at failed
  split at failed
  · rename_i negative
    cases failed
    exact .floorSize negative
  split at failed
  · rename_i spent
    cases failed
    exact .stepLimit spent
  split at failed
  · split at failed
    · rename_i tile found
      cases failed
      have outside := List.find?_some found
      exact .tile (List.mem_of_find?_eq_some found) fun inside => by simp [inside] at outside
    · split at failed
      · rename_i value found
        cases failed
        obtain ⟨held, present, excess⟩ := List.exists_of_findSome?_eq_some found
        obtain ⟨number, rfl, rfl, outside⟩ := Value.excess?_eq_some.mp excess
        exact .number present outside
      · cases failed
  · rename_i outside
    cases failed
    exact .numberBound outside

theorem toDraft_sound (level : Level) : level.toDraft.Sound where
  floorSize := level.size_natural
  stepLimit := level.limit_positive
  numberBound := level.bound_fits
  tiles := level.tiles_inside
  numbers := by
    intro number present
    simpa [Value.isWithin] using level.values_within _ present

theorem exists_ofDraft (sound : draft.Sound) : ∃ level, ofDraft draft = .ok level := by
  cases built : ofDraft draft with
  | ok level => exact ⟨level, rfl⟩
  | error error =>
    cases ofDraft_clashes error built with
    | floorSize negative => exact absurd sound.floorSize (Int.not_le.mpr negative)
    | stepLimit spent => exact absurd sound.stepLimit (Int.not_lt.mpr spent)
    | numberBound outside => exact absurd sound.numberBound outside
    | tile present outside => exact absurd (sound.tiles _ present) outside
    | number present outside => exact absurd (sound.numbers _ present) outside

theorem ofDocument_eq_ok : ofDocument depth standardName members = .ok level ↔
    ∃ draft, Draft.ofDocument depth standardName members = .ok draft ∧
      ofDraft draft = .ok level := by
  simp only [ofDocument, bind_eq_ok, mapError_eq_ok]

/-- A level has the parts that the document describes. -/
theorem describedBy_of_ofDocument (made : ofDocument depth standardName members = .ok level) :
    level.toDraft.DescribedBy depth standardName members := by
  obtain ⟨draft, drafted, built⟩ := ofDocument_eq_ok.mp made
  rw [toDraft_of_ofDraft built]
  exact Draft.ofDocument_eq_ok.mp drafted

theorem ofDocument_tooDeep (failed : ofDocument depth standardName members = .error .tooDeep) :
    ∃ raw, Document.Quoted members raw ∧ depth < raw.height := by
  rcases bind_eq_error.mp failed with failed | ⟨draft, _, failed⟩
  · cases Draft.ofDocument_refused _ failed with
    | tooDeep quoted deep => exact ⟨_, quoted, deep⟩
  · obtain ⟨_, _, same⟩ := mapError_eq_error.mp failed
    cases same

/-- Whatever fields a document has, it makes a level exactly if it states all the parts of one and
they agree with each other, and the level is made of these parts. Otherwise what is reported is
wrong with a field, or with one of the parts. It remains without a report only if something that has
to be put into words is nested deeper than is followed. -/
theorem ofDocument_admits (depth : Nat) (standardName : Text) (members : Document.Members) :
    ((∃ level, ofDocument depth standardName members = .ok level) ↔
      ∃ draft : Draft, draft.DescribedBy depth standardName members ∧ draft.Sound) ∧
    (∀ level, ofDocument depth standardName members = .ok level →
      level.toDraft.DescribedBy depth standardName members ∧ level.toDraft.Sound) ∧
    (∀ error, ofDocument depth standardName members = .error (.level error) →
      Document.Misstates depth members error ∨
        ∃ draft : Draft, draft.DescribedBy depth standardName members ∧ draft.Clashes error) ∧
    (ofDocument depth standardName members = .error .tooDeep →
      ∃ raw, Document.Quoted members raw ∧ depth < raw.height) := by
  refine ⟨⟨?_, ?_⟩, fun level made => ⟨describedBy_of_ofDocument made, level.toDraft_sound⟩,
    fun error failed => ?_, ofDocument_tooDeep⟩
  · rintro ⟨level, made⟩
    exact ⟨level.toDraft, describedBy_of_ofDocument made, level.toDraft_sound⟩
  · rintro ⟨draft, described, sound⟩
    obtain ⟨level, built⟩ := exists_ofDraft sound
    exact ⟨level, ofDocument_eq_ok.mpr ⟨draft, Draft.ofDocument_eq_ok.mpr described, built⟩⟩
  · rcases bind_eq_error.mp failed with failed | ⟨draft, drafted, failed⟩
    · cases Draft.ofDocument_refused _ failed with
      | level wrong => exact .inl wrong
    · obtain ⟨clash, failed, same⟩ := mapError_eq_error.mp failed
      cases same
      exact .inr ⟨draft, Draft.ofDocument_eq_ok.mp drafted, ofDraft_clashes _ failed⟩

/-- A document with a text for the inbox, a list for the outbox and two ways to write a tile. -/
theorem ofDocument_admits_mixed : ∃ (members : Document.Members) (level : Level),
    members = [(.ofString "inbox", .ofString " -5, i"), (.ofString "floor_size", .int 3),
      (.ofString "outbox", .array [.ofString "x", .int 0]), (.ofString "step_limit", .int 1),
      (.ofString "floor", .object [(.ofString "+0_2", .int 5), (.ofString " 0", .ofString "é")]),
      (.ofString "number_bound", .int 5)] ∧
    ofDocument 9 defaultName members = .ok level ∧
    level.toDraft.DescribedBy 9 defaultName members ∧ level.toDraft.Sound ∧
    level.inbox = [.number ⟨-5, by decide, by decide⟩, .letter 'i'] ∧
    level.expected = [.letter 'x', .number .zero] ∧
    level.floor.entries = [(2, .number ⟨5, by decide, by decide⟩), (0, .letter 'é')] := by
  let members : Document.Members :=
    [(.ofString "inbox", .ofString " -5, i"), (.ofString "floor_size", .int 3),
      (.ofString "outbox", .array [.ofString "x", .int 0]), (.ofString "step_limit", .int 1),
      (.ofString "floor", .object [(.ofString "+0_2", .int 5), (.ofString " 0", .ofString "é")]),
      (.ofString "number_bound", .int 5)]
  let level : Level := {
    name := defaultName
    description := []
    inbox := [.number ⟨-5, by decide, by decide⟩, .letter 'i']
    expected := [.letter 'x', .number .zero]
    floor := .ofList [(2, .number ⟨5, by decide, by decide⟩), (0, .letter 'é')]
    floorSize := 3
    numberBound := 5
    stepLimit := 1
    size_natural := by decide
    limit_positive := by decide
    bound_fits := by decide
    tiles_inside := by decide
    values_within := by decide }
  have made : ofDocument 9 defaultName members = .ok level := rfl
  obtain ⟨described, sound⟩ := (ofDocument_admits 9 defaultName members).2.1 level made
  exact ⟨members, level, rfl, made, described, sound, rfl, rfl, rfl⟩

/-- Arrays one inside the other. -/
def nested : Nat → Json
  | 0 => .array []
  | count + 1 => .array [nested count]

theorem height_nested (count : Nat) : (nested count).height = count + 1 := by
  induction count with
  | zero => rfl
  | succ count ih => simp [nested, Json.height, Json.heightItems, ih]

/-- Arrays in the place of a value are not reported if they are nested too deep. -/
theorem ofDocument_nested : ∃ members : Document.Members,
    members = [(.ofString "inbox", .array [nested 1200]), (.ofString "outbox", .array []),
      (.ofString "floor_size", .int 0), (.ofString "number_bound", .int 999),
      (.ofString "step_limit", .int 10)] ∧
    ofDocument 1000 defaultName members = .error .tooDeep := by
  have unread : Value.ofJson (nested 1200) = .error (.unusable (nested 1200)) := rfl
  have silent : (ValueError.unusable (nested 1200)).message 1000 = none :=
    ValueError.message_eq_none.mpr ⟨_, rfl, by rw [height_nested]; decide⟩
  -- From here on only these two facts count, and not the arrays themselves.
  generalize nested 1200 = deep at unread silent
  refine ⟨_, rfl, ?_⟩
  generalize named : ([(.ofString "inbox", .array [deep]), (.ofString "outbox", .array []),
    (.ofString "floor_size", .int 0), (.ofString "number_bound", .int 999),
    (.ofString "step_limit", .int 10)] : Document.Members) = members
  have listed : Document.values 1000 members "inbox" = .error .tooDeep := by
    have present : Json.field? "inbox" members = some (.array [deep]) := by
      subst named
      rfl
    simp only [Document.values, present, List.mapM_cons, unread, bind, Except.bind, mapError_error,
      Document.complaint, silent]
  have refused : Draft.ofDocument 1000 defaultName members =
      (Document.values 1000 members "inbox").bind fun inbox => do
        let expected ← Document.values 1000 members "outbox"
        return ⟨defaultName, [], inbox, expected, .empty, 0, 999, 10⟩ := by
    subst named
    rfl
  rw [ofDocument, refused, listed]
  rfl

end Level

end MailRoom
