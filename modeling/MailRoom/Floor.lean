import MailRoom.Fault

/-! The floor: numbered tiles, each empty or with a value. Its tiles lie in memory one behind the
other, so that there are sizes for which there is no floor. -/
namespace MailRoom

structure Floor where
  tiles : Array (Option Value)

/-- Why there is no floor of a size. -/
inductive SizeError where
  | negative (size : Int)
  /-- The last tile has no index. -/
  | beyondIndex
  /-- The last tile has no address. -/
  | beyondAddress
  /-- There is less memory than the tiles take. -/
  | noMemory
  deriving DecidableEq, Repr

/-- The error in words; a lack of memory is told in words of the memory's own. -/
def SizeError.message? : SizeError → Option String
  | negative size => some ("Floor size must not be negative, got " ++ toString size)
  | beyondIndex => some "Maximum allowed dimension exceeded"
  | beyondAddress => some <|
    "array is too big; `arr.size * arr.dtype.itemsize` is larger than the maximum possible size."
  | noMemory => none

namespace Floor

abbrev size (floor : Floor) : Nat := floor.tiles.size

/-- The greatest index, and as great the greatest address. -/
def maxIndex : Int := 9223372036854775807

/-- What a tile takes of the memory, in bytes. -/
def tileWidth : Int := 8

/-- An empty floor, where there is room for so many tiles at the most. -/
def ofSize (room : Nat) (size : Int) : Except SizeError Floor :=
  if size < 0 then .error (.negative size)
  else if maxIndex < size then .error .beyondIndex
  else if maxIndex < tileWidth * size then .error .beyondAddress
  else if room < size then .error .noMemory
  else .ok ⟨Array.replicate size.toNat none⟩

/-- A tile's number, if the floor has that tile. -/
def place (floor : Floor) (tile : Int) : Except Fault (Fin floor.size) :=
  if inside : 0 ≤ tile ∧ tile < floor.size then .ok ⟨tile.toNat, by omega⟩
  else .error (.outsideFloor tile floor.size)

def get (floor : Floor) (tile : Fin floor.size) : Option Value := floor.tiles[tile]

def set (floor : Floor) (tile : Fin floor.size) (value : Value) : Floor :=
  ⟨floor.tiles.set tile (some value)⟩

def peek (floor : Floor) (tile : Int) : Except Fault (Option Value) :=
  (floor.place tile).map floor.get

def read (floor : Floor) (tile : Int) : Except Fault Value := do
  match ← floor.peek tile with
  | some value => return value
  | none => throw (.unwrittenTile tile)

def write (floor : Floor) (tile : Int) (value : Value) : Except Fault Floor :=
  (floor.place tile).map (floor.set · value)

def resolve (floor : Floor) (address : Address) : Except Fault (Fin floor.size) := do
  if address.indirect then
    match ← floor.peek address.tile with
    | none => throw (.unwrittenPointer address.tile)
    | some (.letter char) => throw (.pointerLetter address.tile char)
    | some (.number pointer) => floor.place pointer.val
  else floor.place address.tile

def readAt (floor : Floor) (tile : Fin floor.size) : Except Fault Value :=
  match floor.get tile with
  | some value => .ok value
  | none => .error (.unwrittenTile (tile.val : Int))

/-- The written tiles in ascending order. -/
def snapshot (floor : Floor) : List (Nat × Value) :=
  (List.finRange floor.size).filterMap fun tile =>
    (floor.get tile).map fun value => (tile.val, value)

end Floor

/-- Why a floor cannot be laid out. -/
inductive LayoutError where
  | size (error : SizeError)
  | tile (fault : Fault)

namespace Floor

def writeAll (floor : Floor) (layout : List (Int × Value)) : Except Fault Floor :=
  layout.foldlM (fun floor (tile, value) => floor.write tile value) floor

def layOut (room : Nat) (size : Int) (layout : List (Int × Value)) : Except LayoutError Floor := do
  let floor ← (ofSize room size).mapError .size
  (floor.writeAll layout).mapError .tile

theorem place_val (floor : Floor) (tile : Fin floor.size) :
    floor.place (tile.val : Int) = .ok tile := by
  simp [place]

theorem read_val (floor : Floor) (tile : Fin floor.size) :
    floor.read (tile.val : Int) = floor.readAt tile := by
  simp only [read, peek, place_val, Except.map, readAt, bind, Except.bind]
  cases floor.get tile <;> rfl

theorem write_val (floor : Floor) (tile : Fin floor.size) (value : Value) :
    floor.write (tile.val : Int) value = .ok (floor.set tile value) := by
  rw [write, place_val]
  rfl

@[simp] theorem size_set (floor : Floor) (tile : Fin floor.size) (value : Value) :
    (floor.set tile value).size = floor.size := by simp [size, set]

end Floor

end MailRoom
