import MailRoom.Level.Basic

/-! The built-in levels. -/
namespace MailRoom

/-- Every integer of 16 bits is a number. -/
def Number.ofInt16 (value : Int16) : Number where
  val := value.toInt
  lower := by have := value.le_toInt; omega
  upper := by have := value.toInt_lt; omega

namespace Level.Catalog

def numbers (values : List Int16) : List Value := values.map fun value => .number (.ofInt16 value)

def letters (word : String) : List Value := word.toList.map .letter

/-- Letters and numbers in one row. -/
def zeroTerminated (word : String) : List Value := letters word ++ numbers [0]

def level (name description : String) (inbox expected : List Value) (floorSize : Nat)
    (floor : List (Int × Value)) : Draft where
  name := .ofString name
  description := .ofString description
  inbox := inbox
  expected := expected
  floor := .ofList floor
  floorSize := floorSize
  numberBound := 999
  stepLimit := 10000

def row (first : Int) : List Value → List (Int × Value)
  | [] => []
  | value :: rest => (first, value) :: row (first + 1) rest

/-- A letter on a tile and, on the tile behind it, where the next letter lies; a negative number
ends the chain. -/
def link (tile : Int) (char : Char) (next : Int16) : List (Int × Value) :=
  row tile (.letter char :: numbers [next])

def mailRoom : Draft :=
  level "Mail Room" "Copy inbox to outbox" (numbers [1, 2, 3]) (numbers [1, 2, 3]) 0 []

def busyMailRoom : Draft :=
  level "Busy Mail Room" "Copy a long inbox to outbox" (letters "initialize") (letters "initialize")
    0 []

def copyFloor : Draft :=
  level "Copy Floor" "Copy letters from the floor to spell a word" (numbers [-99, -99, -99, -99])
    (letters "bug") 6 (row 0 (letters "ujxgbe"))

def scramblerHandler : Draft :=
  level "Scrambler Handler" "Swap each pair from the inbox" (numbers [6, 4, -1, 7] ++ letters "ih")
    (numbers [4, 6, 7, -1] ++ letters "hi") 3 []

def duplicateRemoval : Draft :=
  level "Duplicate Removal" "Copy inbox to outbox, dropping letters already seen"
    (letters "eabedebaeb") (letters "eabd") 15 (row 14 (numbers [0]))

def alphabetizer : Draft :=
  level "Alphabetizer"
    "Of two zero-terminated words, output the one first in alphabetical order"
    (zeroTerminated "aab" ++ zeroTerminated "aaa") (letters "aaa") 25 (row 23 (numbers [0, 10]))

def scavengerChain : Draft :=
  level "Scavenger Chain"
    "Follow each chain of floor pointers from the inbox, outputting the letters"
    (numbers [0, 23]) (letters "escapeape") 25
    (link 0 'e' 13 ++ link 3 'c' 23 ++ link 10 'p' 20 ++ link 13 's' 3 ++ link 20 'e' (-1) ++
      link 23 'a' 10)

def digitExploder : Draft :=
  level "Digit Exploder" "Output the digits of each number" (numbers [33, 505, 7, 979])
    (numbers [3, 3, 5, 0, 5, 7, 9, 7, 9]) 12 (row 9 (numbers [0, 10, 100]))

def all : List (Nat × Draft) :=
  [(1, mailRoom), (2, busyMailRoom), (3, copyFloor), (4, scramblerHandler),
   (35, duplicateRemoval), (36, alphabetizer), (37, scavengerChain), (38, digitExploder)]

end Level.Catalog

def Level.builtin (number : Int) : Except LevelError Level :=
  match Catalog.all.find? fun (known, _) => (known : Int) = number with
  | some (_, draft) => ofDraft draft
  | none => .error (.unknownLevel number (Catalog.all.map Prod.fst))

end MailRoom
