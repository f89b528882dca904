import MailRoom.Proofs.Admission
import MailRoom.Proofs.Mixed

/-! Numerals among the parts of mixed notation. Main statement: `Mixed.read_numeral`, by which a
numeral that is not too long is one number or, if that is too wide, an error that no level gets
over; one that is too long is taken for letters. -/
namespace MailRoom

namespace Mixed

variable {text piece : Text} {before after : List Text} {row : List Char} {value : Int}

/-- A part is read on its own, between the values before it and those behind it. -/
theorem read_split (split : parts text = before ++ piece :: after) : read text = (do
    let earlier ← readParts before
    let found ← part piece.trim
    let later ← readParts after
    return earlier ++ found ++ later) := by
  rw [read_eq, split, readParts_append]
  simp only [readParts_cons, bind_assoc, pure_bind, List.append_assoc]

theorem part_wide (written : Numeral.Written piece row value)
    (short : row.length ≤ Numeral.maxDigits) (wide : value < -2147483648 ∨ 2147483647 < value) :
    part piece = .error (.tooWide value) := by
  have outside : ¬(-2147483648 ≤ value ∧ value ≤ 2147483647) := by omega
  rw [part_written written, if_pos short]
  simp [Value.ofInt, Number.ofInt?, outside, Except.map]

/-- A numeral that is too long is no numeral: each of its characters becomes a letter. -/
theorem part_overlong (written : Numeral.Written piece row value)
    (long : Numeral.maxDigits < row.length) :
    ∃ chars : List Char, piece = chars.map .scalar ∧ part piece = .ok (chars.map .letter) := by
  rw [part_written written, if_neg (Nat.not_le.mpr long)]
  obtain ⟨_, _, lead, rfl, _⟩ := written.exists_lead
  exact ⟨_, rfl, letters_scalars _⟩

/-- A part that cannot be read leaves the text unread, for its own reason unless there is one before
it. -/
theorem read_of_part_error (split : parts text = before ++ piece :: after) {error : ValueError}
    (failed : part piece.trim = .error error) :
    (∃ error, read text = .error error) ∧
      ∀ earlier, readParts before = .ok earlier → read text = .error error := by
  rw [read_split split, failed]
  cases readParts before with
  | error other => exact ⟨⟨other, rfl⟩, fun earlier read => by cases read⟩
  | ok values => exact ⟨⟨error, rfl⟩, fun _ _ => rfl⟩

end Mixed

namespace Level

variable {depth : Nat} {standardName : Text} {members : Document.Members}

theorem ofDocument_of_read_error {text : Text} {error : ValueError} {field : String}
    (failed : Mixed.read text = .error error) (place : field = "inbox" ∨ field = "outbox")
    (present : Json.field? field members = some (.text text)) :
    ∃ error, ofDocument depth standardName members = .error error := by
  have unlisted (values : List Value) : ¬Document.Lists (.text text) values := by
    intro lists
    cases lists with
    | mixed read => cases failed.symm.trans read
  cases drafted : Draft.ofDocument depth standardName members with
  | error failure => exact ⟨failure, by simp [ofDocument, drafted, bind, Except.bind]⟩
  | ok draft =>
    have described := Draft.ofDocument_eq_ok.mp drafted
    rcases place with rfl | rfl
    · obtain ⟨raw, found, lists⟩ := described.inbox
      cases present.symm.trans found
      exact absurd lists (unlisted _)
    · obtain ⟨raw, found, lists⟩ := described.expected
      cases present.symm.trans found
      exact absurd lists (unlisted _)

end Level

namespace Mixed

variable {text piece : Text} {before after : List Text} {row : List Char} {value : Int}

/-- A part of a text in mixed notation that is, without the blanks around it, a row of digits behind
a sign or none. As long as it is not too long it is the one number of that value; if that is too
wide the text is not read, and is the inbox or outbox of no level. A row that is too long becomes
one letter for each character. -/
theorem read_numeral (split : parts text = before ++ piece :: after)
    (written : Numeral.Written piece.trim row value) :
    (row.length ≤ Numeral.maxDigits →
      (∀ number : Number, number.val = value → read text = (do
        let earlier ← readParts before
        let later ← readParts after
        return earlier ++ [.number number] ++ later)) ∧
      (value < -2147483648 ∨ 2147483647 < value →
        (∃ error, read text = .error error) ∧
        (∀ earlier, readParts before = .ok earlier → read text = .error (.tooWide value)) ∧
        ∀ depth standardName members field, field = "inbox" ∨ field = "outbox" →
          Json.field? field members = some (.text text) →
          ∃ error, Level.ofDocument depth standardName members = .error error)) ∧
    (Numeral.maxDigits < row.length → ∃ chars : List Char, piece.trim = chars.map .scalar ∧
      read text = (do
        let earlier ← readParts before
        let later ← readParts after
        return earlier ++ chars.map .letter ++ later)) := by
  refine ⟨fun short => ⟨fun number same => ?_, fun wide => ?_⟩, fun long => ?_⟩
  · rw [read_split split, part_fitting written short same]
    rfl
  · obtain ⟨⟨error, failed⟩, first⟩ := read_of_part_error split (part_wide written short wide)
    exact ⟨⟨error, failed⟩, first, fun depth standardName members field place present =>
      Level.ofDocument_of_read_error failed place present⟩
  · obtain ⟨chars, same, taken⟩ := part_overlong written long
    refine ⟨chars, same, ?_⟩
    rw [read_split split, taken]
    rfl

/-- A number with a sign and a leading zero between letters. -/
theorem read_numeral_signed :
    parts (Text.ofString "ab, +012,c") =
        [Text.ofString "ab"] ++ Text.ofString " +012" :: [Text.ofString "c"] ∧
      Numeral.Written (Text.ofString " +012").trim ['0', '1', '2'] 12 ∧
      read (Text.ofString "ab, +012,c") =
        .ok [.letter 'a', .letter 'b', .number ⟨12, by decide, by decide⟩, .letter 'c'] := by
  have split : parts (Text.ofString "ab, +012,c") =
      [Text.ofString "ab"] ++ Text.ofString " +012" :: [Text.ofString "c"] := by
    decide
  have written : Numeral.Written (Text.ofString " +012").trim ['0', '1', '2'] 12 := by
    rw [show (Text.ofString " +012").trim = ['+', '0', '1', '2'].map .scalar by decide]
    exact .plus (by decide) (List.all_eq_true.mp (by decide))
  have short := (read_numeral split written).1 (by decide)
  exact ⟨split, written, (short.1 ⟨12, by decide, by decide⟩ rfl).trans rfl⟩

theorem read_overlong (digits : ∀ char ∈ row, Lexer.isDigit char)
    (long : Numeral.maxDigits < row.length) :
    Numeral.Written (Text.trim (row.map .scalar)) row (Nat.ofDigitChars 10 row 0) ∧
      parts (row.map .scalar) = [row.map .scalar] ∧
      read (row.map .scalar) = .ok (row.map .letter) := by
  have nonempty : row ≠ [] := List.ne_nil_of_length_pos (Nat.zero_lt_of_lt long)
  have written := Numeral.Written.bare nonempty digits
  have kept := written_kept written
  have trimmed : Text.trim (row.map .scalar) = row.map .scalar :=
    trimBoth_of_kept fun point member => (kept point member).1
  have single : parts (row.map .scalar) = [row.map .scalar] := by
    rw [parts_eq_splitOn]
    exact List.splitOn_eq_singleton fun member => (kept _ member).2 rfl
  refine ⟨by rwa [trimmed], single, ?_⟩
  rw [read_eq, single, readParts_cons, trimmed, part_written written,
    if_neg (Nat.not_le.mpr long), letters_scalars]
  exact congrArg Except.ok (List.append_nil _)

/-- Seven behind so many zeros that they are not read as a number any more. -/
theorem read_zeros_letters :
    let row := List.replicate 4300 '0' ++ ['7']
    Numeral.Written (Text.trim (row.map .scalar)) row 7 ∧
      parts (row.map .scalar) = [row.map .scalar] ∧
      read (row.map .scalar) = .ok (row.map .letter) ∧
      read (row.map .scalar) ≠ .ok [.number ⟨7, by decide, by decide⟩] := by
  have digits : ∀ char ∈ List.replicate 4300 '0' ++ ['7'], Lexer.isDigit char := by
    intro char member
    rcases List.mem_append.mp member with zero | seven
    · rw [(List.mem_replicate.mp zero).2]
      decide
    · rw [List.mem_singleton.mp seven]
      decide
  have long : Numeral.maxDigits < (List.replicate 4300 '0' ++ ['7']).length := by
    rw [List.length_append, List.length_replicate]
    decide
  have zeros (count : Nat) : Nat.ofDigitChars 10 (List.replicate count '0' ++ ['7']) 0 = 7 := by
    induction count with
    | zero => rfl
    | succ count ih => exact ih
  obtain ⟨written, single, taken⟩ := read_overlong digits long
  rw [zeros] at written
  refine ⟨written, single, taken, fun one => ?_⟩
  have count := congrArg List.length (Except.ok.inj (taken.symm.trans one))
  rw [List.length_map, List.length_append, List.length_replicate] at count
  exact absurd count (by decide)

end Mixed

end MailRoom
