import MailRoom.Proofs.Outcome
import MailRoom.Text.Numeral
import MailRoom.Token.Lexer
import Mathlib.Algebra.Group.Nat.Defs
import Mathlib.Data.List.DropRight

/-! Plain decimal numerals: ASCII digits, perhaps behind a minus sign. Main statements:
`Numeral.read_denotes`, by which reading gives what they denote as long as they are not too long,
and `Numeral.denotes_toString`, by which every integer is written as one. -/
namespace MailRoom

section Trim

variable {drop : α → Bool} {items : List α}

theorem trimBoth_eq_self (first : ∀ item ∈ items.head?, drop item = false)
    (last : ∀ item ∈ items.getLast?, drop item = false) : trimBoth drop items = items := by
  cases items with
  | nil => rfl
  | cons head rest =>
    have kept : drop head = false := first head rfl
    have untouched : (head :: rest).dropWhile drop = head :: rest := by simp [kept]
    unfold trimBoth
    rw [untouched]
    apply List.rdropWhile_eq_self_iff.mpr
    intro nonempty
    simpa using last _ (List.getLast?_eq_some_getLast nonempty)

theorem trimBoth_cons (item : α) (dropped : drop item = true) :
    trimBoth drop (item :: items) = trimBoth drop items := by
  simp [trimBoth, dropped]

theorem trimBoth_of_kept (kept : ∀ item ∈ items, drop item = false) :
    trimBoth drop items = items :=
  trimBoth_eq_self (fun item first => kept item (List.mem_of_head? first))
    fun item last => kept item (List.mem_of_getLast? last)

theorem mem_of_mem_trimBoth {item : α} (member : item ∈ trimBoth drop items) : item ∈ items := by
  have inner := (List.rdropWhile_prefix drop (items.dropWhile drop)).subset member
  exact (List.dropWhile_suffix drop).subset inner

theorem trimBoth_idem (items : List α) :
    trimBoth drop (trimBoth drop items) = trimBoth drop items := by
  change trimBoth drop ((items.dropWhile drop).rdropWhile drop) = _
  apply trimBoth_eq_self
  · intro item first
    have start := List.singleton_prefix_iff_head?_eq_some.mpr first
    have whole := start.trans (List.rdropWhile_prefix drop (items.dropWhile drop))
    have head := List.head?_dropWhile_not drop items
    rw [List.singleton_prefix_iff_head?_eq_some.mp whole] at head
    simpa using head
  · intro item last
    have nonempty : (items.dropWhile drop).rdropWhile drop ≠ [] := by
      rintro empty
      simp [empty] at last
    rw [List.getLast?_eq_some_getLast nonempty, Option.mem_some_iff] at last
    subst item
    simpa using List.rdropWhile_last_not drop _ nonempty

theorem filter_dropWhile_not (items : List α) :
    (items.dropWhile drop).filter (fun item => !drop item) = items.filter fun item => !drop item := by
  induction items with
  | nil => rfl
  | cons item rest ih => by_cases dropped : drop item <;> simp [dropped, ih]

/-- Trimming takes nothing off that is not to be dropped. -/
theorem filter_trimBoth (items : List α) :
    (trimBoth drop items).filter (fun item => !drop item) = items.filter fun item => !drop item := by
  rw [trimBoth, List.filter_reverse, filter_dropWhile_not, List.filter_reverse, filter_dropWhile_not,
    List.reverse_reverse]

theorem mem_trimBoth_of_not_drop {item : α} (member : item ∈ items) (kept : drop item = false) :
    item ∈ trimBoth drop items := by
  have present : item ∈ items.filter fun item => !drop item :=
    List.mem_filter.mpr ⟨member, by simp [kept]⟩
  rw [← filter_trimBoth] at present
  exact List.mem_of_mem_filter present

/-- What stands at an end is taken off exactly when all of it is to be dropped. -/
theorem trimBoth_append_eq_iff (first rest : List α) :
    trimBoth drop first = trimBoth drop (first ++ rest) ↔ ∀ item ∈ rest, drop item = true := by
  constructor
  · intro same item member
    have kept := congrArg (List.filter fun item => !drop item) same
    rw [filter_trimBoth, filter_trimBoth, List.filter_append, List.self_eq_append_right] at kept
    simpa using List.filter_eq_nil_iff.mp kept item member
  · intro dropped
    have off : rest.reverse.dropWhile drop = [] := by simpa using dropped
    have gone : rest.dropWhile drop = [] := by simpa using dropped
    rw [trimBoth, trimBoth, List.dropWhile_append]
    split
    · rename_i all
      simp [List.isEmpty_iff.mp all, gone]
    · rw [List.reverse_append, List.dropWhile_append, off]
      simp

/-- What is to be dropped may stand on either side. -/
theorem trimBoth_padded {before after : List α} (first : ∀ item ∈ before, drop item = true)
    (last : ∀ item ∈ after, drop item = true) :
    trimBoth drop (before ++ (items ++ after)) = trimBoth drop items := by
  induction before with
  | nil => exact ((trimBoth_append_eq_iff items after).mpr last).symm
  | cons head rest ih =>
    rw [List.cons_append, trimBoth_cons head (first head (by simp))]
    exact ih fun item member => first item (by simp [member])

end Trim

namespace Lexer

theorem isDigit_iff (char : Char) : isDigit char = true ↔ 48 ≤ char.toNat ∧ char.toNat ≤ 57 := by
  simp only [isDigit, Bool.and_eq_true, decide_eq_true_eq, Char.le_def, UInt32.le_iff_toNat_le]
  rfl

theorem isNumeric_of_isDigit {char : Char} (digit : isDigit char = true) :
    isNumeric char = true := by
  apply (Ranges.covers_iff _ _).mpr
  exact ⟨(0x30, 0x39), by decide, (isDigit_iff char).mp digit⟩

theorem isWordPart_of_isDigit {char : Char} (digit : isDigit char = true) :
    isWordPart char = true := by
  simp [isWordPart, isNumeric_of_isDigit digit]

theorem decimalDigit_of_isDigit {char : Char} (digit : isDigit char = true) :
    decimalDigit? char.toNat = some (char.toNat - 48) := by
  have bounds := (isDigit_iff char).mp digit
  have inside : char.toNat < 48 + 10 := by omega
  simp [decimalDigit?, Digit.zeros, bounds.1, inside]

theorem not_isBlank_of_isDigit {char : Char} (digit : isDigit char = true) :
    isBlank char.toNat = false := by
  have bounds := (isDigit_iff char).mp digit
  apply Bool.eq_false_iff.mpr
  intro blank
  obtain ⟨range, member, low, high⟩ := (Ranges.covers_iff _ _).mp blank
  simp only [Blank.ranges, List.mem_cons, List.not_mem_nil, or_false] at member
  rcases member with rfl | rfl | rfl | rfl | rfl | rfl | rfl | rfl | rfl | rfl <;>
    simp only at low high <;> omega

theorem ne_of_class {belongs : Char → Bool} {char other : Char} (inside : belongs char = true)
    (outside : belongs other = false) : char ≠ other := by
  rintro rfl
  rw [inside] at outside
  cases outside

end Lexer

namespace Numeral

/-- A row of digits, perhaps behind a minus sign, and the number that it denotes. -/
inductive Denotes : String → Int → Prop where
  | natural {row : List Char} (nonempty : row ≠ []) (digits : ∀ char ∈ row, Lexer.isDigit char) :
      Denotes (String.ofList row) (Nat.ofDigitChars 10 row 0)
  | negative {row : List Char} (nonempty : row ≠ []) (digits : ∀ char ∈ row, Lexer.isDigit char) :
      Denotes (String.ofList ('-' :: row)) (-(Nat.ofDigitChars 10 row 0 : Int))

def digitCount (text : String) : Nat := text.toList.countP Lexer.isDigit

variable {row : List Char}

theorem isBody_scalar {char : Char} (digit : Lexer.isDigit char = true) :
    isBody (.scalar char) = true := by
  simp [isBody, digit?, CodePoint.toNat, Lexer.decimalDigit_of_isDigit digit]

theorem isUnderscore_scalar {char : Char} (digit : Lexer.isDigit char = true) :
    isUnderscore (.scalar char) = false := by
  have other : char ≠ '_' := Lexer.ne_of_class digit (by decide)
  simp [isUnderscore, other]

theorem wellPlaced_plain {text : Text} (plain : ∀ point ∈ text, isUnderscore point = false) :
    wellPlaced text = true := by
  induction text with
  | nil => rfl
  | cons first rest ih =>
    have further := ih fun point member => plain point (List.mem_cons_of_mem first member)
    cases rest with
    | nil => simp [wellPlaced, plain first]
    | cons second rest => simpa [wellPlaced, plain first] using further

theorem wellPlaced_row (digits : ∀ char ∈ row, Lexer.isDigit char) :
    wellPlaced (row.map .scalar) = true := by
  apply wellPlaced_plain
  intro point member
  obtain ⟨char, present, rfl⟩ := List.mem_map.mp member
  exact isUnderscore_scalar (digits char present)

theorem digits_row (digits : ∀ char ∈ row, Lexer.isDigit char) :
    (row.map CodePoint.scalar).filterMap digit? = row.map fun char => char.toNat - 48 := by
  induction row with
  | nil => rfl
  | cons first rest ih =>
    have found := Lexer.decimalDigit_of_isDigit (digits first (by simp))
    have further := ih fun char member => digits char (List.mem_cons_of_mem first member)
    simpa [digit?, CodePoint.toNat, found] using further

theorem valueOf_row (row : List Char) :
    valueOf (row.map fun char => char.toNat - 48) = Nat.ofDigitChars 10 row 0 := by
  simp [valueOf, Nat.ofDigitChars, List.foldl_map]

/-- A row of digits is read as what it denotes, unless it is too long. -/
theorem unsigned_row (source : Text) (nonempty : row ≠ [])
    (digits : ∀ char ∈ row, Lexer.isDigit char) :
    unsigned source (row.map .scalar) =
      if row.length ≤ maxDigits then .ok (Nat.ofDigitChars 10 row 0)
      else .error (.tooLong row.length) := by
  have body : ∀ point ∈ row.map CodePoint.scalar, isBody point = true := by
    intro point member
    obtain ⟨char, present, rfl⟩ := List.mem_map.mp member
    exact isBody_scalar (digits char present)
  have whole : (row.map CodePoint.scalar).takeWhile isBody = row.map .scalar :=
    List.takeWhile_eq_self_iff.mpr body
  have nothing : (row.map CodePoint.scalar).dropWhile isBody = [] :=
    List.dropWhile_eq_nil_iff.mpr body
  have head : ((row.map CodePoint.scalar).head?.map isUnderscore).getD false = false := by
    cases row with
    | nil => rfl
    | cons first rest => exact isUnderscore_scalar (digits first (by simp))
  unfold unsigned
  simp only [whole, nothing, head, wellPlaced_row digits, digits_row digits, valueOf_row]
  by_cases long : maxDigits < row.length
  · simp [nonempty, long, Nat.not_le.mpr long]
  · simp [nonempty, long, Nat.not_lt.mp long]

theorem trim_digits (lead : List Char) (plain : ∀ char ∈ lead, isPadding (.scalar char) = false)
    (nonempty : row ≠ []) (digits : ∀ char ∈ row, Lexer.isDigit char) :
    trimBoth isPadding ((lead ++ row).map CodePoint.scalar) = (lead ++ row).map .scalar := by
  have unpadded (char : Char) (digit : Lexer.isDigit char = true) :
      isPadding (.scalar char) = false := by
    simp [isPadding, CodePoint.toNat, Lexer.not_isBlank_of_isDigit digit]
  apply trimBoth_eq_self
  · intro point first
    rw [List.head?_map] at first
    obtain ⟨char, found, rfl⟩ := Option.map_eq_some_iff.mp first
    rcases List.mem_append.mp (List.mem_of_head? found) with sign | digit
    · exact plain char sign
    · exact unpadded char (digits char digit)
  · intro point last
    rw [List.getLast?_map, List.getLast?_append_of_ne_nil _ nonempty] at last
    obtain ⟨char, found, rfl⟩ := Option.map_eq_some_iff.mp last
    exact unpadded char (digits char (List.mem_of_getLast? found))

theorem digitCount_natural (digits : ∀ char ∈ row, Lexer.isDigit char) :
    digitCount (String.ofList row) = row.length := by
  rw [digitCount, String.toList_ofList]
  exact List.countP_eq_length.mpr digits

theorem digitCount_negative (digits : ∀ char ∈ row, Lexer.isDigit char) :
    digitCount (String.ofList ('-' :: row)) = row.length := by
  rw [digitCount, String.toList_ofList, List.countP_cons_of_neg (by decide)]
  exact List.countP_eq_length.mpr digits

/-- A row of digits, perhaps behind a sign, and the number that it stands for. -/
inductive Written : Text → List Char → Int → Prop where
  | bare {row : List Char} (nonempty : row ≠ []) (digits : ∀ char ∈ row, Lexer.isDigit char) :
      Written (row.map .scalar) row (Nat.ofDigitChars 10 row 0)
  | plus {row : List Char} (nonempty : row ≠ []) (digits : ∀ char ∈ row, Lexer.isDigit char) :
      Written (('+' :: row).map .scalar) row (Nat.ofDigitChars 10 row 0)
  | minus {row : List Char} (nonempty : row ≠ []) (digits : ∀ char ∈ row, Lexer.isDigit char) :
      Written (('-' :: row).map .scalar) row (-(Nat.ofDigitChars 10 row 0 : Int))

theorem Written.exists_lead {source : Text} {value : Int} (written : Written source row value) :
    row ≠ [] ∧ (∀ char ∈ row, Lexer.isDigit char) ∧
      ∃ lead : List Char, source = (lead ++ row).map .scalar ∧
        ∀ char ∈ lead, char = '+' ∨ char = '-' := by
  cases written with
  | bare nonempty digits => exact ⟨nonempty, digits, [], rfl, List.forall_mem_nil _⟩
  | plus nonempty digits =>
    exact ⟨nonempty, digits, ['+'], rfl, List.forall_mem_singleton.mpr (.inl rfl)⟩
  | minus nonempty digits =>
    exact ⟨nonempty, digits, ['-'], rfl, List.forall_mem_singleton.mpr (.inr rfl)⟩

theorem Written.mem {source : Text} {value : Int} (written : Written source row value) :
    ∀ point ∈ source, ∃ char, point = .scalar char ∧
      (Lexer.isDigit char = true ∨ char = '+' ∨ char = '-') := by
  obtain ⟨_, digits, lead, rfl, signs⟩ := written.exists_lead
  intro point member
  obtain ⟨char, present, rfl⟩ := List.mem_map.mp member
  refine ⟨char, rfl, ?_⟩
  rcases List.mem_append.mp present with sign | digit
  · exact .inr (signs char sign)
  · exact .inl (digits char digit)

/-- What is written in digits is read as such, unless there are too many of them. -/
theorem read_written {source : Text} {value : Int} (written : Written source row value) :
    read source = if row.length ≤ maxDigits then .ok value else .error (.tooLong row.length) := by
  cases written with
  | bare nonempty digits =>
    rw [read, show row = [] ++ row from rfl, trim_digits [] (by simp) nonempty digits]
    cases row with
    | nil => exact absurd rfl nonempty
    | cons first rest =>
      have digit := digits first (by simp)
      split
      · rename_i same
        have other : first ≠ '-' := Lexer.ne_of_class digit (by decide)
        simp [other] at same
      · rename_i same
        have other : first ≠ '+' := Lexer.ne_of_class digit (by decide)
        simp [other] at same
      · simp only [List.nil_append]
        rw [unsigned_row _ nonempty digits]
        split <;> rfl
  | plus nonempty digits =>
    have plain : ∀ char ∈ ['+'], isPadding (.scalar char) = false :=
      List.forall_mem_singleton.mpr (by decide)
    rw [read, show '+' :: row = ['+'] ++ row from rfl, trim_digits ['+'] plain nonempty digits]
    simp only [List.cons_append, List.nil_append, List.map_cons]
    rw [unsigned_row _ nonempty digits]
    split <;> rfl
  | minus nonempty digits =>
    have plain : ∀ char ∈ ['-'], isPadding (.scalar char) = false :=
      List.forall_mem_singleton.mpr (by decide)
    rw [read, show '-' :: row = ['-'] ++ row from rfl, trim_digits ['-'] plain nonempty digits]
    simp only [List.cons_append, List.nil_append, List.map_cons]
    rw [unsigned_row _ nonempty digits]
    split <;> rfl

theorem Denotes.written {text : String} {value : Int} (denotes : Denotes text value) :
    ∃ row, Written (Text.ofString text) row value ∧ digitCount text = row.length := by
  cases denotes with
  | @natural row nonempty digits =>
    refine ⟨row, ?_, digitCount_natural digits⟩
    rw [Text.ofString, String.toList_ofList]
    exact .bare nonempty digits
  | @negative row nonempty digits =>
    refine ⟨row, ?_, digitCount_negative digits⟩
    rw [Text.ofString, String.toList_ofList]
    exact .minus nonempty digits

/-- A plain numeral is read as what it denotes, unless it has too many digits. -/
theorem read_denotes {text : String} {value : Int} (denotes : Denotes text value) :
    read (Text.ofString text) =
      if digitCount text ≤ maxDigits then .ok value else .error (.tooLong (digitCount text)) := by
  obtain ⟨row, written, count⟩ := denotes.written
  rw [read_written written, count]

theorem ofDigitChars_lt (digits : ∀ char ∈ row, Lexer.isDigit char) :
    Nat.ofDigitChars 10 row 0 < 10 ^ row.length := by
  induction row with
  | nil => simp
  | cons first rest ih =>
    have bounds := (Lexer.isDigit_iff first).mp (digits first (by simp))
    have further := ih fun char member => digits char (List.mem_cons_of_mem first member)
    have small : first.toNat - '0'.toNat ≤ 9 := by simp only [Char.reduceToNat]; omega
    have scaled : 10 ^ rest.length * (first.toNat - '0'.toNat) ≤ 10 ^ rest.length * 9 :=
      Nat.mul_le_mul_left _ small
    rw [Nat.ofDigitChars_cons, Nat.ofDigitChars_eq_ofDigitChars_zero, Nat.mul_zero, Nat.zero_add,
      List.length_cons, Nat.pow_succ]
    omega

theorem Denotes.natAbs_lt {text : String} {value : Int} (denotes : Denotes text value) :
    value.natAbs < 10 ^ digitCount text := by
  cases denotes with
  | natural nonempty digits =>
    rw [digitCount_natural digits]
    simpa using ofDigitChars_lt digits
  | negative nonempty digits =>
    rw [digitCount_negative digits]
    simpa using ofDigitChars_lt digits

theorem digits_toDigits (value : Nat) : ∀ char ∈ Nat.toDigits 10 value, Lexer.isDigit char := by
  intro char member
  have digit := Nat.isDigit_of_mem_toDigits (by decide) (by decide) member
  simpa [Char.isDigit, Lexer.isDigit, Char.le_def] using digit

theorem toString_natural (value : Nat) :
    toString (value : Int) = String.ofList (Nat.toDigits 10 value) := by
  rw [Int.toString_eq_repr, Int.repr_eq_if, if_pos (by omega), Int.toNat_natCast,
    Nat.repr_eq_ofList_toDigits]

theorem denotes_toString (value : Nat) : Denotes (toString (value : Int)) value := by
  have denotes := Denotes.natural Nat.toDigits_ne_nil (digits_toDigits value)
  rwa [Nat.ofDigitChars_ten_toDigits, ← toString_natural] at denotes

theorem toString_negative {value : Nat} (positive : 0 < value) :
    toString (-(value : Int)) = String.ofList ('-' :: Nat.toDigits 10 value) := by
  rw [Int.toString_eq_repr, Int.repr_eq_if, if_neg (by omega), Int.neg_neg, Int.toNat_natCast,
    Nat.repr_eq_ofList_toDigits, String.ofList_cons]
  rfl

theorem written_toString (value : Int) :
    Written (Text.ofString (toString value)) (Nat.toDigits 10 value.natAbs) value := by
  have digits := digits_toDigits value.natAbs
  rcases Int.eq_nat_or_neg value with ⟨size, rfl | rfl⟩
  · have written := Written.bare Nat.toDigits_ne_nil digits
    rw [Int.natAbs_natCast, Nat.ofDigitChars_ten_toDigits] at written
    rwa [toString_natural, Text.ofString, String.toList_ofList, Int.natAbs_natCast]
  · rcases Nat.eq_zero_or_pos size with rfl | positive
    · exact .bare (by decide) (List.all_eq_true.mp (by decide))
    · have written := Written.minus Nat.toDigits_ne_nil digits
      rw [Int.natAbs_neg, Int.natAbs_natCast, Nat.ofDigitChars_ten_toDigits] at written
      rwa [toString_negative positive, Text.ofString, String.toList_ofList, Int.natAbs_neg,
        Int.natAbs_natCast]

theorem digitCount_toString (value : Nat) :
    digitCount (toString (value : Int)) ≤ maxDigits ↔ value < 10 ^ maxDigits := by
  rw [toString_natural, digitCount_natural (digits_toDigits value)]
  exact Nat.length_toDigits_le_iff (by decide) (by decide)

/-- A numeral without its sign is read if all of it belongs to one that is well formed and not too
long. -/
theorem unsigned_eq_ok {source body : Text} {value : Nat} :
    unsigned source body = .ok value ↔ body ≠ [] ∧ (∀ point ∈ body, isBody point = true) ∧
      (body.head?.map isUnderscore).getD false = false ∧ wellPlaced body = true ∧
      (body.filterMap digit?).length ≤ maxDigits ∧ valueOf (body.filterMap digit?) = value := by
  constructor
  · intro success
    unfold unsigned at success
    simp only at success
    split at success
    · cases success
    rename_i formed
    split at success
    · cases success
    rename_i short
    split at success
    · cases success
    rename_i whole
    have all : ∀ point ∈ body, isBody point = true :=
      List.dropWhile_eq_nil_iff.mp (by simpa using whole)
    rw [List.takeWhile_eq_self_iff.mpr all] at formed short success
    simp only [Bool.or_eq_true, not_or, Bool.not_eq_true, Bool.not_eq_eq_eq_not] at formed
    obtain ⟨⟨nonempty, head⟩, placed⟩ := formed
    refine ⟨by simpa using nonempty, all, head, by simpa using placed, Nat.not_lt.mp short, ?_⟩
    exact Except.ok.inj success
  · rintro ⟨nonempty, all, head, placed, short, rfl⟩
    unfold unsigned
    simp [List.takeWhile_eq_self_iff.mpr all, List.dropWhile_eq_nil_iff.mpr all, nonempty, head,
      placed, Nat.not_lt.mpr short]

/-- Where there is no digit there is no numeral. -/
theorem read_digitless {source : Text} (none : ∀ point ∈ source, digit? point = none) :
    ∃ error, read source = .error error := by
  have fails {body : Text} (inside : body ⊆ trimBoth isPadding source) :
      ∃ error, unsigned source body = .error error := by
    cases read : unsigned source body with
    | error failure => exact ⟨failure, rfl⟩
    | ok value =>
      obtain ⟨nonempty, belongs, head, _⟩ := unsigned_eq_ok.mp read
      cases body with
      | nil => exact absurd rfl nonempty
      | cons first rest =>
        -- What a numeral begins with is no underscore, and so would have to be a digit.
        have foreign := none first (mem_of_mem_trimBoth (inside List.mem_cons_self))
        have belongs := belongs first List.mem_cons_self
        have head : isUnderscore first = false := head
        simp [isBody, foreign, head] at belongs
  unfold Numeral.read
  split
  · rename_i body same
    obtain ⟨error, failed⟩ := fails (same ▸ List.subset_cons_self _ body)
    exact ⟨error, by rw [failed]; rfl⟩
  · rename_i body same
    obtain ⟨error, failed⟩ := fails (same ▸ List.subset_cons_self _ body)
    exact ⟨error, by rw [failed]; rfl⟩
  · obtain ⟨error, failed⟩ := fails (List.Subset.refl _)
    exact ⟨error, by rw [failed]; rfl⟩

section DigitLike

variable {chars : List Char} (like : ∀ char ∈ chars, isDigitLike char = true)
include like

end DigitLike

end Numeral

end MailRoom
