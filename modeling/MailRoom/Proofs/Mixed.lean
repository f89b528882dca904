import MailRoom.Level.Mixed
import MailRoom.Proofs.Numeral

/-! Values in mixed notation. Main statements: `Mixed.readParts_append`, by which the parts of a
text are read each on its own, and `Mixed.read_writes`, by which letters that are not mistaken for
anything else are read as they were written, in whatever runs and with whatever blanks. -/
namespace MailRoom.Mixed

theorem parts_eq_splitOn (text : Text) : parts text = text.splitOn (.scalar ',') := by
  induction text with
  | nil => rfl
  | cons point rest ih =>
    rw [parts, List.splitOn_cons_eq_if_modifyHead, ih, isComma]
    split
    · rfl
    · cases found : rest.splitOn (.scalar ',') with
      | nil => exact absurd found (List.splitOn_ne_nil _ _)
      | cons first others => rfl

/-- Parts without commas are found again when they are put together with commas between them. -/
theorem parts_intercalate {pieces : List Text} (free : ∀ piece ∈ pieces, .scalar ',' ∉ piece)
    (nonempty : pieces ≠ []) : parts (List.intercalate [.scalar ','] pieces) = pieces := by
  rw [parts_eq_splitOn, List.splitOn_intercalate _ free nonempty]

def readParts (pieces : List Text) : Except ValueError (List Value) :=
  (pieces.mapM fun piece => part piece.trim).map List.flatten

theorem read_eq (text : Text) : read text = readParts (parts text) := rfl

theorem readParts_cons (piece : Text) (pieces : List Text) : readParts (piece :: pieces) = (do
    let found ← part piece.trim
    let others ← readParts pieces
    return found ++ others) := by
  rw [readParts, List.mapM_cons, map_of_bind]
  congr 1
  funext found
  rw [readParts]
  cases pieces.mapM fun piece => part piece.trim <;> rfl

theorem readParts_append (before after : List Text) : readParts (before ++ after) = (do
    let earlier ← readParts before
    let later ← readParts after
    return earlier ++ later) := by
  induction before with
  | nil => exact (bind_pure (readParts after)).symm
  | cons piece before ih =>
    rw [List.cons_append, readParts_cons, readParts_cons, ih]
    simp only [bind_assoc, pure_bind, List.append_assoc]

theorem letters_scalars (chars : List Char) :
    letters (chars.map .scalar) = .ok (chars.map .letter) := by
  induction chars with
  | nil => rfl
  | cons char rest ih =>
    rw [letters] at ih ⊢
    rw [List.map_cons, List.mapM_cons, ih]
    rfl

/-- Text that may stand around a part. -/
def Blanks (text : Text) : Prop := ∀ point ∈ text, isBlank point.toNat = true

/-- What is kept stays when blanks are put around it. -/
theorem trim_padded {before text after : Text} (first : Blanks before) (last : Blanks after)
    (kept : ∀ point ∈ text, isBlank point.toNat = false) :
    Text.trim (before ++ (text ++ after)) = text :=
  (trimBoth_padded first last).trans (trimBoth_of_kept kept)

theorem comma_not_mem_blanks {text : Text} (blanks : Blanks text) : .scalar ',' ∉ text := by
  intro member
  exact absurd (blanks _ member) (by decide)

theorem comma_not_mem_padded {before text after : Text} (first : Blanks before)
    (last : Blanks after) (free : .scalar ',' ∉ text) :
    .scalar ',' ∉ before ++ (text ++ after) := by
  simp [comma_not_mem_blanks first, comma_not_mem_blanks last, free]

/-- A letter that mixed notation takes for nothing else: no comma, no blank and no digit. -/
structure Plain (char : Char) : Prop where
  comma : char ≠ ','
  blank : isBlank char.toNat = false
  digit : isDecimalDigit char.toNat = false

/-- Values written as parts: a number as its numeral, letters in runs, and blanks around either. -/
inductive Writes : List Value → List Text → Prop where
  | nothing : Writes [] []
  | number {number : Number} {values : List Value} {before after : Text} {pieces : List Text}
      (first : Blanks before) (last : Blanks after) (rest : Writes values pieces) :
      Writes (.number number :: values)
        ((before ++ (Text.ofString (Value.number number).text ++ after)) :: pieces)
  | run {chars : List Char} {values : List Value} {before after : Text} {pieces : List Text}
      (nonempty : chars ≠ []) (first : Blanks before) (last : Blanks after)
      (rest : Writes values pieces) :
      Writes (chars.map .letter ++ values) ((before ++ (chars.map .scalar ++ after)) :: pieces)

theorem exists_writes (values : List Value) : ∃ pieces, Writes values pieces := by
  have none : Blanks [] := List.forall_mem_nil _
  induction values with
  | nil => exact ⟨_, .nothing⟩
  | cons value values ih =>
    obtain ⟨pieces, rest⟩ := ih
    cases value with
    | number number => exact ⟨_, .number none none rest⟩
    | letter char => exact ⟨_, .run (List.cons_ne_nil char []) none none rest⟩

section Numeral

variable {piece : Text} {row : List Char} {value : Int}

theorem written_kept (written : Numeral.Written piece row value) :
    ∀ point ∈ piece, isBlank point.toNat = false ∧ point ≠ .scalar ',' := by
  intro point member
  obtain ⟨char, rfl, digit | rfl | rfl⟩ := written.mem point member
  · have other : char ≠ ',' := Lexer.ne_of_class digit (by decide)
    exact ⟨Lexer.not_isBlank_of_isDigit digit, by simpa using other⟩
  · decide
  · decide

/-- What a part in digits comes to: its value, unless it has too many digits. -/
theorem part_written (written : Numeral.Written piece row value) :
    part piece = if row.length ≤ Numeral.maxDigits then (Value.ofInt value).map ([·])
      else letters piece := by
  rw [part, Numeral.read_written written]
  by_cases short : row.length ≤ Numeral.maxDigits <;> simp [short]

theorem part_fitting (written : Numeral.Written piece row value)
    (short : row.length ≤ Numeral.maxDigits) {number : Number} (same : number.val = value) :
    part piece = .ok [.number number] := by
  have bounds := And.intro number.lower number.upper
  subst same
  rw [part_written written, if_pos short]
  simp [Value.ofInt, Number.ofInt?, bounds, Except.map]

theorem written_number (number : Number) :
    Numeral.Written (Text.ofString (Value.number number).text)
      (Nat.toDigits 10 number.val.natAbs) number.val :=
  Numeral.written_toString number.val

/-- No number has too many digits. -/
theorem part_number (number : Number) :
    part (Text.ofString (Value.number number).text) = .ok [.number number] := by
  have lower := number.lower
  have upper := number.upper
  have power : 10 ^ 10 ≤ 10 ^ Numeral.maxDigits := Nat.pow_le_pow_right (by decide) (by decide)
  have short : (Nat.toDigits 10 number.val.natAbs).length ≤ Numeral.maxDigits :=
    (Nat.length_toDigits_le_iff (by decide) (by decide)).mpr (by omega)
  exact part_fitting (written_number number) short rfl

end Numeral

section Run

variable {chars : List Char} (plain : ∀ char ∈ chars, Plain char)
include plain

theorem run_kept : ∀ point ∈ chars.map CodePoint.scalar,
    isBlank point.toNat = false ∧ point ≠ .scalar ',' := by
  intro point member
  obtain ⟨char, present, rfl⟩ := List.mem_map.mp member
  exact ⟨(plain char present).blank, by simpa using (plain char present).comma⟩

/-- A run of letters is not taken for a numeral, as no numeral is without a digit. -/
theorem part_run : part (chars.map .scalar) = .ok (chars.map .letter) := by
  have digitless : ∀ point ∈ chars.map CodePoint.scalar, Numeral.digit? point = none := by
    intro point member
    obtain ⟨char, present, rfl⟩ := List.mem_map.mp member
    simpa [isDecimalDigit, Numeral.digit?, CodePoint.toNat] using (plain char present).digit
  obtain ⟨error, failed⟩ := Numeral.read_digitless digitless
  simp only [part, failed, letters_scalars]

end Run

section Writes

variable {values : List Value} {pieces : List Text}

theorem Writes.free (writes : Writes values pieces)
    (plain : ∀ char, .letter char ∈ values → Plain char) :
    ∀ piece ∈ pieces, .scalar ',' ∉ piece := by
  induction writes with
  | nothing => exact List.forall_mem_nil _
  | @number number values before after pieces first last rest ih =>
    refine List.forall_mem_cons.mpr ⟨comma_not_mem_padded first last fun member => ?_,
      ih fun char member => plain char (List.mem_cons_of_mem _ member)⟩
    exact (written_kept (written_number number) _ member).2 rfl
  | @run chars values before after pieces nonempty first last rest ih =>
    refine List.forall_mem_cons.mpr ⟨comma_not_mem_padded first last fun member => ?_,
      ih fun char member => plain char (List.mem_append_right _ member)⟩
    have plain : ∀ char ∈ chars, Plain char := fun char member =>
      plain char (List.mem_append_left _ (List.mem_map_of_mem member))
    exact (run_kept plain _ member).2 rfl

theorem Writes.readParts (writes : Writes values pieces)
    (plain : ∀ char, .letter char ∈ values → Plain char) : readParts pieces = .ok values := by
  induction writes with
  | nothing => rfl
  | @number number values before after pieces first last rest ih =>
    have further := ih fun char member => plain char (List.mem_cons_of_mem _ member)
    have kept := written_kept (written_number number)
    rw [readParts_cons, trim_padded first last fun point member => (kept point member).1,
      part_number, further]
    rfl
  | @run chars values before after pieces nonempty first last rest ih =>
    have further := ih fun char member => plain char (List.mem_append_right _ member)
    have plain : ∀ char ∈ chars, Plain char := fun char member =>
      plain char (List.mem_append_left _ (List.mem_map_of_mem member))
    rw [readParts_cons, trim_padded first last fun point member => (run_kept plain point member).1,
      part_run plain, further]
    rfl

end Writes

/-- Values of which no letter is a comma, a blank or a digit can be written in mixed notation, and
are read again whichever way they are written. -/
theorem read_writes {values : List Value} (plain : ∀ char, .letter char ∈ values → Plain char) :
    (∃ pieces, Writes values pieces) ∧ ∀ pieces, Writes values pieces →
      read (List.intercalate [.scalar ','] pieces) = .ok values := by
  refine ⟨exists_writes values, fun pieces writes => ?_⟩
  by_cases empty : pieces = []
  · subst empty
    cases writes
    rfl
  · rw [read_eq, parts_intercalate (writes.free plain) empty]
    exact writes.readParts plain

/-- A number between letters that look like parts of one, in two runs and with blanks. -/
theorem read_writes_signs : ∃ values : List Value,
    values = [.number ⟨-1, by decide, by decide⟩, .letter 'i', .letter '_', .letter '+'] ∧
      (∀ char, .letter char ∈ values → Plain char) ∧
      read (Text.ofString " -1\t,i_, + ") = .ok values := by
  have plain (char : Char) (member : .letter char ∈ [Value.number ⟨-1, by decide, by decide⟩,
      .letter 'i', .letter '_', .letter '+']) : Plain char := by
    simp only [List.mem_cons, List.not_mem_nil, reduceCtorEq, Value.letter.injEq, false_or,
      or_false] at member
    rcases member with rfl | rfl | rfl <;> exact ⟨by decide, by decide, by decide⟩
  have blank : Blanks [.scalar ' '] := List.forall_mem_singleton.mpr (by decide)
  have tab : Blanks [.scalar '\t'] := List.forall_mem_singleton.mpr (by decide)
  have none : Blanks [] := List.forall_mem_nil _
  have writes := @Writes.number ⟨-1, by decide, by decide⟩ _ _ _ _ blank tab <|
    .run (List.cons_ne_nil 'i' ['_']) none none <|
      .run (List.cons_ne_nil '+' []) blank blank .nothing
  have written := (read_writes plain).2 _ writes
  exact ⟨_, rfl, plain, (congrArg read (by decide +kernel)).trans written⟩

end MailRoom.Mixed
