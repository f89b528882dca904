import MailRoom.ParseError.Diagnostic
import MailRoom.Proofs.Places

/-! The line and the caret that a parse error is reported with. Main statement:
`Program.report_marked`, by which the caret stands below the place of the error in its line, and
what stands above the caret is that line unless other characters than line feeds have ended lines
by then. -/
namespace MailRoom

open Line (Fed shown strays)

/-- A line up to its first break is the line without its carriage returns at the end, unless there
are breaks before those. -/
theorem Line.takeWhile_eq_rdropWhile_iff (line : List Char) :
    line.takeWhile (fun char => !isBreak char) = line.rdropWhile (· = '\r') ↔
      ∀ char ∈ line.rdropWhile (· = '\r'), isBreak char = false := by
  obtain ⟨kept, returns, split, _, rest⟩ := Lexer.exists_kept line
  change line.rdropWhile (· = '\r') = kept at rest
  rw [rest, split]
  constructor
  · intro same char member
    rw [← same] at member
    simpa using List.mem_takeWhile_imp member
  · intro plain
    have stops : (List.replicate returns '\r').takeWhile (fun char => !isBreak char) = [] := by
      cases returns <;> rfl
    have inside : ∀ char ∈ kept, (!isBreak char) = true := by simpa using plain
    rw [List.takeWhile_append_of_pos inside, stops, List.append_nil]

theorem Line.getElem?_rdropWhile {head tail : List Char} {char : Char}
    (there : tail.head? = some char) (other : char ≠ '\r') :
    ((head ++ tail).rdropWhile (· = '\r'))[head.length]? = some char := by
  obtain ⟨further, rfl⟩ := List.head?_eq_some_iff.mp there
  have kept : head ++ [char] <+: (head ++ char :: further).rdropWhile (· = '\r') := by
    induction further using List.reverseRecOn with
    | nil =>
      exact ⟨[], by rw [List.append_nil, List.rdropWhile_concat_neg _ _ _ (by simpa using other)]⟩
    | append_singleton others last ih =>
      rw [← List.cons_append, ← List.append_assoc, List.rdropWhile_concat]
      split
      · exact ih rfl
      · exact ⟨others ++ [last], by simp⟩
  obtain ⟨more, same⟩ := kept
  rw [← same]
  simp

/-- An error between the head and the tail of a line, and its report. Above the caret stands the
line without its last carriage returns, so long as these hold its only breaks and only line feeds
end lines before it. -/
structure ParseError.Marked (text : String) (error : ParseError)
    (earlier head tail later : List Char) : Prop where
  fed : Fed text.toList earlier (head ++ tail) later
  place : error.position = some ⟨1 + earlier.count '\n', 1 + head.length⟩
  report : head ++ tail ≠ [] → (Diagnostic.ofError error).report text =
    "\n".intercalate ["Error occurred while parsing:",
      String.ofList (shown earlier (head ++ tail)),
      String.ofList (List.replicate head.length ' ') ++ "^",
      "ParseError: " ++ (Diagnostic.ofError error).text]
  plain : strays earlier = 0 →
    (shown earlier (head ++ tail) = (head ++ tail).rdropWhile (· = '\r') ↔
      ∀ char ∈ (head ++ tail).rdropWhile (· = '\r'), Line.isBreak char = false)
  late : strays earlier ≠ 0 →
    (Line.split earlier)[earlier.count '\n']? = some (shown earlier (head ++ tail))
  below : ∀ char, tail.head? = some char → char ≠ '\r' →
    ((head ++ tail).rdropWhile (· = '\r'))[head.length]? = some char

theorem Diagnostic.report_located {error : ParseError} {text : String}
    {earlier line later : List Char} {column : Nat} (fed : Fed text.toList earlier line later)
    (nonempty : line ≠ []) (place : error.position = some ⟨1 + earlier.count '\n', 1 + column⟩) :
    (ofError error).report text =
      "\n".intercalate ["Error occurred while parsing:", String.ofList (shown earlier line),
        String.ofList (List.replicate column ' ') ++ "^",
        "ParseError: " ++ (ofError error).text] := by
  have found := fed.getElem?_split nonempty
  have index : ((1 + earlier.count '\n' : Int) - 1).toNat = earlier.count '\n' := by omega
  have natural : ¬(1 + earlier.count '\n' : Int) < 1 := by omega
  have blanks : ((1 + column : Int) - 1).toNat = column := by omega
  simp only [report, excerpt, ofError, place, Option.map_some, natural, index, found, blanks,
    if_false, Option.getD_some, List.cons_append, List.nil_append]

/-- The report of an error in a text. -/
theorem Program.report_marked {file text : String} {mnemonics : Mnemonics} {error : ParseError}
    (failed : parse file text mnemonics = .error (.rejected error)) :
    ∃ earlier head tail later, error.Marked text earlier head tail later := by
  obtain ⟨before, after, whole, there⟩ := Program.error_place failed
  obtain ⟨earlier, head, tail, later, _, _, fed, place⟩ :=
    Line.exists_fed before [] after List.not_mem_nil
  rw [List.nil_append, List.nil_append, ← whole] at fed
  have place := there.trans (congrArg some place)
  refine ⟨earlier, head, tail, later, fed, place, fun nonempty => ?_, fun plain => ?_, ?_, ?_⟩
  · exact Diagnostic.report_located fed nonempty place
  · rw [fed.shown_of_plain plain]
    exact Line.takeWhile_eq_rdropWhile_iff _
  · exact fed.shown_of_strays
  · exact fun char => Line.getElem?_rdropWhile

private def torn : String := "INBOX\n-- a\x0cb\n ?\r"

private theorem torn_failed : Program.parse "save" torn .standard =
    .error (.rejected ⟨.unexpectedCharacter '?', "save", some ⟨3, 2⟩⟩) := by
  have failed : Token.scan "save" torn =
      .error ⟨.unexpectedCharacter '?', "save", some ⟨3, 2⟩⟩ := by
    decide +kernel
  exact bind_eq_error.mpr (.inl (mapError_eq_error.mpr ⟨_, failed, rfl⟩))

/-- A form feed in a header: the caret of an error behind it stands below another line. -/
theorem Program.report_of_other_line : ∃ error position line,
    parse "save" torn .standard = .error (.rejected error) ∧ error.position = some position ∧
      (torn.toList.splitOn '\n')[(position.line - 1).toNat]? = some line ∧ line ≠ [] ∧
      (Diagnostic.ofError error).report torn ≠
        "\n".intercalate ["Error occurred while parsing:",
          String.ofList (line.rdropWhile (· = '\r')),
          String.ofList (List.replicate (position.column - 1).toNat ' ') ++ "^",
          "ParseError: " ++ (Diagnostic.ofError error).text] :=
  ⟨_, _, " ?\r".toList, torn_failed, rfl, by decide +kernel, by decide +kernel, by decide +kernel⟩

theorem Program.report_marked_torn : ∃ error,
    parse "save" torn .standard = .error (.rejected error) ∧
      ∃ earlier head tail later, error.Marked torn earlier head tail later :=
  ⟨_, torn_failed, report_marked torn_failed⟩

end MailRoom
