import MailRoom.Proofs.Spans
import MailRoom.Text.Line

/-! Lines that line feeds end, and the lines that a text is cut into, which other characters end as
well. Main statement: `Line.Fed.getElem?_split`, by which the line that has the number of a fed line
is the start of that line, or an earlier line if the text before it has breaks of other kinds. -/
namespace MailRoom

namespace Line

/-- A line of a text between what stands before and behind it, line feeds alone ending lines. -/
structure Fed (chars earlier line later : List Char) : Prop where
  text : chars = earlier ++ (line ++ later)
  begins : ∀ last ∈ earlier.getLast?, last = '\n'
  single : '\n' ∉ line
  ends : ∀ next ∈ later.head?, next = '\n'

/-- How many breaks a text has beside its line feeds; a carriage return counts as one unless a line
feed follows it. -/
def strays : List Char → Nat
  | [] => 0
  | '\r' :: '\n' :: rest => strays rest
  | char :: rest => (if isBreak char ∧ char ≠ '\n' then 1 else 0) + strays rest

/-- The line up to its first break, unless so many breaks stand before it that a line of the text
before it has its number. -/
def shown (earlier line : List Char) : List Char :=
  (split earlier)[earlier.count '\n']?.getD (line.takeWhile fun char => !isBreak char)

variable {chars earlier line later before : List Char}

/-- Around every stretch without a line feed there is a line, and line and column of the place where
the stretch begins are told by it. -/
theorem exists_fed (before middle after : List Char) (single : '\n' ∉ middle) :
    ∃ earlier head tail later, before = earlier ++ head ∧ after = tail ++ later ∧
      Fed (before ++ (middle ++ after)) earlier (head ++ (middle ++ tail)) later ∧
      Position.behind before = ⟨1 + earlier.count '\n', 1 + head.length⟩ := by
  obtain ⟨head, earlier, split, inside, stops⟩ :=
    Lexer.exists_run (fun char => decide (char ≠ '\n')) before.reverse
  obtain ⟨tail, later, rfl, inside', stops'⟩ :=
    Lexer.exists_run (fun char => decide (char ≠ '\n')) after
  have joined : before = earlier.reverse ++ head.reverse := by
    rw [← List.reverse_append, ← split, List.reverse_reverse]
  have missing : '\n' ∉ head := fun member => by simpa using inside '\n' member
  refine ⟨earlier.reverse, head.reverse, tail, later, joined, rfl, ⟨?_, ?_, ?_, ?_⟩, ?_⟩
  · simp [joined]
  · intro last found
    rw [List.getLast?_reverse] at found
    simpa [Lexer.startsWith, Option.mem_def.mp found] using stops
  · intro member
    rcases List.mem_append.mp member with member | member
    · exact missing (List.mem_reverse.mp member)
    rcases List.mem_append.mp member with member | member
    · exact single member
    · simpa using inside' '\n' member
  · intro next found
    simpa [Lexer.startsWith, Option.mem_def.mp found] using stops'
  · rw [Position.behind, split, Lexer.takeWhile_run inside stops, joined]
    simp [List.count_eq_zero.mpr missing]

/-- A carriage return that stands alone, as the head of what is behind it has it. -/
theorem head?_of_lone {char : Char} {rest : List Char}
    (lone : ∀ further, char = '\r' → rest = '\n' :: further → False) :
    char = '\r' → rest.head? ≠ some '\n' := by
  intro back found
  obtain ⟨further, same⟩ := List.head?_eq_some_iff.mp found
  exact lone further back same

theorem split_ne_nil (nonempty : chars ≠ []) : split chars ≠ [] := by
  induction chars using split.induct with
  | case1 => exact absurd rfl nonempty
  | case2 rest ih => simp [split]
  | case3 char rest lone breaks ih => rw [split, if_pos breaks]; exacts [List.cons_ne_nil _ _, lone]
  | case4 char rest lone plain ih =>
    rw [split_plain (by simpa using plain)]
    exact List.cons_ne_nil _ _

/-- What is closed by a line feed, or empty, is still so without its first character. -/
theorem closed_tail {char : Char} (closed : ∀ last ∈ (char :: before).getLast?, last = '\n') :
    ∀ last ∈ before.getLast?, last = '\n' := by
  cases before with
  | nil => simp
  | cons next further => simpa only [List.getLast?_cons_cons] using closed

theorem head?_split (nonempty : chars ≠ []) :
    (split chars).head? = some (chars.takeWhile fun char => !isBreak char) := by
  induction chars using split.induct with
  | case1 => exact absurd rfl nonempty
  | case2 rest ih => rfl
  | case3 char rest lone breaks ih =>
    rw [split_break breaks (head?_of_lone lone)]
    simp [breaks]
  | case4 char rest lone plain ih =>
    have plain : isBreak char = false := by simpa using plain
    rw [split_plain plain]
    cases rest with
    | nil => simp [split, plain]
    | cons next further => simp [plain, List.headD_eq_head?_getD, ih]

theorem split_append (closed : ∀ last ∈ before.getLast?, last = '\n') (rest : List Char) :
    split (before ++ rest) = split before ++ split rest := by
  induction before using split.induct with
  | case1 => rfl
  | case2 further ih =>
    have closed := closed_tail (closed_tail closed)
    simp only [List.cons_append, split, ih closed]
  | case3 char further lone breaks ih =>
    have lone := head?_of_lone lone
    -- A carriage return at the end of the first text is excluded, so none is paired across.
    have together : char = '\r' → (further ++ rest).head? ≠ some '\n' := by
      rintro rfl
      cases further with
      | nil => simp at closed
      | cons next others => exact lone rfl
    rw [List.cons_append, split_break breaks together, split_break breaks lone,
      ih (closed_tail closed), List.cons_append]
  | case4 char further lone plain ih =>
    have plain : isBreak char = false := by simpa using plain
    cases further with
    | nil =>
      obtain rfl := closed char rfl
      cases plain
    | cons next others =>
      have more := split_ne_nil (List.cons_ne_nil next others)
      rw [List.cons_append, split_plain plain, split_plain plain, ih (closed_tail closed)]
      obtain ⟨first, lines, cut⟩ := List.exists_cons_of_ne_nil more
      simp [cut]

/-- A text that a line feed closes has a line for each line feed and for each further break. -/
theorem length_split (closed : ∀ last ∈ before.getLast?, last = '\n') :
    (split before).length = before.count '\n' + strays before := by
  induction before using split.induct with
  | case1 => rfl
  | case2 further ih =>
    have closed := closed_tail (closed_tail closed)
    simp [split, strays, ih closed, Nat.add_right_comm]
  | case3 char further lone breaks ih =>
    rw [split_break breaks (head?_of_lone lone), strays, List.length_cons, ih (closed_tail closed)]
    by_cases feed : char = '\n'
    · simp [feed]
      omega
    · simp [feed, breaks]
      omega
    · exact lone
  | case4 char further lone plain ih =>
    have plain : isBreak char = false := by simpa using plain
    have other : char ≠ '\n' := by
      rintro rfl
      cases plain
    cases further with
    | nil => exact absurd (closed char rfl) other
    | cons next others =>
      have more := split_ne_nil (List.cons_ne_nil next others)
      have length := ih (closed_tail closed)
      obtain ⟨first, lines, cut⟩ := List.exists_cons_of_ne_nil more
      rw [split_plain plain, strays]
      · simp_all
      · exact lone

theorem Fed.takeWhile (fed : Fed chars earlier line later) :
    (line ++ later).takeWhile (fun char => !isBreak char) =
      line.takeWhile fun char => !isBreak char := by
  have stops : later.takeWhile (fun char => !isBreak char) = [] := by
    cases later with
    | nil => rfl
    | cons next further =>
      obtain rfl := fed.ends next rfl
      rfl
  rw [List.takeWhile_append, stops]
  split
  · rename_i all
    rw [List.append_nil, (List.takeWhile_prefix _).eq_of_length all]
  · rfl

/-- The line that a cut text has under the number of a fed line. -/
theorem Fed.getElem?_split (fed : Fed chars earlier line later) (nonempty : line ≠ []) :
    (split chars)[earlier.count '\n']? = some (shown earlier line) := by
  have first := head?_split (List.append_ne_nil_of_left_ne_nil nonempty later)
  rw [fed.takeWhile] at first
  rw [fed.text, split_append fed.begins, shown]
  by_cases early : earlier.count '\n' < (split earlier).length
  · rw [List.getElem?_append_left early, List.getElem?_eq_getElem early, Option.getD_some]
  · have length := length_split fed.begins
    have last : earlier.count '\n' = (split earlier).length := by omega
    rw [last, List.getElem?_append_right (Nat.le_refl _), Nat.sub_self, ← List.head?_eq_getElem?,
      first, List.getElem?_eq_none (Nat.le_refl _), Option.getD_none]

/-- Behind line feeds alone, a line is shown up to its first break. -/
theorem Fed.shown_of_plain (fed : Fed chars earlier line later) (plain : strays earlier = 0) :
    shown earlier line = line.takeWhile fun char => !isBreak char := by
  have length := length_split fed.begins
  rw [shown, List.getElem?_eq_none (by omega), Option.getD_none]

/-- Behind a break of another kind, a line is shown that stands before it. -/
theorem Fed.shown_of_strays (fed : Fed chars earlier line later) (more : strays earlier ≠ 0) :
    (split earlier)[earlier.count '\n']? = some (shown earlier line) := by
  have length := length_split fed.begins
  have early : earlier.count '\n' < (split earlier).length := by omega
  rw [shown, List.getElem?_eq_getElem early, Option.getD_some]

theorem length_splitOn (chars : List Char) :
    (chars.splitOn '\n').length = chars.count '\n' + 1 := by
  induction chars with
  | nil => rfl
  | cons char rest ih =>
    rw [List.splitOn_cons_eq_if_modifyHead]
    by_cases feed : char = '\n'
    · simp [feed, ih]
    · simp [feed, ih]

theorem Fed.getElem?_splitOn (fed : Fed chars earlier line later) :
    (chars.splitOn '\n')[earlier.count '\n']? = some line := by
  have first : ((line ++ later).splitOn '\n').head? = some line := by
    cases later with
    | nil => rw [List.append_nil, List.splitOn_eq_singleton fed.single, List.head?_cons]
    | cons next further =>
      obtain rfl := fed.ends next rfl
      rw [List.splitOn_append_cons_self_of_not_mem fed.single, List.head?_cons]
  rw [fed.text]
  rcases List.eq_nil_or_concat' earlier with rfl | ⟨before, last, rfl⟩
  · rw [List.nil_append, List.count_nil, ← List.head?_eq_getElem?, first]
  · obtain rfl := fed.begins last (by simp)
    have count : (before ++ ['\n']).count '\n' = (before.splitOn '\n').length := by
      rw [length_splitOn]
      simp
    rw [List.append_assoc, List.singleton_append, List.splitOn_append_cons_self, count,
      List.getElem?_append_right (Nat.le_refl _), Nat.sub_self, ← List.head?_eq_getElem?, first]

theorem Fed.onward {more : List Char} (fed : Fed chars earlier line later)
    (begins : ∀ next ∈ more.head?, next = '\n') :
    Fed (chars ++ more) earlier line (later ++ more) := by
  refine ⟨by simp [fed.text], fed.begins, fed.single, ?_⟩
  cases later with
  | nil => exact begins
  | cons next further => exact fed.ends

/-- Lines before a text leave its lines as they are. -/
theorem Fed.behind (fed : Fed chars earlier line later)
    (closed : ∀ last ∈ before.getLast?, last = '\n') :
    Fed (before ++ chars) (before ++ earlier) line later := by
  refine ⟨by simp [fed.text], ?_, fed.single, fed.ends⟩
  intro last found
  rw [List.getLast?_append] at found
  rcases Option.or_eq_some_iff.mp found with found | ⟨_, found⟩
  · exact fed.begins last found
  · exact closed last found

/-- Lines that only line feeds end leave what is shown for the lines behind them as it is. -/
theorem shown_behind (closed : ∀ last ∈ before.getLast?, last = '\n') (plain : strays before = 0)
    (earlier line : List Char) : shown (before ++ earlier) line = shown earlier line := by
  have length := length_split closed
  rw [shown, shown, split_append closed, List.count_append,
    List.getElem?_append_right (by omega), length, plain, Nat.add_zero, Nat.add_sub_cancel_left]

end Line

end MailRoom
