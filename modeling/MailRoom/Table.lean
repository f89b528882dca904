/-! Tables that remember the order of insertion. Main statement: `find?_insert`, which together
with `keys_insert` says that a key keeps its first place and has its latest value. -/
namespace MailRoom

variable {Key Content : Type} [DecidableEq Key]

structure Table (Key Content : Type) where
  entries : List (Key × Content)
  distinct : (entries.map Prod.fst).Nodup

namespace Table

private def put (key : Key) (content : Content) : List (Key × Content) → List (Key × Content)
  | [] => [(key, content)]
  | (present, old) :: rest =>
    if present = key then (present, content) :: rest else (present, old) :: put key content rest

private theorem keys_put (key : Key) (content : Content) (entries : List (Key × Content)) :
    (put key content entries).map Prod.fst =
      if key ∈ entries.map Prod.fst then entries.map Prod.fst
      else entries.map Prod.fst ++ [key] := by
  induction entries with
  | nil => simp [put]
  | cons head rest ih =>
    obtain ⟨present, old⟩ := head
    by_cases same : present = key
    · simp [put, same]
    · simp only [put, same, if_false, List.map_cons, ih, List.mem_cons, Ne.symm same, false_or]
      split <;> simp

private theorem put_of_not_mem {key : Key} {entries : List (Key × Content)} (content : Content)
    (missing : key ∉ entries.map Prod.fst) : put key content entries = entries ++ [(key, content)] := by
  induction entries with
  | nil => rfl
  | cons head rest ih =>
    obtain ⟨present, old⟩ := head
    simp only [List.map_cons, List.mem_cons, not_or] at missing
    simp [put, Ne.symm missing.1, ih missing.2]

private theorem lookup_put (key other : Key) (content : Content) (entries : List (Key × Content)) :
    (put key content entries).lookup other =
      if other = key then some content else entries.lookup other := by
  induction entries with
  | nil =>
    by_cases hit : other = key
    · simp [put, hit]
    · simp [put, List.lookup_cons, beq_false_of_ne hit, hit]
  | cons head rest ih =>
    obtain ⟨present, old⟩ := head
    by_cases same : present = key
    · subst present
      by_cases hit : other = key
      · simp [put, hit]
      · simp [put, List.lookup_cons, beq_false_of_ne hit, hit]
    · by_cases hit : other = present
      · subst other; simp [put, same]
      · simp [put, same, List.lookup_cons, beq_false_of_ne hit, ih]

def empty : Table Key Content := ⟨[], by simp⟩

instance : Inhabited (Table Key Content) := ⟨empty⟩

def insert (table : Table Key Content) (key : Key) (content : Content) : Table Key Content where
  entries := put key content table.entries
  distinct := by
    rw [keys_put]
    have distinct := table.distinct
    split
    · exact distinct
    · rename_i missing
      exact List.nodup_append.mpr ⟨distinct, by simp, by
        intro present member new single
        simp only [List.mem_singleton] at single
        rintro rfl
        exact missing (single ▸ member)⟩

def ofList (pairs : List (Key × Content)) : Table Key Content :=
  pairs.foldl (fun table (key, content) => table.insert key content) empty

def find? (table : Table Key Content) (key : Key) : Option Content := table.entries.lookup key

def keys (table : Table Key Content) : List Key := table.entries.map Prod.fst

/-- The first key that has this content. -/
def keyOf? [DecidableEq Content] (table : Table Key Content) (content : Content) : Option Key :=
  (table.entries.find? fun pair => pair.2 = content).map Prod.fst

@[simp] theorem find?_empty (key : Key) : (empty : Table Key Content).find? key = none := rfl

@[simp] theorem find?_insert (table : Table Key Content) (key other : Key) (content : Content) :
    (table.insert key content).find? other = if other = key then some content else table.find? other :=
  lookup_put key other content table.entries

theorem keys_insert (table : Table Key Content) (key : Key) (content : Content) :
    (table.insert key content).keys =
      if key ∈ table.keys then table.keys else table.keys ++ [key] :=
  keys_put key content table.entries

theorem entries_insert {table : Table Key Content} {key : Key} (content : Content)
    (missing : key ∉ table.keys) :
    (table.insert key content).entries = table.entries ++ [(key, content)] :=
  put_of_not_mem content missing

theorem entries_foldl {pairs : List (Key × Content)} {table : Table Key Content}
    (distinct : (table.keys ++ pairs.map Prod.fst).Nodup) :
    (pairs.foldl (fun table (key, content) => table.insert key content) table).entries =
      table.entries ++ pairs := by
  induction pairs generalizing table with
  | nil => simp
  | cons pair rest ih =>
    obtain ⟨key, content⟩ := pair
    have missing : key ∉ table.keys := fun member =>
      (List.nodup_append.mp distinct).2.2 key member key (by simp) rfl
    have grown : (table.insert key content).keys = table.keys ++ [key] := by
      rw [keys_insert, if_neg missing]
    rw [List.foldl_cons, ih (by simpa [grown] using distinct), entries_insert content missing]
    simp

theorem entries_ofList {pairs : List (Key × Content)} (distinct : (pairs.map Prod.fst).Nodup) :
    (ofList pairs).entries = pairs :=
  entries_foldl (show ((empty : Table Key Content).keys ++ pairs.map Prod.fst).Nodup from distinct)

theorem find?_eq_some {table : Table Key Content} {key : Key} {content : Content} :
    table.find? key = some content ↔ (key, content) ∈ table.entries := by
  obtain ⟨entries, distinct⟩ := table
  simp only [find?]
  induction entries with
  | nil => simp
  | cons head rest ih =>
    obtain ⟨present, old⟩ := head
    obtain ⟨missing, distinct⟩ := List.nodup_cons.mp distinct
    rw [List.lookup_cons]
    by_cases hit : key = present
    · subst hit
      have elsewhere : (key, content) ∉ rest := fun member =>
        missing (List.mem_map.mpr ⟨_, member, rfl⟩)
      simp [elsewhere, eq_comm]
    · simp [beq_false_of_ne hit, hit, ih distinct]

theorem find?_of_keyOf? [DecidableEq Content] {table : Table Key Content} {key : Key}
    {content : Content} (found : table.keyOf? content = some key) :
    table.find? key = some content := by
  obtain ⟨⟨_, _⟩, first, rfl⟩ := Option.map_eq_some_iff.mp found
  have same := List.find?_some first
  simp only [decide_eq_true_eq] at same
  exact find?_eq_some.mpr (same ▸ List.mem_of_find?_eq_some first)

end Table

end MailRoom
