import Mathlib.Data.List.Forall2

/-! How a chain of steps that may each fail comes to succeed, and why it fails. -/
namespace MailRoom

variable {ε δ α β γ : Type}

theorem bind_eq_ok {result : Except ε α} {rest : α → Except ε β} {value : β} :
    result >>= rest = .ok value ↔ ∃ between, result = .ok between ∧ rest between = .ok value := by
  cases result with
  | error => constructor <;> intro success <;> simp_all [bind, Except.bind]
  | ok between => simp [bind, Except.bind]

theorem map_eq_ok {result : Except ε α} {change : α → β} {value : β} :
    result.map change = .ok value ↔ ∃ before, result = .ok before ∧ change before = value := by
  cases result <;> simp [Except.map]

theorem mapError_ok (change : ε → δ) (value : α) :
    (Except.ok value).mapError change = .ok value := rfl

theorem mapError_error (change : ε → δ) (failure : ε) :
    (Except.error failure : Except ε α).mapError change = .error (change failure) := rfl

theorem mapError_eq_ok {result : Except ε α} {change : ε → δ} {value : α} :
    result.mapError change = .ok value ↔ result = .ok value := by
  cases result <;> simp [mapError_ok, mapError_error]

theorem toOption_eq_some {result : Except ε α} {value : α} :
    result.toOption = some value ↔ result = .ok value := by
  cases result <;> simp [Except.toOption]

theorem map_of_bind {result : Except ε α} {rest : α → Except ε β} {change : β → γ} :
    (result >>= rest).map change = result >>= fun value => (rest value).map change := by
  cases result <;> rfl

theorem map_of_map {result : Except ε α} {first : α → β} {second : β → γ} :
    (result.map first).map second = result.map fun value => second (first value) := by
  cases result <;> rfl

theorem mapM_eq_ok {items : List α} {step : α → Except ε β} {values : List β} :
    items.mapM step = .ok values ↔
      List.Forall₂ (fun item value => step item = .ok value) items values := by
  induction items generalizing values with
  | nil => simp [pure, Except.pure, eq_comm]
  | cons head rest ih =>
    rw [List.mapM_cons, List.forall₂_cons_left_iff]
    simp only [bind_eq_ok, ih]
    constructor
    · rintro ⟨value, first, others, further, same⟩
      cases same
      exact ⟨value, others, first, further, rfl⟩
    · rintro ⟨value, others, first, further, rfl⟩
      exact ⟨value, first, others, further, rfl⟩

theorem mapM_eq_ok_map {items : List α} {step : α → Except ε β} {change : α → β}
    (each : ∀ item ∈ items, step item = .ok (change item)) :
    items.mapM step = .ok (items.map change) := by
  induction items with
  | nil => rfl
  | cons item rest ih =>
    rw [List.mapM_cons, each item (by simp), ih fun item member => each item (by simp [member])]
    rfl

theorem of_mapM_eq_ok {items : List α} {step : α → Except ε β} {values : List β}
    (success : items.mapM step = .ok values) : ∀ item ∈ items, ∃ value, step item = .ok value := by
  have taken := mapM_eq_ok.mp success
  clear success
  induction taken with
  | nil => exact List.forall_mem_nil _
  | cons first further ih => exact List.forall_mem_cons.mpr ⟨⟨_, first⟩, ih⟩

theorem mem_of_mapM_eq_ok {items : List α} {step : α → Except ε β} {values : List β} {value : β}
    (success : items.mapM step = .ok values) :
    value ∈ values ↔ ∃ item ∈ items, step item = .ok value := by
  have taken := mapM_eq_ok.mp success
  clear success
  induction taken with
  | nil => simp
  | cons first further ih => simp [ih, first, eq_comm]

theorem map_of_mapM_eq_ok {items : List α} {step : α → Except ε β} {values : List β}
    {before : α → γ} {behind : β → γ}
    (kept : ∀ {item value}, step item = .ok value → behind value = before item)
    (success : items.mapM step = .ok values) : values.map behind = items.map before := by
  have taken := mapM_eq_ok.mp success
  clear success
  induction taken with
  | nil => rfl
  | cons first further ih => rw [List.map_cons, List.map_cons, kept first, ih]

theorem bind_eq_error {result : Except ε α} {rest : α → Except ε β} {failure : ε} :
    result >>= rest = .error failure ↔
      result = .error failure ∨ ∃ between, result = .ok between ∧ rest between = .error failure := by
  cases result with
  | error => simp [bind, Except.bind]
  | ok between => simp [bind, Except.bind]

theorem mapError_eq_error {result : Except ε α} {change : ε → δ} {failure : δ} :
    result.mapError change = .error failure ↔
      ∃ before, result = .error before ∧ change before = failure := by
  cases result <;> simp [mapError_ok, mapError_error]

/-- Items that are taken one by one fail at the first that is not taken. -/
theorem mapM_eq_error {items : List α} {step : α → Except ε β} {failure : ε} :
    items.mapM step = .error failure ↔ ∃ before item after values,
      items = before ++ item :: after ∧ before.mapM step = .ok values ∧
        step item = .error failure := by
  induction items with
  | nil => simp [pure, Except.pure]
  | cons head rest ih =>
    rw [List.mapM_cons, bind_eq_error]
    constructor
    · rintro (first | ⟨value, first, further⟩)
      · exact ⟨[], head, rest, [], rfl, rfl, first⟩
      · rcases bind_eq_error.mp further with further | ⟨_, _, failed⟩
        · obtain ⟨before, item, after, values, rfl, taken, failed⟩ := ih.mp further
          refine ⟨head :: before, item, after, value :: values, rfl, ?_, failed⟩
          rw [List.mapM_cons]
          exact bind_eq_ok.mpr ⟨value, first, bind_eq_ok.mpr ⟨values, taken, rfl⟩⟩
        · cases failed
    · rintro ⟨before, item, after, values, split, taken, failed⟩
      cases before with
      | nil =>
        cases split
        exact .inl failed
      | cons other before =>
        cases split
        rw [List.mapM_cons] at taken
        obtain ⟨value, first, taken⟩ := bind_eq_ok.mp taken
        obtain ⟨values, taken, _⟩ := bind_eq_ok.mp taken
        refine .inr ⟨value, first, bind_eq_error.mpr (.inl (ih.mpr ?_))⟩
        exact ⟨before, item, after, values, rfl, taken, failed⟩

theorem mem_of_mapM_eq_error {items : List α} {step : α → Except ε β} {failure : ε}
    (failed : items.mapM step = .error failure) : ∃ item ∈ items, step item = .error failure := by
  obtain ⟨_, item, _, _, rfl, _, failed⟩ := mapM_eq_error.mp failed
  exact ⟨item, List.mem_append_right _ List.mem_cons_self, failed⟩

/-- A chain of steps that fails for such reasons only, if it fails. -/
def FailsOnly (reason : ε → Prop) (result : Except ε α) : Prop :=
  ∀ failure, result = .error failure → reason failure

namespace FailsOnly

variable {reason : ε → Prop} {result : Except ε α}

theorem ok (value : α) : FailsOnly reason (.ok value) := by
  intro failure failed
  cases failed

theorem error {failure : ε} (good : reason failure) : FailsOnly reason (.error failure : Except ε α) := by
  intro other same
  cases same
  exact good

theorem bind {rest : α → Except ε β} (first : FailsOnly reason result)
    (further : ∀ value, result = .ok value → FailsOnly reason (rest value)) :
    FailsOnly reason (result >>= rest) := by
  cases result with
  | error failure => exact .error (first failure rfl)
  | ok value => exact further value rfl

theorem mapError {change : ε → δ} {reason : δ → Prop}
    (fails : FailsOnly (fun failure => reason (change failure)) result) :
    FailsOnly reason (result.mapError change) := by
  cases result with
  | error failure => exact .error (fails failure rfl)
  | ok value => exact .ok value

theorem mapM {items : List α} {step : α → Except ε β}
    (each : ∀ item ∈ items, FailsOnly reason (step item)) : FailsOnly reason (items.mapM step) := by
  induction items with
  | nil => exact .ok []
  | cons item rest ih =>
    rw [List.mapM_cons]
    refine .bind (each item (by simp)) fun value _ => ?_
    exact .bind (ih fun item member => each item (by simp [member])) fun values _ => .ok _

end FailsOnly

/-- Two outcomes side by side: both are values or both are failures, and these correspond. -/
inductive Paired (Alike : ε → δ → Prop) (Same : α → β → Prop) : Except ε α → Except δ β → Prop where
  | ok {value : α} {other : β} (same : Same value other) : Paired Alike Same (.ok value) (.ok other)
  | error {failure : ε} {other : δ} (alike : Alike failure other) :
      Paired Alike Same (.error failure) (.error other)

namespace Paired

variable {α' β' : Type} {Alike : ε → δ → Prop} {Same : α → β → Prop} {Further : α' → β' → Prop}
  {first : Except ε α} {second : Except δ β}

theorem bind {rest : α → Except ε α'} {rest' : β → Except δ β'}
    (paired : Paired Alike Same first second)
    (further : ∀ {value other}, Same value other → Paired Alike Further (rest value) (rest' other)) :
    Paired Alike Further (first >>= rest) (second >>= rest') := by
  cases paired with
  | ok same => exact further same
  | error alike => exact .error alike

theorem imp {Milder : ε → δ → Prop} {Weaker : α → β → Prop} (paired : Paired Alike Same first second)
    (milder : ∀ {failure other}, Alike failure other → Milder failure other)
    (weaker : ∀ {value other}, Same value other → Weaker value other) :
    Paired Milder Weaker first second := by
  cases paired with
  | ok same => exact .ok (weaker same)
  | error alike => exact .error (milder alike)

theorem map {change : α → α'} {change' : β → β'} (paired : Paired Alike Same first second)
    (further : ∀ {value other}, Same value other → Further (change value) (change' other)) :
    Paired Alike Further (first.map change) (second.map change') := by
  cases paired with
  | ok same => exact .ok (further same)
  | error alike => exact .error alike

theorem mapError {ε' δ' : Type} {Further : ε' → δ' → Prop} {change : ε → ε'} {change' : δ → δ'}
    (paired : Paired Alike Same first second)
    (further : ∀ {failure other}, Alike failure other → Further (change failure) (change' other)) :
    Paired Further Same (first.mapError change) (second.mapError change') := by
  cases paired with
  | ok same => exact .ok same
  | error alike => exact .error (further alike)

theorem mapM {step : α → Except ε α'} {step' : β → Except δ β'} {items : List α} {others : List β}
    (each : ∀ {item other}, Same item other → Paired Alike Further (step item) (step' other))
    (same : List.Forall₂ Same items others) :
    Paired Alike (List.Forall₂ Further) (items.mapM step) (others.mapM step') := by
  induction same with
  | nil => exact .ok .nil
  | cons head tail ih =>
    rw [List.mapM_cons, List.mapM_cons]
    exact (each head).bind fun found => ih.bind fun further => .ok (.cons found further)

end Paired

end MailRoom
