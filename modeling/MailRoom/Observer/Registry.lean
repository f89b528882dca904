import MailRoom.Observer.Basic
import MailRoom.Observer.Priority

/-! The register of observers: a list for each event, highest priority first, and one for the
observers of every n-th step, in order of arrival. -/
namespace MailRoom

/-- An observer on the register and how often it has been called. -/
structure Handler where
  request : Request
  calls : Nat

namespace Handler

def ofRequest (request : Request) : Handler := ⟨request, 0⟩

/-- What the observer will still do. -/
def pending (handler : Handler) : List Cue :=
  handler.request.plan.filter fun cue => (handler.calls : Int) < cue.call

/-- What the observer does at its next call. -/
def due (handler : Handler) : List Cue :=
  handler.request.plan.filter fun cue => cue.call = (handler.calls : Int) + 1

def called (handler : Handler) : Handler := { handler with calls := handler.calls + 1 }

def priority (handler : Handler) : Int := handler.request.priority

theorem descending_requests {handlers : List Handler} :
    Priority.Descending Request.priority (handlers.map request) ↔
      Priority.Descending priority handlers :=
  Priority.descending_map fun _ => rfl

/-- A list after one more call of the observer at a position. -/
def countAt (position : Nat) (handlers : List Handler) : List Handler :=
  handlers.modify position called

theorem countAt_of_found {handlers : List Handler} {position : Nat} {handler : Handler}
    (found : handlers[position]? = some handler) :
    countAt position handlers = handlers.set position handler.called := by
  obtain ⟨inside, rfl⟩ := List.getElem?_eq_some_iff.mp found
  rw [countAt, List.modify_eq_take_cons_drop inside, List.set_eq_take_append_cons_drop,
    if_pos inside]

theorem map_request_countAt (position : Nat) (handlers : List Handler) :
    (countAt position handlers).map request = handlers.map request := by
  unfold countAt
  induction handlers generalizing position with
  | nil => cases position <;> rfl
  | cons handler rest ih =>
    cases position with
    | zero => rfl
    | succ position => exact congrArg (handler.request :: ·) (ih position)

/-- The observer itself and those it can still bring in. -/
def weight (handler : Handler) : Nat := 1 + Cue.totalWeight handler.pending

private theorem totalWeight_filter_or {whole first second : Cue → Bool}
    (either : ∀ cue, whole cue = (first cue || second cue))
    (apart : ∀ cue, (first cue && second cue) = false) (plan : List Cue) :
    Cue.totalWeight (plan.filter whole) =
      Cue.totalWeight (plan.filter first) + Cue.totalWeight (plan.filter second) := by
  induction plan with
  | nil => rfl
  | cons cue rest ih =>
    have choice := either cue
    have exclusive := apart cue
    cases now : first cue <;> cases later : second cue <;>
      simp_all [Cue.totalWeight] <;> omega

theorem weight_called (handler : Handler) :
    handler.weight = Cue.totalWeight handler.due + handler.called.weight := by
  have spent : Cue.totalWeight handler.pending =
      Cue.totalWeight handler.due + Cue.totalWeight handler.called.pending :=
    totalWeight_filter_or
      (fun cue => by
        rw [← Bool.decide_or]; exact decide_eq_decide.mpr (by simp only [Handler.called]; omega))
      (fun cue => by
        rw [← Bool.decide_and]; exact decide_eq_false (by simp only [Handler.called]; omega)) _
  simp only [weight]
  omega

private theorem totalWeight_filter_le (plan : List Cue) (keep : Cue → Bool) :
    Cue.totalWeight (plan.filter keep) ≤ Cue.totalWeight plan := by
  induction plan with
  | nil => exact Nat.le_refl _
  | cons cue rest ih =>
    simp only [List.filter_cons]
    split <;> simp only [Cue.totalWeight] <;> omega

def totalWeight : List Handler → Nat
  | [] => 0
  | handler :: rest => handler.weight + totalWeight rest

theorem totalWeight_append (first second : List Handler) :
    totalWeight (first ++ second) = totalWeight first + totalWeight second := by
  induction first with
  | nil => simp [totalWeight]
  | cons handler rest ih => simp only [List.cons_append, totalWeight, ih]; omega

theorem totalWeight_perm {first second : List Handler} (same : first.Perm second) :
    totalWeight first = totalWeight second := by
  induction same with
  | nil => rfl
  | cons handler _ ih => simp only [totalWeight, ih]
  | swap => simp only [totalWeight]; omega
  | trans _ _ ih further => exact ih.trans further

theorem length_le_totalWeight (handlers : List Handler) :
    handlers.length ≤ totalWeight handlers := by
  induction handlers with
  | nil => exact Nat.le_refl _
  | cons handler rest ih => simp only [List.length_cons, totalWeight, weight]; omega

theorem weight_ofRequest_le (request : Request) :
    (ofRequest request).weight ≤ 1 + Cue.totalWeight request.plan :=
  Nat.add_le_add_left (totalWeight_filter_le _ _) 1

end Handler

/-- The lists of a register. -/
inductive Slot where
  | event (event : Event)
  | rules
  deriving DecidableEq

structure HandlerLists where
  atStart : List Handler
  beforeInstruction : List Handler
  afterInstruction : List Handler
  onError : List Handler
  atEnd : List Handler
  rules : List Handler

namespace HandlerLists

def get (lists : HandlerLists) : Slot → List Handler
  | .event .programStart => lists.atStart
  | .event .beforeInstruction => lists.beforeInstruction
  | .event .afterInstruction => lists.afterInstruction
  | .event .onError => lists.onError
  | .event .programEnd => lists.atEnd
  | .rules => lists.rules

def set (lists : HandlerLists) (slot : Slot) (handlers : List Handler) : HandlerLists :=
  match slot with
  | .event .programStart => { lists with atStart := handlers }
  | .event .beforeInstruction => { lists with beforeInstruction := handlers }
  | .event .afterInstruction => { lists with afterInstruction := handlers }
  | .event .onError => { lists with onError := handlers }
  | .event .programEnd => { lists with atEnd := handlers }
  | .rules => { lists with rules := handlers }

@[simp] theorem get_set (lists : HandlerLists) (slot other : Slot) (handlers : List Handler) :
    (lists.set slot handlers).get other = if other = slot then handlers else lists.get other := by
  cases slot with
  | rules => cases other with
    | rules => rfl
    | event event => cases event <;> rfl
  | event event => cases other with
    | rules => cases event <;> rfl
    | event present => cases event <;> cases present <;> rfl

@[simp] theorem set_get (lists : HandlerLists) (slot : Slot) :
    lists.set slot (lists.get slot) = lists := by
  cases slot with
  | rules => rfl
  | event event => cases event <;> rfl

@[simp] theorem set_set (lists : HandlerLists) (slot : Slot) (first second : List Handler) :
    (lists.set slot first).set slot second = lists.set slot second := by
  cases slot with
  | rules => rfl
  | event event => cases event <;> rfl

end HandlerLists

structure Registry extends HandlerLists where
  descending : ∀ event : Event,
    Priority.Descending Handler.priority (toHandlerLists.get (.event event))

namespace Registry

def empty : Registry := ⟨⟨[], [], [], [], [], []⟩, fun event => by cases event <;> exact .nil⟩

theorem eq_of_lists {first second : Registry}
    (same : first.toHandlerLists = second.toHandlerLists) : first = second := by
  cases first
  cases same
  rfl

/-- Puts a list in the place of one, in order of priority if it is one for an event. -/
def put (registry : Registry) (slot : Slot) (handlers : List Handler)
    (descending : ∀ event, slot = .event event → Priority.Descending Handler.priority handlers) :
    Registry where
  toHandlerLists := registry.toHandlerLists.set slot handlers
  descending event := by
    rw [HandlerLists.get_set]
    split
    · rename_i same
      exact descending event same.symm
    · exact registry.descending event

@[simp] theorem get_put {registry : Registry} {slot : Slot} {handlers : List Handler}
    {descending : ∀ event, slot = .event event →
      Priority.Descending Handler.priority handlers} (other : Slot) :
    (registry.put slot handlers descending).get other =
      if other = slot then handlers else registry.get other :=
  HandlerLists.get_set ..

/-- Puts down how often the observers of a list have been called. -/
def recount (registry : Registry) (slot : Slot) (handlers : List Handler)
    (same : handlers.map Handler.request = (registry.get slot).map Handler.request) : Registry :=
  registry.put slot handlers fun event named => by
    subst named
    rw [← Handler.descending_requests, same, Handler.descending_requests]
    exact registry.descending event

@[simp] theorem get_recount {registry : Registry} {slot : Slot} {handlers : List Handler}
    {same : handlers.map Handler.request = (registry.get slot).map Handler.request}
    (other : Slot) :
    (registry.recount slot handlers same).get other =
      if other = slot then handlers else registry.get other :=
  HandlerLists.get_set ..

/-- Calls that are put down change nobody's request. -/
theorem map_request_recount {registry : Registry} {slot : Slot} {handlers : List Handler}
    {same : handlers.map Handler.request = (registry.get slot).map Handler.request}
    (other : Slot) :
    ((registry.recount slot handlers same).get other).map Handler.request =
      (registry.get other).map Handler.request := by
  rw [get_recount]
  split
  · rename_i here
    rw [here, same]
  · rfl

def enrol (registry : Registry) (request : Request) : Except RegistryError Registry :=
  let handler := Handler.ofRequest request
  match request.topic with
  | .event name =>
    match Event.ofName? name with
    | none => .error (.unknownEvent name)
    | some event =>
      .ok (registry.put (.event event)
        (Priority.sort Handler.priority (registry.get (.event event) ++ [handler]))
        fun _ _ => Priority.descending_sort _)
  | .every period =>
    if period ≤ 0 then .error .badPeriod
    else .ok (registry.put .rules (registry.get .rules ++ [handler]) fun _ named => by cases named)

def load (registry : Registry) (slot : Slot) : Nat := Handler.totalWeight (registry.get slot)

theorem length_le_load (registry : Registry) (slot : Slot) :
    (registry.get slot).length ≤ registry.load slot := Handler.length_le_totalWeight _

/-- An enrolment adds no more to a list than the new observer brings with it. -/
theorem load_enrol_le {registry enrolled : Registry} {request : Request}
    (success : registry.enrol request = .ok enrolled) (slot : Slot) :
    enrolled.load slot ≤ registry.load slot + (1 + Cue.totalWeight request.plan) := by
  have newcomer := Handler.weight_ofRequest_le request
  unfold enrol at success
  simp only at success
  split at success
  · split at success
    · cases success
    · rename_i event _
      cases success
      unfold load
      rw [get_put]
      split
      · rename_i same
        subst slot
        rw [Handler.totalWeight_perm (Priority.perm_sort _ _), Handler.totalWeight_append]
        simp only [Handler.totalWeight]
        omega
      · omega
  · split at success
    · cases success
    · cases success
      unfold load
      rw [get_put]
      split
      · rename_i same; subst slot
        simp only [Handler.totalWeight_append, Handler.totalWeight]; omega
      · omega

end Registry

end MailRoom
