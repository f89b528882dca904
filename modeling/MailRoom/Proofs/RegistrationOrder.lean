import MailRoom.Observer.Registry
import MailRoom.Proofs.Priorities
import Mathlib.Data.List.Induction

/-! Who is on the register after some requests. Main statement: `Registry.listed_ofRequests`, by
which the observers of an event stand by priority and those of one priority as they came, the
observers of every n-th step as they came, and nobody else is there. -/
namespace MailRoom

/-- Who is to be called from which list, in this order. -/
abbrev Roster := Slot → List Request

theorem Event.ofName?_eq_some {word : String} {event : Event} :
    ofName? word = some event ↔ event.name = word := by
  constructor
  · intro named
    exact of_decide_eq_true (@List.find?_some _ (fun event : Event => event.name = word) _ _ named)
  · rintro rfl
    cases event <;> rfl

namespace Request

/-- Who is called first for an event, if it matters. -/
def Before (first second : Request) : Prop := second.priority ≤ first.priority

instance : DecidableRel Before := fun first second =>
  inferInstanceAs (Decidable (second.priority ≤ first.priority))

/-- Whoever asks for an event, by priority and otherwise as they came. -/
def listeners (requests : List Request) (event : Event) : List Request :=
  (requests.filter fun request => request.topic = .event event.name).insertionSort Before

theorem listeners_eq (requests : List Request) (event : Event) :
    listeners requests event = Priority.sort priority
      (requests.filter fun request => request.topic = .event event.name) :=
  (Priority.sort_eq_insertionSort _ _).symm

def isRule (request : Request) : Bool :=
  match request.topic with
  | .event _ => false
  | .every period => 0 < period

theorem exists_period {request : Request} (rule : request.isRule = true) :
    ∃ period, request.topic = .every period ∧ 0 < period := by
  unfold isRule at rule
  split at rule
  · cases rule
  · rename_i period periodic
    exact ⟨period, periodic, of_decide_eq_true rule⟩

/-- Whoever has asked for something, on the list for it. -/
def roster (requests : List Request) : Roster
  | .event event => listeners requests event
  | .rules => requests.filter isRule

theorem mem_of_mem_roster {requests : List Request} {slot : Slot} {request : Request}
    (member : request ∈ roster requests slot) : request ∈ requests := by
  cases slot with
  | event event => exact (List.mem_filter.mp ((List.mem_insertionSort Before).mp member)).1
  | rules => exact (List.mem_filter.mp member).1

end Request

namespace Registry

/-- Who is on the lists. -/
def listed (registry : Registry) : Roster := fun slot => (registry.get slot).map Handler.request

/-- A register after one more request; what is refused leaves it as it was. -/
def grant (registry : Registry) (request : Request) : Registry :=
  (registry.enrol request).toOption.getD registry

def ofRequests (requests : List Request) : Registry := requests.foldl grant empty

variable {registry : Registry} {requests : List Request} {request : Request}

theorem listed_recount {slot : Slot} {handlers : List Handler}
    (same : handlers.map Handler.request = (registry.get slot).map Handler.request) :
    (registry.recount slot handlers same).listed = registry.listed :=
  funext map_request_recount

theorem ofRequests_append (requests : List Request) (newcomer : Request) :
    ofRequests (requests ++ [newcomer]) = (ofRequests requests).grant newcomer :=
  List.foldl_append

/-- A newcomer is put on the list it asks for, and on no other. -/
theorem get_grant (registry : Registry) (newcomer : Request) (slot : Slot) :
    (registry.grant newcomer).get slot =
      match slot with
      | .event event =>
        if newcomer.topic = .event event.name then
          Priority.sort Handler.priority (registry.get slot ++ [.ofRequest newcomer])
        else registry.get slot
      | .rules =>
        if newcomer.isRule then registry.get slot ++ [.ofRequest newcomer]
        else registry.get slot := by
  unfold grant enrol
  cases topic : newcomer.topic with
  | event word =>
    have unruly : newcomer.isRule = false := by simp [Request.isRule, topic]
    cases named : Event.ofName? word with
    | none =>
      have unknown (event : Event) : word ≠ event.name := fun same => by
        cases named.symm.trans (Event.ofName?_eq_some.mpr same.symm)
      cases slot <;> simp [named, unruly, unknown, Except.toOption]
    | some event =>
      obtain rfl := Event.ofName?_eq_some.mp named
      cases slot with
      | rules => simp [named, unruly, Except.toOption]
      | event other =>
        by_cases same : other = event
        · subst same
          simp [named, Except.toOption]
        · have apart : event.name ≠ other.name := fun alike => same <|
            Option.some.inj ((Event.ofName?_eq_some.mpr alike.symm).symm.trans named)
          simp [named, Except.toOption, same, apart]
  | every period =>
    have silent (event : Event) : Topic.every period ≠ .event event.name := by simp
    by_cases refused : period ≤ 0
    · have unruly : newcomer.isRule = false := by simp [Request.isRule, topic, refused]
      cases slot <;> simp [refused, unruly, Except.toOption]
    · have rule : newcomer.isRule = true := by
        simp only [Request.isRule, topic, decide_eq_true_eq]
        omega
      cases slot <;> simp [refused, rule, Except.toOption]

theorem listed_grant (registry : Registry) (newcomer : Request) (slot : Slot) :
    (registry.grant newcomer).listed slot =
      match slot with
      | .event event =>
        if newcomer.topic = .event event.name then
          Priority.sort Request.priority (registry.listed slot ++ [newcomer])
        else registry.listed slot
      | .rules =>
        if newcomer.isRule then registry.listed slot ++ [newcomer] else registry.listed slot := by
  rw [listed, get_grant]
  cases slot with
  | rules =>
    simp only [apply_ite (List.map Handler.request), List.map_append]
    rfl
  | event event =>
    rw [apply_ite (List.map Handler.request)]
    have sorted : (Priority.sort Handler.priority
          (registry.get (.event event) ++ [.ofRequest newcomer])).map Handler.request =
        Priority.sort Request.priority (registry.listed (.event event) ++ [newcomer]) :=
      (Priority.map_sort Handler.request _).trans (by rw [List.map_append]; rfl)
    exact congrArg (ite _ · _) sorted

/-- The requests that are granted, and no others, are on the lists they ask for. -/
theorem listed_ofRequests (requests : List Request) :
    (ofRequests requests).listed = Request.roster requests := by
  funext slot
  induction requests using List.reverseRecOn with
  | nil => cases slot with
    | rules => rfl
    | event event => cases event <;> rfl
  | append_singleton requests newcomer ih =>
    rw [ofRequests_append, listed_grant, ih]
    cases slot with
    | rules =>
      by_cases rule : newcomer.isRule <;> simp [Request.roster, rule]
    | event event =>
      by_cases named : newcomer.topic = .event event.name
      · simp [Request.roster, Request.listeners_eq, named, Priority.sort_sort_append]
      · simp [Request.roster, Request.listeners, named]

end Registry

end MailRoom
