import MailRoom.Observer.Registration
import MailRoom.Proofs.NonRaisingObservers
import MailRoom.Proofs.Recorders

/-! In which order observers are called. Main statement: `Audience.called_in_order`, by which those
who wait for an event are called by priority and otherwise as they came, and the observers of every
n-th step as they came, however they came onto the register and whoever was refused in between. -/
namespace MailRoom

namespace Registry

variable {registry : Registry} {registrations : List Registration}

/-- A reservation is refused for the same reason as the enrolment would be. -/
theorem make_take (registry : Registry) (topic : Topic) (name : String) (priority : Int)
    (plan : List Cue) :
    ((Reservation.make topic name priority).bind fun reservation =>
      reservation.take plan registry) = registry.enrol ⟨topic, name, priority, plan⟩ := by
  cases topic with
  | event word =>
    cases named : Event.ofName? word <;>
      simp [Reservation.make, Reservation.take, enrol, named, Except.bind]
  | every period =>
    by_cases refused : period ≤ 0 <;>
      simp [Reservation.make, Reservation.take, enrol, refused, Except.bind]

theorem register_eq (registry : Registry) (registration : Registration) :
    registry.register registration = registry.enrol registration.request := by
  unfold register
  split
  · exact make_take registry ..
  · rfl

/-- A register after one more registration; one that is refused leaves it as it was. -/
def accept (registry : Registry) (registration : Registration) : Registry :=
  (registry.register registration).toOption.getD registry

def ofRegistrations (registrations : List Registration) : Registry :=
  registrations.foldl accept empty

theorem ofRegistrations_eq :
    ofRegistrations registrations = ofRequests (registrations.map Registration.request) := by
  have same : accept = fun registry registration => registry.grant registration.request := by
    funext registry registration
    rw [accept, register_eq, grant]
  rw [ofRegistrations, same, ofRequests, List.foldl_map]

theorem accept_of_unknown {registration : Registration}
    (unknown : ¬registration.request.topic.Known) : registry.accept registration = registry := by
  obtain ⟨error, refused⟩ := enrol_refused.mpr unknown
  rw [accept, register_eq, refused]
  rfl

theorem ofRegistrations_of_unknown {earlier later : List Registration} {registration : Registration}
    (unknown : ¬registration.request.topic.Known) :
    ofRegistrations (earlier ++ registration :: later) = ofRegistrations (earlier ++ later) := by
  simp only [ofRegistrations, List.foldl_append, List.foldl_cons, accept_of_unknown unknown]

end Registry

namespace Request

instance : Std.Total Before := ⟨fun first second => Int.le_total second.priority first.priority⟩

instance : IsTrans Request Before := ⟨fun _ _ _ before further => Int.le_trans further before⟩

/-- Everyone who asks for an event, by priority, and those of one priority as they came. -/
structure InTurn (requests : List Request) (event : Event) (turn : List Request) : Prop where
  everyone : turn.Perm (requests.filter fun request => request.topic = .event event.name)
  descending : turn.Pairwise fun first second => second.priority ≤ first.priority
  stable : ∀ priority : Int, turn.filter (fun request => request.priority = priority) =
    (requests.filter fun request => request.topic = .event event.name).filter
      fun request => request.priority = priority

variable {requests turn : List Request} {request : Request} {event : Event}

theorem InTurn.topic (inTurn : InTurn requests event turn) (member : request ∈ turn) :
    request.topic = .event event.name := by
  simpa using (List.mem_filter.mp (inTurn.everyone.mem_iff.mp member)).2

/-- Sorting keeps those of one priority in their order: they form a sorted list already. -/
theorem filter_insertionSort (requests : List Request) (priority : Int) :
    (requests.insertionSort Before).filter (fun request => request.priority = priority) =
      requests.filter fun request => request.priority = priority := by
  have alike : (requests.filter fun request => request.priority = priority).Pairwise Before := by
    refine List.pairwise_of_forall_mem_list fun first member second member' => ?_
    have same : first.priority = priority := by simpa using (List.mem_filter.mp member).2
    have same' : second.priority = priority := by simpa using (List.mem_filter.mp member').2
    exact Int.le_of_eq (same'.trans same.symm)
  have kept := (List.sublist_insertionSort alike List.filter_sublist).filter
    fun request => request.priority = priority
  simp only [List.filter_filter, Bool.and_self] at kept
  have many := ((List.perm_insertionSort Before requests).filter
    fun request => request.priority = priority).length_eq
  exact (kept.eq_of_length many.symm).symm

theorem inTurn_listeners (requests : List Request) (event : Event) :
    InTurn requests event (listeners requests event) where
  everyone := List.perm_insertionSort Before _
  descending := List.pairwise_insertionSort Before _
  stable := filter_insertionSort _

end Request

namespace Request

/-- The rules whose period divides the number of a step are among the requests for rules. -/
theorem filter_strikes (requests : List Request) (step : Int) :
    requests.filter (·.topic.strikes step) =
      (requests.filter isRule).filter (·.topic.strikes step) := by
  rw [List.filter_filter]
  refine List.filter_congr fun request _ => ?_
  unfold isRule
  cases request.topic with
  | event name => rfl
  | every period => by_cases rule : 0 < period <;> simp [Topic.strikes, rule]

end Request

namespace Audience

variable {registrations : List Registration} {audience : Audience}

section Listed

variable (listed : audience.registry.listed = (Registry.ofRegistrations registrations).listed)
include listed

theorem listed_ofRegistrations (slot : Slot) :
    (audience.registry.get slot).map Handler.request =
      Request.roster (registrations.map Registration.request) slot := by
  rw [← Registry.listed_ofRequests, ← Registry.ofRegistrations_eq, ← listed]
  rfl

theorem inTurn_listed (event : Event) :
    Request.InTurn (registrations.map Registration.request) event
      ((audience.registry.get (.event event)).map Handler.request) := by
  rw [listed_ofRegistrations listed]
  exact Request.inTurn_listeners _ event

theorem emit_in_order {event : Event} (occasion : Occasion)
    (quiet : ∀ handler ∈ audience.registry.get (.event event), handler.due = []) :
    audience.emit event occasion =
      (⟨audience.registry.tally (.event event) fun _ => true,
        ((audience.registry.get (.event event)).map (·.request.call occasion)).reverse ++
          audience.calls⟩, none) := by
  have wanted : ∀ handler ∈ audience.registry.get (.event event),
      wants occasion handler = true := fun handler member => by
    have topic := (inTurn_listed listed event).topic (List.mem_map_of_mem member)
    simp [wants, topic]
  have walked := walk_quiet fun handler member (_ : wants occasion handler = true) =>
    quiet handler member
  rwa [List.filter_eq_self.mpr wanted, Registry.tally_congr wanted] at walked

/-- Of the rules those are called whose period divides the number of the step. -/
theorem tick_in_order {step : Int} (instruction : Int) (opcode : Opcode)
    (location : Option Location)
    (quiet : ∀ handler ∈ audience.registry.get .rules,
      handler.request.topic.strikes step = true → handler.due = []) :
    audience.tick (.step step instruction opcode location) =
      (⟨audience.registry.tally .rules (·.request.topic.strikes step),
        (((registrations.map Registration.request).filter (·.topic.strikes step)).map
          (·.call (.step step instruction opcode location))).reverse ++ audience.calls⟩, none) := by
  have wanted : ∀ handler ∈ audience.registry.get .rules,
      wants (.step step instruction opcode location) handler =
        handler.request.topic.strikes step := fun handler member => by
    have ruled : handler.request ∈ Request.roster (registrations.map Registration.request) .rules :=
      listed_ofRegistrations listed .rules ▸ List.mem_map_of_mem member
    exact Request.wanted_step (List.mem_filter.mp ruled).2 step instruction opcode location
  have requests : (registrations.map Registration.request).filter (·.topic.strikes step) =
      ((audience.registry.get .rules).filter (·.request.topic.strikes step)).map
        Handler.request := by
    rw [Request.filter_strikes, ← Request.roster, ← listed_ofRegistrations listed,
      List.filter_map]
    rfl
  have walked := @walk_quiet audience .rules (.step step instruction opcode location)
    fun handler member due => quiet handler member (wanted handler member ▸ due)
  rw [List.filter_congr wanted, Registry.tally_congr wanted] at walked
  rw [requests, List.map_map]
  exact walked

end Listed

/-- Observers who have come onto the register in any of its ways, when nobody does anything at a
call. Those who ask for something unknown are refused and leave no trace. Everyone who waits for an
event is called for it once, by priority and otherwise in the order of registration; of the rules
those are called once, in the order of registration, whose period divides the number of the step. -/
theorem called_in_order (registrations : List Registration) {audience : Audience}
    (listed : audience.registry.listed = (Registry.ofRegistrations registrations).listed) :
    (∀ earlier registration later, registrations = earlier ++ registration :: later →
      ((∃ error, (Registry.ofRegistrations earlier).register registration = .error error) ↔
        ¬registration.request.topic.Known) ∧
      (¬registration.request.topic.Known →
        Registry.ofRegistrations registrations = Registry.ofRegistrations (earlier ++ later))) ∧
    (∀ event occasion, (∀ handler ∈ audience.registry.get (.event event), handler.due = []) →
      Request.InTurn (registrations.map Registration.request) event
        ((audience.registry.get (.event event)).map Handler.request) ∧
      audience.emit event occasion =
        (⟨audience.registry.tally (.event event) fun _ => true,
          ((audience.registry.get (.event event)).map (·.request.call occasion)).reverse ++
            audience.calls⟩, none)) ∧
    (∀ step instruction opcode location,
      (∀ handler ∈ audience.registry.get .rules,
        handler.request.topic.strikes step = true → handler.due = []) →
      audience.tick (.step step instruction opcode location) =
        (⟨audience.registry.tally .rules (·.request.topic.strikes step),
          (((registrations.map Registration.request).filter (·.topic.strikes step)).map
            (·.call (.step step instruction opcode location))).reverse ++ audience.calls⟩, none)) := by
  refine ⟨?_, fun event occasion quiet => ⟨inTurn_listed listed event,
    emit_in_order listed occasion quiet⟩, fun step instruction opcode location quiet =>
      tick_in_order listed instruction opcode location quiet⟩
  rintro earlier registration later rfl
  refine ⟨?_, Registry.ofRegistrations_of_unknown⟩
  rw [Registry.register_eq]
  exact Registry.enrol_refused

/-- Two who are refused, one of them on a reservation, two of each priority, and two who would do
something at another call. -/
theorem called_in_order_reserved : ∃ (registrations : List Registration)
      (audience emitted ticked : Audience),
    audience.registry.listed = (Registry.ofRegistrations registrations).listed ∧
    audience.emit .programEnd .plain = (emitted, none) ∧
    emitted.calls.map Call.name = ["alarm", "siren", "note", "memo"].reverse ∧
    audience.tick (.step 6 0 .inbox none) = (ticked, none) ∧
    ticked.calls.map Call.name = ["pairs", "triples"].reverse := by
  let finish := Topic.event "program_end"
  let registrations : List Registration :=
    [⟨⟨finish, "note", 0, []⟩, false⟩, ⟨⟨finish, "alarm", 5, [.halt 2]⟩, true⟩,
      ⟨⟨.event "program_stop", "unknown", 9, []⟩, true⟩, ⟨⟨.every 2, "pairs", 0, []⟩, true⟩,
      ⟨⟨.every 0, "never", 0, []⟩, false⟩, ⟨⟨.every 4, "fours", 0, [.halt 1]⟩, false⟩,
      ⟨⟨finish, "memo", 0, []⟩, true⟩, ⟨⟨.every 3, "triples", 0, []⟩, false⟩,
      ⟨⟨finish, "siren", 5, []⟩, false⟩]
  let audience : Audience := ⟨Registry.ofRegistrations registrations, []⟩
  obtain ⟨_, emits, ticks⟩ := @called_in_order registrations audience rfl
  have quiet : ∀ handler ∈ audience.registry.get (.event .programEnd), handler.due.length = 0 := by
    decide
  have spared : ∀ handler ∈ audience.registry.get .rules,
      handler.request.topic.strikes 6 = true → handler.due.length = 0 := by
    decide
  have emitted := emits .programEnd .plain fun handler member =>
    List.eq_nil_of_length_eq_zero (quiet handler member)
  have ticked := ticks 6 0 .inbox none fun handler member strikes =>
    List.eq_nil_of_length_eq_zero (spared handler member strikes)
  exact ⟨registrations, audience, _, _, rfl, emitted.2, by decide, ticked, by decide⟩

end Audience

end MailRoom
