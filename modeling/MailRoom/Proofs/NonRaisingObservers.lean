import MailRoom.Proofs.RegistrationOrder
import MailRoom.Proofs.WatchedSessions

/-! Observers who only take note and enrol one another. Main statements: `Audience.Mild.walk`, by
which none of them ever raises anything when called, and `Session.undisturbed_of_mild`, by which
none does so in the whole course of an execution. -/
namespace MailRoom

/-- Something that an observer can be called for. -/
def Topic.Known : Topic → Prop
  | event name => (Event.ofName? name).isSome
  | every period => 0 < period

instance : DecidablePred Topic.Known
  | .event name => inferInstanceAs (Decidable ((Event.ofName? name).isSome = true))
  | .every period => inferInstanceAs (Decidable (0 < period))

/-- A cue that only enrols somebody, whose own cues do no more either. -/
inductive Cue.Mild : Cue → Prop where
  | enrol {call : Int} {topic : Topic} {name : String} {priority : Int} {plan : List Cue}
      (known : topic.Known) (further : ∀ cue ∈ plan, Mild cue) :
      Mild (.enrol call topic name priority plan)

def Registry.Mild (registry : Registry) : Prop :=
  ∀ slot, ∀ handler ∈ registry.get slot, ∀ cue ∈ handler.request.plan, cue.Mild

namespace Registry

variable {registry enrolled : Registry} {request : Request}

theorem enrol_refused :
    (∃ error, registry.enrol request = .error error) ↔ ¬request.topic.Known := by
  unfold enrol
  cases topic : request.topic with
  | event word => cases named : Event.ofName? word <;> simp [Topic.Known, named]
  | every period => by_cases refused : period ≤ 0 <;> simp [Topic.Known, refused]

/-- What an enrolment does: the newcomer is put on the one list asked for. -/
theorem enrol_eq_ok (success : registry.enrol request = .ok enrolled) :
    (∃ name event, request.topic = .event name ∧ Event.ofName? name = some event ∧
      enrolled = registry.put (.event event)
        (Priority.sort Handler.priority (registry.get (.event event) ++ [.ofRequest request]))
        fun _ _ => Priority.descending_sort _) ∨
    ∃ period, request.topic = .every period ∧ 0 < period ∧
      enrolled = registry.put .rules (registry.get .rules ++ [.ofRequest request])
        fun _ named => by cases named := by
  unfold enrol at success
  cases topic : request.topic with
  | event name =>
    cases named : Event.ofName? name with
    | none => simp [topic, named] at success
    | some event =>
      simp only [topic, named, Except.ok.injEq] at success
      exact .inl ⟨name, event, rfl, named, success.symm⟩
  | every period =>
    by_cases refused : period ≤ 0
    · simp [topic, refused] at success
    · simp only [topic, refused, if_false, Except.ok.injEq] at success
      exact .inr ⟨period, rfl, Int.not_le.mp refused, success.symm⟩

theorem Mild.put (mild : registry.Mild) {slot : Slot} {handlers : List Handler}
    {descending : ∀ event, slot = .event event → Priority.Descending Handler.priority handlers}
    (each : ∀ handler ∈ handlers, ∀ cue ∈ handler.request.plan, cue.Mild) :
    (registry.put slot handlers descending).Mild := by
  intro other handler member
  rw [get_put] at member
  split at member
  · exact each handler member
  · exact mild other handler member

theorem Mild.enrol (mild : registry.Mild) (request : Request) (known : request.topic.Known)
    (plan : ∀ cue ∈ request.plan, cue.Mild) :
    ∃ enrolled, registry.enrol request = .ok enrolled ∧ enrolled.Mild := by
  cases granted : registry.enrol request with
  | error error => exact absurd known (enrol_refused.mp ⟨error, granted⟩)
  | ok enrolled =>
    refine ⟨enrolled, rfl, ?_⟩
    have joined (slot : Slot) : ∀ handler ∈ registry.get slot ++ [.ofRequest request],
        ∀ cue ∈ handler.request.plan, cue.Mild := fun handler member => by
      rcases List.mem_append.mp member with present | new
      · exact mild slot handler present
      · exact List.mem_singleton.mp new ▸ plan
    obtain ⟨_, event, _, _, rfl⟩ | ⟨_, _, _, rfl⟩ := enrol_eq_ok granted
    · refine mild.put fun handler member => ?_
      exact joined _ handler ((Priority.perm_sort _ _).subset member)
    · exact mild.put (joined .rules)

theorem mild_ofRequests {requests : List Request}
    (each : ∀ request ∈ requests, ∀ cue ∈ request.plan, cue.Mild) :
    (ofRequests requests).Mild := by
  intro slot handler member
  have listed : handler.request ∈ Request.roster requests slot := by
    rw [← listed_ofRequests]
    exact List.mem_map_of_mem member
  exact each _ (Request.mem_of_mem_roster listed)

end Registry

namespace Audience

def Mild (audience : Audience) : Prop := audience.registry.Mild

variable {audience : Audience}

theorem play_mild {registry : Registry} (mild : registry.Mild) {cues : List Cue}
    (each : ∀ cue ∈ cues, cue.Mild) :
    ∃ played, play registry cues = (played, none) ∧ played.Mild := by
  induction cues generalizing registry with
  | nil => exact ⟨registry, rfl, mild⟩
  | cons cue rest ih =>
    cases each cue (by simp) with
    | @enrol call topic name priority plan known further =>
      obtain ⟨enrolled, success, still⟩ := mild.enrol ⟨topic, name, priority, plan⟩ known further
      simp only [play, success]
      exact ih still fun cue member => each cue (List.mem_cons_of_mem _ member)

theorem Mild.note (mild : audience.Mild) (slot : Slot) (position : Nat) (handler : Handler)
    (occasion : Occasion) : (audience.note slot position handler occasion).Mild := by
  intro other one member
  have request : one.request ∈ _ := List.mem_map_of_mem member
  rw [Audience.note, Registry.map_request_recount] at request
  obtain ⟨before, present, same⟩ := List.mem_map.mp request
  rw [← same]
  exact mild other before present

/-- None of those who are called raises anything, and those who come in are as mild. -/
theorem Mild.walk (mild : audience.Mild) (slot : Slot) (occasion : Occasion) (position : Nat) :
    (audience.walk slot occasion position).2 = none ∧
      (audience.walk slot occasion position).1.Mild := by
  fun_induction Audience.walk slot occasion position audience with
  | case1 => exact ⟨rfl, mild⟩
  | case2 position audience handler found wanted noted registry stop played =>
    have due : ∀ cue ∈ handler.due, cue.Mild := fun cue member =>
      mild slot handler (List.mem_of_getElem? found) cue (List.mem_of_mem_filter member)
    obtain ⟨_, calm, _⟩ := play_mild (mild.note slot position handler occasion) due
    cases calm.symm.trans played
  | case3 position audience handler found wanted noted registry played ih =>
    have due : ∀ cue ∈ handler.due, cue.Mild := fun cue member =>
      mild slot handler (List.mem_of_getElem? found) cue (List.mem_of_mem_filter member)
    obtain ⟨_, calm, still⟩ := play_mild (mild.note slot position handler occasion) due
    cases calm.symm.trans played
    exact ih still
  | case4 position audience handler found unwanted ih => exact ih mild

end Audience

namespace Session

variable {machine : Machine} {session : Session} {pc : Int} {instruction : Instruction}

theorem emit_mild (mild : session.audience.Mild) (event : Event) (occasion : Occasion) :
    (session.emit event occasion).2 = none ∧ (session.emit event occasion).1.audience.Mild :=
  mild.walk _ occasion 0

theorem announce_mild (mild : session.audience.Mild) :
    (session.announce machine pc instruction).2 = none ∧
      (session.announce machine pc instruction).1.audience.Mild :=
  mild.walk _ _ 0

theorem acknowledge_mild (mild : session.audience.Mild) :
    (session.acknowledge pc instruction).2 = none ∧
      (session.acknowledge pc instruction).1.audience.Mild := by
  unfold acknowledge
  have heard := emit_mild mild .afterInstruction (.instruction session.glimpse instruction)
  cases told : session.emit .afterInstruction (.instruction session.glimpse instruction) with
  | mk next stop =>
    rw [told] at heard
    obtain ⟨rfl, still⟩ := heard
    exact still.walk _ _ 0

theorem audience_carryOut :
    (carryOut machine pc instruction session).1.audience = session.audience := rfl

theorem audience_checkLimit :
    (checkLimit machine pc instruction session).1.audience = session.audience := by
  unfold checkLimit
  split <;> rfl

theorem step_mild (mild : session.audience.Mild) :
    ¬session.RaisesAtStep machine ∧ (session.step machine).1.audience.Mild := by
  have carried_mild (pc : Int) (instruction : Instruction) :
      ((session.announce machine pc instruction).andThen
        (carryOut machine pc instruction)).1.audience.Mild := by
    obtain ⟨calm, still⟩ := @announce_mild machine session pc instruction mild
    cases announced : session.announce machine pc instruction with
    | mk told stop =>
      rw [announced] at calm still
      cases calm
      exact audience_carryOut.symm ▸ still
  constructor
  · intro raises
    cases raises with
    | before found objects => cases announce_mild mild |>.1.symm.trans objects
    | @behind pc instruction done raised found carried objects =>
      have still := carried_mild pc instruction
      rw [carried] at still
      cases acknowledge_mild still |>.1.symm.trans objects
  · cases found : machine.program.fetch session.state with
    | error reason =>
      simp only [step, found]
      exact mild
    | ok place =>
      obtain ⟨pc, instruction⟩ := place
      have still := carried_mild pc instruction
      rw [step_of_fetched found]
      cases carried : (session.announce machine pc instruction).andThen
        (carryOut machine pc instruction) with
      | mk done stop =>
        rw [carried] at still
        cases stop with
        | some stop => exact still
        | none =>
          obtain ⟨calm, still⟩ := @acknowledge_mild done pc instruction still
          simp only [Progress.andThen]
          cases told : done.acknowledge pc instruction with
          | mk shown stop =>
            rw [told] at calm still
            cases calm
            exact audience_checkLimit.symm ▸ still

theorem finish_mild (mild : session.audience.Mild) (error : Option Incident) (raised : Stop) :
    (session.finish error).2 ≠ .error raised := by
  unfold finish
  have heard := emit_mild mild .programEnd
    (.finish session.glimpse (Verdict.status ⟨session.state.steps, error⟩))
  simp only
  split
  · rename_i told
    rw [told] at heard
    cases heard.1
  · exact fun returned => by cases returned

theorem undisturbed_of_mild {first : Session} (mild : first.audience.Mild) :
    ¬first.Raises machine := by
  have opens := emit_mild mild .programStart (.start first.glimpse)
  have along {passed : List Session} {last : Session} {reason : Stop}
      (course : Run machine first.opened passed last reason) :=
    course.keeps (fun session => session.audience.Mild) opens.2 fun _ mild => (step_mild mild).2
  intro raises
  cases raises with
  | atStart objects => cases opens.1.symm.trans objects
  | atStep course member objects =>
    exact (step_mild ((along course).2 _ member)).1 objects
  | onError course objects => cases (emit_mild (along course).1 _ _).1.symm.trans objects
  | behindError course objects =>
    exact finish_mild (emit_mild (along course).1 _ _).2 _ _ objects
  | behindHalt course objects => exact finish_mild (along course).1 _ _ objects

end Session

end MailRoom
