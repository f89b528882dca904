import MailRoom.Machine.Stop
import MailRoom.Observer.Registry

/-! Calling the observers on a list. The walk goes by position over the list as it stands at each
moment: an observer enrolled ahead of the position moves the current one back into the way, one
enrolled behind it is reached by the same walk. -/
namespace MailRoom

/-- What an observer of an event sees of the state. -/
structure Glimpse where
  pc : Option Int
  steps : Nat
  hands : Option Value
  deriving DecidableEq

inductive Occasion where
  /-- An event that comes with no details. -/
  | plain
  | start (glimpse : Glimpse)
  | instruction (glimpse : Glimpse) (instruction : Instruction)
  | error (glimpse : Glimpse) (incident : Incident)
  | finish (glimpse : Glimpse) (status : Status)
  | step (step instruction : Int) (opcode : Opcode) (location : Option Location)
  deriving DecidableEq

structure Call where
  topic : Topic
  name : String
  occasion : Occasion
  deriving DecidableEq

/-- The register of observers and the calls made, the newest first. -/
structure Audience where
  registry : Registry
  calls : List Call

namespace Audience

def empty : Audience := ⟨.empty, []⟩

/-- Whether an observer is called on an occasion: one of every n-th step only when its period
divides the step. -/
def wants (occasion : Occasion) (handler : Handler) : Bool :=
  match handler.request.topic, occasion with
  | .every period, .step step _ _ _ => step % period = 0
  | _, _ => true

/-- The call noted and counted. -/
def note (audience : Audience) (slot : Slot) (position : Nat) (handler : Handler)
    (occasion : Occasion) : Audience where
  registry := audience.registry.recount slot
    (Handler.countAt position (audience.registry.get slot)) (Handler.map_request_countAt _ _)
  calls := ⟨handler.request.topic, handler.request.name, occasion⟩ :: audience.calls

/-- What an observer does at a call; a fault or a halt cuts the rest off. -/
def play (registry : Registry) : List Cue → Registry × Option Stop
  | [] => (registry, none)
  | .fault _ kind message :: _ => (registry, some (.fault (.ofFault (.raised kind message))))
  | .halt _ :: _ => (registry, some .halt)
  | .enrol _ topic name priority plan :: rest =>
    match registry.enrol ⟨topic, name, priority, plan⟩ with
    | .ok enrolled => play enrolled rest
    | .error error => (registry, some (.refused error))

theorem load_play_le (registry : Registry) (cues : List Cue) (slot : Slot) :
    (play registry cues).1.load slot ≤ registry.load slot + Cue.totalWeight cues := by
  induction cues generalizing registry with
  | nil => simp [play]
  | cons cue rest ih =>
    cases cue with
    | fault => simp [play]
    | halt => simp [play]
    | enrol call topic name priority plan =>
      simp only [play, Cue.totalWeight, Cue.weight]
      split
      · rename_i enrolled success
        have added := Registry.load_enrol_le success slot
        have later := ih enrolled
        simp only at added
        omega
      · simp

theorem load_note {audience : Audience} {slot : Slot} {position : Nat} {handler : Handler}
    (found : (audience.registry.get slot)[position]? = some handler) (occasion : Occasion) :
    (audience.note slot position handler occasion).registry.load slot +
      Cue.totalWeight handler.due = audience.registry.load slot := by
  simp only [Registry.load, note, Registry.get_recount, if_true, Handler.countAt_of_found found]
  obtain ⟨inside, rfl⟩ := List.getElem?_eq_some_iff.mp found
  have spent := Handler.weight_called (audience.registry.get slot)[position]
  generalize audience.registry.get slot = handlers at inside spent ⊢
  have parts : handlers = handlers.take position ++ handlers[position] ::
      handlers.drop (position + 1) := by
    rw [← List.drop_eq_getElem_cons inside, List.take_append_drop]
  have whole := congrArg Handler.totalWeight parts
  simp only [Handler.totalWeight_append, Handler.totalWeight] at whole
  rw [List.set_eq_take_append_cons_drop, if_pos inside]
  simp only [Handler.totalWeight_append, Handler.totalWeight]
  omega

/-- Calls the observers of a list from a position on, until the list ends or one of them stops. -/
def walk (slot : Slot) (occasion : Occasion) (position : Nat) (audience : Audience) :
    Audience × Option Stop :=
  match found : (audience.registry.get slot)[position]? with
  | none => (audience, none)
  | some handler =>
    if wants occasion handler then
      let noted := audience.note slot position handler occasion
      match played : play noted.registry handler.due with
      | (registry, some stop) => ({ noted with registry }, some stop)
      | (registry, none) => walk slot occasion (position + 1) { noted with registry }
    else walk slot occasion (position + 1) audience
termination_by audience.registry.load slot - position
decreasing_by
  · have inside := (List.getElem?_eq_some_iff.mp found).1
    have room := Registry.length_le_load audience.registry slot
    have before := load_note found occasion
    have after := load_play_le noted.registry handler.due slot
    rw [played] at after
    simp only [noted] at after ⊢
    omega
  · have inside := (List.getElem?_eq_some_iff.mp found).1
    have room := Registry.length_le_load audience.registry slot
    omega

def emit (audience : Audience) (event : Event) (occasion : Occasion) : Audience × Option Stop :=
  walk (.event event) occasion 0 audience

def tick (audience : Audience) (occasion : Occasion) : Audience × Option Stop :=
  walk .rules occasion 0 audience

end Audience

end MailRoom
