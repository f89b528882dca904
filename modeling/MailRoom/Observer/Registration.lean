import MailRoom.Observer.Registry

/-! Two ways onto the register: at once, or by a reservation that an observer takes up. -/
namespace MailRoom

/-- A place for an observer who is still to come. -/
structure Reservation where
  topic : Topic
  name : String
  priority : Int

namespace Reservation

/-- No place is reserved for what nobody can be called for. -/
def make (topic : Topic) (name : String) (priority : Int) : Except RegistryError Reservation :=
  match topic with
  | .event word =>
    match Event.ofName? word with
    | none => .error (.unknownEvent word)
    | some _ => .ok ⟨topic, name, priority⟩
  | .every period =>
    if period ≤ 0 then .error .badPeriod
    else .ok ⟨topic, name, priority⟩

/-- Whoever takes up a reservation is enrolled only now. -/
def take (reservation : Reservation) (plan : List Cue) (registry : Registry) :
    Except RegistryError Registry :=
  registry.enrol ⟨reservation.topic, reservation.name, reservation.priority, plan⟩

end Reservation

structure Registration where
  request : Request
  reserved : Bool

def Registry.register (registry : Registry) (registration : Registration) :
    Except RegistryError Registry :=
  let request := registration.request
  if registration.reserved then do
    let reservation ← Reservation.make request.topic request.name request.priority
    reservation.take request.plan registry
  else registry.enrol request

end MailRoom
