import MailRoom.Proofs.NonRaisingObservers
import MailRoom.Proofs.Recorders
import Mathlib.Data.List.Forall2

/-! Observers who are enrolled while those for an event are being called. Main statement:
`Audience.emit_skips_nobody`, by which there are as many calls as the event has observers in the
end, and nobody who was there before is left out. -/
namespace MailRoom

namespace Handler

/-- The same observer, called no less often. -/
structure Leads (before after : Handler) : Prop where
  request : after.request = before.request
  calls : before.calls ≤ after.calls

instance : Std.Refl Leads := ⟨fun _ => ⟨rfl, Nat.le_refl _⟩⟩

instance : IsTrans Handler Leads :=
  ⟨fun _ _ _ first second => ⟨second.request.trans first.request, first.calls.trans second.calls⟩⟩

/-- The same observer, called at least once in between. -/
structure CalledSince (before after : Handler) : Prop where
  request : after.request = before.request
  calls : before.calls < after.calls

theorem leads_called (handler : Handler) : Leads handler handler.called :=
  ⟨rfl, Nat.le_succ _⟩

/-- A list after one call of everyone from a position on. -/
def calledFrom (position : Nat) (handlers : List Handler) : List Handler :=
  handlers.take position ++ (handlers.drop position).map called

variable {handlers enlarged : List Handler} {position : Nat} {handler : Handler}

theorem calledFrom_set (found : handlers[position]? = some handler) :
    calledFrom (position + 1) (handlers.set position handler.called) =
      calledFrom position handlers := by
  obtain ⟨inside, rfl⟩ := List.getElem?_eq_some_iff.mp found
  rw [calledFrom, calledFrom, List.drop_set_of_lt (Nat.lt_succ_self position),
    List.drop_eq_getElem_cons inside, List.take_add_one, List.take_set_of_le (Nat.le_refl position),
    List.getElem?_set_self inside]
  simp only [Option.toList_some, List.map_cons, List.append_assoc, List.singleton_append]

/-- To start one place later is to call no more. -/
theorem leads_calledFrom (position : Nat) (handlers : List Handler) :
    List.Forall₂ Leads (calledFrom (position + 1) handlers) (calledFrom position handlers) := by
  induction handlers generalizing position with
  | nil => cases position <;> exact .nil
  | cons handler rest ih =>
    cases position with
    | zero => exact .cons handler.leads_called (List.forall₂_refl _)
    | succ position => exact .cons (refl handler) (ih position)

/-- Whoever joins in, at whatever place, moves the others on at most. -/
theorem calledFrom_sublist (grown : handlers.Sublist enlarged) (position : Nat) :
    List.SublistForall₂ Leads (calledFrom position handlers) (calledFrom position enlarged) := by
  induction grown generalizing position with
  | slnil => cases position <;> exact .nil
  | @cons handlers enlarged newcomer grown ih =>
    cases position with
    | zero => exact .cons_right (ih 0)
    | succ position =>
      have later := List.sublistForall₂_iff.mpr ⟨_, leads_calledFrom position handlers, .refl _⟩
      exact .cons_right (IsTrans.trans _ _ _ later (ih position))
  | @cons_cons handlers enlarged handler grown ih =>
    cases position with
    | zero => exact .cons (refl _) (ih 0)
    | succ position => exact .cons (refl _) (ih position)

end Handler

namespace Registry

variable {registry enrolled : Registry} {request : Request}

/-- An enrolment leaves everyone on the lists, and in order. -/
theorem sublist_enrol (success : registry.enrol request = .ok enrolled) (slot : Slot) :
    (registry.get slot).Sublist (enrolled.get slot) := by
  obtain ⟨_, event, _, _, rfl⟩ | ⟨_, _, _, rfl⟩ := enrol_eq_ok success
  · rw [get_put]
    split
    · rename_i same
      rw [same, Priority.sort_append_singleton (registry.descending event)]
      exact Priority.sublist_settle _ _
    · exact .refl _
  · rw [get_put]
    split
    · rename_i same
      exact same ▸ List.sublist_append_left _ _
    · exact .refl _

end Registry

namespace Audience

variable {audience after : Audience} {slot : Slot} {occasion : Occasion} {position : Nat}

theorem sublist_play (registry : Registry) (cues : List Cue) (slot : Slot) :
    (registry.get slot).Sublist ((play registry cues).1.get slot) := by
  induction cues generalizing registry with
  | nil => exact .refl _
  | cons cue rest ih =>
    cases cue with
    | fault call kind message => exact .refl _
    | halt call => exact .refl _
    | enrol call topic name priority plan =>
      simp only [play]
      split
      · rename_i enrolled success
        exact (Registry.sublist_enrol success slot).trans (ih enrolled)
      · exact .refl _

/-- A walk that nobody cuts short makes a call for each place from its position on, as the list
stands in the end; among them is one for everyone who stood there at its beginning. -/
theorem walk_skips_nobody (plain : occasion.isStep = false)
    (inside : position ≤ (audience.registry.get slot).length)
    (calm : audience.walk slot occasion position = (after, none)) :
    ∃ made, after.calls = made.reverse ++ audience.calls ∧
      made.length + position = (after.registry.get slot).length ∧
      (((audience.registry.get slot).drop position).map (·.request.call occasion)).Sublist made ∧
      List.SublistForall₂ Handler.Leads
        (Handler.calledFrom position (audience.registry.get slot)) (after.registry.get slot) := by
  fun_induction Audience.walk slot occasion position audience with
  | case1 position audience ended =>
    obtain rfl : audience = after := (Prod.mk.inj calm).1
    have past := List.getElem?_eq_none_iff.mp ended
    refine ⟨[], rfl, by simp; omega, by simp [past], ?_⟩
    simp only [Handler.calledFrom, List.drop_eq_nil_of_le past, List.take_of_length_le past,
      List.map_nil, List.append_nil]
    exact refl _
  | case2 => cases calm
  | case3 position audience handler found wanted noted registry played ih =>
    have listed : noted.registry.get slot =
        (audience.registry.get slot).set position handler.called := by
      simp [noted, note, Handler.countAt_of_found found]
    have grown : ((audience.registry.get slot).set position handler.called).Sublist
        (registry.get slot) := by
      simpa only [played, listed] using sublist_play noted.registry handler.due slot
    have within := (List.getElem?_eq_some_iff.mp found).1
    have reached : position + 1 ≤ (registry.get slot).length :=
      Nat.le_trans within (by simpa using grown.length_le)
    obtain ⟨made, calls, counted, told, leads⟩ := ih reached calm
    refine ⟨handler.request.call occasion :: made, ?_, ?_, ?_, ?_⟩
    · simpa [noted, note, Request.call] using calls
    · rw [List.length_cons, ← counted]
      omega
    · have behind := grown.drop (position + 1)
      rw [List.drop_set_of_lt (Nat.lt_succ_self position)] at behind
      rw [drop_found found, List.map_cons]
      exact ((behind.map _).trans told).cons_cons _
    · have moved := Handler.calledFrom_sublist grown (position + 1)
      rw [Handler.calledFrom_set found] at moved
      exact IsTrans.trans _ _ _ moved leads
  | case4 position audience handler found unwanted ih =>
    exact absurd (wanted_of_event plain handler.request) unwanted

/-- Observers of an event who enrol others when called, for this event or another one. If none of
them does more than that, nobody cuts the calls short; and unless somebody does, there are as many
calls as the event has observers in the end, with one for everyone who was there before. -/
theorem emit_skips_nobody (audience : Audience) (event : Event) {occasion : Occasion}
    (plain : occasion.isStep = false) :
    (audience.Mild → (audience.emit event occasion).2 = none) ∧
    ∀ after, audience.emit event occasion = (after, none) →
      (∃ made, after.calls = made.reverse ++ audience.calls ∧
        made.length = (after.registry.get (.event event)).length ∧
        ((audience.registry.get (.event event)).map (·.request.call occasion)).Sublist made) ∧
      List.SublistForall₂ Handler.CalledSince (audience.registry.get (.event event))
        (after.registry.get (.event event)) := by
  refine ⟨fun mild => (mild.walk _ occasion 0).1, fun after calm => ?_⟩
  obtain ⟨made, calls, counted, told, leads⟩ := walk_skips_nobody plain (Nat.zero_le _) calm
  refine ⟨⟨made, calls, counted, told⟩, ?_⟩
  rw [Handler.calledFrom, List.take_zero, List.drop_zero, List.nil_append,
    List.sublistForall₂_map_left_iff, List.sublistForall₂_iff] at leads
  obtain ⟨remaining, each, among⟩ := leads
  exact List.sublistForall₂_iff.mpr
    ⟨remaining, each.imp fun before after led => ⟨led.request, led.calls⟩, among⟩

/-- The first of two enrols somebody ahead of everyone, whereby it is called again, and somebody
behind. -/
theorem emit_skips_nobody_twice : ∃ audience after : Audience, audience.Mild ∧
    audience.emit .programStart .plain = (after, none) ∧
    after.calls.length = (after.registry.get (.event .programStart)).length ∧
    (audience.registry.get (.event .programStart)).map (·.request.name) = ["first", "second"] ∧
    (after.registry.get (.event .programStart)).map (·.request.name) =
      ["ahead", "first", "second", "behind"] ∧
    after.calls.map Call.name = ["first", "first", "second", "behind"].reverse := by
  let start := Topic.event "program_start"
  let requests : List Request :=
    [⟨start, "first", 0, [.enrol 1 start "ahead" 9 [], .enrol 1 start "behind" (-3) []]⟩,
      ⟨start, "second", 0, []⟩]
  let audience : Audience := ⟨Registry.ofRequests requests, []⟩
  have known : start.Known := rfl
  have mild : audience.Mild := Registry.mild_ofRequests <| by
    have ahead : (Cue.enrol 1 start "ahead" 9 []).Mild := .enrol known (by simp)
    have behind : (Cue.enrol 1 start "behind" (-3) []).Mild := .enrol known (by simp)
    simp [requests, ahead, behind]
  obtain ⟨calm, skips⟩ := @emit_skips_nobody audience .programStart .plain rfl
  have emitted : audience.emit .programStart .plain =
    ((audience.emit .programStart .plain).1, none) := Prod.ext rfl (calm mild)
  obtain ⟨⟨made, calls, counted, _⟩, _⟩ := skips _ emitted
  have many : (audience.emit .programStart .plain).1.calls.length = made.length := by
    rw [calls, List.length_append, List.length_reverse]
    rfl
  exact ⟨audience, _, mild, emitted, many.trans counted, by decide +kernel, by decide +kernel,
    by decide +kernel⟩

end Audience

end MailRoom
