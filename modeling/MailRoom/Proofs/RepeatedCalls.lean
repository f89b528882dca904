import MailRoom.Proofs.CallOrder
import MailRoom.Proofs.LateRegistrations

/-! How often each observer is called when those for an event are called. An observer who enrols
somebody of a higher priority than its own moves itself back into the way of the calls. Main
statement: `Audience.emit_calls_at_most_once`, by which nobody is called twice as long as no
observer does so when it is called, and otherwise somebody is. -/
namespace MailRoom

/-- Whoever is enrolled by some cues: those asked for up to a fault, a halt or a refusal. -/
def Cue.granted : List Cue → List Request
  | .enrol _ topic name priority plan :: rest =>
    if topic.Known then ⟨topic, name, priority, plan⟩ :: granted rest else []
  | _ => []

namespace Registry

def join (newcomers : List Request) (handlers : List Handler) : List Handler :=
  newcomers.foldl (fun handlers newcomer =>
    Priority.sort Handler.priority (handlers ++ [.ofRequest newcomer])) handlers

theorem get_foldl_grant (registry : Registry) (newcomers : List Request) (event : Event) :
    (newcomers.foldl grant registry).get (.event event) =
      join (newcomers.filter fun newcomer => newcomer.topic = .event event.name)
        (registry.get (.event event)) := by
  induction newcomers generalizing registry with
  | nil => rfl
  | cons newcomer newcomers ih =>
    rw [List.foldl_cons, ih, get_grant]
    by_cases asked : newcomer.topic = .event event.name <;> simp [asked, join]

theorem mem_join {handler : Handler} {newcomers : List Request} {handlers : List Handler}
    (member : handler ∈ join newcomers handlers) :
    handler ∈ handlers ∨ ∃ newcomer ∈ newcomers, handler = .ofRequest newcomer := by
  induction newcomers generalizing handlers with
  | nil => exact .inl member
  | cons newcomer newcomers ih =>
    rcases ih member with before | ⟨other, later, rfl⟩
    · rcases List.mem_append.mp ((Priority.perm_sort _ _).subset before) with present | new
      · exact .inl present
      · exact .inr ⟨newcomer, List.mem_cons_self, List.mem_singleton.mp new⟩
    · exact .inr ⟨other, List.mem_cons_of_mem _ later, rfl⟩

theorem join_append (earlier later : List Request) (handlers : List Handler) :
    join (earlier ++ later) handlers = join later (join earlier handlers) :=
  List.foldl_append

end Registry

namespace Handler

/-- Whom an observer enrols for an event at its next call. -/
def newcomers (event : Event) (handler : Handler) : List Request :=
  (Cue.granted handler.due).filter fun newcomer => newcomer.topic = .event event.name

/-- Whom an observer enrols for an event at its next call comes behind it. -/
def EnrolsBehind (event : Event) (handler : Handler) : Prop :=
  ∀ newcomer ∈ handler.newcomers event, newcomer.priority ≤ handler.request.priority

def calledTimes (handler : Handler) (times : Nat) : Handler :=
  { handler with calls := handler.calls + times }

end Handler

/-- An observer as it stood before the calls or when it came, and how often it has been called
since. -/
structure Attendance where
  handler : Handler
  times : Nat

namespace Attendance

def ofRequest (request : Request) : Attendance := ⟨.ofRequest request, 0⟩

def after (attendance : Attendance) : Handler := attendance.handler.calledTimes attendance.times

/-- The observer as it stood before each of its calls. -/
def calls (attendance : Attendance) : List Handler :=
  (List.range attendance.times).map attendance.handler.calledTimes

def again (attendance : Attendance) : Attendance :=
  { attendance with times := attendance.times + 1 }

def priority (attendance : Attendance) : Int := attendance.handler.priority

def settleAll (newcomers : List Request) (present : List Attendance) : List Attendance :=
  newcomers.foldl (fun present newcomer => Priority.settle priority (ofRequest newcomer) present)
    present

variable {attendance : Attendance} {newcomer : Request} {newcomers : List Request}
  {present front back : List Attendance} {position : Nat}

theorem calls_again (attendance : Attendance) :
    attendance.again.calls = attendance.calls ++ [attendance.after] := by
  simp [calls, again, after, List.range_succ]

/-- Newcomers settle among observers as they do on the register, whether these are taken as they
stood or as they stand now. -/
theorem map_settleAll (view : Attendance → Handler)
    (same : ∀ attendance, (view attendance).priority = attendance.priority)
    (fresh : ∀ newcomer, view (ofRequest newcomer) = .ofRequest newcomer)
    (newcomers : List Request) (descending : Priority.Descending priority present) :
    (settleAll newcomers present).map view = Registry.join newcomers (present.map view) := by
  induction newcomers generalizing present with
  | nil => rfl
  | cons newcomer newcomers ih =>
    have settled : (Priority.settle priority (ofRequest newcomer) present).map view =
        Priority.sort Handler.priority (present.map view ++ [.ofRequest newcomer]) := by
      rw [Priority.sort_append_singleton ((Priority.descending_map same).mpr descending),
        ← fresh newcomer, ← Priority.map_settle view, funext same]
    have still : Priority.Descending priority
        (Priority.settle priority (ofRequest newcomer) present) := by
      rw [← Priority.sort_append_singleton descending]
      exact Priority.descending_sort _
    exact (ih still).trans (congrArg (Registry.join newcomers) settled)

theorem settleAll_cons : settleAll (newcomer :: newcomers) present =
    settleAll newcomers (Priority.settle priority (ofRequest newcomer) present) := rfl

theorem perm_settleAll (newcomers : List Request) (present : List Attendance) :
    (settleAll newcomers present).Perm (newcomers.map ofRequest ++ present) := by
  induction newcomers generalizing present with
  | nil => exact .refl _
  | cons newcomer newcomers ih =>
    rw [settleAll_cons, List.map_cons, List.cons_append]
    exact (ih _).trans (((Priority.perm_settle _ _).append_left _).trans List.perm_middle)

/-- Whoever has just come has not been called. -/
theorem perm_calls_settleAll (newcomers : List Request) (present : List Attendance) :
    ((settleAll newcomers present).flatMap calls).Perm (present.flatMap calls) := by
  have uncalled : (newcomers.map ofRequest).flatMap calls = [] := by
    simp [List.flatMap_map, calls, ofRequest]
  have same := (perm_settleAll newcomers present).flatMap_right calls
  rwa [List.flatMap_append, uncalled, List.nil_append] at same

theorem mem_settleAll (member : attendance ∈ settleAll newcomers present) :
    attendance ∈ present ∨ attendance.times = 0 := by
  rcases List.mem_append.mp ((perm_settleAll newcomers present).subset member) with new | before
  · obtain ⟨newcomer, _, rfl⟩ := List.mem_map.mp new
    exact .inr rfl
  · exact .inl before

theorem sublist_settleAll (newcomers : List Request) (present : List Attendance) :
    present.Sublist (settleAll newcomers present) := by
  induction newcomers generalizing present with
  | nil => exact .refl _
  | cons newcomer newcomers ih => exact (Priority.sublist_settle _ present).trans (ih _)

theorem settleAll_behind
    (lower : ∀ newcomer ∈ newcomers, ∀ attendance ∈ front,
      newcomer.priority ≤ attendance.handler.request.priority) :
    settleAll newcomers (front ++ back) = front ++ settleAll newcomers back := by
  induction newcomers generalizing back with
  | nil => rfl
  | cons newcomer newcomers ih =>
    rw [settleAll_cons, settleAll_cons, Priority.settle_append (lower newcomer List.mem_cons_self)]
    exact ih fun other later => lower other (List.mem_cons_of_mem _ later)

/-- Somebody of a higher priority moves one on. -/
theorem mem_drop_settle (member : attendance ∈ present.drop position)
    (higher : attendance.handler.request.priority < newcomer.priority) :
    attendance ∈ (Priority.settle priority (ofRequest newcomer) present).drop (position + 1) := by
  obtain ⟨ahead, behind, parts, settled, before⟩ :=
    @Priority.exists_settle _ priority (ofRequest newcomer) present
  rw [parts, List.drop_append] at member
  rw [settled, List.drop_append]
  rcases List.mem_append.mp member with front | back
  · exact absurd higher (Int.not_lt.mpr (before attendance (List.mem_of_mem_drop front)))
  · refine List.mem_append_right _ ?_
    by_cases within : position < ahead.length
    · rw [Nat.sub_eq_zero_of_le within]
      exact List.mem_cons_of_mem _ (List.mem_of_mem_drop back)
    · rwa [Nat.succ_sub (Nat.not_lt.mp within), List.drop_succ_cons]

theorem mem_drop_settleAll (member : attendance ∈ present.drop position)
    (higher : ∃ newcomer ∈ newcomers, attendance.handler.request.priority < newcomer.priority) :
    attendance ∈ (settleAll newcomers present).drop (position + 1) := by
  induction newcomers generalizing present with
  | nil => simp at higher
  | cons newcomer newcomers ih =>
    obtain ⟨other, among, higher⟩ := higher
    rcases List.mem_cons.mp among with rfl | later
    · rw [settleAll_cons]
      exact ((sublist_settleAll _ _).drop _).subset (mem_drop_settle member higher)
    · exact ih (((Priority.sublist_settle _ _).drop _).subset member) ⟨other, later, higher⟩

end Attendance

namespace Audience

variable {audience before now after : Audience} {slot : Slot} {event : Event} {occasion : Occasion}
  {position : Nat} {handler : Handler} {made : List Handler} {passed ahead : List Attendance}
  {one : Attendance} {registry : Registry} {stop : Option Stop}

theorem play_eq (registry : Registry) (cues : List Cue) :
    (play registry cues).1 = (Cue.granted cues).foldl Registry.grant registry := by
  induction cues generalizing registry with
  | nil => rfl
  | cons cue rest ih =>
    cases cue with
    | fault call kind message => rfl
    | halt call => rfl
    | enrol call topic name priority plan =>
      have refused : (∃ error, registry.enrol ⟨topic, name, priority, plan⟩ = .error error) ↔
        ¬topic.Known := Registry.enrol_refused
      cases answer : registry.enrol ⟨topic, name, priority, plan⟩ with
      | error error =>
        have unknown : ¬topic.Known := refused.mp ⟨error, answer⟩
        simp [play, Cue.granted, answer, unknown]
      | ok enrolled =>
        have known : topic.Known := by
          by_contra unknown
          obtain ⟨error, failed⟩ := refused.mpr unknown
          cases answer.symm.trans failed
        simp [play, Cue.granted, answer, known, ih, Registry.grant, Except.toOption]

/-- How the calls for an event have gone so far: those made, with each observer as it stood then,
and who is on the list, passed or still ahead. -/
structure Attended (event : Event) (occasion : Occasion) (before : Audience) (made : List Handler)
    (passed ahead : List Attendance) (now : Audience) : Prop where
  calls : now.calls = (made.map (·.request.call occasion)).reverse ++ before.calls
  present : now.registry.get (.event event) = (passed ++ ahead).map Attendance.after
  enrolled : (passed ++ ahead).map Attendance.handler =
    Registry.join (made.flatMap (Handler.newcomers event)) (before.registry.get (.event event))
  spent : made.Perm ((passed ++ ahead).flatMap Attendance.calls)
  /-- Until somebody enrols anyone ahead of itself, those passed have been called once. -/
  once : (∀ handler ∈ made, handler.EnrolsBehind event) →
    (∀ one ∈ passed, one.times = 1) ∧ ∀ one ∈ ahead, one.times = 0
  /-- From then on somebody has been called twice or is about to be. -/
  twice : (∃ handler ∈ made, ¬handler.EnrolsBehind event) →
    (∃ one ∈ passed ++ ahead, 2 ≤ one.times) ∨ ∃ one ∈ ahead, 1 ≤ one.times

namespace Attended

theorem start (audience : Audience) (event : Event) (occasion : Occasion) :
    Attended event occasion audience [] []
      ((audience.registry.get (.event event)).map fun handler => ⟨handler, 0⟩) audience where
  calls := rfl
  present := by simp [Attendance.after, Handler.calledTimes, Function.comp_def]
  enrolled := by simp [Registry.join, Function.comp_def]
  spent := by simp [List.flatMap_map, Attendance.calls]
  once _ := by simp
  twice := by simp

/-- Nobody who has been passed is of a lower priority than one who is still ahead. -/
theorem priority_le (attended : Attended event occasion before made passed (one :: ahead) now)
    {other : Attendance} (member : other ∈ passed) :
    one.handler.request.priority ≤ other.handler.request.priority := by
  have descending := now.registry.descending event
  rw [Priority.Descending, attended.present, List.map_append, List.pairwise_append] at descending
  exact descending.2.2 other.after (List.mem_map_of_mem member) one.after List.mem_cons_self

def joined (event : Event) (passed : List Attendance) (one : Attendance)
    (ahead : List Attendance) : List Attendance :=
  Attendance.settleAll (one.after.newcomers event) (passed ++ one.again :: ahead)

/-- As long as everyone enrols behind itself, a newcomer gets behind those passed. -/
theorem once_more (attended : Attended event occasion before made passed (one :: ahead) now)
    (each : ∀ handler ∈ made ++ [one.after], handler.EnrolsBehind event) :
    ∃ behind, joined event passed one ahead = (passed ++ [one.again]) ++ behind ∧
      (∀ other ∈ passed ++ [one.again], other.times = 1) ∧ ∀ other ∈ behind, other.times = 0 := by
  have lower : ∀ newcomer ∈ one.after.newcomers event, ∀ other ∈ passed ++ [one.again],
      newcomer.priority ≤ other.handler.request.priority := by
    intro newcomer new other member
    have behind : newcomer.priority ≤ one.handler.request.priority :=
      each one.after (by simp) newcomer new
    rcases List.mem_append.mp member with before | last
    · exact behind.trans (attended.priority_le before)
    · exact List.mem_singleton.mp last ▸ behind
  obtain ⟨called, uncalled⟩ := attended.once fun handler before =>
    each handler (List.mem_append_left _ before)
  refine ⟨Attendance.settleAll (one.after.newcomers event) ahead, ?_, fun other member => ?_,
    fun other member => ?_⟩
  · rw [← Attendance.settleAll_behind lower, List.append_assoc, List.singleton_append, joined]
  · rcases List.mem_append.mp member with before | last
    · exact called other before
    · rw [List.mem_singleton.mp last, Attendance.again, uncalled one List.mem_cons_self]
  · rcases Attendance.mem_settleAll member with present | new
    · exact uncalled other (List.mem_cons_of_mem _ present)
    · exact new

theorem twice_more (attended : Attended event occasion before made passed (one :: ahead) now)
    (someone : ∃ handler ∈ made ++ [one.after], ¬handler.EnrolsBehind event) :
    (∃ other ∈ joined event passed one ahead, 2 ≤ other.times) ∨
      ∃ other ∈ (joined event passed one ahead).drop (passed.length + 1), 1 ≤ other.times := by
  have grown : (passed ++ one.again :: ahead).Sublist (joined event passed one ahead) :=
    Attendance.sublist_settleAll _ _
  have remains : ahead.Sublist ((joined event passed one ahead).drop (passed.length + 1)) := by
    simpa using grown.drop (passed.length + 1)
  have stands : one.again ∈ joined event passed one ahead := grown.subset (by simp)
  obtain ⟨handler, called, leads⟩ := someone
  rcases List.mem_append.mp called with earlier | last
  · rcases attended.twice ⟨handler, earlier, leads⟩ with
      ⟨other, member, twice⟩ | ⟨other, member, once⟩
    · rcases List.mem_append.mp member with gone | coming
      · exact .inl ⟨other, grown.subset (List.mem_append_left _ gone), twice⟩
      · rcases List.mem_cons.mp coming with rfl | later
        · exact .inl ⟨_, stands, Nat.le_succ_of_le twice⟩
        · exact .inl ⟨other, grown.subset (by simp [later]), twice⟩
    · rcases List.mem_cons.mp member with rfl | later
      · exact .inl ⟨_, stands, Nat.succ_le_succ once⟩
      · exact .inr ⟨other, remains.subset later, once⟩
  · obtain rfl := List.mem_singleton.mp last
    simp only [Handler.EnrolsBehind, not_forall, Int.not_le] at leads
    obtain ⟨newcomer, new, higher⟩ := leads
    have still : one.again ∈ (passed ++ one.again :: ahead).drop passed.length := by simp
    exact .inr ⟨one.again, Attendance.mem_drop_settleAll still ⟨newcomer, new, higher⟩,
      Nat.le_add_left 1 one.times⟩

/-- One call: the observer has been called once more, and those it enrols have joined the list. -/
theorem step (attended : Attended event occasion before made passed (one :: ahead) now)
    (played : play (now.note (.event event) passed.length one.after occasion).registry
      one.after.due = (registry, stop)) :
    ∃ passed' ahead', passed'.length = passed.length + 1 ∧
      Attended event occasion before (made ++ [one.after]) passed' ahead'
        { now.note (.event event) passed.length one.after occasion with registry } := by
  have found : (now.registry.get (.event event))[passed.length]? = some one.after := by
    simp [attended.present]
  have counted : (now.note (.event event) passed.length one.after occasion).registry.get
      (.event event) = (passed ++ one.again :: ahead).map Attendance.after := by
    rw [note, Registry.get_recount, if_pos rfl, Handler.countAt_of_found found, attended.present]
    simp [Attendance.after, Attendance.again, Handler.called, Handler.calledTimes, Nat.add_assoc]
  have descending : Priority.Descending Attendance.priority (passed ++ one.again :: ahead) := by
    have noted := (now.note (.event event) passed.length one.after occasion).registry.descending
      event
    rw [counted] at noted
    have same : ∀ one : Attendance, one.after.priority = one.priority := fun _ => rfl
    exact (Priority.descending_map same).mp noted
  have granted : registry = (Cue.granted one.after.due).foldl Registry.grant
      (now.note (.event event) passed.length one.after occasion).registry :=
    (congrArg Prod.fst played).symm.trans (play_eq _ _)
  have within : passed.length + 1 ≤ (joined event passed one ahead).length :=
    Nat.le_trans (by simp) (Attendance.sublist_settleAll _ _).length_le
  refine ⟨(joined event passed one ahead).take (passed.length + 1),
    (joined event passed one ahead).drop (passed.length + 1), List.length_take_of_le within, ?_⟩
  constructor
  case calls => simp [note, attended.calls, Request.call]
  case present =>
    rw [List.take_append_drop, joined,
      Attendance.map_settleAll Attendance.after (fun _ => rfl) (fun _ => rfl) _ descending,
      ← counted]
    subst granted
    exact Registry.get_foldl_grant _ _ event
  case enrolled =>
    rw [List.take_append_drop, joined,
      Attendance.map_settleAll Attendance.handler (fun _ => rfl) (fun _ => rfl) _ descending,
      List.flatMap_append, Registry.join_append, ← attended.enrolled]
    simp [Attendance.again]
  case spent =>
    rw [List.take_append_drop]
    refine .trans ?_ (Attendance.perm_calls_settleAll _ _).symm
    have spent := attended.spent.append_right [one.after]
    simp only [List.flatMap_append, List.flatMap_cons, Attendance.calls_again,
      List.append_assoc] at spent ⊢
    exact spent.trans ((List.perm_append_comm.append_left _).append_left _)
  case once =>
    intro each
    obtain ⟨behind, parts, called, uncalled⟩ := attended.once_more each
    have reached : passed.length + 1 = (passed ++ [one.again]).length := by simp
    rw [parts, reached, List.take_left, List.drop_left]
    exact ⟨called, uncalled⟩
  case twice =>
    intro someone
    rw [List.take_append_drop]
    exact attended.twice_more someone

theorem exists_next (attended : Attended event occasion before made passed ahead now)
    (found : (now.registry.get (.event event))[passed.length]? = some handler) :
    ∃ one rest, ahead = one :: rest ∧ one.after = handler := by
  rw [attended.present] at found
  cases ahead with
  | nil => simp at found
  | cons one rest => exact ⟨one, rest, rfl, by simpa using found⟩

/-- All calls from there on. If nobody cuts them short, nobody is left ahead. -/
theorem walk (plain : occasion.isStep = false) (position : Nat) (now : Audience) :
    ∀ {made passed ahead}, Attended event occasion before made passed ahead now →
      passed.length = position → ∃ made passed ahead,
        Attended event occasion before made passed ahead
          (now.walk (.event event) occasion position).1 ∧
        ((now.walk (.event event) occasion position).2 = none → ahead = []) := by
  -- Along the calls of the walk; what carries it is that those passed end where the walk stands.
  fun_induction Audience.walk (.event event) occasion position now with
  | case1 position now ended =>
    intro made passed ahead attended reached
    refine ⟨made, passed, ahead, attended, fun _ => ?_⟩
    have past := List.getElem?_eq_none_iff.mp ended
    rw [attended.present, List.length_map, List.length_append] at past
    exact List.eq_nil_of_length_eq_zero (by omega)
  | case2 position now handler found wanted noted registry stop =>
    rename_i played
    rintro made passed ahead attended rfl
    obtain ⟨one, rest, rfl, rfl⟩ := attended.exists_next found
    obtain ⟨passed', ahead', _, further⟩ := attended.step played
    exact ⟨_, passed', ahead', further, fun calm => absurd calm (Option.some_ne_none stop)⟩
  | case3 position now handler found wanted noted registry played =>
    rename_i ih
    rintro made passed ahead attended rfl
    obtain ⟨one, rest, rfl, rfl⟩ := attended.exists_next found
    obtain ⟨passed', ahead', reached, further⟩ := attended.step played
    exact ih further reached
  | case4 position now handler found unwanted ih =>
    exact absurd (wanted_of_event plain handler.request) unwanted

end Attended

/-- Observers of an event who may enrol others when they are called. Everyone who was there before
or has come since is on the register with as many more calls as have been made to it. As long as
nobody who is called enrols anyone of a higher priority than its own for the event, nobody is called
twice, and everyone once if nobody cuts the calls short; but if somebody does so and nobody cuts
them short, somebody is called twice. -/
theorem emit_calls_at_most_once (plain : occasion.isStep = false)
    (emitted : audience.emit event occasion = (after, stop)) :
    ∃ (made : List Handler) (attended : List Attendance),
      after.calls = (made.map (·.request.call occasion)).reverse ++ audience.calls ∧
      attended.map Attendance.handler = Registry.join (made.flatMap (Handler.newcomers event))
        (audience.registry.get (.event event)) ∧
      after.registry.get (.event event) = attended.map Attendance.after ∧
      made.Perm (attended.flatMap Attendance.calls) ∧
      ((∀ handler ∈ made, handler.EnrolsBehind event) → ∀ one ∈ attended, one.times ≤ 1) ∧
      (stop = none →
        ((∀ handler ∈ made, handler.EnrolsBehind event) → ∀ one ∈ attended, one.times = 1) ∧
        ((∀ one ∈ attended, one.times ≤ 1) → ∀ handler ∈ made, handler.EnrolsBehind event)) := by
  have start := Attended.start audience event occasion
  obtain ⟨made, passed, ahead, attended, uncut⟩ := start.walk plain 0 audience rfl
  have walked : audience.walk (.event event) occasion 0 = (after, stop) := emitted
  rw [walked] at attended uncut
  refine ⟨made, passed ++ ahead, attended.calls, attended.enrolled,
    attended.present, attended.spent, fun each one member => ?_, fun calm => ⟨fun each => ?_,
    fun once handler called => ?_⟩⟩
  · obtain ⟨called, uncalled⟩ := attended.once each
    rcases List.mem_append.mp member with gone | coming
    · exact Nat.le_of_eq (called one gone)
    · exact Nat.le_succ_of_le (Nat.le_of_eq (uncalled one coming))
  · rw [uncut calm, List.append_nil]
    exact (attended.once each).1
  · by_contra leads
    rcases attended.twice ⟨handler, called, leads⟩ with ⟨one, member, twice⟩ | ⟨one, member, _⟩
    · exact absurd (once one member) (Nat.not_le.mpr twice)
    · rw [uncut calm] at member
      exact List.not_mem_nil member

/-- The first of two enrols somebody of its own priority, who is called between them. -/
theorem emit_calls_at_most_once_beside : ∃ (audience after : Audience) (made : List Handler),
    audience.emit .programStart .plain = (after, none) ∧
    after.calls.map Call.name = ["first", "beside", "second"].reverse ∧
    after.calls = (made.map (·.request.call .plain)).reverse ∧
    ∀ handler ∈ made, handler.EnrolsBehind .programStart := by
  let start := Topic.event "program_start"
  let registrations : List Registration :=
    [⟨⟨start, "first", 0, [.enrol 1 start "beside" 0 []]⟩, false⟩,
      ⟨⟨start, "second", -1, []⟩, true⟩]
  let audience : Audience := ⟨Registry.ofRegistrations registrations, []⟩
  let after := (audience.emit .programStart .plain).1
  have calm : (audience.emit .programStart .plain).2 = none := by decide +kernel
  have emitted : audience.emit .programStart .plain = (after, none) := Prod.ext rfl calm
  obtain ⟨made, attended, calls, enrolled, present, _, _, uncut⟩ :=
    emit_calls_at_most_once rfl emitted
  have fresh : ∀ handler ∈ audience.registry.get (.event .programStart), handler.calls = 0 := by
    decide +kernel
  have called : ∀ handler ∈ after.registry.get (.event .programStart), handler.calls = 1 := by
    decide +kernel
  refine ⟨audience, after, made, emitted, by decide +kernel,
    calls.trans (List.append_nil _), (uncut rfl).2 fun one member => ?_⟩
  have came : one.handler.calls = 0 := by
    rcases Registry.mem_join (enrolled ▸ List.mem_map_of_mem member) with before | ⟨_, _, new⟩
    · exact fresh _ before
    · rw [new, Handler.ofRequest]
  have stands : one.handler.calls + one.times = 1 :=
    called one.after (present ▸ List.mem_map_of_mem member)
  omega

/-- Whoever enrols somebody ahead of itself is called again, and the newcomer is not called. -/
theorem emit_calls_again : ∃ audience after : Audience,
    audience.emit .programStart .plain = (after, none) ∧
    (audience.registry.get (.event .programStart)).map (fun handler =>
      (handler.request.name, handler.calls)) = [("first", 0)] ∧
    after.calls.map Call.name = ["first", "first"] ∧
    (after.registry.get (.event .programStart)).map (fun handler =>
      (handler.request.name, handler.calls)) = [("ahead", 0), ("first", 2)] := by
  let start := Topic.event "program_start"
  let registrations : List Registration :=
    [⟨⟨start, "first", 0, [.enrol 1 start "ahead" 9 []]⟩, false⟩]
  let audience : Audience := ⟨Registry.ofRegistrations registrations, []⟩
  have calm : (audience.emit .programStart .plain).2 = none := by decide +kernel
  exact ⟨audience, _, Prod.ext rfl calm,
    by decide +kernel, by decide +kernel, by decide +kernel⟩

end Audience

end MailRoom
