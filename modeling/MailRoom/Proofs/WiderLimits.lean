import MailRoom.Proofs.LargerResources

/-! Runs under wider limits. Main statement: `Program.wider_limits`, by which a larger floor with
more on it, a wider bound and a higher step limit only matter to a run that the narrower ones
stopped. -/
namespace MailRoom

/-- The kinds of faults that come of limits and of what is on the floor. -/
def Fault.limitKinds : List String :=
  ["StepLimitExceeded", "Overflow", "InvalidAddress", "TileEmpty"]

/-- Limits each of which is at most the other's. -/
structure Config.AtMost (config wider : Config) : Prop where
  floorSize : config.floorSize ≤ wider.floorSize
  numberBound : config.numberBound ≤ wider.numberBound
  stepLimit : config.stepLimit ≤ wider.stepLimit

/-- What a run under narrower limits may be stopped by for want of something. -/
def Break.OfLimits (cause : Break) : Prop :=
  ∃ fault : Fault, cause = .fault fault ∧ fault.kind ∈ Fault.limitKinds

theorem Fault.OfFloor.ofLimits {fault : Fault} (ofFloor : fault.OfFloor) :
    (Break.fault fault).OfLimits := by
  refine ⟨fault, rfl, ?_⟩
  rcases ofFloor with address | empty
  · simp [limitKinds, address]
  · simp [limitKinds, empty]

theorem Config.AtMost.ampler {config wider : Config} (atMost : config.AtMost wider) :
    config.Ampler Break.OfLimits wider where
  bound := .inr ⟨Int.ofNat_le.mpr atMost.numberBound,
    fun rule result => ⟨_, rfl, by simp [Fault.limitKinds, Fault.kind]⟩⟩
  limit := .inr ⟨atMost.stepLimit, _, rfl, by simp [Fault.limitKinds, Fault.kind]⟩

/-- A larger floor, laid out with all that is on another one and possibly more. -/
theorem Floor.layOut_ampler {room room' size larger : Nat} (atMost : size ≤ larger)
    {values others : List (Int × Value)} {floor other : Floor}
    (laid : layOut room size values = .ok floor) (laid' : layOut room' larger others = .ok other)
    (contained : ∀ entry ∈ values, entry ∈ others) (distinct : (others.map Prod.fst).Nodup) :
    floor.Ampler (fun fault => Break.OfLimits (.fault fault)) other := by
  refine .more ?_ (fun tile value there => ?_) fun _ => Fault.OfFloor.ofLimits
  · have size := size_layOut laid
    have size' := size_layOut laid'
    omega
  · exact lying_of_mem_layOut laid' distinct (contained _ (mem_of_lying_layOut laid there))

theorem State.ofJson_ampler {room room' : Nat} {config wider : Config} (atMost : config.AtMost wider)
    {layout widened : Table Int Json} (contained : ∀ entry ∈ layout.entries, entry ∈ widened.entries)
    {inbox : List Json} {start start' : State}
    (started : State.ofJson room config layout.entries inbox = .ok start)
    (started' : State.ofJson room' wider widened.entries inbox = .ok start') :
    start.Ampler Break.OfLimits start' := by
  obtain ⟨values, floor, taken, read, laid, filled, rfl⟩ := ofJson_eq_ok.mp started
  obtain ⟨values', floor', taken', read', laid', filled', rfl⟩ := ofJson_eq_ok.mp started'
  obtain rfl := Except.ok.inj (filled.symm.trans filled')
  have kept : ∀ entry ∈ values, entry ∈ values' := by
    intro entry member
    obtain ⟨raw, there, found⟩ := (mem_of_mapM_eq_ok read).mp member
    exact (mem_of_mapM_eq_ok read').mpr ⟨raw, contained raw there, found⟩
  have distinct : (values'.map Prod.fst).Nodup := by
    rw [map_of_mapM_eq_ok (fun found => (entryOfJson_eq_ok.mp found).1) read']
    exact widened.distinct
  exact {
    pc := rfl, hands := rfl, inbox := .inl rfl, cursor := rfl, outbox := rfl, steps := rfl
    floor := Floor.layOut_ampler atMost.floorSize laid laid' kept distinct }

/-- A program that a text gives, run under some limits on some floor, and under limits at least as
wide on a floor with at least as much on it. The outbox of the one run is the beginning of the
other's; and unless the first ends with a fault that comes of limits or of what is on the floor,
both end with the same outbox and the same verdict. -/
theorem Program.wider_limits {file text : String} {mnemonics : Mnemonics} {machine wider : Machine}
    (parsed : Program.parse file text mnemonics = .ok machine.program)
    (same : wider.program = machine.program) (atMost : machine.config.AtMost wider.config)
    {room room' : Nat}
    {layout widened : Table Int Json} (contained : ∀ entry ∈ layout.entries, entry ∈ widened.entries)
    {inbox : List Json} {start start' : State}
    (started : State.ofJson room machine.config layout.entries inbox = .ok start)
    (started' : State.ofJson room' wider.config widened.entries inbox = .ok start') :
    ∃ last last' verdict verdict',
      (machine.session .empty start).execute machine = (last, .ok verdict) ∧
      (wider.session .empty start').execute wider = (last', .ok verdict') ∧
      last.state.outbox <+: last'.state.outbox ∧
      ((∀ incident ∈ verdict.error, incident.fault.kind ∉ Fault.limitKinds) →
        last'.state.outbox = last.state.outbox ∧ verdict' = verdict) := by
  have machines : machine.Ampler Break.OfLimits wider := ⟨same.symm, atMost.ampler⟩
  obtain ⟨_, last, last', reason, verdict, verdict', _, judged, executed, executed', grows, ends⟩ :=
    exists_ampler_run parsed machines (State.ofJson_sound started _).1
      (State.ofJson_sound started' _).1 (State.ofJson_ampler atMost contained started started')
  refine ⟨last, last', verdict, verdict', executed, executed', grows, fun settled => ?_⟩
  rcases ends with ⟨state, turned, stinted⟩ | same
  · obtain ⟨cause, pc, location, ⟨fault, rfl, kind⟩, stopped⟩ := stinted.turn_eq
    rw [turned] at stopped
    cases stopped
    cases judged
    exact absurd kind (settled _ rfl)
  · exact same

private def clearTwo : Program where
  instructions := [⟨.copyFrom, some ⟨0, false⟩, none, none, some ⟨"<string>", 1, 1, "COPYFROM 0"⟩⟩,
    ⟨.outbox, none, none, none, some ⟨"<string>", 2, 1, "OUTBOX"⟩⟩,
    ⟨.copyFrom, some ⟨1, false⟩, none, none, some ⟨"<string>", 3, 1, "COPYFROM 1"⟩⟩,
    ⟨.outbox, none, none, none, some ⟨"<string>", 4, 1, "OUTBOX"⟩⟩]
  labels := .empty
  markers := []
  definitions := []
  location := some ⟨"<string>", 4, 7, "OUTBOX"⟩

/-- Where the second tile is missing the outbox ends with the first. With that tile a floor is large
enough, and a third tile, a wider bound and more steps change nothing. -/
theorem Program.wider_limits_clearTwo :
    Program.parse "<string>" "COPYFROM 0\nOUTBOX\nCOPYFROM 1\nOUTBOX" .standard = .ok clearTwo ∧
      ∃ (short enough ample : Machine) (one two three : State) (last last' last'' : Session)
        (verdict : Verdict),
        (short.program = clearTwo ∧ enough.program = clearTwo ∧ ample.program = clearTwo) ∧
        (short.config.AtMost ample.config ∧ enough.config.AtMost ample.config) ∧
        State.ofJson 9 short.config [(0, .int 7)] [] = .ok one ∧
        State.ofJson 9 enough.config [(0, .int 7), (1, .int 8)] [] = .ok two ∧
        State.ofJson 9 ample.config [(2, .int 9), (1, .int 8), (0, .int 7)] [] = .ok three ∧
        (short.session .empty one).execute short = (last, .ok verdict) ∧
        verdict.error.map Incident.fault = some (.outsideFloor 1 1) ∧
        (enough.session .empty two).execute enough = (last', .ok ⟨4, none⟩) ∧
        (ample.session .empty three).execute ample = (last'', .ok ⟨4, none⟩) ∧
        last.state.outbox.map Value.text = ["7"] ∧
        last.state.outbox <+: last''.state.outbox ∧
        last'.state.outbox.map Value.text = ["7", "8"] ∧
        last''.state.outbox = last'.state.outbox := by
  have parsed : Program.parse "<string>" "COPYFROM 0\nOUTBOX\nCOPYFROM 1\nOUTBOX" .standard =
      .ok clearTwo := toOption_eq_some.mp (by decide +kernel)
  let short : Machine := ⟨clearTwo, ⟨1, 10, 4, by decide, by decide⟩, false, none⟩
  let enough : Machine := ⟨clearTwo, ⟨2, 10, 4, by decide, by decide⟩, false, none⟩
  let ample : Machine := ⟨clearTwo, ⟨3, 999, 100, by decide, by decide⟩, true, none⟩
  let narrow : Table Int Json := ⟨[(0, .int 7)], by simp⟩
  let fitting : Table Int Json := ⟨[(0, .int 7), (1, .int 8)], by simp⟩
  let wide : Table Int Json := ⟨[(2, .int 9), (1, .int 8), (0, .int 7)], by simp⟩
  have started : State.ofJson 9 short.config narrow.entries [] = .ok _ := rfl
  have started' : State.ofJson 9 enough.config fitting.entries [] = .ok _ := rfl
  have started'' : State.ofJson 9 ample.config wide.entries [] = .ok _ := rfl
  have below : short.config.AtMost ample.config := ⟨by decide, by decide, by decide⟩
  have below' : enough.config.AtMost ample.config := ⟨by decide, by decide, by decide⟩
  have contained : ∀ entry ∈ narrow.entries, entry ∈ wide.entries := by simp [narrow, wide]
  have contained' : ∀ entry ∈ fitting.entries, entry ∈ wide.entries := by simp [fitting, wide]
  obtain ⟨last, last'', verdict, _, executed, executed'', grows, _⟩ :=
    @wider_limits _ _ _ short ample parsed rfl below 9 9 narrow wide contained [] _ _ started started''
  obtain ⟨last', _, verdict', _, executed', again, _, settled⟩ :=
    @wider_limits _ _ _ enough ample parsed rfl below' 9 9 fitting wide contained' [] _ _ started'
      started''
  cases again.symm.trans executed''
  have missing : verdict.error.map Incident.fault = some (.outsideFloor 1 1) :=
    Option.some.inj ((congrArg (·.2.toOption.map fun verdict =>
      verdict.error.map Incident.fault) executed).symm.trans (by decide +kernel))
  have completed : verdict' = ⟨4, none⟩ :=
    Option.some.inj ((congrArg (·.2.toOption) executed').symm.trans (by decide +kernel))
  subst completed
  obtain ⟨same, rfl⟩ := settled (by simp)
  refine ⟨parsed, short, enough, ample, _, _, _, last, last', last'', verdict, ⟨rfl, rfl, rfl⟩,
    ⟨below, below'⟩, started, started', started'', executed, missing, executed', executed'', ?_,
    grows, ?_, same⟩
  · rw [← congrArg (·.1.state.outbox) executed]
    decide +kernel
  · rw [← congrArg (·.1.state.outbox) executed']
    decide +kernel

end MailRoom
