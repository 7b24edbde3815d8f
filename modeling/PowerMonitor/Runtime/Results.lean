import PowerMonitor.Runtime.Steps

/-!
# Command results and their entries

The server learns the result of a command from a telemetry body, so the entry of a finished command
has to stay until a request that carried its result was answered. `pm_command_accept` reuses any
terminal entry, and `send_current_telemetry` accepts the commands of a response right after the
results of its own body were answered: whatever had finished when the body was serialised may go.
A command that finishes while the request is under way may go as well, and its result is lost. So is
a result that cJSON had no memory for when the body was built.

`results_kept` says that these are the only ways: along a run in which every accept that reuses the
entry of a finished command finds it as it was when the body was serialised (`ReusesReported`), with
the memory to report it, no result is lost.
-/

namespace PowerMonitor.Runtime

open AbStore CJson Commands Ota Runs

/-- The request whose response is being handled. -/
def NetworkPc.handled : NetworkPc → Option Sent
  | notifying answered _ _ | parsing answered _ | delivering answered _ _ => some answered
  | _ => none

/-- The request whose response is awaited. -/
def NetworkPc.awaited : NetworkPc → Option Sent
  | awaiting sent => some sent
  | _ => none

/-- The states with a result the server waits for. -/
def finished : CommandState → Bool
  | .succeeded | .failed | .rolledBack => true
  | _ => false

variable [Sha256]

/-- The entry that `pm_command_accept` overwrites in this step, in RAM or only in NVS. -/
def World.overwritten (w : World) (a : Action) : Option EntryIndex :=
  match a.actor, w.network with
  | .network, .parsing _ (item :: _) =>
    if item.notBeforeUtcMs ≤ a.env.now ∧ w.locked = false ∧
        (Call.accept (parsedCommand item a.env.now) a.env.now a.env.mallocOk).proceeds w.ledger =
          true ∧
        a.env.fault.reaches = true ∧ w.ledger.generation ≠ uint32Max then
      selectEntry w.ledger
    else none
  | _, _ => none

/-! ## What an accept overwrites -/

/-- A persist that does not get as far as NVS fails. -/
theorem persist_keeps {l : Ledger} (nvs : Slots Ledger) (f : LedgerFault)
    (h : ¬(f.reaches = true ∧ l.generation ≠ uint32Max)) :
    (persist l nvs f).nvs = nvs ∧ ∃ e, (persist l nvs f).result = some e ∧ e ≠ .ok := by
  by_cases hmax : l.generation = uint32Max
  · rw [persist, if_pos hmax]
    exact ⟨rfl, .invalidState, rfl, by decide⟩
  · have hreach : f.reaches = false := by
      rw [← Bool.not_eq_true]
      exact fun hr => h ⟨hr, hmax⟩
    rw [persist_eq hmax]
    cases f with
    | openFails e => exact ⟨rfl, e.1, rfl, e.2⟩
    | _ => cases hreach

/-- An accept that does not get as far as NVS changes nothing. -/
theorem accept_keeps (l : Ledger) (incoming : Command) (now : ℤ) (mallocOk : Bool)
    (nvs : Slots Ledger) (f : LedgerFault)
    (h : ¬((Call.accept incoming now mallocOk).proceeds l = true ∧ f.reaches = true ∧
      l.generation ≠ uint32Max)) :
    SameEntries l (commandAccept l incoming now mallocOk nvs f).outcome.ledger ∧
      (commandAccept l incoming now mallocOk nvs f).outcome.nvs = nvs ∧
      (commandAccept l incoming now mallocOk nvs f).outcome.result ≠ none := by
  rcases accept_cases l incoming now mallocOk nvs f with ⟨-, e, he⟩ | ⟨hpro, l', hp⟩
  · rw [he]
    exact ⟨fun _ => rfl, rfl, by simp [refuse]⟩
  · obtain ⟨hnvs, e, hres, hne⟩ := persist_keeps (l := l') nvs f fun hr =>
      h ⟨hpro, hr.1, hp.edit.generation ▸ hr.2⟩
    refine ⟨?_, hp.nvs_eq.trans hnvs, fun hn => ?_⟩
    · cases accept_end l incoming now mallocOk nvs f with
      | unchanged hsame _ => exact hsame
      | stored _ _ _ _ _ _ _ _ hwritten _ =>
        obtain ⟨p, hpp, hok⟩ := hwritten
        rw [hp.persisted] at hpp
        obtain rfl := Option.some.inj hpp
        rw [hres] at hok
        exact absurd (Option.some.inj hok) hne
    · rw [hp.lost, hres] at hn
      cases hn

/-- A step of the network task that overwrites no entry leaves the ledger and its slots alone. -/
theorem network_keeps (w : World) (env : Env) (h : w.overwritten ⟨.network, env⟩ = none) :
    SameEntries w.ledger (w.stepNetwork env).ledger ∧ (w.stepNetwork env).nvs = w.nvs := by
  have hsame : SameEntries w.ledger w.ledger ∧ w.nvs = w.nvs := ⟨.refl _, rfl⟩
  unfold World.stepNetwork
  split
  · exact hsame
  · split
    · exact hsame
    split <;> exact hsame
  · split <;> exact hsame
  · split <;> exact hsame
  next answered items hpc =>
    split
    · exact hsame
    next item items =>
    split
    · exact hsame
    next hnow =>
    split
    · exact hsame
    next hlock =>
    simp only [World.overwritten, hpc] at h
    have hkeep := accept_keeps w.ledger (parsedCommand item env.now) env.now env.mallocOk w.nvs
      env.fault fun hreach => by
        rw [if_pos ⟨not_lt.1 hnow, by simpa using hlock, hreach⟩] at h
        have hsel := hreach.1
        simp [Call.proceeds, h] at hsel
    unfold World.acceptItem
    dsimp only
    split
    next hlost => exact absurd hlost hkeep.2.2
    split
    · split <;> exact ⟨hkeep.1, hkeep.2.1⟩
    · exact ⟨hkeep.1, hkeep.2.1⟩
  · exact hsame

/-! ## Results that are answered -/

/-- The entry that is overwritten holds no result that no answered request has carried. -/
def KeepsResults (w : World) (a : Action) : Prop :=
  ∀ i, w.overwritten a = some i → (w.ledger.entries i).occupied = true →
    finished (w.ledger.entries i).state = true →
    ((w.ledger.entries i).commandId.str, (w.ledger.entries i).state) ∈ w.delivered

/-- Entry `i` of the ledger that the request was serialised from was reported: its identity has the
length of one, there was memory for both members, and no command of that identity was stored
since. -/
def Sent.reports (sent : Sent) (i : EntryIndex) : Bool :=
  (sent.ledger.entries i).commandId.str.length = 36 && sent.added i &&
    !sent.stored.contains (sent.ledger.entries i).commandId.str

/-- **What an accept may overwrite**: an entry of a finished command that was as it is when the body
of the request was serialised, and that was reported. -/
def ReusesReported (w : World) (a : Action) : Prop :=
  ∀ i, w.overwritten a = some i → (w.ledger.entries i).occupied = true →
    finished (w.ledger.entries i).state = true →
    ∃ sent ∈ w.network.handled,
      (sent.ledger.entries i).commandId.str = (w.ledger.entries i).commandId.str ∧
      (sent.ledger.entries i).state = (w.ledger.entries i).state ∧ sent.reports i = true

instance (w : World) (a : Action) : Decidable (KeepsResults w a) :=
  inferInstanceAs (Decidable (∀ _, _ → _))

instance (w : World) (a : Action) : Decidable (ReusesReported w a) :=
  inferInstanceAs (Decidable (∀ _, _ → _ → _ → ∃ sent ∈ w.network.handled, _))

omit [Sha256] in
theorem resultState_of_finished {state : CommandState} (h : finished state = true) :
    World.resultState state = true := by
  cases state <;> first | rfl | cases h

/-- The body carries the results it was made of. -/
def Sent.Complete (sent : Sent) : Prop :=
  ∀ i, (sent.ledger.entries i).commandId.str.length = 36 →
    World.resultState (sent.ledger.entries i).state = true → sent.added i = true →
    ((sent.ledger.entries i).commandId.str, (sent.ledger.entries i).state) ∈ sent.body.carried

/-- **A body carries what could be added to it.** -/
theorem complete_serialize (l : Ledger) (env : Env) : (World.serialize l env).Complete := by
  intro i hlength hstate hadded
  simp only [World.serialize, Bool.and_eq_true] at hlength hstate hadded
  obtain ⟨⟨hresults, hid⟩, hadds⟩ := hadded
  have hmem : i ∈ World.reportable l :=
    List.mem_filter.2 ⟨List.mem_finRange i, by simpa using ⟨hlength, hstate⟩⟩
  simp only [World.serialize, World.serializedResults, hresults, if_true]
  refine List.mem_filterMap.2 ⟨_, List.mem_map_of_mem hmem, ?_⟩
  simp [hid, hadds]

/-- What the network task knows of its request: the body is complete, and what it answers has been
answered. -/
structure AnsweredInv (w : World) : Prop where
  awaited : ∀ sent ∈ w.network.awaited, sent.Complete
  handled : ∀ sent ∈ w.network.handled, sent.Complete ∧ sent.answered ⊆ w.delivered

omit [Sha256] in
theorem AnsweredInv.quiet {w : World} (h : w.network = .stopped ∨ w.network = .idle) :
    AnsweredInv w := by
  refine ⟨fun sent hs => ?_, fun sent hs => ?_⟩ <;> rcases h with h | h <;> rw [h] at hs <;> cases hs

omit [Sha256] in
theorem AnsweredInv.of_eq {w w' : World} (hi : AnsweredInv w) (hnetwork : w'.network = w.network)
    (hdelivered : w'.delivered = w.delivered) : AnsweredInv w' :=
  ⟨hnetwork ▸ hi.awaited, by rw [hnetwork, hdelivered]; exact hi.handled⟩

omit [Sha256] in
/-- The task goes on with the response to a request. -/
theorem AnsweredInv.handle {w : World} {sent : Sent} (hhandled : w.network.handled = some sent)
    (hawaited : w.network.awaited = none) (hcomplete : sent.Complete)
    (hanswered : sent.answered ⊆ w.delivered) : AnsweredInv w := by
  refine ⟨fun s hs => ?_, fun s hs => ?_⟩
  · rw [hawaited] at hs
    cases hs
  · rw [hhandled] at hs
    obtain rfl := Option.mem_some_iff.1 hs
    exact ⟨hcomplete, hanswered⟩

omit [Sha256] in
/-- A command that is stored takes its identity out of what was answered. -/
theorem answered_stored {sent : Sent} {delivered : Results} (h : sent.answered ⊆ delivered)
    (id : List UInt8) :
    ({ sent with stored := id :: sent.stored } : Sent).answered ⊆ World.without delivered id := by
  intro r hr
  obtain ⟨hcarried, hstored⟩ := List.mem_filter.1 hr
  simp only [List.mem_cons, not_or, decide_eq_true_eq] at hstored
  refine List.mem_filter.2 ⟨h (List.mem_filter.2 ⟨hcarried, ?_⟩), ?_⟩
  · simpa using hstored.2
  · simpa using hstored.1

theorem answered_accept {w : World} {answered : Sent} (hcomplete : answered.Complete)
    (hi : answered.answered ⊆ w.delivered) (item : CommandItem) (items : List CommandItem)
    (env : Env) : AnsweredInv (w.acceptItem answered item items env) := by
  unfold World.acceptItem
  dsimp only
  have hkept : ∀ b : Bool, (if b = true then
        ({ answered with stored := item.commandId :: answered.stored } : Sent)
      else answered).answered ⊆
        if b = true then World.without w.delivered item.commandId else w.delivered := by
    intro b
    cases b
    · exact hi
    · exact answered_stored hi _
  have hsame : ∀ b : Bool, (if b = true then
        ({ answered with stored := item.commandId :: answered.stored } : Sent)
      else answered).Complete := by
    intro b
    cases b <;> exact hcomplete
  split
  · exact .quiet (.inl rfl)
  split
  · split <;> exact .handle rfl rfl (hsame _) (hkept _)
  · exact .handle rfl rfl (hsame _) (hkept _)

theorem answered_network {w : World} (hi : AnsweredInv w) (env : Env) :
    AnsweredInv (w.stepNetwork env) := by
  have hhandled := hi.handled
  unfold World.stepNetwork
  split
  next hpc => exact hi
  next hpc =>
    split
    · exact hi
    split
    · exact hi
    · refine ⟨fun s hs => ?_, fun s hs => by cases hs⟩
      obtain rfl := Option.mem_some_iff.1 hs
      exact complete_serialize w.ledger env
  next sent hpc =>
    split
    · exact .quiet (.inr rfl)
    · have hcomplete := hi.awaited sent (by rw [hpc]; rfl)
      refine .handle rfl rfl hcomplete fun r hr => ?_
      exact List.mem_append_left _ (List.mem_filter.1 hr).1
  next answered ids items hpc =>
    obtain ⟨hcomplete, hanswered⟩ := hhandled answered (by rw [hpc]; rfl)
    split <;> exact .handle rfl rfl hcomplete hanswered
  next answered items hpc =>
    obtain ⟨hcomplete, hanswered⟩ := hhandled answered (by rw [hpc]; rfl)
    split
    · exact .quiet (.inr rfl)
    split
    · exact .handle rfl rfl hcomplete hanswered
    split
    · exact hi
    · exact answered_accept hcomplete hanswered _ _ env
  next answered q items hpc =>
    obtain ⟨hcomplete, hanswered⟩ := hhandled answered (by rw [hpc]; rfl)
    exact .handle rfl rfl hcomplete hanswered

variable [Parser] [Base64]

theorem answered_step (w : World) (a : Action) (hi : AnsweredInv w) : AnsweredInv (w.step a) := by
  have hreset : ∀ (w : World) env, AnsweredInv (w.reset env) := fun _ _ => .quiet (.inl rfl)
  unfold World.step
  cases a.actor with
  | main =>
    rcases w.stepMain_frame a.env with ⟨_, _, h⟩ | hf
    · rw [h]
      exact hreset _ _
    · rcases hf.network with h | h
      exacts [hi.of_eq h hf.delivered, .quiet (.inr h)]
  | control =>
    rcases w.stepControl_frame a.env with ⟨_, _, -, h⟩ | hf
    · rw [h]
      exact hreset _ _
    · exact hi.of_eq hf.network hf.delivered
  | network => exact answered_network hi a.env
  | ota k =>
    dsimp only
    rcases w.stepTask_frame k a.env with ⟨_, _, _, h⟩ | ⟨hf, -⟩
    · rw [h]
      exact hreset _ _
    · exact hi.of_eq hf.network hf.delivered
  | power => exact hreset _ _

omit [Parser] [Base64] in
/-- A finished command that was reported as it is has been answered. -/
theorem keepsResults_of_reused {w : World} {a : Action} (hi : AnsweredInv w)
    (hreuse : ReusesReported w a) : KeepsResults w a := by
  intro i ho hocc hfin
  obtain ⟨sent, hsent, hid, hstate, hreports⟩ := hreuse i ho hocc hfin
  obtain ⟨hcomplete, hanswered⟩ := hi.handled sent hsent
  simp only [Sent.reports, Bool.and_eq_true, decide_eq_true_eq] at hreports
  obtain ⟨⟨hlength, hadded⟩, hstored⟩ := hreports
  rw [← hid, ← hstate]
  have hresult := resultState_of_finished (hstate ▸ hfin)
  refine hanswered (List.mem_filter.2 ⟨hcomplete i hlength hresult hadded, ?_⟩)
  simpa using hstored

/-- **No result is lost**: along a run from any flash in which no accept overwrites the entry of a
finished command, unless it was as it is when the body of the request was serialised and could be
reported, no accept overwrites the entry of a finished command before a request that carried its
result was answered. -/
theorem results_kept (nvs : Slots Ledger) (flash : OtaFlash) (acts : List Action) :
    Along World.step ReusesReported (World.start nvs flash) acts →
      Along World.step KeepsResults (World.start nvs flash) acts :=
  Along.imp_of_invariant (fun w a hi _ => answered_step w a hi)
    (fun _ _ hi hr => keepsResults_of_reused hi hr) (.quiet (.inl rfl))

omit [Sha256] [Parser] [Base64]

/-- Eight self tests arrive in one response. -/
def eightArrive : List (@Action .standard) :=
  @bootActions .standard ++
    @exchange .standard [.sample .networkSelfTest (.refl true) 1 one_ne_nul,
      .sample .networkSelfTest (.refl true) 2 two_ne_nul,
      .sample .networkSelfTest (.refl true) 3 three_ne_nul,
      .sample .networkSelfTest (.refl true) 4 (by decide),
      .sample .networkSelfTest (.refl true) 5 (by decide),
      .sample .networkSelfTest (.refl true) 6 (by decide),
      .sample .networkSelfTest (.refl true) 7 (by decide),
      .sample .networkSelfTest (.refl true) 8 (by decide)] 1 0

/-- The first of eight commands is executed, then a body is serialised and answered, and the
response brings a ninth command. -/
def finishedBefore : List (@Action .standard) :=
  eightArrive ++ @controlActions .standard 6 ++
    @exchange .standard [.sample .networkSelfTest (.refl true) 9 (by decide)] 1 8

/-- The ninth command is stored in the first entry, whose result was answered. -/
theorem results_kept_finished_before :
    Along (@World.step .standard ⟨fun _ => none⟩ ⟨fun _ => none⟩) (@KeepsResults .standard)
      (World.start Slots.empty factoryFlash) finishedBefore ∧
    ((run (@World.step .standard ⟨fun _ => none⟩ ⟨fun _ => none⟩)
      (World.start Slots.empty factoryFlash) finishedBefore).ledger.entries 0).commandId.str =
        List.replicate 36 9 :=
  ⟨@results_kept .standard ⟨fun _ => none⟩ ⟨fun _ => none⟩ _ _ _ (by decide +kernel),
    by decide +kernel⟩

/-- A body with eight commands is serialised, the control task executes the first of them, and the
response to the body brings a ninth command. -/
def finishedUnderWay : List (@Action .standard) :=
  eightArrive ++ @networkActions .standard [] 1 1 ++ @controlActions .standard 6 ++
    @networkActions .standard [.sample .networkSelfTest (.refl true) 9 (by decide)] 1 11

/-- The ninth command overwrites the entry of the first, which no body has carried as
`SUCCEEDED`. -/
theorem result_under_way_lost :
    ¬Along (@World.step .standard ⟨fun _ => none⟩ ⟨fun _ => none⟩) (@KeepsResults .standard)
      (World.start Slots.empty factoryFlash) finishedUnderWay := by
  decide +kernel

end PowerMonitor.Runtime
