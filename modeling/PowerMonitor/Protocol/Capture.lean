import Mathlib.Data.List.Induction
import Mathlib.Data.List.Nodup
import PowerMonitor.Protocol.Headers

/-!
# Which responses are captured

The capture of a response is a fold over its header events, with a flag that stays set once an event
spoils it. `capture_accepts_iff` describes the events of the responses that pass, what is captured
of them, and that their order does not matter.

* `values events field` are the values the events give for a header.
* `Clean` says that nothing has spoilt the capture yet, and `captured` is what holds after every
  event.
-/

namespace PowerMonitor.Protocol

open CMemory

/-- A header event of the HTTP client, whose strings may be null. -/
structure HeaderEvent where
  name : Option CString
  value : Option CString

namespace HeaderEvent

/-- The texts of the event. -/
def texts (event : HeaderEvent) : Option (List UInt8) × Option (List UInt8) :=
  (event.name.map CString.text, event.value.map CString.text)

/-- The value the event gives for a header, whose name is compared in ASCII without regard to
case. -/
def valueFor (field : HeaderField) (event : HeaderEvent) : Option (List UInt8) :=
  match event.name, event.value with
  | some name, some value =>
    if headerNameEqual name.text field.name then some value.text else none
  | _, _ => none

end HeaderEvent

/-- The values the events give for a header, in their order. -/
def values (events : List HeaderEvent) (field : HeaderField) : List (List UInt8) :=
  events.filterMap (HeaderEvent.valueFor field)

/-- The capture after the events. -/
def capture (events : List HeaderEvent) : ResponseCapture :=
  captureHeaders (events.map HeaderEvent.texts)

namespace ResponseCapture

/-- The buffer of a header. -/
def buffer (c : ResponseCapture) : (field : HeaderField) → Bytes (field.room + 1)
  | .protocol => c.auth.protocol
  | .deviceId => c.auth.deviceId
  | .timestamp => c.auth.timestamp
  | .nonce => c.auth.nonce
  | .contentSha256 => c.auth.contentSha256
  | .signature => c.auth.signature
  | .etag => c.etag

theorem buffer_update_self (c : ResponseCapture) (field : HeaderField)
    (change : (n : ℕ) → Bytes (n + 1) → Bytes (n + 1)) :
    (c.update field change).buffer field = change field.room (c.buffer field) := by
  cases field <;> rfl

theorem buffer_update_of_ne (c : ResponseCapture) {field other : HeaderField} (h : other ≠ field)
    (change : (n : ℕ) → Bytes (n + 1) → Bytes (n + 1)) :
    (c.update field change).buffer other = c.buffer other := by
  cases field <;> cases other <;> first | rfl | exact absurd rfl h

@[simp] theorem seenMask_update (c : ResponseCapture) (field : HeaderField)
    (change : (n : ℕ) → Bytes (n + 1) → Bytes (n + 1)) :
    (c.update field change).seenMask = c.seenMask := by
  cases field <;> rfl

@[simp] theorem invalid_update (c : ResponseCapture) (field : HeaderField)
    (change : (n : ℕ) → Bytes (n + 1) → Bytes (n + 1)) :
    (c.update field change).invalid = c.invalid := by
  cases field <;> rfl

end ResponseCapture

/-! ## Names and values -/

/-- No two headers have the same name. -/
theorem HeaderField.nodup_names :
    (HeaderField.all.map fun field => field.name.map asciiLower).Nodup := by
  decide +kernel

theorem HeaderField.mem_all (field : HeaderField) : field ∈ HeaderField.all := by
  cases field <;> decide

/-- The comparisons pick the header of that name. -/
theorem find_field {name : List UInt8} {field : HeaderField} :
    (HeaderField.all.find? fun field => headerNameEqual name field.name) = some field ↔
      headerNameEqual name field.name = true := by
  constructor
  · intro h
    simpa using List.find?_some h
  · intro h
    cases hfind : HeaderField.all.find? fun field => headerNameEqual name field.name with
    | none => exact absurd h (by simpa using List.find?_eq_none.1 hfind field field.mem_all)
    | some other =>
      have hother : headerNameEqual name other.name = true := by simpa using List.find?_some hfind
      simp only [headerNameEqual, decide_eq_true_eq] at h hother
      rw [List.inj_on_of_nodup_map HeaderField.nodup_names other.mem_all field.mem_all
        (hother.symm.trans h)]

section

variable {events : List HeaderEvent} {event : HeaderEvent} {field : HeaderField}

theorem values_append_of_none (h : event.valueFor field = none) :
    values (events ++ [event]) field = values events field := by
  simp [values, h]

theorem values_append_of_some {value : List UInt8} (h : event.valueFor field = some value) :
    values (events ++ [event]) field = values events field ++ [value] := by
  simp [values, h]

/-- No event has a null string, and each header comes at most once, with a value that is not empty
and fits in its buffer. -/
structure Clean (events : List HeaderEvent) : Prop where
  noNull : ∀ event ∈ events, event.name ≠ none ∧ event.value ≠ none
  once : ∀ field, (values events field).length ≤ 1
  fits : ∀ field, ∀ value ∈ values events field, value ≠ [] ∧ value.length < field.room + 1

theorem Clean.of_append (h : Clean (events ++ [event])) : Clean events where
  noNull e he := h.noNull e (List.mem_append_left _ he)
  once field := by
    have honce := h.once field
    rw [values, List.filterMap_append, List.length_append] at honce
    exact le_trans (Nat.le_add_right _ _) honce
  fits field value hvalue := by
    refine h.fits field value ?_
    rw [values, List.filterMap_append]
    exact List.mem_append_left _ hvalue

/-- A header whose first value is stored over a zeroed buffer. -/
def stored (field : HeaderField) : List (List UInt8) → Bytes (field.room + 1)
  | [] => .zero _
  | value :: _ => (Bytes.zero _).print value

/-- What holds after the events: the flag says whether something has spoilt the capture, and until
then the headers that came are those that are stored. -/
structure Captured (events : List HeaderEvent) (c : ResponseCapture) : Prop where
  invalid : c.invalid = false ↔ Clean events
  seen : Clean events → ∀ field, c.seenMask field = true ↔ values events field ≠ []
  buffer : Clean events → ∀ field, c.buffer field = stored field (values events field)

theorem captured_nil : Captured [] httpResponseCaptureInit where
  invalid := iff_of_true rfl ⟨by simp, by simp [values], by simp [values]⟩
  seen _ field := by simp [httpResponseCaptureInit, values]
  buffer _ field := by cases field <;> rfl

/-- An event that is spoilt keeps or sets the flag. -/
theorem captured_of_spoilt {c : ResponseCapture} (h : ¬Clean events) (hc : c.invalid = true) :
    Captured events c where
  invalid := iff_of_false (by rw [hc]; decide) h
  seen hclean := absurd hclean h
  buffer hclean := absurd hclean h

/-- An event that spoils nothing: its value is the first one for its header, and fits. -/
theorem Clean.append (h : Clean events) (hnull : event.name ≠ none ∧ event.value ≠ none)
    (hfirst : ∀ field value, event.valueFor field = some value →
      values events field = [] ∧ value ≠ [] ∧ value.length < field.room + 1) :
    Clean (events ++ [event]) where
  noNull e he := by
    rcases List.mem_append.1 he with he | he
    · exact h.noNull e he
    · rw [List.mem_singleton.1 he]
      exact hnull
  once field := by
    cases hvalue : event.valueFor field with
    | none => rw [values_append_of_none hvalue]; exact h.once field
    | some value =>
      rw [values_append_of_some hvalue, (hfirst field value hvalue).1]
      exact le_rfl
  fits field v hv := by
    cases hvalue : event.valueFor field with
    | none =>
      rw [values_append_of_none hvalue] at hv
      exact h.fits field v hv
    | some value =>
      obtain ⟨hempty, hfits⟩ := hfirst field value hvalue
      rw [values_append_of_some hvalue, hempty, List.nil_append, List.mem_singleton] at hv
      rw [hv]
      exact hfits

/-- A header that is not captured changes nothing. -/
theorem Captured.skip {c : ResponseCapture} (h : Captured events c) (hclean : Clean events)
    (hnull : event.name ≠ none ∧ event.value ≠ none)
    (hnone : ∀ field, event.valueFor field = none) : Captured (events ++ [event]) c where
  invalid := by
    refine iff_of_true (h.invalid.2 hclean) (hclean.append hnull fun field value hvalue => ?_)
    rw [hnone] at hvalue
    cases hvalue
  seen _ field := by
    rw [values_append_of_none (hnone field)]
    exact h.seen hclean field
  buffer _ field := by
    rw [values_append_of_none (hnone field)]
    exact h.buffer hclean field

/-- The first value of a header is stored, if it fits. -/
theorem Captured.store {c : ResponseCapture} {value : List UInt8} (h : Captured events c)
    (hclean : Clean events) (hnull : event.name ≠ none ∧ event.value ≠ none)
    (hevent : ∀ other, event.valueFor other = if other = field then some value else none)
    (hempty : values events field = []) (hne : value ≠ []) (hroom : value.length < field.room + 1) :
    let stored := c.update field fun _ buffer => buffer.print value
    Captured (events ++ [event])
      { stored with seenMask := Function.update stored.seenMask field true } := by
  have hself : values (events ++ [event]) field = [value] := by
    rw [values_append_of_some ((hevent field).trans (if_pos rfl)), hempty, List.nil_append]
  have hother : ∀ other, other ≠ field → values (events ++ [event]) other = values events other :=
    fun other hne => values_append_of_none ((hevent other).trans (if_neg hne))
  have hclean' : Clean (events ++ [event]) := by
    refine hclean.append hnull fun other v hv => ?_
    rw [hevent other] at hv
    split at hv
    next heq =>
      subst heq
      obtain rfl := Option.some.inj hv
      exact ⟨hempty, hne, hroom⟩
    next => cases hv
  refine ⟨iff_of_true ?_ hclean', fun _ other => ?_, fun _ other => ?_⟩
  · simpa using h.invalid.2 hclean
  · by_cases heq : other = field
    · rw [heq, hself]
      simp
    · rw [hother other heq]
      simpa [heq] using h.seen hclean other
  · by_cases heq : other = field
    · subst heq
      rw [hself]
      refine (c.buffer_update_self other _).trans ?_
      rw [h.buffer hclean, hempty]
      rfl
    · rw [hother other heq, ← h.buffer hclean other]
      exact c.buffer_update_of_ne heq _

/-- The header of an event is the one the comparisons pick. -/
theorem valueFor_eq {name value : CString} {found : Option HeaderField}
    (h : (HeaderField.all.find? fun field => headerNameEqual name.text field.name) = found)
    (field : HeaderField) : (⟨some name, some value⟩ : HeaderEvent).valueFor field =
      if some field = found then some value.text else none := by
  have hiff : headerNameEqual name.text field.name = true ↔ some field = found := by
    rw [← find_field, h, eq_comm]
  simp only [HeaderEvent.valueFor, hiff]

theorem captured_append {c : ResponseCapture} (h : Captured events c) (event : HeaderEvent) :
    Captured (events ++ [event])
      (httpResponseCaptureHeader c event.texts.1 event.texts.2).2 := by
  have hlast : event ∈ events ++ [event] := List.mem_append_right _ (List.mem_singleton_self _)
  obtain ⟨name, value⟩ := event
  match name, value with
  | none, _ => exact captured_of_spoilt (fun hclean => (hclean.noNull _ hlast).1 rfl) rfl
  | some name, none => exact captured_of_spoilt (fun hclean => (hclean.noNull _ hlast).2 rfl) rfl
  | some name, some value =>
    simp only [HeaderEvent.texts, Option.map_some, httpResponseCaptureHeader]
    by_cases hinvalid : c.invalid = true
    · rw [if_pos hinvalid]
      refine captured_of_spoilt (fun hclean => ?_) hinvalid
      rw [h.invalid.2 hclean.of_append] at hinvalid
      cases hinvalid
    rw [if_neg hinvalid]
    have hclean : Clean events := h.invalid.1 (by simpa using hinvalid)
    cases hfind : HeaderField.all.find? fun field => headerNameEqual name.text field.name with
    | none => exact h.skip hclean ⟨by simp, by simp⟩ (valueFor_eq hfind)
    | some field =>
      have hevent := @valueFor_eq name value _ hfind
      simp only [Option.some.injEq] at hevent
      have hseen := h.seen hclean field
      dsimp only
      split
      next hspoilt =>
        refine captured_of_spoilt (fun hclean' => ?_) rfl
        have hself := @values_append_of_some events _ _ _ ((hevent field).trans (if_pos rfl))
        have honce := hclean'.once field
        have hfits := hclean'.fits field value.text (by simp [hself])
        rw [hself, List.length_append, List.length_singleton] at honce
        have hempty : values events field = [] := List.eq_nil_of_length_eq_zero (by omega)
        have hpos := List.length_pos_iff.2 hfits.1
        simp only [boundedValueLength] at hspoilt
        rcases hspoilt with hduplicate | hlength
        · exact hseen.1 hduplicate hempty
        · omega
      next hstored =>
        rw [not_or, not_or] at hstored
        obtain ⟨hfirst, hpos, hroom⟩ := hstored
        simp only [boundedValueLength] at hpos hroom
        have hempty : values events field = [] := by
          by_contra hne
          exact hfirst (hseen.2 hne)
        exact h.store hclean ⟨by simp, by simp⟩ hevent hempty
          (List.length_pos_iff.1 (by omega)) (by omega)

/-- **After every event** the capture is that of the events so far. -/
theorem captured (events : List HeaderEvent) : Captured events (capture events) := by
  induction events using List.reverseRecOn with
  | nil => exact captured_nil
  | append_singleton events event ih =>
    have hstep := captured_append ih event
    simpa [capture, captureHeaders] using hstep

end

/-! ## The verdict -/

/-- The events of a response that is accepted: no null string, each header of the authentication
exactly once and the ETag at most once, or exactly once if it is required, with values that are not
empty and shorter than their buffers. -/
structure Complete (events : List HeaderEvent) (requireEtag : Bool) : Prop where
  noNull : ∀ event ∈ events, event.name ≠ none ∧ event.value ≠ none
  once : ∀ field ≠ HeaderField.etag, (values events field).length = 1
  etag : (values events .etag).length ≤ 1
  etagRequired : requireEtag = true → (values events .etag).length = 1
  fits : ∀ field, ∀ value ∈ values events field, value ≠ [] ∧ value.length < field.room + 1

theorem Complete.clean {events : List HeaderEvent} {requireEtag : Bool}
    (h : Complete events requireEtag) : Clean events where
  noNull := h.noNull
  once field := by
    by_cases hetag : field = .etag
    · rw [hetag]
      exact h.etag
    · exact (h.once field hetag).le
  fits := h.fits

theorem validate_iff (events : List HeaderEvent) (requireEtag : Bool) :
    httpResponseCaptureValidate (capture events) requireEtag = .ok ↔ Complete events requireEtag := by
  have hcaptured := captured events
  have hverdict : httpResponseCaptureValidate (capture events) requireEtag = .ok ↔
      (capture events).invalid = false ∧ ∀ field, (requireEtag = true ∨ field ≠ .etag) →
        (capture events).seenMask field = true := by
    have hall : (∀ field ∈ HeaderField.all, (!(requireEtag || field ≠ .etag) ||
        (capture events).seenMask field) = true) ↔ ∀ field, (requireEtag = true ∨ field ≠ .etag) →
          (capture events).seenMask field = true := by
      simp only [HeaderField.mem_all, forall_const, Bool.or_eq_true, Bool.not_eq_true',
        Bool.or_eq_false_iff, decide_eq_false_iff_not, imp_iff_not_or]
      refine forall_congr' fun field => ?_
      cases requireEtag <;> simp
    rw [httpResponseCaptureValidate, ← hall]
    simp only [Bool.and_eq_true, Bool.not_eq_true', List.all_eq_true]
    split
    next h => exact iff_of_true rfl h
    next h => exact iff_of_false (by decide) h
  rw [hverdict, hcaptured.invalid]
  constructor
  · rintro ⟨hclean, hseen⟩
    have hlength : ∀ field, (requireEtag = true ∨ field ≠ .etag) →
        (values events field).length = 1 := by
      intro field hrequired
      have hne := (hcaptured.seen hclean field).1 (hseen field hrequired)
      have hpos := List.length_pos_iff.2 hne
      have honce := hclean.once field
      omega
    exact ⟨hclean.noNull, fun field h => hlength field (.inr h), hclean.once .etag,
      fun h => hlength .etag (.inl h), hclean.fits⟩
  · intro hcomplete
    refine ⟨hcomplete.clean, fun field hrequired => ?_⟩
    refine (hcaptured.seen hcomplete.clean field).2 (List.length_pos_iff.1 ?_)
    by_cases hetag : field = .etag
    · rw [hetag, hcomplete.etagRequired (hrequired.resolve_right (not_not.2 hetag))]
      decide
    · rw [hcomplete.once field hetag]
      decide

/-- A value of a clean capture is in its buffer. -/
theorem str_captured {events : List HeaderEvent} (h : Clean events) {field : HeaderField}
    {value : List UInt8} (hvalue : value ∈ values events field) :
    ((capture events).buffer field).str = value := by
  have honce := h.once field
  have hfits := h.fits field value hvalue
  have hnul : 0 ∉ value := by
    obtain ⟨event, -, hevent⟩ := List.mem_filterMap.1 hvalue
    unfold HeaderEvent.valueFor at hevent
    split at hevent
    next name text _ _ =>
      split at hevent
      · rw [← Option.some.inj hevent]
        exact text.noNul
      · cases hevent
    next => cases hevent
  have hsingle : values events field = [value] := by
    match hvalues : values events field with
    | [] => rw [hvalues] at hvalue; cases hvalue
    | [v] => rw [hvalues, List.mem_singleton] at hvalue; rw [hvalue]
    | _ :: _ :: _ => rw [hvalues] at honce; simp at honce
  rw [(captured events).buffer h field, hsingle]
  exact Bytes.str_print hnul (Nat.lt_succ_iff.1 hfits.2)

section

variable {events events' : List HeaderEvent}

theorem values_perm (h : events.Perm events') (field : HeaderField) :
    (values events field).Perm (values events' field) :=
  h.filterMap _

theorem Clean.perm (h : events.Perm events') (hclean : Clean events) : Clean events' where
  noNull event hevent := hclean.noNull event (h.mem_iff.2 hevent)
  once field := (values_perm h field).length_eq ▸ hclean.once field
  fits field value hvalue := hclean.fits field value ((values_perm h field).mem_iff.2 hvalue)

theorem Complete.perm (h : events.Perm events') {requireEtag : Bool}
    (hcomplete : Complete events requireEtag) : Complete events' requireEtag where
  noNull := (hcomplete.clean.perm h).noNull
  once field hne := (values_perm h field).length_eq ▸ hcomplete.once field hne
  etag := (values_perm h _).length_eq ▸ hcomplete.etag
  etagRequired hrequired := (values_perm h _).length_eq ▸ hcomplete.etagRequired hrequired
  fits := (hcomplete.clean.perm h).fits

/-- What a clean capture stores does not depend on the order of the events. -/
theorem buffer_perm (h : events.Perm events') (hclean : Clean events) (field : HeaderField) :
    (capture events').buffer field = (capture events).buffer field := by
  rw [(captured events').buffer (hclean.perm h), (captured events).buffer hclean]
  have hperm := values_perm h field
  have honce := hclean.once field
  match hvalues : values events field with
  | [] => rw [hvalues] at hperm; rw [List.nil_perm.1 hperm]
  | [v] => rw [hvalues] at hperm; rw [List.singleton_perm.1 hperm]
  | _ :: _ :: _ => rw [hvalues] at honce; simp at honce

end

/-- **The capture accepts exactly one of each.** The events of a response are accepted if and only
if they are complete; each header is then stored as it was sent; and the verdict, and what is stored
on acceptance, are the same in every order. -/
theorem capture_accepts_iff (events : List HeaderEvent) (requireEtag : Bool) :
    (httpResponseCaptureValidate (capture events) requireEtag = .ok ↔
      Complete events requireEtag) ∧
    (httpResponseCaptureValidate (capture events) requireEtag = .ok →
      ∀ field, ∀ value ∈ values events field, ((capture events).buffer field).str = value) ∧
    ∀ events', events.Perm events' →
      httpResponseCaptureValidate (capture events') requireEtag =
        httpResponseCaptureValidate (capture events) requireEtag ∧
      (httpResponseCaptureValidate (capture events) requireEtag = .ok →
        ∀ field, (capture events').buffer field = (capture events).buffer field) := by
  have hiff := validate_iff events requireEtag
  refine ⟨hiff, fun hok field value => str_captured (hiff.1 hok).clean, fun events' hperm =>
    ⟨?_, fun hok => buffer_perm hperm (hiff.1 hok).clean⟩⟩
  have hiff' := validate_iff events' requireEtag
  by_cases hcomplete : Complete events requireEtag
  · rw [hiff.2 hcomplete, hiff'.2 (hcomplete.perm hperm)]
  · have hcomplete' : ¬Complete events' requireEtag := fun h => hcomplete (h.perm hperm.symm)
    have hverdict : ∀ c, httpResponseCaptureValidate c requireEtag = .ok ∨
        httpResponseCaptureValidate c requireEtag = .invalidResponse := by
      intro c
      unfold httpResponseCaptureValidate
      dsimp only
      split
      · exact .inl rfl
      · exact .inr rfl
    rw [(hverdict _).resolve_left (hiff.not.2 hcomplete),
      (hverdict _).resolve_left (hiff'.not.2 hcomplete')]

end PowerMonitor.Protocol
