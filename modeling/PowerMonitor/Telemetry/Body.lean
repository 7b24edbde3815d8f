import PowerMonitor.Diagnostics.Redact
import PowerMonitor.Foundations.Decimal
import PowerMonitor.Protocol.Verify
import PowerMonitor.Runtime.World
import PowerMonitor.Telemetry.Instant
import PowerMonitor.Telemetry.Response

/-!
# The telemetry body

`pm_network_serialize_telemetry` builds the JSON of a request with cJSON, any of whose allocations
may fail without a sign: then a member is missing from the body.

* `readMilli_decimalMilli`: the decimal texts are exact.
* `body_tells_sample`: a body tells all values of a sample that the meter measured, and no value of
  any other sample.
* `body_acknowledges_reported`: whatever allocations fail, `notify_result_acceptance` acknowledges
  commands of the ledger whose results are in the body, and all of them if none fails.
-/

namespace PowerMonitor.Telemetry

open CMemory CJson CText Commands Protocol
open Runtime.World (reportable)

/-! ## Values that are built -/

/-- A value that is built with cJSON. -/
inductive Item
  | null
  | integer (value : ℤ)
  | raw (text : List UInt8)
  | string (text : Text)
  | array (items : List Item)
  | object (members : List (String × Item))

mutual

/-- The value that a parser finds in the printed text; a number is read as a double. -/
def Item.value : Item → Json
  | .null => .null
  | .integer value => .number value
  | .raw text => .number (doubleOfU64 (decimal text))
  | .string text => .string text
  | .array items => .array (Item.values items)
  | .object members => .object (Item.memberValues members)

def Item.values : List Item → List Json
  | [] => []
  | item :: items => item.value :: Item.values items

def Item.memberValues : List (String × Item) → List (List UInt8 × Json)
  | [] => []
  | (name, item) :: members => (ascii name, item.value) :: Item.memberValues members

end

theorem Item.values_eq (items : List Item) : Item.values items = items.map Item.value := by
  induction items with
  | nil => rfl
  | cons item items ih => rw [Item.values, ih, List.map_cons]

theorem Item.memberValues_eq (members : List (String × Item)) :
    Item.memberValues members = members.map fun m => (ascii m.1, m.2.value) := by
  induction members with
  | nil => rfl
  | cons m members ih => rw [Item.memberValues, ih, List.map_cons]

theorem toList_loop (bytes : ByteArray) (i : ℕ) (read : List UInt8) :
    ByteArray.toList.loop bytes i read = read.reverse ++ bytes.data.toList.drop i := by
  fun_induction ByteArray.toList.loop bytes i read with
  | case1 i read hi ih =>
    have hlt : i < bytes.data.toList.length := by simpa using hi
    have hget : bytes.get! i = bytes.data.toList[i] := by
      change bytes.data[i]! = _
      rw [getElem!_pos bytes.data i hi, Array.getElem_toList]
    rw [ih, List.reverse_cons, List.append_assoc, List.singleton_append, hget,
      List.drop_eq_getElem_cons hlt]
  | case2 i read hi =>
    have hle : bytes.data.toList.length ≤ i := by simpa using hi
    rw [List.drop_eq_nil_of_le hle, List.append_nil]

theorem ascii_injective : Function.Injective ascii := by
  intro s t h
  have hlist (text : String) : ascii text = text.toByteArray.data.toList :=
    (toList_loop text.toByteArray 0 []).trans (by simp)
  rw [hlist, hlist] at h
  exact String.toByteArray_inj.1 (ByteArray.ext (Array.toList_inj.1 h))

/-- A member of an object, after it was printed and parsed. -/
theorem item_value_object (members : List (String × Item)) (name : String) :
    (Item.object members).value.item name =
      (members.find? fun m => m.1 = name).map fun m => m.2.value := by
  have hname : ((fun m : List UInt8 × Json => decide (m.1 = ascii name)) ∘
      fun m : String × Item => (ascii m.1, m.2.value)) = fun m => decide (m.1 = name) := by
    funext m
    simp [ascii_injective.eq_iff]
  rw [Item.value, Item.memberValues_eq, Json.item, List.find?_map, Option.map_map, hname]
  rfl

/-! ## Numbers -/

/-- The text that `json_add_decimal_milli` adds. -/
def decimalMilli (milli : ℤ) : List UInt8 :=
  (if milli < 0 then [0x2d] else []) ++
    (printUnsigned (milli.natAbs / 1000) ++ 0x2e :: printPadded 3 (milli.natAbs % 1000))

/-- The thousandths that an unsigned text with three decimals stands for. -/
def readThousandths (text : List UInt8) : Option ℕ :=
  let whole := text.takeWhile isdigit
  let places := text.drop (whole.length + 1)
  if whole ≠ [] ∧ text[whole.length]? = some 0x2e ∧ places.length = 3 ∧ places.all isdigit then
    some (1000 * decimal whole + decimal places)
  else none

/-- The thousandths that a text with three decimals stands for. -/
def readMilli (text : List UInt8) : Option ℤ :=
  if text.head? = some 0x2d then (readThousandths text.tail).map fun n : ℕ => -(n : ℤ)
  else (readThousandths text).map fun n : ℕ => (n : ℤ)

theorem printUnsigned_ne_nil (n : ℕ) : printUnsigned n ≠ [] := by
  by_cases hn : n < 10
  · simp [printUnsigned_of_lt hn]
  · simp [printUnsigned_of_le (not_lt.1 hn)]

theorem readThousandths_text (n : ℕ) :
    readThousandths (printUnsigned (n / 1000) ++ 0x2e :: printPadded 3 (n % 1000)) = some n := by
  have hdigits : ∀ c ∈ printUnsigned (n / 1000), isdigit c = true :=
    fun c hc => isdigit_of_mem_printUnsigned hc
  have hwhole : (printUnsigned (n / 1000) ++ 0x2e :: printPadded 3 (n % 1000)).takeWhile isdigit =
      printUnsigned (n / 1000) := by
    rw [List.takeWhile_append_of_pos hdigits, List.takeWhile_cons_of_neg (by decide), List.append_nil]
  have hplaces : (printPadded 3 (n % 1000)).all isdigit = true :=
    List.all_eq_true.2 fun c hc => isdigit_of_mem_printPadded hc
  have hlength : (printPadded 3 (n % 1000)).length = 3 :=
    length_printPadded (by decide) (Nat.mod_lt _ (by decide))
  unfold readThousandths
  rw [hwhole]
  dsimp only
  rw [List.getElem?_append_right le_rfl, Nat.sub_self, ← List.drop_drop, List.drop_left,
    if_pos ⟨printUnsigned_ne_nil _, rfl, hlength, hplaces⟩, List.drop_one, List.tail_cons,
    decimal_printUnsigned, decimal_printPadded]
  exact congrArg some (by omega)

/-- **A decimal text is exact.** -/
theorem readMilli_decimalMilli (milli : ℤ) : readMilli (decimalMilli milli) = some milli := by
  unfold decimalMilli
  by_cases hneg : milli < 0
  · rw [if_pos hneg, List.singleton_append, readMilli, if_pos (List.head?_cons), List.tail_cons,
      readThousandths_text, Option.map_some]
    exact congrArg some (by omega)
  · rw [if_neg hneg, List.nil_append, readMilli, if_neg, readThousandths_text, Option.map_some]
    · exact congrArg some (by omega)
    · -- a text that starts with a digit is not negative
      obtain ⟨c, cs, hc⟩ := List.exists_cons_of_ne_nil (printUnsigned_ne_nil (milli.natAbs / 1000))
      have hdigit : isdigit c = true :=
        isdigit_of_mem_printUnsigned (by rw [hc]; exact List.mem_cons_self)
      rw [hc, List.cons_append, List.head?_cons, Option.some.injEq]
      rintro rfl
      exact absurd hdigit (by decide)

/-! ## The functions of the source -/

/-- A C string of the source. -/
def cText (text : String) : Text := Text.of (ascii text)

/-- `contract_pzem_status`. -/
def contractPzemStatus : PzemStatus → String
  | .ok => "ok"
  | .timeout => "timeout"
  | .shortFrame => "short_frame"
  | .badCrc => "bad_crc"
  | .wrongSlave => "wrong_address"
  | .notVerified => "absent"
  | _ => "invalid"

/-- `pm_command_state_name`. -/
def commandStateName : CommandState → String
  | .queued => "queued"
  | .delivered => "delivered"
  | .accepted => "accepted"
  | .running => "running"
  | .succeeded => "succeeded"
  | .failed => "failed"
  | .expired => "expired"
  | .cancelled => "cancelled"
  | .superseded => "superseded"
  | .awaitingReboot => "awaiting_reboot"
  | .awaitingHeartbeat => "awaiting_heartbeat"
  | .rolledBack => "rolled_back"
  | .other _ => "invalid"

/-- What the environment has for one command result. -/
structure ResultEnv where
  created : Bool := true
  adds : String → Bool := fun _ => true
  evidenceAdds : String → Bool := fun _ => true

/-- What the environment has for a body: the descriptions of the image and of the access point, the
names of error codes, and which allocations succeed. -/
structure BodyEnv where
  version : Text
  elfSha256 : Bytes 32
  rssi : Option ℤ
  errorName : ℤ → Text
  created : Bool := true
  adds : String → Bool := fun _ => true
  result : EntryIndex → ResultEnv := fun _ => {}
  printed : Bool := true

/-- The members that were added; one whose allocation fails is left out. -/
def added (adds : String → Bool) (members : List (String × Item)) : List (String × Item) :=
  members.filter fun m => adds m.1

/-- `command_result_code`. -/
def commandResultCode (c : Command) (env : BodyEnv) : Text :=
  match c.state with
  | .accepted => cText "accepted"
  | .running => cText "in_progress"
  | .awaitingReboot => cText "awaiting_reboot"
  | .rolledBack => cText "rolled_back"
  | .succeeded => if c.resultCode = 0 then cText "ok" else env.errorName c.resultCode
  | _ => env.errorName c.resultCode

/-- `append_command_results` for one command. -/
def resultItem (c : Command) (env : BodyEnv) (r : ResultEnv) : Item :=
  let detail := (Diagnostics.diagnosticsRedact c.resultText.str (Bytes.zero 161)).2.str
  let evidence := added r.evidenceAdds ([("attempt", .integer c.attempt)] ++
    if c.resultText.str = [] then [] else [("detail", .string (Text.of detail))])
  .object (added r.adds [
    ("command_id", .string (Text.of c.commandId.str)),
    ("state", .string (cText (commandStateName c.state))),
    ("progress_percent", .integer c.progressPercent),
    ("result_code", .string (commandResultCode c env)),
    ("evidence", .object evidence)])

/-- A value of the meter, which is `null` in a sample that is not valid. -/
def measured (valid : Bool) (item : Item) : Item := if valid then item else .null

/-- The text of a number of `json_add_decimal_milli`, which holds no NUL. -/
def milliItem (milli : ℤ) : Item := .string (Text.of (decimalMilli milli))

/-- `json_add_u64`. -/
def u64Item (value : ℕ) : Item := .raw (printUnsigned value)

/-- The members that `pm_network_serialize_telemetry` adds, the results apart. -/
def sampleMembers (deviceIdText bootId : Text) (sample : TelemetrySample) (env : BodyEnv) :
    List (String × Item) :=
  let m := sample.measurement
  let valid := decide (m.status = .ok)
  let trusted := valid && m.timeTrusted
  let timestamp := if trusted then formatRfc3339Ms m.sampleTimestampUtcMs else none
  [("telemetry_protocol", .string (Text.of telemetryProtocolId)),
    ("sensor_id", .string deviceIdText),
    ("boot_id", .string bootId),
    ("sample_sequence", u64Item sample.sampleSequence),
    ("sampled_at", (timestamp.map fun text => Item.string (Text.of text)).getD .null),
    ("uptime_ms", u64Item (if 0 < m.sampleMonotonicUs then m.sampleMonotonicUs.toNat / 1000 else 0)),
    ("voltage_v", measured valid (milliItem m.voltageMv)),
    ("current_a", measured valid (milliItem m.currentMa)),
    ("active_power_w", measured valid (milliItem m.activePowerMw)),
    ("frequency_hz", measured valid (milliItem m.frequencyMhz)),
    ("power_factor", measured valid (milliItem m.powerFactorMilli)),
    ("pzem_energy_wh", measured valid (u64Item m.energyWh)),
    ("pzem_status", .string (cText (contractPzemStatus m.status))),
    ("firmware_version", .string env.version),
    ("firmware_build_id", .string (Text.of (hexLower env.elfSha256.bytes))),
    ("time_status", .string (cText (if trusted then "trusted" else "untrusted"))),
    ("wifi_rssi", (env.rssi.map Item.integer).getD .null)]

/-- `pm_network_serialize_telemetry`: the value that is printed to the body. -/
def serializeTelemetry (deviceIdText bootId : Text) (l : Ledger) (sample : TelemetrySample)
    (env : BodyEnv) : Except EspErr Item :=
  if sample.sampleSequence = 0 ∨ bootId.val = [] then .error .invalidArg
  else if !env.created then .error .noMem
  else if (reportable l).any fun i => !(env.result i).created then .error .noMem
  else if !env.printed then .error .invalidSize
  else
    let results := (reportable l).map fun i => resultItem (l.entries i) env (env.result i)
    .ok (.object (added env.adds (sampleMembers deviceIdText bootId sample env ++
      [("command_results", .array results)])))

/-! ## Lookups -/

section

variable {deviceIdText bootId : Text} {l : Ledger} {sample : TelemetrySample} {env : BodyEnv}
  {body : Item}

/-- A member of an object of distinct names, some of which were not added. -/
theorem item_added {adds : String → Bool} {members : List (String × Item)} (names : List String)
    (hmembers : members.map Prod.fst = names) (hnames : names.Nodup) {name : String} {item : Item}
    (hmem : (name, item) ∈ members) :
    (Item.object (added adds members)).value.item name = if adds name then some item.value else none := by
  subst hmembers
  rw [item_value_object]
  induction members with
  | nil => cases hmem
  | cons m members ih =>
    rw [List.map_cons, List.nodup_cons] at hnames
    obtain rfl | hmem := List.mem_cons.1 hmem
    · by_cases hadd : adds name
      · simp [added, hadd]
      · -- no other member has the name
        have hnone : (added adds members).find? (fun m => m.1 = name) = none := by
          apply List.find?_eq_none.2
          intro m hm
          have hmem : m.1 ∈ members.map Prod.fst := List.mem_map_of_mem (List.mem_filter.1 hm).1
          have hne : m.1 ≠ name := fun heq => hnames.1 (heq ▸ hmem)
          simpa using hne
        rw [added, List.filter_cons_of_neg (by simpa using hadd), if_neg hadd]
        exact congrArg (Option.map fun m => m.2.value) hnone
    · have hne : m.1 ≠ name := by
        rintro rfl
        exact hnames.1 (List.mem_map.2 ⟨_, hmem, rfl⟩)
      rw [← ih hmem hnames.2]
      by_cases hadd : adds m.1
      · simp [added, hadd, hne]
      · simp [added, hadd]

theorem serializeTelemetry_ok (h : serializeTelemetry deviceIdText bootId l sample env = .ok body) :
    body = .object (added env.adds (sampleMembers deviceIdText bootId sample env ++
      [("command_results", .array ((reportable l).map fun i =>
        resultItem (l.entries i) env (env.result i)))])) := by
  unfold serializeTelemetry at h
  split_ifs at h
  exact (Except.ok.inj h).symm

/-- The names of the members of a body. -/
def bodyNames : List String :=
  ["telemetry_protocol", "sensor_id", "boot_id", "sample_sequence", "sampled_at", "uptime_ms",
    "voltage_v", "current_a", "active_power_w", "frequency_hz", "power_factor", "pzem_energy_wh",
    "pzem_status", "firmware_version", "firmware_build_id", "time_status", "wifi_rssi",
    "command_results"]

/-- The names of the members of a result. -/
def resultNames : List String := ["command_id", "state", "progress_percent", "result_code", "evidence"]

/-- A member of a body is there if it was added. -/
theorem item_body (h : serializeTelemetry deviceIdText bootId l sample env = .ok body) {name : String}
    {item : Item} (hmem : (name, item) ∈ sampleMembers deviceIdText bootId sample env ++
      [("command_results", .array ((reportable l).map fun i =>
        resultItem (l.entries i) env (env.result i)))]) :
    body.value.item name = if env.adds name then some item.value else none := by
  rw [serializeTelemetry_ok h]
  have hnames : bodyNames.Nodup := by decide
  refine item_added bodyNames ?_ hnames hmem
  rfl

/-! ## Acknowledged results -/

/-- A C string is what is read of it. -/
theorem text_of_val (t : Text) : Text.of t.val = t := by
  apply Subtype.ext
  refine List.takeWhile_eq_self_iff.2 fun c hc => ?_
  have hne : c ≠ 0 := fun hzero => t.property (hzero ▸ hc)
  simpa using hne

theorem text_of_clear {t : List UInt8} (h : 0 ∉ t) : (Text.of t).val = t :=
  congrArg Subtype.val (text_of_val ⟨t, h⟩)

theorem text_of_str {n : ℕ} (b : Bytes n) : (Text.of b.str).val = b.str := by
  refine List.takeWhile_eq_self_iff.2 fun c hc => ?_
  exact List.mem_takeWhile_imp (p := fun c : UInt8 => c != 0) hc

theorem cstring_string (t : Text) : cstring (some (.string t.val)) = some t.val := by
  rw [cstring, textOf, Option.bind_some, Json.text?, Option.map_some, Option.map_some, text_of_val]

theorem item_resultItem (c : Command) (env : BodyEnv) (r : ResultEnv) :
    (resultItem c env r).value.item "command_id" =
        (if r.adds "command_id" then some (.string (Text.of c.commandId.str).val) else none) ∧
      (resultItem c env r).value.item "state" =
        if r.adds "state" then some (.string (cText (commandStateName c.state)).val) else none := by
  have hnames : resultNames.Nodup := by decide
  unfold resultItem
  constructor
  · refine item_added resultNames ?_ hnames List.mem_cons_self
    rfl
  · refine item_added resultNames ?_ hnames (List.mem_cons_of_mem _ List.mem_cons_self)
    rfl

/-- The identities and the states of the results in a body. -/
def toldResults (body : Option Json) : List (Option (List UInt8) × Option (List UInt8)) :=
  (((member body "command_results").bind Json.items?).getD []).map fun item =>
    (cstring (item.item "command_id"), cstring (item.item "state"))

/-- The results of a body, each with the members that were added. -/
theorem toldResults_body (h : serializeTelemetry deviceIdText bootId l sample env = .ok body) :
    toldResults (some body.value) =
      if env.adds "command_results" then (reportable l).map fun i =>
        (if (env.result i).adds "command_id" then some (l.entries i).commandId.str else none,
          if (env.result i).adds "state" then
            some (cText (commandStateName (l.entries i).state)).val else none)
      else [] := by
  have hitem := item_body h (List.mem_append_right _ List.mem_cons_self)
  rw [toldResults, member, Option.bind_some, hitem]
  by_cases hadd : env.adds "command_results"
  · rw [if_pos hadd, if_pos hadd, Option.bind_some, Item.value, Item.values_eq, Json.items?,
      Option.getD_some, List.map_map, List.map_map]
    refine List.map_congr_left fun i _ => ?_
    obtain ⟨hid, hstate⟩ := item_resultItem (l.entries i) env (env.result i)
    simp only [Function.comp_apply, hid, hstate, apply_ite cstring, cstring_string]
    simp only [text_of_str]
    rfl
  · rw [if_neg hadd, if_neg hadd]
    rfl

/-- The body that the runtime's network task carries has the results of the body that is built, for
the same allocations. -/
theorem toldResults_serialized [Sha256]
    (h : serializeTelemetry deviceIdText bootId l sample env = .ok body) :
    toldResults (some body.value) =
      (Runtime.World.serializedResults l {
        addsResults := env.adds "command_results"
        addsId := fun i => (env.result i).adds "command_id"
        addsState := fun i => (env.result i).adds "state" }).map fun r =>
          (r.1, r.2.map fun state => (cText (commandStateName state)).val) := by
  rw [toldResults_body h, Runtime.World.serializedResults]
  split
  · rw [List.map_map]
    refine List.map_congr_left fun i _ => ?_
    simp only [Function.comp_apply, apply_ite (Option.map _), Option.map_some, Option.map_none]
  · rfl

/-- **What is acknowledged was reported.** Whatever allocations fail, the identities that
`notify_result_acceptance` acknowledges are those of reportable commands whose result is in the
body; if none fails, they are those of all reportable commands, each with its state. -/
theorem body_acknowledges_reported [Parser] (print : Item → List UInt8)
    (h : serializeTelemetry deviceIdText bootId l sample env = .ok body)
    (hparse : Parser.parse (print body) = some body.value) :
    reportedIds (print body) =
        (if env.adds "command_results" then
          ((reportable l).filter fun i => (env.result i).adds "command_id").map fun i =>
            (l.entries i).commandId.str
        else []) ∧
      (env.adds "command_results" = true → (∀ i name, (env.result i).adds name = true) →
        reportedIds (print body) = (Runtime.World.commandResults l).map Prod.fst ∧
          toldResults (Parser.parse (print body)) = (Runtime.World.commandResults l).map fun r =>
            (some r.1, some (cText (commandStateName r.2)).val)) := by
  have htold := toldResults_body h
  have hids : reportedIds (print body) = (toldResults (some body.value)).filterMap fun r =>
      r.1.filter fun id => id.length = 36 := by
    rw [reportedIds, toldResults, hparse, List.filterMap_map]
    rfl
  have hreport : reportedIds (print body) = (if env.adds "command_results" then
      ((reportable l).filter fun i => (env.result i).adds "command_id").map fun i =>
        (l.entries i).commandId.str
      else []) := by
    rw [hids, htold]
    by_cases hresults : env.adds "command_results"
    · rw [if_pos hresults, if_pos hresults, List.filterMap_map, ← List.filterMap_eq_map,
        List.filterMap_filter]
      refine List.filterMap_congr fun i hi => ?_
      have hlength := (of_decide_eq_true (List.mem_filter.1 hi).2).1
      by_cases hadd : (env.result i).adds "command_id"
      · simp [hadd, hlength]
      · simp [hadd]
    · rw [if_neg hresults, if_neg hresults]
      rfl
  have hcommands : Runtime.World.commandResults l =
      (reportable l).map fun i => ((l.entries i).commandId.str, (l.entries i).state) := rfl
  refine ⟨hreport, fun hresults hall => ?_⟩
  rw [hreport, hparse, htold, if_pos hresults, if_pos hresults, hcommands, List.map_map, List.map_map]
  constructor
  · rw [List.filter_eq_self.2 fun i _ => hall i "command_id"]
    rfl
  · simp only [hall, if_true]
    rfl

/-- A ledger with one accepted command. -/
def oneAccepted : Ledger :=
  Ledger.zero.setEntry 0 { Command.zero with
    commandId := (Bytes.zero 37).print (List.replicate 36 0x61), state := .accepted }

/-- The image and the access point, and the members of a body for which memory suffices. -/
def someBodyEnv (names : List String) : BodyEnv where
  version := cText "1.0.0"
  elfSha256 := Bytes.zero 32
  rssi := none
  errorName _ := cText "ESP_FAIL"
  adds name := name ∈ names
  result _ := { adds := fun name => name = "command_id" }

/-- The body that holds one identity. -/
def oneResultText : List UInt8 :=
  ascii "\x7b\"command_results\":[\x7b\"command_id\":\"" ++ List.replicate 36 0x61 ++
    ascii "\"\x7d]\x7d"

/-- The parser, on that body. -/
@[reducible] def oneResultParser : Parser where
  parse text :=
    if text = oneResultText then
      some (.object [(ascii "command_results",
        .array [.object [(ascii "command_id", .string (List.replicate 36 0x61))]])])
    else none

theorem serializeTelemetry_oneAccepted :
    serializeTelemetry (Text.of [0x61]) (Text.of [0x62]) oneAccepted ⟨.zero, 7⟩
      (someBodyEnv ["command_results"]) =
    .ok (.object [("command_results", .array [.object [("command_id",
      .string (Text.of (List.replicate 36 0x61)))]])]) := by
  have hreportable : reportable oneAccepted = [0] := by decide
  unfold serializeTelemetry
  rw [if_neg (by decide), if_neg (by decide), hreportable]
  rfl

theorem body_acknowledges_reported_one :
    @reportedIds oneResultParser oneResultText = [List.replicate 36 0x61] :=
  ((@body_acknowledges_reported (Text.of [0x61]) (Text.of [0x62]) oneAccepted
    ⟨.zero, 7⟩ (someBodyEnv ["command_results"])
    (.object [("command_results", .array [.object [("command_id",
      .string (Text.of (List.replicate 36 0x61)))]])])
    oneResultParser (fun _ => oneResultText) serializeTelemetry_oneAccepted
    ((if_pos rfl).trans rfl)).1).trans rfl

/-! ## What a body tells -/

/-- What a body tells of a sample: its numbers as doubles, its decimal texts in thousandths. -/
structure Told where
  sequence : Option ℚ
  sampledAt : Option (List UInt8)
  uptimeMs : Option ℚ
  voltageMv : Option ℤ
  currentMa : Option ℤ
  activePowerMw : Option ℤ
  frequencyMhz : Option ℤ
  powerFactorMilli : Option ℤ
  energyWh : Option ℚ
  status : Option (List UInt8)

/-- A decimal text of a body. -/
def toldMilli (body : Option Json) (name : String) : Option ℤ :=
  (cstring (member body name)).bind readMilli

/-- A body, read member by member. -/
def told (body : Option Json) : Told where
  sequence := numberOf (member body "sample_sequence")
  sampledAt := cstring (member body "sampled_at")
  uptimeMs := numberOf (member body "uptime_ms")
  voltageMv := toldMilli body "voltage_v"
  currentMa := toldMilli body "current_a"
  activePowerMw := toldMilli body "active_power_w"
  frequencyMhz := toldMilli body "frequency_hz"
  powerFactorMilli := toldMilli body "power_factor"
  energyWh := numberOf (member body "pzem_energy_wh")
  status := cstring (member body "pzem_status")

/-- A value that is told if a condition holds. -/
def tells {α : Type} (condition : Prop) [Decidable condition] (value : α) : Option α :=
  if condition then some value else none

theorem digit_ne_zero {c : UInt8} (hc : isdigit c = true) : c ≠ 0 := by
  rintro rfl
  exact absurd hc (by decide)

theorem zero_not_mem_decimalMilli (milli : ℤ) : (0 : UInt8) ∉ decimalMilli milli := by
  unfold decimalMilli
  rintro hzero
  rcases List.mem_append.1 hzero with hsign | hrest
  · split_ifs at hsign
    · exact absurd (List.mem_singleton.1 hsign) (by decide)
    · cases hsign
  rcases List.mem_append.1 hrest with hwhole | hplaces
  · exact digit_ne_zero (isdigit_of_mem_printUnsigned hwhole) rfl
  rcases List.mem_cons.1 hplaces with hpoint | hplaces
  · exact absurd hpoint (by decide)
  · exact digit_ne_zero (isdigit_of_mem_printPadded hplaces) rfl

theorem zero_not_mem_printTm (utc : Tm) (milliseconds : ℕ) :
    (0 : UInt8) ∉ printTm utc milliseconds := by
  have hpadded (width n : ℕ) : (0 : UInt8) ∉ printPadded width n := fun hzero =>
    digit_ne_zero (isdigit_of_mem_printPadded hzero) rfl
  unfold printTm
  simp [hpadded]

/-- A decimal text is told exactly, or not at all. -/
theorem toldMilli_body (h : serializeTelemetry deviceIdText bootId l sample env = .ok body)
    {name : String} {milli : ℤ}
    (hmem : (name, measured (decide (sample.measurement.status = .ok)) (milliItem milli)) ∈
      sampleMembers deviceIdText bootId sample env) :
    toldMilli (some body.value) name =
      tells (env.adds name = true ∧ sample.measurement.status = .ok) milli := by
  rw [toldMilli, member, Option.bind_some, item_body h (List.mem_append_left _ hmem), tells]
  by_cases hadd : env.adds name <;> by_cases hvalid : sample.measurement.status = .ok
  · rw [if_pos hadd, if_pos ⟨hadd, hvalid⟩, measured, if_pos (decide_eq_true hvalid), milliItem,
      Item.value, cstring_string, Option.bind_some,
      text_of_clear (zero_not_mem_decimalMilli milli), readMilli_decimalMilli]
  · rw [if_pos hadd, if_neg fun hboth => hvalid hboth.2, measured, if_neg (by simpa using hvalid)]
    rfl
  · rw [if_neg hadd, if_neg fun hboth => hadd hboth.1]
    rfl
  · rw [if_neg hadd, if_neg fun hboth => hadd hboth.1]
    rfl

/-- A number is told as the nearest double, or not at all. -/
theorem number_body (h : serializeTelemetry deviceIdText bootId l sample env = .ok body)
    {name : String} {n : ℕ} (hmem : (name, u64Item n) ∈ sampleMembers deviceIdText bootId sample env) :
    numberOf (member (some body.value) name) = tells (env.adds name = true) (doubleOfU64 n) := by
  rw [member, Option.bind_some, item_body h (List.mem_append_left _ hmem), tells]
  split_ifs
  · rw [u64Item, Item.value, decimal_printUnsigned]
    rfl
  · rfl

/-- The time of a sample is told if it is trusted. -/
theorem told_sampledAt (h : serializeTelemetry deviceIdText bootId l sample env = .ok body) :
    cstring (member (some body.value) "sampled_at") =
      if env.adds "sampled_at" = true ∧ sample.measurement.status = .ok ∧
          sample.measurement.timeTrusted = true then
        formatRfc3339Ms sample.measurement.sampleTimestampUtcMs
      else none := by
  have hmem : ("sampled_at", ((if decide (sample.measurement.status = .ok) &&
      sample.measurement.timeTrusted then formatRfc3339Ms sample.measurement.sampleTimestampUtcMs
      else none).map fun text => Item.string (Text.of text)).getD .null) ∈
      sampleMembers deviceIdText bootId sample env := by
    simp [sampleMembers]
  have hitem := item_body h (List.mem_append_left _ hmem)
  rw [member, Option.bind_some, hitem]
  by_cases htrusted : sample.measurement.status = .ok ∧ sample.measurement.timeTrusted = true
  · rw [if_pos (c := (decide _ && _) = true) (by simpa using htrusted)]
    by_cases hadd : env.adds "sampled_at"
    · rw [if_pos hadd, if_pos ⟨hadd, htrusted⟩]
      cases htext : formatRfc3339Ms sample.measurement.sampleTimestampUtcMs with
      | none => rfl
      | some text =>
        have hclear : (0 : UInt8) ∉ text := by
          unfold formatRfc3339Ms at htext
          dsimp only at htext
          split_ifs at htext
          obtain rfl := Option.some.inj htext
          exact zero_not_mem_printTm _ _
        rw [Option.map_some, Option.getD_some, Item.value, cstring_string, text_of_clear hclear]
    · rw [if_neg hadd, if_neg fun hall => hadd hall.1]
      rfl
  · rw [if_neg (c := (decide _ && _) = true) (by simpa using htrusted)]
    by_cases hadd : env.adds "sampled_at"
    · rw [if_pos hadd, if_neg fun hall => htrusted hall.2]
      rfl
    · rw [if_neg hadd, if_neg fun hall => hadd hall.1]
      rfl

/-- What a body is to tell of a sample, with the members that were added. -/
def tellsSample (sample : TelemetrySample) (env : BodyEnv) : Told where
  sequence := tells (env.adds "sample_sequence" = true) (doubleOfU64 sample.sampleSequence)
  sampledAt :=
    if env.adds "sampled_at" = true ∧ sample.measurement.status = .ok ∧
        sample.measurement.timeTrusted = true then
      formatRfc3339Ms sample.measurement.sampleTimestampUtcMs
    else none
  uptimeMs := tells (env.adds "uptime_ms" = true)
    (doubleOfU64 (sample.measurement.sampleMonotonicUs.toNat / 1000))
  voltageMv := tells (env.adds "voltage_v" = true ∧ sample.measurement.status = .ok)
    sample.measurement.voltageMv
  currentMa := tells (env.adds "current_a" = true ∧ sample.measurement.status = .ok)
    sample.measurement.currentMa
  activePowerMw := tells (env.adds "active_power_w" = true ∧ sample.measurement.status = .ok)
    sample.measurement.activePowerMw
  frequencyMhz := tells (env.adds "frequency_hz" = true ∧ sample.measurement.status = .ok)
    sample.measurement.frequencyMhz
  powerFactorMilli := tells (env.adds "power_factor" = true ∧ sample.measurement.status = .ok)
    sample.measurement.powerFactorMilli
  energyWh := tells (env.adds "pzem_energy_wh" = true ∧ sample.measurement.status = .ok)
    (doubleOfU64 sample.measurement.energyWh)
  status := tells (env.adds "pzem_status" = true)
    (cText (contractPzemStatus sample.measurement.status)).val

/-- **A body tells the sample it is about.** Each value of the meter is told exactly if the sample
is valid and its member was added, and is else missing: it is never told wrong. -/
theorem body_tells_sample [Parser] (print : Item → List UInt8)
    (h : serializeTelemetry deviceIdText bootId l sample env = .ok body)
    (hparse : Parser.parse (print body) = some body.value) :
    told (Parser.parse (print body)) = tellsSample sample env := by
  have hmember {name : String} {item : Item}
      (hmem : (name, item) ∈ sampleMembers deviceIdText bootId sample env) :
      member (some body.value) name = if env.adds name then some item.value else none :=
    item_body h (List.mem_append_left _ hmem)
  rw [hparse]
  unfold told tellsSample
  congr 1
  · exact number_body h (by simp [sampleMembers])
  · exact told_sampledAt h
  · have huptime : (if 0 < sample.measurement.sampleMonotonicUs then
        sample.measurement.sampleMonotonicUs.toNat / 1000 else 0) =
        sample.measurement.sampleMonotonicUs.toNat / 1000 := by
      split_ifs with hpos
      · rfl
      · rw [Int.toNat_of_nonpos (not_lt.1 hpos)]
    rw [← huptime]
    exact number_body h (by simp [sampleMembers])
  · exact toldMilli_body h (by simp [sampleMembers])
  · exact toldMilli_body h (by simp [sampleMembers])
  · exact toldMilli_body h (by simp [sampleMembers])
  · exact toldMilli_body h (by simp [sampleMembers])
  · exact toldMilli_body h (by simp [sampleMembers])
  · have henergy : ("pzem_energy_wh", measured (decide (sample.measurement.status = .ok))
        (u64Item sample.measurement.energyWh)) ∈ sampleMembers deviceIdText bootId sample env := by
      simp [sampleMembers]
    rw [hmember henergy, tells]
    by_cases hadd : env.adds "pzem_energy_wh" <;> by_cases hvalid : sample.measurement.status = .ok
    · rw [if_pos hadd, if_pos ⟨hadd, hvalid⟩, measured, if_pos (decide_eq_true hvalid), u64Item,
        Item.value, decimal_printUnsigned]
      rfl
    · rw [if_pos hadd, if_neg fun hboth => hvalid hboth.2, measured, if_neg (by simpa using hvalid)]
      rfl
    · rw [if_neg hadd, if_neg fun hboth => hadd hboth.1]
      rfl
    · rw [if_neg hadd, if_neg fun hboth => hadd hboth.1]
      rfl
  · have hstatus : ("pzem_status", Item.string (cText (contractPzemStatus sample.measurement.status))) ∈
        sampleMembers deviceIdText bootId sample env := by
      simp [sampleMembers]
    rw [hmember hstatus, apply_ite cstring, Item.value, cstring_string]
    rfl

/-- The body of a sample of 230.1 V, with two members. -/
def voltageText : List UInt8 :=
  ascii "\x7b\"sample_sequence\":7,\"voltage_v\":\"230.100\"\x7d"

/-- The parser, on that body. -/
@[reducible] def voltageParser : Parser where
  parse text :=
    if text = voltageText then
      some (.object [(ascii "sample_sequence", .number 7), (ascii "voltage_v", .string (ascii "230.100"))])
    else none

theorem voltage_value :
    some (Json.object [(ascii "sample_sequence", .number 7),
        (ascii "voltage_v", .string (ascii "230.100"))]) =
      some (Item.object [("sample_sequence", u64Item 7), ("voltage_v", milliItem 230100)]).value := by
  have hsequence : doubleOfU64 7 = 7 := doubleOfU64_of_lt (by norm_num)
  have hvoltage : ascii "230.100" = (Text.of (decimalMilli 230100)).val := by decide +kernel
  rw [Item.value, Item.memberValues_eq, List.map_cons, List.map_cons, List.map_nil, u64Item, milliItem,
    Item.value, Item.value, decimal_printUnsigned, hsequence, hvoltage]

theorem body_tells_sample_voltage :
    (told (voltageParser.parse voltageText)).voltageMv = some 230100 :=
  congrArg Told.voltageMv (@body_tells_sample (Text.of [0x61]) (Text.of [0x62]) Ledger.zero
    ⟨{ MeterSample.zero with voltageMv := 230100 }, 7⟩ (someBodyEnv ["sample_sequence", "voltage_v"])
    (.object [("sample_sequence", u64Item 7), ("voltage_v", milliItem 230100)])
    voltageParser (fun _ => voltageText) rfl ((if_pos rfl).trans voltage_value))

end

end PowerMonitor.Telemetry
