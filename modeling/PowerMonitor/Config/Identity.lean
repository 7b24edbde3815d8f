import Mathlib.Data.List.Range
import PowerMonitor.Config.CommitPoint
import PowerMonitor.Foundations.Runs

/-!
# The device identity

`load_or_create_identity` and `persist_identity` of `app_main_stateless.c`: the device identity is
one blob in the NVS namespace `pm_identity`, created with random bytes at the first boot and
replaced when a boot finds a configuration of another identity. `boot` is `app_main` up to the point
where the identity is settled.

* `Device` is a device over its boots, with faults and power losses, and any change of the
  configuration between two boots.
* `identity_kept`: a device that started keeps its identity until it finds a configuration of
  another one, whatever becomes of its configuration.
* `identities_in_succession`: the records that were ever written are numbered from 1 without a gap,
  and a boot starts with the identity of the last one.
* `damaged_identity_stays`: an identity that does not pass its check is never replaced.
-/

namespace PowerMonitor.Config

open CMemory Runs

/-! ## The record -/

/-- `local_identity_t`. -/
structure LocalIdentity where
  deviceId : Bytes 16
  generation : ℕ
  crc32 : UInt32
  deriving DecidableEq

/-- The memory of an identity before its `crc32`. -/
def LocalIdentity.memory (i : LocalIdentity) : List UInt8 := i.deviceId.bytes ++ le 4 i.generation

/-- `pm_crc32_ieee(&identity, offsetof(local_identity_t, crc32))`. -/
def identityCrc (i : LocalIdentity) : UInt32 := pmCrc32Ieee i.memory

/-- `sizeof (local_identity_t)`. -/
def identityBytes : ℕ := 24

/-- The checks that both functions make. -/
def identityValid (i : LocalIdentity) : Bool := i.generation ≠ 0 && i.crc32 = identityCrc i

/-- An identity with its checksum. -/
def sealIdentity (deviceId : Bytes 16) (generation : ℕ) : LocalIdentity :=
  let i : LocalIdentity := ⟨deviceId, generation, 0⟩
  { i with crc32 := identityCrc i }

theorem identityValid_seal (deviceId : Bytes 16) {generation : ℕ} (h : generation ≠ 0) :
    identityValid (sealIdentity deviceId generation) = true := by
  simp [identityValid, sealIdentity, identityCrc, LocalIdentity.memory, h]

/-- The blob `identity`: a record, or bytes of another length. -/
inductive IdentityBlob
  | record (i : LocalIdentity)
  | other (bytes : List UInt8)
  deriving DecidableEq

/-- What the NVS calls of one function meet. -/
structure IdentityEnv where
  opened : NvsRead
  get : NvsRead
  write : NvsWrite

/-! ## The functions of the source -/

/-- `nvs_open` and `nvs_get_blob`, with the checks after them. -/
def readIdentity (stored : Option IdentityBlob) (env : IdentityEnv) : Except CallEnd LocalIdentity :=
  NvsRead.andThen env.opened <| NvsRead.andThen env.get <| match stored with
    | none => .error (some .nvsNotFound)
    | some (.other bytes) =>
      .error (some (if identityBytes < bytes.length then .nvsInvalidLength else .invalidCrc))
    | some (.record i) => if identityValid i then .ok i else .error (some .invalidCrc)

/-- `nvs_set_blob` and `nvs_commit`. -/
def writeIdentity (stored : Option IdentityBlob) (i : LocalIdentity) (w : NvsWrite) :
    CallEnd × Option IdentityBlob :=
  (w.result, if w.landed then some (.record i) else stored)

/-- The identity that is made of random bytes. -/
def randomDeviceId (random : Bytes 16) : Bytes 16 :=
  (random.set 6 (random.bytes.getD 6 0 &&& 0x0f ||| 0x40)).set 8
    (random.bytes.getD 8 0 &&& 0x3f ||| 0x80)

/-- `load_or_create_identity`. -/
def loadOrCreateIdentity (stored : Option IdentityBlob) (random : Bytes 16) (env : IdentityEnv) :
    Except CallEnd (Bytes 16) × Option IdentityBlob :=
  match readIdentity stored env with
  | .ok i => (.ok i.deviceId, stored)
  | .error e =>
    if e = some .nvsNotFound then
      let i := sealIdentity (randomDeviceId random) 1
      let (e, stored) := writeIdentity stored i env.write
      (if e = some .ok then .ok i.deviceId else .error e, stored)
    else (.error e, stored)

/-- `persist_identity`. -/
def persistIdentity (stored : Option IdentityBlob) (deviceId : Bytes 16) (env : IdentityEnv) :
    CallEnd × Option IdentityBlob :=
  match readIdentity stored env with
  | .error e => (e, stored)
  | .ok prior =>
    if prior.generation = uint32Max then (some .invalidCrc, stored)
    else writeIdentity stored (sealIdentity deviceId (prior.generation + 1)) env.write

/-- What one boot meets. -/
structure BootEnv where
  /-- The end of `nvs_flash_init`. -/
  nvs : CallEnd
  random : Bytes 16
  load : IdentityEnv
  /-- The end of `pm_commands_load`. -/
  commands : CallEnd
  configOpened : NvsRead
  configSelector : NvsRead
  configBlob : NvsRead
  persist : IdentityEnv

/-- `pm_config_load` in a boot. -/
def BootEnv.config (env : BootEnv) (flash : Flash) : Except CallEnd PmConfig :=
  pmConfigLoad flash env.configOpened env.configSelector env.configBlob

/-- A boot that goes on: its identity, and its configuration if it is provisioned. -/
structure Started where
  identity : Bytes 16
  config : Option PmConfig

/-- `app_main` up to the identity. A boot that does not go on has returned or lost power. -/
def boot (stored : Option IdentityBlob) (flash : Flash) (env : BootEnv) :
    Option Started × Option IdentityBlob :=
  if env.nvs ≠ some .ok then (none, stored)
  else
    match loadOrCreateIdentity stored env.random env.load with
    | (.error _, stored) => (none, stored)
    | (.ok identity, stored) =>
      if env.commands ≠ some .ok then (none, stored)
      else
        match env.config flash with
        | .error none => (none, stored)
        | .error (some _) => (some ⟨identity, none⟩, stored)
        | .ok c =>
          if c.deviceId = identity then (some ⟨identity, some c⟩, stored)
          else
            let (e, stored) := persistIdentity stored c.deviceId env.persist
            (if e = some .ok then some ⟨c.deviceId, some c⟩ else none, stored)

/-! ## What the functions do -/

section

variable {stored : Option IdentityBlob} {env : IdentityEnv} {deviceId : Bytes 16}

/-- A valid record of the identity `deviceId` is stored. -/
def Holds (stored : Option IdentityBlob) (deviceId : Bytes 16) : Prop :=
  ∃ i, stored = some (.record i) ∧ identityValid i = true ∧ i.deviceId = deviceId

theorem readIdentity_ok {i : LocalIdentity} (h : readIdentity stored env = .ok i) :
    stored = some (.record i) ∧ identityValid i = true := by
  have h := of_andThen_ok (of_andThen_ok h)
  split at h
  · cases h
  · cases h
  next j =>
    split_ifs at h with hvalid
    obtain rfl := Except.ok.inj h
    exact ⟨rfl, hvalid⟩

theorem readIdentity_notFound (h : readIdentity stored env = .error (some .nvsNotFound)) :
    stored = none := by
  unfold readIdentity at h
  cases hopened : env.opened with
  | powerLoss => rw [hopened] at h; cases h
  | fails e =>
    rw [hopened] at h
    exact absurd (Option.some.inj (Except.error.inj h)) e.2.2
  | ok =>
    cases hget : env.get with
    | powerLoss => rw [hopened, hget] at h; cases h
    | fails e =>
      rw [hopened, hget] at h
      exact absurd (Option.some.inj (Except.error.inj h)) e.2.2
    | ok =>
      rw [hopened, hget] at h
      dsimp only [NvsRead.andThen] at h
      split at h
      · rfl
      · split_ifs at h
        · exact absurd (Option.some.inj (Except.error.inj h)) (by decide)
        · exact absurd (Option.some.inj (Except.error.inj h)) (by decide)
      · split_ifs at h
        exact absurd (Option.some.inj (Except.error.inj h)) (by decide)

/-- What `load_or_create_identity` can do: it finds a valid record, or it writes the first one, or
it fails and writes nothing. -/
theorem loadOrCreateIdentity_cases {random : Bytes 16} {r : Except CallEnd (Bytes 16)}
    {stored' : Option IdentityBlob} (h : loadOrCreateIdentity stored random env = (r, stored')) :
    (stored' = stored ∧ ∃ i, stored = some (.record i) ∧ identityValid i = true ∧
      r = .ok i.deviceId) ∨
    (stored = none ∧ stored' = some (.record (sealIdentity (randomDeviceId random) 1)) ∧
      ∀ deviceId, r = .ok deviceId → deviceId = randomDeviceId random) ∨
    (stored' = stored ∧ ∃ e, r = .error e) := by
  unfold loadOrCreateIdentity at h
  cases hread : readIdentity stored env with
  | ok i =>
    rw [hread] at h
    obtain ⟨rfl, rfl⟩ := Prod.mk.inj h
    obtain ⟨hstored, hvalid⟩ := readIdentity_ok hread
    exact .inl ⟨rfl, i, hstored, hvalid, rfl⟩
  | error e =>
    rw [hread] at h
    dsimp only [writeIdentity] at h
    by_cases hnone : e = some .nvsNotFound
    · subst hnone
      have hstored := readIdentity_notFound hread
      rw [if_pos rfl] at h
      obtain ⟨rfl, rfl⟩ := Prod.mk.inj h
      cases hlanded : env.write.landed with
      | true =>
        refine .inr (.inl ⟨hstored, if_pos rfl, fun deviceId hok => ?_⟩)
        split_ifs at hok
        exact (Except.ok.inj hok).symm
      | false =>
        have hend : env.write.result ≠ some .ok := fun hok => by
          rw [NvsWrite.landed_of_ok hok] at hlanded
          cases hlanded
        exact .inr (.inr ⟨if_neg Bool.false_ne_true, _, if_neg hend⟩)
    · rw [if_neg hnone] at h
      obtain ⟨rfl, rfl⟩ := Prod.mk.inj h
      exact .inr (.inr ⟨rfl, e, rfl⟩)

/-- What `persist_identity` can do: it writes the record after a valid one, or it fails and writes
nothing. -/
theorem persistIdentity_cases {e : CallEnd} {stored' : Option IdentityBlob}
    (h : persistIdentity stored deviceId env = (e, stored')) :
    (∃ i, stored = some (.record i) ∧ identityValid i = true ∧ i.generation ≠ uint32Max ∧
      stored' = some (.record (sealIdentity deviceId (i.generation + 1)))) ∨
    (stored' = stored ∧ e ≠ some .ok) := by
  unfold persistIdentity at h
  cases hread : readIdentity stored env with
  | error e' =>
    rw [hread] at h
    obtain ⟨rfl, rfl⟩ := Prod.mk.inj h
    refine .inr ⟨rfl, andThen_ne_ok (fun e he => andThen_ne_ok (fun e he => ?_) he) hread⟩
    split at he
    · obtain rfl := Except.error.inj he
      decide
    · obtain rfl := Except.error.inj he
      split_ifs <;> decide
    · split_ifs at he
      obtain rfl := Except.error.inj he
      decide
  | ok i =>
    rw [hread] at h
    dsimp only [writeIdentity] at h
    obtain ⟨hstored, hvalid⟩ := readIdentity_ok hread
    split_ifs at h with hmax hlanded
    · obtain ⟨rfl, rfl⟩ := Prod.mk.inj h
      exact .inr ⟨rfl, by decide⟩
    · obtain ⟨rfl, rfl⟩ := Prod.mk.inj h
      exact .inl ⟨i, hstored, hvalid, hmax, rfl⟩
    · obtain ⟨rfl, rfl⟩ := Prod.mk.inj h
      exact .inr ⟨rfl, fun hok => hlanded (NvsWrite.landed_of_ok hok)⟩

end

section

variable {stored stored' : Option IdentityBlob} {flash : Flash} {env : BootEnv} {r : Option Started}

/-- What a boot can do, by its calls. -/
theorem boot_cases (h : boot stored flash env = (r, stored')) :
    (r = none ∧ stored' = stored) ∨
    ∃ l middle, loadOrCreateIdentity stored env.random env.load = (l, middle) ∧
      ((r = none ∧ stored' = middle) ∨
      ∃ identity, l = .ok identity ∧
        ((stored' = middle ∧ r = some ⟨identity, none⟩ ∧ ∃ e, env.config flash = .error e) ∨
        ∃ c, env.config flash = .ok c ∧
          ((c.deviceId = identity ∧ stored' = middle ∧ r = some ⟨identity, some c⟩) ∨
          (c.deviceId ≠ identity ∧ ∃ e, persistIdentity middle c.deviceId env.persist = (e, stored') ∧
            r = if e = some .ok then some ⟨c.deviceId, some c⟩ else none)))) := by
  unfold boot at h
  by_cases hnvs : env.nvs ≠ some .ok
  · rw [if_pos hnvs] at h
    obtain ⟨rfl, rfl⟩ := Prod.mk.inj h
    exact .inl ⟨rfl, rfl⟩
  rw [if_neg hnvs] at h
  obtain ⟨l, middle, hload⟩ : ∃ l middle, loadOrCreateIdentity stored env.random env.load = (l, middle) :=
    ⟨_, _, rfl⟩
  rw [hload] at h
  refine .inr ⟨l, middle, hload, ?_⟩
  cases l with
  | error e =>
    obtain ⟨rfl, rfl⟩ := Prod.mk.inj h
    exact .inl ⟨rfl, rfl⟩
  | ok identity =>
    dsimp only at h
    split_ifs at h
    · obtain ⟨rfl, rfl⟩ := Prod.mk.inj h
      exact .inl ⟨rfl, rfl⟩
    cases hconfig : env.config flash with
    | error e =>
      rw [hconfig] at h
      cases e with
      | none =>
        obtain ⟨rfl, rfl⟩ := Prod.mk.inj h
        exact .inl ⟨rfl, rfl⟩
      | some e =>
        obtain ⟨rfl, rfl⟩ := Prod.mk.inj h
        exact .inr ⟨identity, rfl, .inl ⟨rfl, rfl, _, rfl⟩⟩
    | ok c =>
      rw [hconfig] at h
      dsimp only at h
      refine .inr ⟨identity, rfl, .inr ⟨c, rfl, ?_⟩⟩
      by_cases hsame : c.deviceId = identity
      · rw [if_pos hsame] at h
        obtain ⟨rfl, rfl⟩ := Prod.mk.inj h
        exact .inl ⟨hsame, rfl, rfl⟩
      · rw [if_neg hsame] at h
        obtain ⟨rfl, rfl⟩ := Prod.mk.inj h
        exact .inr ⟨hsame, _, rfl, rfl⟩

/-- A boot that goes on has the identity that is stored, and that of its configuration. -/
theorem boot_started {s : Started} (h : boot stored flash env = (some s, stored')) :
    Holds stored' s.identity ∧ ∀ c, env.config flash = .ok c → c.deviceId = s.identity := by
  rcases boot_cases h with ⟨hnone, -⟩ | ⟨l, middle, hload, hrest⟩
  · cases hnone
  rcases hrest with ⟨hnone, -⟩ | ⟨identity, rfl, hrest⟩
  · cases hnone
  have hholds : Holds middle identity := by
    rcases loadOrCreateIdentity_cases hload with ⟨rfl, i, hstored, hvalid, hok⟩ |
      ⟨-, hmiddle, hok⟩ | ⟨-, e, herror⟩
    · exact ⟨i, hstored, hvalid, (Except.ok.inj hok).symm⟩
    · exact ⟨_, hmiddle, identityValid_seal _ Nat.one_ne_zero, (hok identity rfl).symm⟩
    · cases herror
  rcases hrest with ⟨rfl, hr, e, herror⟩ | ⟨c, hconfig, ⟨hsame, rfl, hr⟩ | ⟨-, e, hpersist, hr⟩⟩
  · obtain rfl := Option.some.inj hr
    refine ⟨hholds, fun c hc => ?_⟩
    rw [herror] at hc
    cases hc
  · obtain rfl := Option.some.inj hr
    refine ⟨hholds, fun c' hc' => ?_⟩
    obtain rfl := Except.ok.inj (hconfig.symm.trans hc')
    exact hsame
  · split_ifs at hr with hok
    obtain rfl := Option.some.inj hr
    refine ⟨?_, fun c' hc' => by rw [Except.ok.inj (hconfig.symm.trans hc')]⟩
    rcases persistIdentity_cases hpersist with ⟨i, -, -, -, hstored⟩ | ⟨-, hfailed⟩
    · exact ⟨_, hstored, identityValid_seal _ (Nat.succ_ne_zero _), rfl⟩
    · exact absurd hok hfailed

/-- A boot keeps the identity that is stored unless it finds a configuration of another one. -/
theorem boot_keeps {deviceId : Bytes 16} (hholds : Holds stored deviceId)
    (hconfig : ∀ c, env.config flash = .ok c → c.deviceId = deviceId)
    (h : boot stored flash env = (r, stored')) : stored' = stored := by
  obtain ⟨i, hi, hvalid, hid⟩ := hholds
  rcases boot_cases h with ⟨-, rfl⟩ | ⟨l, middle, hload, hrest⟩
  · rfl
  have hmiddle : middle = stored ∧ ∀ identity, l = .ok identity → identity = deviceId := by
    rcases loadOrCreateIdentity_cases hload with ⟨hmiddle, j, hj, -, rfl⟩ | ⟨hnone, -⟩ |
      ⟨hmiddle, e, rfl⟩
    · refine ⟨hmiddle, fun identity hok => ?_⟩
      obtain rfl : i = j := by simpa using hi.symm.trans hj
      exact (Except.ok.inj hok).symm.trans hid
    · exact absurd (hi.symm.trans hnone) (by simp)
    · exact ⟨hmiddle, fun identity hok => by cases hok⟩
  obtain ⟨rfl, hidentity⟩ := hmiddle
  rcases hrest with ⟨-, rfl⟩ | ⟨identity, hl, ⟨rfl, -⟩ | ⟨c, hc, ⟨-, rfl, -⟩ | ⟨hne, -⟩⟩⟩
  · rfl
  · rfl
  · rfl
  · exact absurd ((hconfig c hc).trans (hidentity identity hl).symm) hne

/-! ## Succession -/

/-- `t` is the stored identity `s`, or one that was written after it. -/
def Later (s t : Option IdentityBlob) : Prop :=
  t = s ∨ s = none ∨
    ∃ i j, s = some (.record i) ∧ t = some (.record j) ∧ i.generation < j.generation

theorem Later.refl (s : Option IdentityBlob) : Later s s := .inl rfl

theorem Later.trans {s t u : Option IdentityBlob} (hst : Later s t) (htu : Later t u) : Later s u := by
  rcases hst with rfl | rfl | ⟨i, j, rfl, rfl, hij⟩
  · exact htu
  · exact .inr (.inl rfl)
  rcases htu with rfl | hnone | ⟨j', k, hj, rfl, hjk⟩
  · exact .inr (.inr ⟨i, j, rfl, rfl, hij⟩)
  · cases hnone
  · obtain rfl : j = j' := by simpa using hj
    exact .inr (.inr ⟨i, k, rfl, rfl, hij.trans hjk⟩)

/-- An identity of version 4, the version of random UUIDs. -/
def VersionFour (deviceId : Bytes 16) : Prop :=
  deviceId.bytes.getD 6 0 >>> 4 = 4 ∧ deviceId.bytes.getD 8 0 >>> 6 = 2

theorem versionFour_random (random : Bytes 16) : VersionFour (randomDeviceId random) := by
  have hversion (b : UInt8) : (b &&& 0x0f ||| 0x40) >>> 4 = 4 := by
    have h : ∀ n < 256, (UInt8.ofNat n &&& 0x0f ||| 0x40) >>> 4 = 4 := by decide +kernel
    simpa using h b.toNat b.toNat_lt
  have hvariant (b : UInt8) : (b &&& 0x3f ||| 0x80) >>> 6 = 2 := by
    have h : ∀ n < 256, (UInt8.ofNat n &&& 0x3f ||| 0x80) >>> 6 = 2 := by decide +kernel
    simpa using h b.toNat b.toNat_lt
  constructor
  · rw [randomDeviceId, List.getD_eq_getElem?_getD, Bytes.getElem?_set _ (by decide),
      if_neg (by decide), Bytes.getElem?_set _ (by decide), if_pos rfl]
    exact hversion _
  · rw [randomDeviceId, List.getD_eq_getElem?_getD, Bytes.getElem?_set _ (by decide), if_pos rfl]
    exact hvariant _

/-- What is stored on a device is absent, or a valid record that the device has written. -/
def Genuine (stored : Option IdentityBlob) : Prop :=
  ∀ blob, stored = some blob → ∃ i, blob = .record i ∧ identityValid i = true ∧
    i.generation ≤ uint32Max ∧ (i.generation = 1 → VersionFour i.deviceId)

theorem genuine_none : Genuine none := by
  intro blob h
  cases h

theorem genuine_created (random : Bytes 16) :
    Genuine (some (.record (sealIdentity (randomDeviceId random) 1))) := by
  intro blob h
  obtain rfl := Option.some.inj h
  have hone : 1 ≤ uint32Max := by decide
  exact ⟨_, rfl, identityValid_seal _ Nat.one_ne_zero, hone, fun _ => versionFour_random random⟩

/-- A write after a valid record that is not the last one. -/
theorem genuine_persisted {deviceId : Bytes 16} {i : LocalIdentity} (hvalid : identityValid i = true)
    (hi : i.generation ≤ uint32Max) (hmax : i.generation ≠ uint32Max) :
    Genuine (some (.record (sealIdentity deviceId (i.generation + 1)))) := by
  intro blob h
  obtain rfl := Option.some.inj h
  have hnonzero : i.generation ≠ 0 := by
    simp only [identityValid, Bool.and_eq_true, decide_eq_true_eq] at hvalid
    exact hvalid.1
  refine ⟨_, rfl, identityValid_seal _ (Nat.succ_ne_zero _), lt_of_le_of_ne hi hmax, fun hone => ?_⟩
  exact absurd (Nat.succ.inj hone) hnonzero

/-- **One boot.** The stored identity is kept, or written after the one before. -/
theorem boot_step (hgenuine : Genuine stored) (h : boot stored flash env = (r, stored')) :
    Genuine stored' ∧ Later stored stored' := by
  rcases boot_cases h with ⟨-, rfl⟩ | ⟨l, middle, hload, hrest⟩
  · exact ⟨hgenuine, .refl _⟩
  have hmiddle : Genuine middle ∧ Later stored middle := by
    rcases loadOrCreateIdentity_cases hload with ⟨rfl, -⟩ | ⟨rfl, rfl, -⟩ | ⟨rfl, -⟩
    · exact ⟨hgenuine, .refl _⟩
    · exact ⟨genuine_created _, .inr (.inl rfl)⟩
    · exact ⟨hgenuine, .refl _⟩
  rcases hrest with ⟨-, rfl⟩ | ⟨identity, -, ⟨rfl, -⟩ | ⟨c, -, ⟨-, rfl, -⟩ | ⟨-, e, hpersist, -⟩⟩⟩
  · exact hmiddle
  · exact hmiddle
  · exact hmiddle
  rcases persistIdentity_cases hpersist with ⟨i, rfl, hvalid, hmax, rfl⟩ | ⟨rfl, -⟩
  · obtain ⟨j, hj, -, hbound, -⟩ := hmiddle.1 _ rfl
    obtain rfl : i = j := by simpa using hj
    refine ⟨genuine_persisted hvalid hbound hmax, hmiddle.2.trans (.inr (.inr ⟨_, _, rfl, rfl, ?_⟩))⟩
    exact Nat.lt_succ_self _
  · exact hmiddle

/-- A blob that does not pass the check. -/
def Damaged (stored : Option IdentityBlob) : Prop :=
  ∃ blob, stored = some blob ∧ ∀ i, blob = .record i → identityValid i = false

theorem boot_damaged (hdamaged : Damaged stored) (h : boot stored flash env = (r, stored')) :
    r = none ∧ stored' = stored := by
  obtain ⟨blob, rfl, hinvalid⟩ := hdamaged
  rcases boot_cases h with hnone | ⟨l, middle, hload, hrest⟩
  · exact hnone
  rcases loadOrCreateIdentity_cases hload with ⟨-, i, hi, hvalid, -⟩ | ⟨hnone, -⟩ | ⟨rfl, e, rfl⟩
  · rw [hinvalid i (Option.some.inj hi)] at hvalid
    cases hvalid
  · cases hnone
  · rcases hrest with ⟨hr, rfl⟩ | ⟨identity, hl, -⟩
    · exact ⟨hr, rfl⟩
    · cases hl

end

/-! ## Runs -/

/-- The flash of a device between its boots. -/
structure Device where
  stored : Option IdentityBlob
  config : Flash

/-- A boot, or anything that leaves another configuration in flash. -/
inductive Event
  | boots (env : BootEnv)
  | reconfigured (config : Flash)

def Device.step (d : Device) : Event → Device
  | .boots env => { d with stored := (boot d.stored d.config env).2 }
  | .reconfigured config => { d with config }

/-- The identity of a boot that goes on. -/
def Device.identity (d : Device) (env : BootEnv) : Option (Bytes 16) :=
  (boot d.stored d.config env).1.map Started.identity

/-- A boot does not find a configuration of another identity than `deviceId`. -/
def KeepsIdentity (deviceId : Bytes 16) (d : Device) (e : Event) : Prop :=
  ∀ env, e = .boots env → ∀ c, env.config d.config = .ok c → c.deviceId = deviceId

section

variable {d : Device} {deviceId : Bytes 16}

theorem boot_of_identity {env : BootEnv} (h : d.identity env = some deviceId) :
    ∃ s, boot d.stored d.config env = (some s, (d.step (.boots env)).stored) ∧
      s.identity = deviceId := by
  obtain ⟨s, hs, rfl⟩ := Option.map_eq_some_iff.1 h
  exact ⟨s, Prod.ext hs rfl, rfl⟩

theorem holds_of_identity {env : BootEnv} (h : d.identity env = some deviceId) :
    Holds (d.step (.boots env)).stored deviceId := by
  obtain ⟨s, hboot, rfl⟩ := boot_of_identity h
  exact (boot_started hboot).1

theorem Holds.unique {stored : Option IdentityBlob} {id id' : Bytes 16} (h : Holds stored id)
    (h' : Holds stored id') : id = id' := by
  obtain ⟨i, rfl, -, rfl⟩ := h
  obtain ⟨j, hj, -, rfl⟩ := h'
  obtain rfl : i = j := by simpa using hj
  rfl

theorem step_keeps (hholds : Holds d.stored deviceId) {e : Event} (he : KeepsIdentity deviceId d e) :
    (d.step e).stored = d.stored := by
  cases e with
  | boots env => exact boot_keeps hholds (he env rfl) rfl
  | reconfigured config => rfl

theorem run_keeps {acts : List Event} (hholds : Holds d.stored deviceId)
    (hacts : Along Device.step (KeepsIdentity deviceId) d acts) :
    (run Device.step d acts).stored = d.stored := by
  induction acts generalizing d with
  | nil => rfl
  | cons e acts ih =>
    have hstep := step_keeps hholds hacts.1
    rw [run_cons, ih (by rwa [hstep]) hacts.2, hstep]

/-- **An identity is kept.** From a boot that goes on, every boot has its identity, and the stored
record is left alone, until a boot finds a configuration of another identity: also when the
configuration is erased or unreadable, and when boots fail or lose power. -/
theorem identity_kept {env : BootEnv} (h : d.identity env = some deviceId) (acts : List Event)
    (hacts : Along Device.step (KeepsIdentity deviceId) (d.step (.boots env)) acts) :
    (run Device.step (d.step (.boots env)) acts).stored = (d.step (.boots env)).stored ∧
      ∀ env' deviceId', KeepsIdentity deviceId (run Device.step (d.step (.boots env)) acts)
          (.boots env') →
        (run Device.step (d.step (.boots env)) acts).identity env' = some deviceId' →
          deviceId' = deviceId := by
  have hholds := holds_of_identity h
  have hrun := run_keeps hholds hacts
  refine ⟨hrun, fun env' deviceId' hkeeps h' => ?_⟩
  have hstored := step_keeps (by rwa [hrun]) hkeeps
  have hholds' := holds_of_identity h'
  rw [hstored, hrun] at hholds'
  exact hholds'.unique hholds

/-- A boot in which no call fails. -/
def calmBoot : BootEnv where
  nvs := some .ok
  random := Bytes.zero 16
  load := ⟨.ok, .ok, .done⟩
  commands := some .ok
  configOpened := .ok
  configSelector := .ok
  configBlob := .ok
  persist := ⟨.ok, .ok, .done⟩

theorem identity_calm (acts : List Event) (h : acts = [] ∨ acts = [.boots calmBoot]) :
    (run Device.step ⟨none, Flash.fresh⟩ acts).identity calmBoot =
      some (randomDeviceId (Bytes.zero 16)) := by
  rcases h with rfl | rfl
  · decide
  · decide +kernel

theorem identity_kept_calm :
    (run Device.step (Device.step ⟨none, Flash.fresh⟩ (.boots calmBoot)) [.boots calmBoot]).stored =
      (Device.step ⟨none, Flash.fresh⟩ (.boots calmBoot)).stored := by
  have hkeeps : KeepsIdentity (randomDeviceId (Bytes.zero 16))
      (Device.step ⟨none, Flash.fresh⟩ (.boots calmBoot)) (.boots calmBoot) := by
    intro env henv c hc
    obtain rfl := Event.boots.inj henv
    cases hc
  exact (identity_kept (identity_calm [] (.inl rfl)) [.boots calmBoot] ⟨hkeeps, trivial⟩).1

theorem run_genuine (hgenuine : Genuine d.stored) (acts : List Event) :
    Genuine (run Device.step d acts).stored ∧ Later d.stored (run Device.step d acts).stored := by
  induction acts generalizing d with
  | nil => exact ⟨hgenuine, .refl _⟩
  | cons e acts ih =>
    have hstep : Genuine (d.step e).stored ∧ Later d.stored (d.step e).stored := by
      cases e with
      | boots env => exact boot_step hgenuine rfl
      | reconfigured config => exact ⟨hgenuine, .refl _⟩
    obtain ⟨hrun, hlater⟩ := ih hstep.1
    exact ⟨hrun, hstep.2.trans hlater⟩

/-- **Identities in succession.** On a device that starts without an identity, the record of a boot
that goes on holds its identity; the generations of later boots are no smaller, and one generation
is never given to two identities. The identity of the first generation is a random UUID. -/
theorem identities_in_succession (config : Flash) (acts₁ acts₂ : List Event) (env₁ env₂ : BootEnv)
    (id₁ id₂ : Bytes 16) (h₁ : (run Device.step ⟨none, config⟩ acts₁).identity env₁ = some id₁)
    (h₂ : (run Device.step ⟨none, config⟩ (acts₁ ++ .boots env₁ :: acts₂)).identity env₂ = some id₂) :
    ∃ i j, (run Device.step ⟨none, config⟩ (acts₁ ++ [.boots env₁])).stored = some (.record i) ∧
      (run Device.step ⟨none, config⟩ (acts₁ ++ .boots env₁ :: acts₂ ++ [.boots env₂])).stored =
        some (.record j) ∧
      i.deviceId = id₁ ∧ j.deviceId = id₂ ∧ i.generation ≤ j.generation ∧
      j.generation ≤ uint32Max ∧ (i.generation = j.generation → id₁ = id₂) ∧
      (j.generation = 1 → VersionFour id₂) := by
  have hfirst := holds_of_identity h₁
  have hsecond := holds_of_identity h₂
  have hsplit : run Device.step ⟨none, config⟩ (acts₁ ++ .boots env₁ :: acts₂ ++ [.boots env₂]) =
      run Device.step ((run Device.step ⟨none, config⟩ acts₁).step (.boots env₁))
        (acts₂ ++ [.boots env₂]) := by
    rw [List.append_assoc, run_append, List.cons_append, run_cons]
  have hlast : run Device.step ⟨none, config⟩ (acts₁ ++ .boots env₁ :: acts₂ ++ [.boots env₂]) =
      (run Device.step ⟨none, config⟩ (acts₁ ++ .boots env₁ :: acts₂)).step (.boots env₂) := by
    rw [run_append]
    rfl
  have hgenuine : Genuine ((run Device.step ⟨none, config⟩ acts₁).step (.boots env₁)).stored :=
    (boot_step (run_genuine genuine_none acts₁).1 rfl).1
  obtain ⟨hgenuine', hlater⟩ := run_genuine hgenuine (acts₂ ++ [.boots env₂])
  rw [← hsplit, hlast] at hgenuine' hlater
  obtain ⟨i, hi, -, rfl⟩ := hfirst
  obtain ⟨j, hj, -, rfl⟩ := hsecond
  obtain ⟨j', hj', -, hbound, hversion⟩ := hgenuine' _ hj
  obtain rfl : j = j' := by simpa using hj'
  refine ⟨i, j, by rw [run_append]; exact hi, by rw [hlast]; exact hj, rfl, rfl, ?_⟩
  rw [hi, hj] at hlater
  rcases hlater with hsame | hnone | ⟨i', j', hi', hj', hlt⟩
  · obtain rfl : j = i := by simpa using hsame
    exact ⟨le_rfl, hbound, fun _ => rfl, hversion⟩
  · cases hnone
  · obtain rfl : i = i' := by simpa using hi'
    obtain rfl : j = j' := by simpa using hj'
    exact ⟨hlt.le, hbound, fun heq => absurd heq hlt.ne, hversion⟩

theorem identities_in_succession_calm : ∃ i j,
    (run Device.step ⟨none, Flash.fresh⟩ [.boots calmBoot]).stored = some (.record i) ∧
      (run Device.step ⟨none, Flash.fresh⟩ [.boots calmBoot, .boots calmBoot]).stored =
        some (.record j) ∧
      i.deviceId = randomDeviceId (Bytes.zero 16) ∧ i.generation ≤ j.generation := by
  obtain ⟨i, j, hi, hj, hid, -, hle, -⟩ := identities_in_succession Flash.fresh [] [] calmBoot calmBoot
    _ _ (identity_calm [] (.inl rfl)) (identity_calm _ (.inr rfl))
  exact ⟨i, j, hi, hj, hid, hle⟩

/-- **A damaged identity stays.** No boot goes on, and none replaces the blob. -/
theorem damaged_identity_stays (hdamaged : Damaged d.stored) (acts : List Event) :
    (run Device.step d acts).stored = d.stored ∧
      ∀ env, (run Device.step d acts).identity env = none := by
  have hstored : (run Device.step d acts).stored = d.stored := by
    refine run_invariant (I := fun d' : Device => d'.stored = d.stored) (fun d' e hd' => ?_) rfl acts
    cases e with
    | boots env => exact (boot_damaged (hd' ▸ hdamaged) rfl).2.trans hd'
    | reconfigured config => exact hd'
  refine ⟨hstored, fun env => ?_⟩
  refine Option.eq_none_iff_forall_ne_some.2 fun deviceId h => ?_
  obtain ⟨s, hboot, -⟩ := boot_of_identity h
  rw [hstored] at hboot
  cases (boot_damaged hdamaged hboot).1

theorem damaged_identity_stays_empty :
    (run Device.step ⟨some (.other []), Flash.fresh⟩ [.boots calmBoot]).stored = some (.other []) :=
  (damaged_identity_stays ⟨_, rfl, fun _ h => by cases h⟩ [.boots calmBoot]).1

end

end PowerMonitor.Config
