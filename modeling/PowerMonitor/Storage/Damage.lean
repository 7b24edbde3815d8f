import PowerMonitor.Commands.Ledger
import PowerMonitor.Config.Record
import PowerMonitor.Ota.Checkpoint
import PowerMonitor.Protocol.TrustedTime

/-!
# Damage to stored records

Every record in NVS ends in a CRC32 of the memory before it: the configuration, the command ledger
and the OTA checkpoint in that of `pm_config.c`, and the time checkpoint in a copy of its own.

* `crc32_detects_bursts`: texts of one length that differ within 32 consecutive bits have different
  checksums, and the copy computes the same ones.
* `damage_detected`: a record with its checksum is not one any more after such damage, wherever in
  the two it lies, so that each of the four records is rejected.
-/

namespace PowerMonitor.Storage

open CMemory Config Commands Ota Protocol

/-! ## The copy of the checksum -/

/-- `crc32_ieee` of `pm_time.c`. -/
def crc32Ieee (data : List UInt8) : UInt32 := Id.run do
  let mut crc : UInt32 := 0xFFFFFFFF
  for byte in data do
    crc := crc ^^^ byte.toUInt32
    for _ in List.range 8 do
      let mask := 0 - (crc &&& 1)
      crc := (crc >>> 1) ^^^ (0xEDB88320 &&& mask)
  return ~~~crc

/-- The copy is the function of `pm_config.c`. -/
theorem crc32Ieee_eq (data : List UInt8) : crc32Ieee data = pmCrc32Ieee data := by
  unfold crc32Ieee
  simp only [bind_pure_comp, map_pure, List.forIn_pure_yield_eq_foldl]
  rfl

/-! ## Bursts -/

theorem pmCrc32Ieee_ne {data data' : List UInt8} (hlength : data.length = data'.length)
    (hne : data ≠ data') (hburst : Crc.WithinBurst 32 data data') :
    pmCrc32Ieee data ≠ pmCrc32Ieee data' := by
  intro heq
  refine Crc.ieee_ne hlength hne hburst ?_
  rw [← toBitVec_pmCrc32Ieee, heq, toBitVec_pmCrc32Ieee]

/-- **Bursts of up to 32 bits change the checksum**, of a text of any length, and the checksum of
the time checkpoint is the same function. -/
theorem crc32_detects_bursts :
    (∀ data data' : List UInt8, data.length = data'.length → data ≠ data' →
      Crc.WithinBurst 32 data data' → pmCrc32Ieee data ≠ pmCrc32Ieee data') ∧
    ∀ data, crc32Ieee data = pmCrc32Ieee data :=
  ⟨fun _ _ hlength hne hburst => pmCrc32Ieee_ne hlength hne hburst, crc32Ieee_eq⟩

/-! ## Records -/

/-- A memory with its checksum after it, as it is stored. -/
def withCrc (memory : List UInt8) (crc : UInt32) : List UInt8 := memory ++ le 4 crc.toNat

/-- What is stored has changed, within 32 consecutive bits. -/
def Damaged (bytes bytes' : List UInt8) : Prop := bytes ≠ bytes' ∧ Crc.WithinBurst 32 bytes bytes'

/-- **Damage** of a memory and the checksum after it leaves no valid pair. -/
theorem damage_detected {memory memory' : List UInt8} {crc crc' : UInt32}
    (hlength : memory.length = memory'.length) (hcrc : crc = pmCrc32Ieee memory)
    (h : Damaged (withCrc memory crc) (withCrc memory' crc')) : crc' ≠ pmCrc32Ieee memory' := by
  rintro rfl
  have hword : ∀ data, Crc.word 32 (Crc.textBits (le 4 (pmCrc32Ieee data).toNat)) = Crc.ieee data :=
    fun data => (word_le _).trans (toBitVec_pmCrc32Ieee data)
  subst hcrc
  exact Crc.not_withinBurst_ieee hlength (by simp) (by simp) (hword memory) (hword memory') h.1 h.2

/-- The memory of a configuration has one length, and so has that of the other records. -/
theorem length_memory_config (c c' : PmConfig) : c.memory.length = c'.memory.length := by
  unfold PmConfig.memory
  simp only [List.length_append, length_le, Bytes.size]

theorem length_memory_command (c c' : Command) : c.memory.length = c'.memory.length := by
  unfold Command.memory
  simp only [List.length_append, length_le, length_leInt, length_leBool, Bytes.size]

theorem length_memory_ledger (l l' : Ledger) : l.memory.length = l'.memory.length := by
  have hentry : ∀ i, (l.entries i).memory.length = (l'.entries i).memory.length :=
    fun i => length_memory_command (l.entries i) (l'.entries i)
  unfold Ledger.memory
  simp only [List.length_append, List.length_flatMap, length_le, hentry]

theorem config_damage {c c' : PmConfig} (hcrc : c.crc32 = configCrc c)
    (h : Damaged c.image c'.image) (productionGate : Bool) :
    pmConfigValidate c' productionGate = .invalidCrc := by
  have hcrc' : c'.crc32 ≠ configCrc c' := damage_detected (length_memory_config c c') hcrc h
  rw [pmConfigValidate, if_pos (.inr hcrc')]

theorem ledger_damage [Sha256] {l l' : Ledger} (hcrc : l.crc32 = ledgerCrc l)
    (h : Damaged (withCrc l.memory l.crc32) (withCrc l'.memory l'.crc32)) :
    ledgerValid l' = false := by
  have hcrc' : l'.crc32 ≠ ledgerCrc l' := damage_detected (length_memory_ledger l l') hcrc h
  simp [ledgerValid, hcrc']

theorem checkpoint_damage {c c' : Checkpoint} (hcrc : c.crc32 = checkpointCrc c)
    (h : Damaged (withCrc c.memory c.crc32) (withCrc c'.memory c'.crc32)) :
    checkpointValid c' = false := by
  have hlength : c.memory.length = c'.memory.length := by simp [Checkpoint.memory, Bytes.size]
  have hcrc' : c'.crc32 ≠ checkpointCrc c' := damage_detected hlength hcrc h
  simp [checkpointValid, hcrc']

theorem time_damage {c c' : TimeCheckpoint} (hcrc : c.crc32 = timeCrc c)
    (h : Damaged (withCrc c.memory c.crc32) (withCrc c'.memory c'.crc32)) :
    timeValid c' = false := by
  have hlength : c.memory.length = c'.memory.length := by simp [TimeCheckpoint.memory]
  have hcrc' : c'.crc32 ≠ timeCrc c' := damage_detected hlength hcrc h
  simp [timeValid, hcrc']

end PowerMonitor.Storage
