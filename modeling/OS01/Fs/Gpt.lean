import OS01.Fs.DevfsBlock

/-!
# Partition tables

`kernel/fs/gpt.c`: the scan of a disk for GPT partitions and the devices made of them, on disks of 512-byte sectors
(others are refused). Every read of a buffer is checked against its size: `none` is a byte examined outside.

The header says how many of its bytes its checksum covers. `gpt_scan` asks for at least 92 and not for at most the
512 it has loaded. `gptScan_confined_iff` says that this is the only way out of the buffers, and that the partitions
are confined.
-/

namespace OS01.Fs

open List Option Lib

def GPT_PARTITION_MAX : Nat := 16

/-- A buffer from `kmalloc`. -/
structure Buffer where
  bytes : Mem
  size : Nat

namespace Buffer

variable (b : Buffer)

/-- The `n` bytes at an offset. -/
def read (off n : Nat) : Option (List UInt8) := if off + n ≤ b.size then some (b.bytes.read off n) else none

/-- A byte of `gpt_crc32`. -/
def crcByte (crc : UInt32) (x : UInt8) : UInt32 :=
  (fun crc : UInt32 => (crc >>> 1) ^^^ if crc &&& 1 = 0 then 0 else 0xEDB88320)^[8] (crc ^^^ x.toUInt32)

/-- The loop of `gpt_crc32` after `len` bytes. -/
def crcAfter : Nat → Option UInt32
  | 0 => some 0xFFFFFFFF
  | len + 1 => do
      let crc ← crcAfter len
      return (← b.read len 1).foldl crcByte crc

/-- `gpt_crc32`. -/
def gptCrc32 (len : Nat) : Option Nat := (b.crcAfter len).map fun crc => (crc ^^^ 0xFFFFFFFF).toNat

end Buffer

/-- The word of `n` bytes at an offset. -/
def field (bytes : List UInt8) (off n : Nat) : Nat := leNat ((bytes.drop off).take n)

/-- The fields of a GPT header that the scan uses. -/
structure GptHeader where
  (headerSize entryLba numEntries entrySize crc entriesCrc : Nat)
  deriving DecidableEq

/-- `gpt_partition_t` with the device made for it; `listed` is whether `devfs` has taken the device and the
partition counts. -/
structure GptPartition where
  typeGuid : List UInt8
  startLba : Nat
  endLba : Nat
  name : List UInt8
  listed : Bool

/-- How the calls of a scan end: its allocations and reads, and for each entry the registration of a device and that
in `devfs`. -/
structure GptEnv where
  kmalloc : Nat → Bool := fun _ => true
  readRc : Nat → Int := fun _ => 0
  register : Nat → Bool := fun _ => true
  devfs : Nat → Bool := fun _ => true

namespace GptPartition

/-- `partition_read` and `partition_write`: the request passed on to the disk, if it is not refused. -/
def request (p : GptPartition) (lba count : Nat) : Option (Nat × Nat) :=
  let length := (p.endLba - p.startLba + 1) % 2 ^ 64
  if (lba + count) % 2 ^ 64 < lba ∨ length < (lba + count) % 2 ^ 64 then none
  else some ((p.startLba + lba) % 2 ^ 64, count)

/-- `gpt_extract_name`: code units up to a zero, those that are not ASCII replaced. -/
def extractName (entry : List UInt8) : List UInt8 :=
  (((List.range 36).map fun i => field entry (56 + 2 * i) 2).takeWhile (· ≠ 0)).map fun wc =>
    if wc < 0x80 then UInt8.ofNat wc else 0x3F

end GptPartition

namespace BlockDevice

variable (d : BlockDevice)

/-- The header sector. -/
def gptSector : Buffer := ⟨d.sectors 1, 512⟩

/-- The entry array in its buffer of whole sectors. It has at most 1 MiB, so that no product wraps. -/
def gptArray (h : GptHeader) : Buffer := ⟨d.sectors h.entryLba, (h.numEntries * h.entrySize + 511) / 512 * 512⟩

/-- The first half of `gpt_scan`: the header, or `none` inside where it is refused. -/
def gptHeader (env : GptEnv) : Option (Option GptHeader) :=
  if !d.present || !env.kmalloc 0 || d.blockDeviceRead 1 1 (env.readRc 0) != 0 then some none
  else do
    let hdr ← d.gptSector.read 0 92
    let h : GptHeader :=
      ⟨field hdr 12 4, field hdr 72 8, field hdr 80 4, field hdr 84 4, field hdr 16 4, field hdr 88 4⟩
    if hdr.take 8 ≠ [0x45, 0x46, 0x49, 0x20, 0x50, 0x41, 0x52, 0x54] ∨ field hdr 8 4 ≠ 0x00010000 ∨
        h.headerSize < 92 ∨ h.entrySize < 128 ∨ 1024 * 1024 < h.numEntries * h.entrySize then pure none
    else pure (some h)

/-- An entry of the array: the partition device made for it, or `none` inside where it is skipped. -/
def gptEntry (env : GptEnv) (entries : Buffer) (entrySize i : Nat) : Option (Option GptPartition) := do
  let entry ← entries.read (i * entrySize) 128
  let startLba := field entry 32 8
  let endLba := field entry 40 8
  let length := (endLba - startLba + 1) % 2 ^ 64
  if (entry.take 16).all (· == 0) ∨ endLba < startLba ∨ d.sectorCount ≤ endLba then pure none
  -- `block_device_create_partition`
  else if (startLba + length) % 2 ^ 64 < startLba ∨ d.sectorCount < (startLba + length) % 2 ^ 64 then pure none
  else if !env.register i then pure none
  else pure (some ⟨entry.take 16, startLba, endLba, GptPartition.extractName entry, env.devfs i⟩)

/-- The loop over the entries, with `count` partitions listed. -/
def gptEntries (env : GptEnv) (entries : Buffer) (entrySize : Nat) : List Nat → Nat → Option (List GptPartition)
  | [], _ => some []
  | i :: is, count =>
    if GPT_PARTITION_MAX ≤ count then some []
    else do
      match ← d.gptEntry env entries entrySize i with
      | none => gptEntries env entries entrySize is count
      | some p => return p :: (← gptEntries env entries entrySize is (count + p.listed.toNat))

/-- `gpt_scan`: the devices it makes. The checksum of the header is computed with its own field cleared. -/
def gptScan (env : GptEnv) : Option (Option (List GptPartition)) := do
  match ← d.gptHeader env with
  | none => pure none
  | some h =>
    let crc ← { d.gptSector with bytes := d.gptSector.bytes.write 16 [0, 0, 0, 0] }.gptCrc32 h.headerSize
    let arraySectors := (h.numEntries * h.entrySize + 511) / 512
    if crc ≠ h.crc ∨ !env.kmalloc 1 ∨ d.blockDeviceRead h.entryLba arraySectors (env.readRc 1) ≠ 0 then pure none
    else do
      let crc ← (d.gptArray h).gptCrc32 (h.numEntries * h.entrySize)
      if crc ≠ h.entriesCrc ∨ !env.kmalloc 2 then pure none
      else return some (← d.gptEntries env (d.gptArray h) h.entrySize (List.range h.numEntries) 0)

/-! ## Confinement -/

/-- A partition lies on the disk, passes on the requests inside it and refuses all others. -/
def Confines (p : GptPartition) : Prop :=
  p.startLba ≤ p.endLba ∧ p.endLba < d.sectorCount ∧ ∀ lba < 2 ^ 64, ∀ count < 2 ^ 32,
    p.request lba count =
      if p.startLba + lba + count ≤ p.endLba + 1 then some (p.startLba + lba, count) else none

variable {d} in
lemma confines_of_lt {p : GptPartition} (hle : p.startLba ≤ p.endLba) (hlt : p.endLba < d.sectorCount) :
    d.Confines p := by
  have hs := d.sectorCount_lt
  refine ⟨hle, hlt, fun lba hlba count hcnt => ?_⟩
  rw [GptPartition.request, Nat.mod_eq_of_lt (by omega : p.endLba - p.startLba + 1 < 2 ^ 64)]
  by_cases hfit : p.startLba + lba + count ≤ p.endLba + 1
  · rw [if_pos hfit, if_neg (by omega), Nat.mod_eq_of_lt (by omega)]
  · rw [if_neg hfit, if_pos (by omega)]

/-- A checksum stays inside the buffer exactly if its length does. -/
lemma gptCrc32_isSome (b : Buffer) (len : Nat) : (b.gptCrc32 len).isSome ↔ len ≤ b.size := by
  rw [Buffer.gptCrc32, isSome_map]
  induction len with
  | zero => simp [Buffer.crcAfter]
  | succ len ih =>
    by_cases hlen : len + 1 ≤ b.size
    · obtain ⟨crc, hcrc⟩ := isSome_iff_exists.1 (ih.2 (Nat.le_of_succ_le hlen))
      simp [Buffer.crcAfter, Buffer.read, hcrc, hlen]
    · simp [Buffer.crcAfter, Buffer.read, hlen]

variable {entries : Buffer} {size i : Nat} (env : GptEnv)

/-- A header that passes its checks has entries of at least 128 bytes. -/
lemma gptHeader_spec : ∃ r, d.gptHeader env = some r ∧ ∀ h ∈ r, 128 ≤ h.entrySize := by
  have hr : d.gptSector.read 0 92 = some ((d.sectors 1).read 0 92) := if_pos (by decide : 0 + 92 ≤ 512)
  unfold gptHeader
  split_ifs
  · exact ⟨none, rfl, by simp⟩
  simp only [hr, bind_eq_bind, bind_some]
  split_ifs with hbad
  · exact ⟨none, rfl, by simp⟩
  · refine ⟨_, rfl, fun h hh => ?_⟩
    cases hh
    push Not at hbad
    exact hbad.2.2.2.1

/-- An entry is read inside the array. -/
lemma gptEntry_spec (hsz : 128 ≤ size) (hi : (i + 1) * size ≤ entries.size) :
    ∃ p, d.gptEntry env entries size i = some p ∧ ∀ q ∈ p, d.Confines q := by
  have hr : entries.read (i * size) 128 = some (entries.bytes.read (i * size) 128) := by
    rw [Nat.add_mul] at hi
    exact if_pos (by omega)
  simp only [gptEntry, hr, bind_eq_bind, bind_some]
  split_ifs with hs
  · exact ⟨none, rfl, by simp⟩
  · exact ⟨none, rfl, by simp⟩
  · exact ⟨none, rfl, by simp⟩
  · refine ⟨_, rfl, fun q hq => ?_⟩
    cases hq
    push Not at hs
    exact confines_of_lt hs.2.1 hs.2.2

lemma gptEntries_spec (hs : 128 ≤ size) (is : List Nat) (count : Nat)
    (his : ∀ i ∈ is, (i + 1) * size ≤ entries.size) :
    ∃ ps, d.gptEntries env entries size is count = some ps ∧ ∀ p ∈ ps, d.Confines p := by
  induction is generalizing count with
  | nil => exact ⟨[], rfl, by simp⟩
  | cons i is ih =>
    rw [gptEntries]
    split_ifs
    · exact ⟨[], rfl, by simp⟩
    obtain ⟨p, hp, hc⟩ := d.gptEntry_spec env hs (his i mem_cons_self)
    have hr := fun count => ih count fun j hj => his j (mem_cons_of_mem i hj)
    rw [hp]
    cases p with
    | none => exact hr count
    | some p =>
      obtain ⟨ps, hps, hall⟩ := hr (count + p.listed.toNat)
      refine ⟨p :: ps, ?_, forall_mem_cons.2 ⟨hc p rfl, hall⟩⟩
      simp [hps]

/-- **The scan of a disk.** Whatever the disk holds and however the calls end, the scan examines no byte outside its
buffers and makes only partitions that are confined, exactly if the header that it accepts, if any, does not say that
it is larger than its sector. -/
theorem gptScan_confined_iff (d : BlockDevice) (env : GptEnv) :
    ((d.gptScan env).isSome ∧ ∀ ps, d.gptScan env = some (some ps) → ∀ p ∈ ps, d.Confines p) ↔
      ∀ h, d.gptHeader env = some (some h) → h.headerSize ≤ 512 := by
  obtain ⟨r, hr, hent⟩ := d.gptHeader_spec env
  unfold gptScan
  rw [hr]
  cases r with
  | none => simp
  | some h =>
    simp only [bind_eq_bind, bind_some, some.injEq, forall_eq']
    have hiff : _ ↔ h.headerSize ≤ 512 :=
      gptCrc32_isSome { d.gptSector with bytes := d.gptSector.bytes.write 16 [0, 0, 0, 0] } h.headerSize
    generalize Buffer.gptCrc32 _ h.headerSize = crc at hiff ⊢
    cases crc with
    | none => simpa using hiff
    | some crc =>
      refine iff_of_true ?_ (hiff.1 rfl)
      have hfit : h.numEntries * h.entrySize ≤ (d.gptArray h).size := by
        change _ ≤ (h.numEntries * h.entrySize + 511) / 512 * 512
        omega
      obtain ⟨sum, hsum⟩ := isSome_iff_exists.1 ((gptCrc32_isSome _ _).2 hfit)
      obtain ⟨ps, hps, hall⟩ := d.gptEntries_spec env (hent h rfl) (range h.numEntries) 0 fun i hi =>
        (Nat.mul_le_mul_right _ (mem_range.1 hi)).trans hfit
      simp only [bind_some, hsum, hps]
      split_ifs
      · simp
      · simp
      · simpa using hall

/-- A disk whose header says that it has 513 bytes. -/
def oversizedHeader : BlockDevice where
  sectorCount := 64
  sectorCount_lt := by decide
  data := (Mem.write (fun _ => 0) 512 [0x45, 0x46, 0x49, 0x20, 0x50, 0x41, 0x52, 0x54, 0, 0, 1, 0, 1, 2]).write 596 [128]

/-- The checksum of that header reads the byte after the sector. -/
theorem gptScan_oversizedHeader : oversizedHeader.gptScan {} = none := by
  have hheader : oversizedHeader.gptHeader {} = some (some ⟨513, 0, 0, 128, 0, 0⟩) := rfl
  have hout := gptCrc32_isSome ⟨(oversizedHeader.sectors 1).write 16 [0, 0, 0, 0], 512⟩ 513
  have hn := not_isSome_iff_eq_none.1 (mt hout.1 (by decide))
  simp [gptScan, gptSector, hheader, hn]

end BlockDevice

end OS01.Fs
