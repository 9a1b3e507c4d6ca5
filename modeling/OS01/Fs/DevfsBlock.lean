import OS01.Abi
import OS01.Lib.Bytes

/-!
# Block devices read and written by bytes

The block path of `devfs_read` and `devfs_write` (`kernel/fs/devfs.c`) over `block_device_read` and
`block_device_write` (`kernel/block/blockdev.c`). The bytes go through a buffer of whole sectors, and the number of
sectors is computed from the size alone. A request that begins inside a sector may end in one sector more, and then
runs out of the buffer; `kmalloc` refuses a buffer of more than 1 MiB. `devfs_block_exact_iff` says that every other
request is exact.
-/

namespace OS01.Fs

open Lib BitVec Nat

/-- `block_device_t`, with what its driver stores. -/
structure BlockDevice where
  present : Bool := true
  /-- The driver has a `write` operation. -/
  writable : Bool := true
  sectorCount : Nat
  sectorCount_lt : sectorCount < 2 ^ 64
  data : Mem

/-- How the calls of one request end: whether memory is left, and the two calls of the driver. A write that fails
leaves `torn` on the device. -/
structure BlockEnv where
  memory : Bool := true
  readRc : Int := 0
  writeRc : Int := 0
  torn : Mem := fun _ => 0

/-- `kmalloc` (`kernel/memory/slab.c`): whether it returns a block. -/
def BlockEnv.kmalloc (env : BlockEnv) (size : Nat) : Bool := if 1048576 < size then false else env.memory

namespace BlockDevice

variable (d : BlockDevice)

/-- The checks of a range of sectors, and the result of the driver where it is called. -/
def checkRange (lba count : Nat) (rc : Int) : Int :=
  if (lba + count) % 2 ^ 64 < lba then -EINVAL
  else if count = 0 then if lba ≤ d.sectorCount then 0 else -EINVAL
  else if d.sectorCount < (lba + count) % 2 ^ 64 then -EINVAL
  else rc

/-- `block_device_read`. -/
def blockDeviceRead (lba count : Nat) (rc : Int) : Int :=
  if !d.present then -EINVAL else d.checkRange lba count rc

/-- `block_device_write`. -/
def blockDeviceWrite (lba count : Nat) (rc : Int) : Int :=
  if !d.present then -EINVAL
  else if !d.writable then -EROFS
  else d.checkRange lba count rc

/-- The buffer after a read from sector `lba`. -/
def sectors (lba : Nat) : Mem := fun i => d.data (512 * lba + i)

/-- The device after `count` sectors from `lba` are written from a buffer. -/
def store (lba count : Nat) (tmp : Mem) : Mem := fun x =>
  if 512 * lba ≤ x ∧ x < 512 * lba + 512 * count then tmp (x - 512 * lba) else d.data x

/-- `(uint32_t)((size + 511) / 512)`. -/
def sectorsFor (size : Nat) : Nat := (size + 511) % 2 ^ 64 / 512 % 2 ^ 32

/-- The driver fills `count` sectors and the copy takes `size` bytes, all inside the `count * 512` bytes allocated,
a product of 32 bits. -/
def InBuffer (offset size count : Nat) : Prop :=
  512 * count ≤ count * 512 % 2 ^ 32 ∧ offset % 512 + size ≤ count * 512 % 2 ^ 32

instance (offset size count : Nat) : Decidable (InBuffer offset size count) := inferInstanceAs (Decidable (_ ∧ _))

/-- `(int)size`. -/
def intOf (size : Nat) : Int := (BitVec.ofNat 32 size).toInt

/-- What the block paths of `devfs_read` and `devfs_write` have in common: `idle` is the outcome when nothing is
transferred, and `copy` goes on once `count` sectors from `lba` are in the buffer. `none` is an access outside it. -/
def blockPath {β : Type} (offset size : Nat) (env : BlockEnv) (idle : β) (copy : Nat → Nat → Int × β) :
    Option (Int × β) :=
  let lba := offset / 512
  let count := sectorsFor size
  if size = 0 ∨ count = 0 then some (0, idle)
  else if !env.kmalloc (count * 512 % 2 ^ 32) then some (-1, idle)
  else if d.blockDeviceRead lba count env.readRc ≠ 0 then some (-1, idle)
  else if InBuffer offset size count then some (copy lba count)
  else none

/-- `devfs_read` of a block device: the result and the bytes copied out. -/
def devfsRead (offset size : Nat) (env : BlockEnv) : Option (Int × List UInt8) :=
  d.blockPath offset size env [] fun lba _ => (intOf size, (d.sectors lba).read (offset % 512) size)

/-- `devfs_write` of a block device: the result and what the device then stores. -/
def devfsWrite (offset : Nat) (buffer : List UInt8) (env : BlockEnv) : Option (Int × Mem) :=
  d.blockPath offset buffer.length env d.data fun lba count =>
    if d.blockDeviceWrite lba count env.writeRc = 0 then
      (intOf buffer.length, d.store lba count ((d.sectors lba).write (offset % 512) buffer))
    else (-1, env.torn)

/-! ## What the calls are for -/

/-- Whatever happens, a read stays inside its buffer, and it returns the bytes if nothing fails. -/
def ReadExact (offset size : Nat) : Prop :=
  ∀ env, ∃ ret out, d.devfsRead offset size env = some (ret, out) ∧
    (env.memory = true → env.readRc = 0 → ret = size ∧ out = d.data.read offset size)

/-- Whatever happens, a write stays inside its buffer, and it changes those bytes and no others if nothing fails. -/
def WriteExact (offset size : Nat) : Prop :=
  ∀ env (buffer : List UInt8), buffer.length = size → ∃ ret data, d.devfsWrite offset buffer env = some (ret, data) ∧
    (env.memory = true → env.readRc = 0 → env.writeRc = 0 → d.writable = true →
      ret = size ∧ data = d.data.write offset buffer)

/-- The requests that the code serves: those of no bytes, and those of at most 1 MiB whose bytes lie in as many sectors
as their size alone needs. -/
def Served (offset size : Nat) : Prop := size = 0 ∨ size ≤ 1048576 ∧ offset % 512 + size ≤ 512 * ((size + 511) / 512)

/-! ## The request -/

variable {d} {offset size : Nat}

lemma intOf_eq (h : size ≤ 1048576) : intOf size = size := by
  have hmod : size % 2 ^ 32 = size := mod_eq_of_lt (by omega)
  rw [intOf, toInt_eq_toNat_of_lt, toNat_ofNat, hmod]
  rw [toNat_ofNat]
  omega

lemma sectorsFor_eq (h : size ≤ 1048576) : sectorsFor size = (size + 511) / 512 := by
  unfold sectorsFor
  omega

/-- A request inside the device passes the checks. -/
lemma checkRange_eq (hfit : offset + size ≤ 512 * d.sectorCount) (hpos : 0 < size) (hs : size ≤ 1048576) (rc : Int) :
    d.checkRange (offset / 512) (sectorsFor size) rc = rc := by
  have hlt := d.sectorCount_lt
  rw [sectorsFor_eq hs]
  unfold checkRange
  rw [if_neg (by omega), if_neg (by omega), if_neg (by omega)]

lemma inBuffer_iff (hs : size ≤ 1048576) :
    InBuffer offset size (sectorsFor size) ↔ offset % 512 + size ≤ 512 * ((size + 511) / 512) := by
  rw [sectorsFor_eq hs]
  unfold InBuffer
  omega

lemma sectors_read (offset n : Nat) : (d.sectors (offset / 512)).read (offset % 512) n = d.data.read offset n := by
  unfold sectors
  rw [Mem.read_shift, div_add_mod]

/-- Writing back whole sectors of which only some bytes were changed changes those bytes. -/
lemma store_write {count : Nat} {buffer : List UInt8} (hf : offset % 512 + buffer.length ≤ 512 * count) :
    d.store (offset / 512) count ((d.sectors (offset / 512)).write (offset % 512) buffer) =
      d.data.write offset buffer := by
  funext x
  have hoffset := Nat.div_add_mod offset 512
  unfold store sectors
  by_cases hin : 512 * (offset / 512) ≤ x ∧ x < 512 * (offset / 512) + 512 * count
  · rw [if_pos hin, Mem.write_shift, hoffset, Nat.add_sub_cancel' hin.1]
  · rw [if_neg hin, Mem.write_outside _ _ _ (by omega)]

section

variable (hpresent : d.present = true)
include hpresent

variable (hfit : offset + size ≤ 512 * d.sectorCount)
include hfit

/-- A request that is served gets to the copy unless something fails. -/
lemma blockPath_served {β : Type}
    (hpos : size ≠ 0) (hs : size ≤ 1048576) (hin : offset % 512 + size ≤ 512 * ((size + 511) / 512)) (env : BlockEnv)
    (idle : β) (copy : Nat → Nat → Int × β) : d.blockPath offset size env idle copy =
      if env.memory = true ∧ env.readRc = 0 then some (copy (offset / 512) (sectorsFor size)) else some (-1, idle) := by
  have hcnt : ¬ (size = 0 ∨ sectorsFor size = 0) := by
    rw [sectorsFor_eq hs]
    omega
  have hmem : env.kmalloc (sectorsFor size * 512 % 2 ^ 32) = env.memory := by
    rw [sectorsFor_eq hs]
    exact if_neg (by omega)
  unfold blockPath
  rw [if_neg hcnt, hmem, blockDeviceRead, hpresent, checkRange_eq hfit (pos_of_ne_zero hpos) hs,
    if_pos ((inBuffer_iff hs).2 hin)]
  cases env.memory <;> by_cases hrc : env.readRc = 0 <;> simp [hrc]

lemma readExact (h : Served offset size) : d.ReadExact offset size := by
  intro env
  unfold devfsRead
  by_cases hpos : size = 0
  · subst hpos
    exact ⟨0, [], by simp [blockPath], fun _ _ => ⟨rfl, rfl⟩⟩
  obtain ⟨hs, hin⟩ := h.resolve_left hpos
  rw [blockPath_served hpresent hfit hpos hs hin, intOf_eq hs, sectors_read]
  by_cases hwks : env.memory = true ∧ env.readRc = 0
  · exact ⟨size, _, if_pos hwks, fun _ _ => ⟨rfl, rfl⟩⟩
  · exact ⟨-1, [], if_neg hwks, fun h1 h2 => absurd ⟨h1, h2⟩ hwks⟩

lemma writeExact (h : Served offset size) : d.WriteExact offset size := by
  rintro env buffer rfl
  unfold devfsWrite
  by_cases hpos : buffer.length = 0
  · obtain rfl := List.length_eq_zero_iff.1 hpos
    exact ⟨0, d.data, by simp [blockPath], fun _ _ _ _ => ⟨rfl, rfl⟩⟩
  obtain ⟨hs, hin⟩ := h.resolve_left hpos
  rw [blockPath_served hpresent hfit hpos hs hin, store_write (by rwa [sectorsFor_eq hs]), intOf_eq hs]
  by_cases hwks : env.memory = true ∧ env.readRc = 0
  · rw [if_pos hwks]
    refine ⟨_, _, rfl, fun _ _ hrc hwritable => ?_⟩
    rw [blockDeviceWrite, hpresent, hwritable, checkRange_eq hfit (pos_of_ne_zero hpos) hs, hrc]
    exact ⟨rfl, rfl⟩
  · exact ⟨-1, d.data, if_neg hwks, fun h1 h2 => absurd ⟨h1, h2⟩ hwks⟩

end

/-- A request that transfers bytes got its buffer and stays inside it. -/
lemma blockPath_transfers {β : Type} {env : BlockEnv} {idle : β} {copy : Nat → Nat → Int × β} {r : Int × β}
    (h : d.blockPath offset size env idle copy = some r) (hret : 0 < r.1) :
    sectorsFor size * 512 % 2 ^ 32 ≤ 1048576 ∧ InBuffer offset size (sectorsFor size) := by
  have hidle : ∀ ret ≤ 0, some (ret, idle) ≠ some r := by
    rintro ret hle ⟨⟩
    exact absurd hret (not_lt_of_ge hle)
  unfold blockPath at h
  dsimp only at h
  split_ifs at h with h0 hk hr hin
  · exact absurd h (hidle 0 le_rfl)
  · exact absurd h (hidle (-1) (by decide))
  · exact absurd h (hidle (-1) (by decide))
  refine ⟨?_, hin⟩
  by_contra hbig
  exact hk (by rw [BlockEnv.kmalloc, if_pos (lt_of_not_ge hbig), Bool.not_false])

/-- **Byte access to a block device** is exact for the requests of `Served` and for no others. -/
theorem devfs_block_exact_iff (d : BlockDevice) (hpresent : d.present = true) (offset size : Nat)
    (hfit : offset + size ≤ 512 * d.sectorCount) :
    d.ReadExact offset size ∧ d.WriteExact offset size ↔ Served offset size := by
  refine ⟨fun ⟨hr, _⟩ => ?_, fun h => ⟨readExact hpresent hfit h, writeExact hpresent hfit h⟩⟩
  obtain ⟨ret, out, heq, hex⟩ := hr {}
  obtain ⟨rfl, -⟩ := hex rfl rfl
  by_cases hpos : size = 0
  · exact Or.inl hpos
  obtain ⟨hmem, hin⟩ := blockPath_transfers heq (by simpa using pos_of_ne_zero hpos)
  have hs : size ≤ 1048576 := by
    have := hin.2
    omega
  exact Or.inr ⟨hs, (inBuffer_iff hs).1 hin⟩

/-- Two sectors of zeros. -/
def twoSectors : BlockDevice := ⟨true, true, 2, by decide, fun _ => 0⟩

/-- The whole device is read. -/
theorem devfs_block_exact_whole : twoSectors.ReadExact 0 1024 ∧ twoSectors.WriteExact 0 1024 :=
  (devfs_block_exact_iff twoSectors rfl 0 1024 (by decide)).2 (Or.inr ⟨by decide, by decide⟩)

/-- Two bytes around the end of the first sector: one of them is copied from behind the buffer. -/
theorem devfs_read_two_sectors :
    511 + 2 ≤ 512 * twoSectors.sectorCount ∧ twoSectors.devfsRead 511 2 {} = none ∧ ¬ twoSectors.ReadExact 511 2 := by
  have hn : twoSectors.devfsRead 511 2 {} = none := by decide
  refine ⟨by decide, hn, fun h => ?_⟩
  obtain ⟨ret, out, heq, -⟩ := h {}
  cases heq

end BlockDevice

end OS01.Fs
