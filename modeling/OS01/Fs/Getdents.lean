import Mathlib.Order.Interval.Finset.Nat
import Mathlib.Data.Nat.Count
import OS01.Fs.Mount
import OS01.Lib.BubbleSort

/-!
# Listing a directory

`vfs_getdents` (`kernel/fs/vfs.c`). It collects the entries of the file system into an array of fixed size, adds the
mounts that hang in the directory, sorts the array, and copies out the records from a position on. The file system is
asked for one index after the other until it gives an empty name or the array is full; an error is passed over. So the
loop need not end, the model takes fuel, and the call returns if it does for some fuel.
-/

namespace OS01.Fs

open Nat Lib UInt64

/-- Slots of the array. -/
def VFS_GETDENTS_SORT_MAX : Nat := 256

/-- Base of the inode numbers of mounts without a root node. -/
def VFS_MOUNT_STUB_INO_BASE : Nat := 0x8000000000000000

/-- The kinds of nodes. -/
inductive NodeType
  | file
  | dir
  | chrdev
  | blkdev
  | symlink
  | unknown
deriving DecidableEq, Repr

/-- `vfs_dirent_t`. -/
structure Dirent where
  name : Path
  type : NodeType
  ino : Nat
deriving DecidableEq, Repr

/-- `struct linux_dirent64`. -/
structure LinuxDirent64 where
  (dIno dOff dReclen dType : Nat)
  dName : Path
deriving DecidableEq, Repr

/-- The directory, as far as it is read: `dir->mount` and its stable inode number. -/
structure ListedDir where
  isDir : Bool
  mount : Option Nat
  ino : Nat

/-- The `readdir` operation, if there is one. The answer to the `k`-th call of a listing may depend on `k` as well as
on the index asked for; `none` is a result other than 0. -/
abbrev Readdir := Option (Nat → UInt64 → Option Dirent)

/-- `vfs_readdir`. -/
def vfsReaddir (readdir : Readdir) (k : Nat) (index : UInt64) : Option Dirent := readdir.bind fun f => f k index

/-- A name as it is copied into a slot. -/
def Dirent.clip (e : Dirent) : Dirent := { e with name := e.name.take (VFS_NAME_MAX - 1) }

/-- The collection loop after `k` calls. -/
def collect (readdir : Readdir) : Nat → Nat → List Dirent → Option (List Dirent)
  | 0, _, _ => none
  | fuel + 1, k, entries =>
    if entries.length < VFS_GETDENTS_SORT_MAX then
      match vfsReaddir readdir k (ofNat k) with
      | none => collect readdir fuel (k + 1) entries
      | some e => if e.name = [] then some entries else collect readdir fuel (k + 1) (entries ++ [e.clip])
    else some entries

namespace MountTree

variable (s : MountTree) (rootIno : Nat → Option Nat) (dir : ListedDir)

/-- The mount hangs in the directory. -/
def isDirect (m id : Nat) : Bool :=
  decide ((s.mount id).parent = some m) && decide ((s.mount id).parentIno = dir.ino) && decide ((s.mount id).name ≠ [])

/-- The entry of a mount in slot `total`. -/
def mountEntry (id total : Nat) : Dirent :=
  Dirent.clip ⟨(s.mount id).name, .dir, (rootIno id).getD (VFS_MOUNT_STUB_INO_BASE ||| total)⟩

/-- The loop over the mounts: one that hangs in the directory is added, unless its name is there. -/
def inject (m : Nat) : List Nat → List Dirent → List Dirent
  | [], entries => entries
  | id :: ids, entries =>
    if entries.length < VFS_GETDENTS_SORT_MAX then
      if s.isDirect dir m id && !entries.any fun e => s.vfsMountNameEq m e.name (s.mount id).name then
        inject m ids (entries ++ [s.mountEntry rootIno id entries.length])
      else inject m ids entries
    else entries

/-- What `strcmp` and `vfs_name_cmp` compare: the bytes, in upper case on a mount without case. -/
def nameKey (name : Path) : List Nat :=
  name.map fun c => (if (dir.mount.any fun m => (s.mount m).caseInsensitive) then toUpper c else c).toNat

/-- The comparison of the sort is positive. -/
def after (a b : Dirent) : Bool := decide (s.nameKey dir b.name < s.nameKey dir a.name)

/-- The array that is copied out. -/
def listing (entries : List Dirent) : List Dirent :=
  bubbleSort (s.after dir) (match dir.mount with
    | none => entries
    | some m => s.inject rootIno dir m s.list entries)

end MountTree

/-- The `d_type` of a kind. -/
def dType : NodeType → Nat
  | .file => 8
  | .dir => 4
  | .chrdev => 2
  | .blkdev => 6
  | .symlink => 10
  | .unknown => 0

/-- The size of a record: the header, the name and its end, rounded up to 8. -/
def reclen (e : Dirent) : Nat := (24 + e.name.length + 1 + 7) / 8 * 8

/-- The output loop over the entries from the position on: the records, and the bytes written. -/
def emit (count : Nat) : Nat → Nat → List Dirent → List LinuxDirent64 × Nat
  | written, _, [] => ([], written)
  | written, pos, e :: es =>
    if count < written + reclen e then ([], written)
    else
      let (out, written) := emit count (written + reclen e) (pos + 1) es
      (⟨e.ino, pos + 1, reclen e, dType e.type, e.name⟩ :: out, written)

/-- `vfs_getdents`: the result, the records and the new position; `none` is a loop that has not ended. -/
def vfsGetdents (s : MountTree) (rootIno : Nat → Option Nat) (dir : ListedDir) (readdir : Readdir) (kmalloc : Bool)
    (fuel count pos : Nat) : Option (Int × List LinuxDirent64 × Nat) :=
  if !dir.isDir then some (-1, [], pos)
  else if !kmalloc then some (-ENOMEM, [], pos)
  else
    (collect readdir fuel 0 []).map fun entries =>
      let (out, written) := emit count 0 pos ((s.listing rootIno dir entries).drop pos)
      (written, out, pos + out.length)

/-! ## When a listing ends -/

section Ends

variable (readdir : Readdir)

/-- The answer to call `k` is an entry. -/
def GivesEntry (k : Nat) : Prop := (vfsReaddir readdir k (ofNat k)).any fun e => decide (e.name ≠ [])

/-- The answer to call `k` is the end of the directory. -/
def GivesEnd (k : Nat) : Prop := ∃ e, vfsReaddir readdir k (ofNat k) = some e ∧ e.name = []

instance : DecidablePred (GivesEntry readdir) := fun _ => inferInstanceAs (Decidable (_ = true))

/-- Sooner or later the file system reports the end of the directory or has given as many entries as fit. -/
def Ends : Prop := ∃ n, GivesEnd readdir n ∨ VFS_GETDENTS_SORT_MAX ≤ Nat.count (GivesEntry readdir) n

variable {readdir} {k n fuel : Nat} {entries : List Dirent}

lemma count_of_none (hr : vfsReaddir readdir k (ofNat k) = none) :
    count (GivesEntry readdir) (k + 1) = count (GivesEntry readdir) k := by
  rw [count_succ, if_neg (by simp [GivesEntry, hr]), add_zero]

lemma count_of_some {e : Dirent} (hr : vfsReaddir readdir k (ofNat k) = some e) (hn : e.name ≠ []) :
    count (GivesEntry readdir) (k + 1) = count (GivesEntry readdir) k + 1 := by
  rw [count_succ, if_pos (by simp [GivesEntry, hr, hn])]

/-- What the loop waits for comes, if it returns. The slots in use count the entries given so far. -/
lemma ends_of_collect {r : List Dirent} (hlen : entries.length = count (GivesEntry readdir) k)
    (h : collect readdir fuel k entries = some r) : Ends readdir := by
  induction fuel generalizing k entries with
  | zero => cases h
  | succ fuel ih =>
    unfold collect at h
    split_ifs at h with hr
    · split at h
      · next hn => exact ih (hlen.trans (count_of_none hn).symm) h
      next e hs =>
        split_ifs at h with hend
        · exact ⟨k, Or.inl ⟨e, hs, hend⟩⟩
        · refine ih ?_ h
          rw [count_of_some hs hend, List.length_append, hlen]
          rfl
    · exact ⟨k, Or.inr (by omega)⟩

/-- The loop returns once the answer to a later call ends it. -/
lemma collect_of_ends (hlen : entries.length = count (GivesEntry readdir) k) (hk : k ≤ n)
    (h : GivesEnd readdir n ∨ VFS_GETDENTS_SORT_MAX ≤ count (GivesEntry readdir) n) :
    ∃ fuel r, collect readdir fuel k entries = some r := by
  induction d : n - k generalizing k entries with
  | zero =>
    obtain rfl : k = n := by omega
    refine ⟨1, entries, ?_⟩
    unfold collect
    by_cases hrm : entries.length < VFS_GETDENTS_SORT_MAX
    · obtain ⟨e, hrd, hend⟩ := h.resolve_right (by omega)
      rw [if_pos hrm, hrd]
      exact if_pos hend
    · exact if_neg hrm
  | succ d ih =>
    by_cases hrm : entries.length < VFS_GETDENTS_SORT_MAX
    swap
    · exact ⟨1, entries, if_neg hrm⟩
    cases hrd : vfsReaddir readdir k (ofNat k) with
    | none =>
      obtain ⟨fuel, r, hr⟩ := ih (hlen.trans (count_of_none hrd).symm) (by omega) (by omega)
      exact ⟨fuel + 1, r, by rw [collect, if_pos hrm, hrd]; exact hr⟩
    | some e =>
      by_cases hend : e.name = []
      · exact ⟨1, entries, by rw [collect, if_pos hrm, hrd]; exact if_pos hend⟩
      · have hlen' : (entries ++ [e.clip]).length = count (GivesEntry readdir) (k + 1) := by
          rw [count_of_some hrd hend, List.length_append, hlen]
          rfl
        obtain ⟨fuel, r, hr⟩ := ih hlen' (by omega) (by omega)
        exact ⟨fuel + 1, r, by rw [collect, if_pos hrm, hrd]; exact (if_neg hend).trans hr⟩

end Ends

/-- **`vfs_getdents` returns** exactly if it does not get to the loop, or if the loop ends. -/
theorem getdents_returns_iff (s : MountTree) (rootIno : Nat → Option Nat) (dir : ListedDir) (readdir : Readdir)
    (kmalloc : Bool) (count pos : Nat) :
    (∃ fuel r, vfsGetdents s rootIno dir readdir kmalloc fuel count pos = some r) ↔
      dir.isDir = false ∨ kmalloc = false ∨ Ends readdir := by
  unfold vfsGetdents
  cases dir.isDir with
  | false => simp
  | true =>
    cases kmalloc with
    | false => simp
    | true =>
      simp only [Bool.not_true, Bool.false_eq_true, if_false, Option.map_eq_some_iff, Bool.true_eq_false, false_or]
      constructor
      · rintro ⟨fuel, r, entries, h, -⟩
        exact ends_of_collect rfl h
      · rintro ⟨n, h⟩
        obtain ⟨fuel, entries, hcol⟩ := @collect_of_ends readdir 0 n [] rfl (zero_le n) h
        exact ⟨fuel, _, entries, hcol, rfl⟩

/-- A directory without a `readdir` operation: the loop passes over an error for every index. -/
theorem getdents_no_readdir : ¬ ∃ fuel r,
    vfsGetdents ⟨[], none, fun _ => {}, fun _ => {}, 0, 0, []⟩ (fun _ => none) ⟨true, none, 1⟩ none true fuel 4096 0 =
      some r := by
  rintro ⟨fuel, r, h⟩
  have hen : Ends none := by
    obtain ⟨entries, hcol, -⟩ := Option.map_eq_some_iff.1 h
    exact ends_of_collect rfl hcol
  obtain ⟨n, h | h⟩ := hen
  · obtain ⟨e, he, -⟩ := h
    cases he
  · have hn : count (GivesEntry none) n = 0 := by
      refine (count_eq_card_filter_range _ _).trans ?_
      simp [GivesEntry, vfsReaddir]
    rw [hn] at h
    cases h

end OS01.Fs
