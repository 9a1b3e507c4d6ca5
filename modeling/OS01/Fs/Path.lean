import Mathlib.Tactic.Common

/-!
# Names and paths

Path strings as the file-system code handles them (`kernel/fs/vfs.c`): `normalize_vfs_path`,
`vfs_split_parent`, `vfs_path_depth` and the comparison of names. A string is the list of its bytes
before the terminating zero.
-/

namespace OS01.Fs

/-- Size of the buffers for names and paths. -/
def VFS_NAME_MAX : Nat := 256

/-- A path or a name. -/
abbrev Path := List UInt8

/-- The character `/`. -/
def slash : UInt8 := 47

/-- The character `.`. -/
def dot : UInt8 := 46

/-- The strings between the slashes. -/
def splitSlash : Path → List Path
  | [] => [[]]
  | c :: p =>
    if c = slash then [] :: splitSlash p
    else
      match splitSlash p with
      | [] => [[c]]
      | q :: qs => (c :: q) :: qs

/-- The components of a path. -/
def components (p : Path) : List Path := (splitSlash p).filter fun q => decide (q ≠ [])

/-- `normalize_vfs_path`: repeated slashes and the components `.` are removed. -/
def normalizeVfsPath (p : Path) : Path :=
  let body := List.intercalate [slash] ((components p).filter fun q => decide (q ≠ [dot]))
  let out := if p.head? = some slash then slash :: body else body
  if 1 < out.length ∧ [slash, dot] <:+ out then out.dropLast else out

/-- `vfs_split_parent`: the directory part and the last component. -/
def vfsSplitParent (p cwd : Path) : Option (Path × Path) :=
  if VFS_NAME_MAX ≤ p.length then none
  else
    let base := (p.reverse.takeWhile fun c => decide (c ≠ slash)).reverse
    let dirLen := p.length - base.length
    if 1 < dirLen then some (p.take (dirLen - 1), base)
    else if dirLen = 1 ∧ 1 < p.length then some ([slash], base)
    else if VFS_NAME_MAX ≤ cwd.length then none
    else some (cwd, p)

/-- `vfs_path_depth`. -/
def vfsPathDepth (p : Path) : Nat := if p = [slash] then 0 else p.count slash

/-- Letters to upper case. -/
def toUpper (c : UInt8) : UInt8 := if 97 ≤ c ∧ c ≤ 122 then c - 32 else c

/-- `vfs_name_cmp`, as an equality. -/
def vfsNameCmp (a b : Path) : Bool := decide (a.map toUpper = b.map toUpper)

end OS01.Fs
