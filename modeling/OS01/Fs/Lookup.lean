import OS01.Abi
import OS01.Fs.Path

/-!
# Path resolution

`vfs_lookup_resolved` (`kernel/fs/vfs.c`) with the functions it is made of. `__vfs_lookup_raw` walks a
path from the root up to the first symbolic link and records the path walked so far as text;
`splice_symlink_path` puts the target of the link between that text and the rest of the path, and the
walk starts again from the root.

`VfsTree` is what a lookup sees of the mounted file systems while nothing changes: the entries of
each directory, whether they come from the file system or from the directory cache, the mounts on
them, and the pointers from a node to its parent directory and from the root of a mount to the node it
covers. The buffers of a lookup are taken to be allocated; when there is no memory for them the call
returns `-ENOMEM` before it looks at anything.

`VfsTree.resolve` is the resolution component by component, without text.
-/

namespace OS01.Fs

/-- `MAXSYMLINKS`. -/
def MAXSYMLINKS : Nat := 8

/-- The component `..`. -/
def dotdot : Path := [dot, dot]

/-- The `type` of a node, as far as a lookup distinguishes them. -/
inductive NodeKind
  | dir
  | symlink
  | other
deriving DecidableEq

/-- The mounted file systems. -/
structure VfsTree where
  root : Nat
  kind : Nat → NodeKind
  /-- The root of the mount on a name in a directory, which `vfs_find_submount` finds. -/
  submount : Nat → Path → Option Nat
  /-- The entry of a directory, or the error that looking it up gives. -/
  lookup : Nat → Path → Except Int Nat
  /-- `parent`. -/
  parent : Nat → Option Nat
  /-- For the root of a mount, its `mountpoint`. -/
  mountpoint : Nat → Option Nat
  /-- The target of a symbolic link. -/
  readlink : Nat → Except Int Path
  root_dir : kind root = .dir
  root_parent : parent root = none
  root_mountpoint : mountpoint root = none
  lookup_parent : ∀ d name n, lookup d name = .ok n → parent n = some d ∧ mountpoint n = none
  submount_root : ∀ d name n, submount d name = some n →
    kind n = .dir ∧ ∃ p, mountpoint n = some p ∧ parent p = some d ∧ mountpoint p = none

namespace VfsTree

variable (t : VfsTree)

/-- The node under a name: the root of a mount on it comes first. -/
def child (d : Nat) (name : Path) : Except Int Nat :=
  match t.submount d name with
  | some n => .ok n
  | none => t.lookup d name

/-- The step to `..`. The loop that leaves mounts makes one round at most, since a mountpoint is not
the root of a mount. -/
def up (n : Nat) : Nat :=
  let covered := (t.mountpoint n).getD n
  (t.parent covered).getD covered

/-! ## The code -/

/-- `next_component`: the component and the text after the slash that ends it. -/
def nextComponent (p : Path) : Option (Path × Path) :=
  match p.dropWhile fun c => decide (c = slash) with
  | [] => none
  | q => some (q.takeWhile fun c => decide (c ≠ slash),
      (q.dropWhile fun c => decide (c ≠ slash)).drop 1)

/-- The index of the last slash, or 0. -/
def lastSlash (p : Path) : Nat := p.length - 1 - (p.reverse.takeWhile fun c => decide (c ≠ slash)).length

/-- The text of the path walked so far after a step to `..`. -/
def dropComponent (consumed : Path) : Path :=
  if 1 < consumed.length then
    if lastSlash consumed = 0 then consumed.take 1 else consumed.take (lastSlash consumed)
  else consumed

/-- What `__vfs_lookup_raw` returns: the last node, a symbolic link with the text before and after
it, or an error. -/
inductive RawResult
  | done (n : Nat)
  | link (n : Nat) (consumed suffix : Path)
  | fail (e : Int)

/-- The loop of `__vfs_lookup_raw` over the components; each takes a character at least. -/
def rawWalk : Nat → Nat → Path → Path → RawResult
  | 0, cur, _, _ => .done cur
  | fuel + 1, cur, consumed, ptr =>
    match nextComponent ptr with
    | none => .done cur
    | some (comp, ptr) =>
      if comp = [dot] then rawWalk fuel cur consumed ptr
      else if t.kind cur ≠ .dir then .fail (-ENOTDIR)
      else if comp = dotdot then rawWalk fuel (t.up cur) (dropComponent consumed) ptr
      else
        match t.child cur comp with
        | .error e => .fail e
        | .ok n =>
          if VFS_NAME_MAX < consumed.length + 1 + comp.length + 1 then .fail (-ENAMETOOLONG)
          else if t.kind n = .symlink then
            if ptr = [] then .link n (consumed ++ slash :: comp) []
            else if VFS_NAME_MAX < 1 + ptr.length + 1 then .fail (-ENAMETOOLONG)
            else .link n (consumed ++ slash :: comp) (slash :: ptr)
          else rawWalk fuel n (consumed ++ slash :: comp) ptr

/-- `__vfs_lookup_raw`. -/
def lookupRaw (path : Path) : RawResult :=
  let norm := normalizeVfsPath path
  if VFS_NAME_MAX ≤ norm.length then .fail (-ENAMETOOLONG)
  else if norm = [slash] then .done t.root
  else rawWalk t (norm.length + 1) t.root [] norm

/-- The directory part of the text before a link. -/
def dirname (consumed : Path) : Path :=
  if slash ∈ consumed then
    if lastSlash consumed = 0 then [slash] else consumed.take (lastSlash consumed)
  else []

/-- The text that `splice_symlink_path` builds. -/
def spliceText (consumed target suffix : Path) : Path :=
  if target.head? = some slash then target ++ suffix
  else dirname consumed ++ slash :: target ++ suffix

/-- `splice_symlink_path`: the text if it fits; `none` is `-ENAMETOOLONG`. -/
def spliceSymlinkPath (consumed target suffix : Path) : Option Path :=
  let out := spliceText consumed target suffix
  if VFS_NAME_MAX < out.length + 1 then none else some out

/-- The loop of `vfs_lookup_resolved`, by the number of links that may still be expanded. The count
is looked at before the flag. -/
def resolveLoop (nofollow : Bool) : Nat → Path → Except Int Nat
  | 0, path =>
    match t.lookupRaw path with
    | .fail e => .error e
    | .done n => .ok n
    | .link .. => .error (-ELOOP)
  | k + 1, path =>
    match t.lookupRaw path with
    | .fail e => .error e
    | .done n => .ok n
    | .link n consumed suffix =>
      if nofollow && decide (suffix = []) then .ok n
      else
        match t.readlink n with
        | .error e => .error e
        | .ok target =>
          if VFS_NAME_MAX - 1 ≤ target.length then .error (-ENAMETOOLONG)
          else
            match spliceSymlinkPath consumed target suffix with
            | none => .error (-ENAMETOOLONG)
            | some p => resolveLoop nofollow k p

/-- `vfs_lookup_resolved`; `nofollow` is `LOOKUP_NOFOLLOW`. -/
def vfsLookupResolved (nofollow : Bool) (path : Path) : Except Int Nat :=
  if VFS_NAME_MAX ≤ path.length then .error (-ENAMETOOLONG)
  else t.resolveLoop nofollow MAXSYMLINKS path

/-! ## The resolution it computes -/

/-- The components that count. -/
def names (p : Path) : List Path := (components p).filter fun q => decide (q ≠ [dot])

/-- Resolve names from a directory; `onLink` says what a symbolic link in a directory, followed by
more names, stands for. -/
def walk (nofollow : Bool) (onLink : Nat → Nat → List Path → Except Int Nat) :
    Nat → List Path → Except Int Nat
  | cur, [] => .ok cur
  | cur, c :: cs =>
    if t.kind cur ≠ .dir then .error (-ENOTDIR)
    else if c = dotdot then walk nofollow onLink (t.up cur) cs
    else
      match t.child cur c with
      | .error e => .error e
      | .ok n =>
        if t.kind n = .symlink then
          if nofollow && decide (cs = []) then .ok n else onLink n cur cs
        else walk nofollow onLink n cs

/-- A link stands for its target, resolved from the directory it is in or from the root; only so many
are expanded. -/
def expand (nofollow : Bool) : Nat → Nat → Nat → List Path → Except Int Nat
  | 0, _, _, _ => .error (-ELOOP)
  | k + 1, n, d, cs =>
    match t.readlink n with
    | .error e => .error e
    | .ok target =>
      walk t nofollow (expand nofollow k) (if target.head? = some slash then t.root else d)
        (names target ++ cs)

/-- Resolution from the root with at most `k` expansions. -/
def resolve (nofollow : Bool) (k : Nat) (path : Path) : Except Int Nat :=
  t.walk nofollow (t.expand nofollow k) t.root (names path)

/-- A target or a path that the code builds on the way does not fit its buffer. -/
def Overlong (nofollow : Bool) : Nat → Path → Prop
  | 0, _ => False
  | k + 1, path =>
    match t.lookupRaw path with
    | .link n consumed suffix =>
      ¬(nofollow = true ∧ suffix = []) ∧
        match t.readlink n with
        | .ok target => VFS_NAME_MAX - 1 ≤ target.length ∨
            VFS_NAME_MAX ≤ (spliceText consumed target suffix).length ∨
              Overlong nofollow k (spliceText consumed target suffix)
        | .error _ => False
    | _ => False

end VfsTree

end OS01.Fs
