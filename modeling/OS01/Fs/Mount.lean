import OS01.Abi
import OS01.Fs.Path
import OS01.Lib.Run

/-!
# The mount tree

`vfs_mount`, `vfs_mount_fs`, `vfs_publish_mount_locked`, `vfs_bind_submount_locked` and
`vfs_unbind_submount_locked` (`kernel/fs/vfs.c`). Mounts that come before the root are kept unbound;
when the root is mounted, they are bound to their mount points in the order of their depth.

Mounts and nodes are named by numbers that are never used again. Binding a mount needs memory, a path
resolution and a lookup in a directory. Their outcomes are parameters: the resolution gives any
directory or fails, and the lookup finds a directory, finds something else, finds nothing, or fails.
A node that a file system's `lookup` returns is a new one, with the mount and the directory it was
looked up in and the name it was looked up by. The registry's usage counts, reference counts and the
other fields of mounts and nodes are left out.
-/

namespace OS01.Fs

open Function Lib

/-- Slots of the array of pending mounts. -/
def PENDING_MAX : Nat := 32

/-- `vfs_mount_t`; a mount that is not bound has no parent. -/
structure MountRec where
  path : Path := []
  caseInsensitive : Bool := false
  /-- `mount_name`. -/
  name : Path := []
  /-- `parent_mount`. -/
  parent : Option Nat := none
  /-- `parent_dir_ino`. -/
  parentIno : Nat := 0
  mountpoint : Option Nat := none
deriving DecidableEq, Repr

/-- A mount-point node: its mount, the inode of its parent directory, its name, and the mount on it. -/
structure MpNode where
  mount : Nat := 0
  parentIno : Nat := 0
  name : Path := []
  mountedHere : Option Nat := none
deriving DecidableEq, Repr

/-- A registered file-system type. -/
structure FsType where
  name : Path
  requiresDev : Bool
  caseInsensitive : Bool

/-- The mount tree. -/
structure MountTree where
  /-- `mount_list`, the last mount first. -/
  list : List Nat
  /-- `root_mount`. -/
  root : Option Nat
  mount : Nat → MountRec
  node : Nat → MpNode
  /-- The next unused names. -/
  mounts : Nat
  nodes : Nat
  types : List FsType

/-- A directory that a path was resolved to. -/
structure ParentDir where
  mount : Nat
  ino : Nat
  isDir : Bool := true

/-- What a directory lookup finds. -/
inductive LookupResult
  | found (isDir : Bool)
  | absent
  /-- Any other error. -/
  | failed (errno : Nat)

/-- The outcomes that binding a mount depends on. -/
structure BindEnv where
  pathMem : Bool := true
  parent : Option ParentDir
  lookup : LookupResult := .absent
  stubMem : Bool := true

namespace MountTree

variable (s : MountTree)

/-- Change a mount. -/
def setMount (id : Nat) (m : MountRec) : MountTree := { s with mount := update s.mount id m }

/-- `vfs_mount_name_eq`. -/
def vfsMountNameEq (parent : Nat) (a b : Path) : Bool :=
  if (s.mount parent).caseInsensitive then vfsNameCmp a b else decide (a = b)

/-- `vfs_find_submount`. -/
def vfsFindSubmount (dir : ParentDir) (comp : Path) : Option Nat :=
  if comp = [] then none
  else
    s.list.find? fun id =>
      decide ((s.mount id).parent = some dir.mount) && decide ((s.mount id).parentIno = dir.ino) &&
        s.vfsMountNameEq dir.mount (s.mount id).name comp

/-- `vfs_has_duplicate_mount_path`. -/
def vfsHasDuplicateMountPath (p : Path) : Bool :=
  if p = [slash] ∧ s.root.isSome then true
  else s.list.any fun id => decide ((s.mount id).path = p)

/-- The end of `vfs_bind_submount_locked`: a mount and its mount point refer to each other. -/
def attach (id : Nat) (dir : ParentDir) : MountTree :=
  { s with
    node := update s.node s.nodes
      { mount := dir.mount, parentIno := dir.ino, name := (s.mount id).name, mountedHere := some id }
    nodes := s.nodes + 1
    mount := update s.mount id
      { s.mount id with
        parent := some dir.mount, parentIno := dir.ino, mountpoint := some s.nodes } }

/-- `vfs_bind_submount_locked`. -/
def vfsBindSubmount (id : Nat) (env : BindEnv) : MountTree × Int :=
  let m := s.mount id
  if m.path = [slash] then (s, -EINVAL)
  else if !env.pathMem then (s, -ENOMEM)
  else
    match vfsSplitParent m.path [slash] with
    | none => (s, -EINVAL)
    | some (_, base) =>
      if base = [] then (s, -EINVAL)
      else if VFS_NAME_MAX ≤ base.length then (s, -ENAMETOOLONG)
      else
        let s := s.setMount id { m with name := base }
        match env.parent with
        | none => (s, -ENOENT)
        | some dir =>
          if !dir.isDir then (s, -ENOTDIR)
          else if (s.vfsFindSubmount dir base).isSome then (s, -EBUSY)
          else
            match env.lookup with
            | .found isDir => if !isDir then (s, -ENOTDIR) else (s.attach id dir, 0)
            | .absent => if !env.stubMem then (s, -ENOMEM) else (s.attach id dir, 0)
            | .failed errno => (s, -(errno + 1))

/-- `vfs_unbind_submount_locked`. -/
def vfsUnbindSubmount (id : Nat) : MountTree :=
  let m := s.mount id
  { s with
    node := fun n =>
      if m.mountpoint = some n ∧ (s.node n).mountedHere = some id then
        { s.node n with mountedHere := none }
      else s.node n
    mount := update s.mount id { m with mountpoint := none, parent := none, parentIno := 0 } }

/-! ## Publishing -/

/-- One round of the exchange sort of the pending mounts: the shallowest moves to the front. -/
def shallowest (depth : Nat → Nat) : Nat → List Nat → Nat × List Nat
  | x, [] => (x, [])
  | x, y :: ys =>
    if depth y < depth x then
      let r := shallowest depth y ys
      (r.1, x :: r.2)
    else
      let r := shallowest depth x ys
      (r.1, y :: r.2)

/-- The rounds of the sort. -/
def sortDepth (depth : Nat → Nat) : Nat → List Nat → List Nat
  | 0, l => l
  | _, [] => []
  | n + 1, x :: xs =>
    let r := shallowest depth x xs
    r.1 :: sortDepth depth n r.2

/-- The pending mounts when the root `id` has been listed. -/
def pending (id : Nat) : List Nat :=
  let found := (s.list.filter fun x => decide (x ≠ id) && (s.mount x).parent.isNone).take PENDING_MAX
  sortDepth (fun x => vfsPathDepth (s.mount x).path) found.length found

/-- Bind the pending mounts in turn, up to the first failure; `done` are those already bound, the last
one first. -/
def bindAll (env : Nat → BindEnv) : MountTree → List Nat → List Nat → MountTree × Int × List Nat
  | s, done, [] => (s, 0, done)
  | s, done, id :: ids =>
    match s.vfsBindSubmount id (env id) with
    | (s', r) => if r < 0 then (s', r, done) else bindAll env s' (id :: done) ids

/-- The root is listed, and the pending mounts are bound or everything is undone. -/
def publishRoot (id : Nat) (env : Nat → BindEnv) : MountTree × Int :=
  let s := { s with root := some id, list := id :: s.list }
  match bindAll env s [] (s.pending id) with
  | (s', r, done) =>
    if r < 0 then
      let s' := done.foldl vfsUnbindSubmount s'
      ({ s' with list := s'.list.erase id, root := none }, r)
    else (s', 0)

/-- A mount that comes before the root is listed without being bound. -/
def publishPending (id : Nat) (pathMem : Bool) : MountTree × Int :=
  if !pathMem then (s, -ENOMEM)
  else
    match vfsSplitParent (s.mount id).path [slash] with
    | none => (s, -EINVAL)
    | some (_, base) =>
      if base = [] ∨ VFS_NAME_MAX ≤ base.length then (s, -EINVAL)
      else
        let s := s.setMount id
          { s.mount id with name := base, parent := none, parentIno := 0, mountpoint := none }
        ({ s with list := id :: s.list }, 0)

/-- A mount that comes after the root is bound and listed. -/
def publishBound (id : Nat) (env : BindEnv) : MountTree × Int :=
  match s.vfsBindSubmount id env with
  | (s', r) => if r < 0 then (s', r) else ({ s' with list := id :: s'.list }, 0)

/-- `vfs_publish_mount_locked`. -/
def vfsPublishMount (id : Nat) (env : Nat → BindEnv) : MountTree × Int :=
  if (s.mount id).path = [slash] then
    if s.root.isSome then (s, -EBUSY) else s.publishRoot id env
  else if s.root = none then s.publishPending id (env id).pathMem
  else s.publishBound id (env id)

/-! ## The calls -/

/-- The outcomes that a mount call depends on. -/
structure MountEnv where
  (pathMem mountMem rootMem nameMem : Bool := true)
  /-- The error of the file system's own `mount`, if it fails. -/
  fsMount : Option Nat := none
  bind : Nat → BindEnv

/-- The new mount is allocated and published. -/
def mountNew (path : Path) (caseInsensitive : Bool) (env : MountEnv) : MountTree × Int :=
  if s.vfsHasDuplicateMountPath path then (s, -EBUSY)
  else if !env.mountMem ∨ !env.rootMem ∨ !env.nameMem then (s, -ENOMEM)
  else
    match env.fsMount with
    | some errno => (s, -(errno + 1))
    | none =>
      let id := s.mounts
      let s := { s.setMount id { path, caseInsensitive } with mounts := id + 1 }
      s.vfsPublishMount id env.bind

/-- `vfs_mount`. -/
def vfsMount (path : Path) (env : MountEnv) : MountTree × Int :=
  if path.head? ≠ some slash then (s, -EINVAL)
  else if !env.pathMem then (s, -ENOMEM)
  else s.mountNew (normalizeVfsPath path) false { env with fsMount := none }

/-- `vfs_mount_fs`. -/
def vfsMountFs (typeName path : Path) (dev : Bool) (env : MountEnv) : MountTree × Int :=
  if typeName = [] ∨ path.head? ≠ some slash then (s, -EINVAL)
  else
    match s.types.find? fun x => decide (x.name = typeName) with
    | none => (s, -ENODEV)
    | some type =>
      if type.requiresDev ∧ !dev then (s, -EINVAL)
      else if !env.pathMem then (s, -ENOMEM)
      else s.mountNew (normalizeVfsPath path) type.caseInsensitive env

end MountTree

/-- The two mount calls. -/
inductive MountEvent
  | vfsMount (path : Path) (env : MountTree.MountEnv)
  | vfsMountFs (typeName path : Path) (dev : Bool) (env : MountTree.MountEnv)

namespace MountTree

/-- The path of a call. -/
def callPath : MountEvent → Path
  | .vfsMount path _ | .vfsMountFs _ path _ _ => path

/-- A call, with its result. -/
def call (s : MountTree) : MountEvent → MountTree × Int
  | .vfsMount path env => s.vfsMount path env
  | .vfsMountFs typeName path dev env => s.vfsMountFs typeName path dev env

/-- `vfs_init`, with some registered types. -/
def init (types : List FsType) : MountTree where
  list := []
  root := none
  mount := fun _ => {}
  node := fun _ => {}
  mounts := 0
  nodes := 0
  types := types

end MountTree

end OS01.Fs
