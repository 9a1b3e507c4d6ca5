import Mathlib.Algebra.Group.Nat.Defs
import OS01.Abi
import OS01.Fs.Path
import OS01.Lib.Content
import OS01.Lib.SwapRemove

/-!
# The memory file system

The operations of `kernel/fs/tmpfs.c`. A file keeps its bytes in 4 KiB pages on a list, searched by
block number; a directory keeps its children in an array that is grown by doubling and from which an
entry is removed by moving the last one into its place. A node is released when neither a directory
nor a node of the VFS refers to it (`refcount`); here nodes are named by numbers that are not used
again, and `handles` counts the VFS nodes of each, which the operations are called with.

An operation that reaches past the end of a children array, or for a node that is released, has no
result (`none`). Whether memory is available is a parameter of each call. The reference count is a
natural number: each reference is held by an object in memory, so 32 bits do not overflow.
-/

namespace OS01.Fs

open Function Lib

/-- A page of a file. -/
structure Block where
  idx : Nat
  page : Nat → UInt8

namespace Block

/-- `tmpfs_find_block`. -/
def find (bs : List Block) (i : Nat) : Option Block := bs.find? fun b => b.idx == i

/-- The loop of `tmpfs_grow_to` over the block numbers: the pages that are missing are added, up to
the first allocation that fails. -/
def growTo (alloc : Nat → Bool) : List Block → List Nat → List Block × Bool
  | bs, [] => (bs, true)
  | bs, i :: is =>
    if (find bs i).isSome then growTo alloc bs is
    else if alloc i then growTo alloc (bs ++ [⟨i, fun _ => 0⟩]) is
    else (bs, false)

/-- `tmpfs_truncate_blocks`: block 0 is always kept. -/
def truncate (bs : List Block) (newSize : Nat) : List Block :=
  let lastKeep := if 0 < newSize then (newSize - 1) / 4096 else 0
  bs.filter fun b => decide (b.idx ≤ lastKeep)

/-- The loop of `tmpfs_vfs_read`; every round copies a byte at least. -/
def readLoop (bs : List Block) : Nat → Nat → Nat → Option (List UInt8)
  | 0, _, _ => some []
  | fuel + 1, pos, remaining =>
    if remaining = 0 then some []
    else
      match find bs (pos / 4096) with
      | none => none
      | some b =>
        let chunk := min (4096 - pos % 4096) remaining
        (readLoop bs fuel (pos + chunk) (remaining - chunk)).map fun rest =>
          ((List.range chunk).map fun i => b.page (pos % 4096 + i)) ++ rest

/-- Change the page of a block. -/
def modify (i : Nat) (f : (Nat → UInt8) → Nat → UInt8) : List Block → List Block
  | [] => []
  | b :: bs => if b.idx = i then ⟨b.idx, f b.page⟩ :: bs else b :: modify i f bs

/-- The loop of `tmpfs_vfs_write`. -/
def writeLoop : Nat → List Block → Nat → List UInt8 → List Block × Bool
  | 0, bs, _, _ => (bs, true)
  | fuel + 1, bs, pos, data =>
    if data = [] then (bs, true)
    else
      match find bs (pos / 4096) with
      | none => (bs, false)
      | some _ =>
        let chunk := min (4096 - pos % 4096) data.length
        let put := fun page => Content.overlay page (pos % 4096) (data.take chunk)
        writeLoop fuel (modify (pos / 4096) put bs) (pos + chunk) (data.drop chunk)

end Block

/-- `tmpfs_node_t`. -/
structure TmpfsNode where
  name : Path
  /-- Whether `type` is `VFS_DIR`; it is `VFS_FILE` otherwise. -/
  dir : Bool
  refcount : Nat
  size : Nat
  nlink : Nat
  parent : Option Nat
  blocks : List Block
  /-- The first `child_count` slots of the array. -/
  children : List Nat
  childCap : Nat
  /-- Whether the VFS nodes of this node carry `VFS_NODE_ORPHANED`. -/
  orphaned : Bool

/-- `TMPFS_CHILDREN_INIT_CAP`. -/
def TMPFS_CHILDREN_INIT_CAP : Nat := 8

namespace TmpfsNode

/-- A node that `tmpfs_vfs_create` makes, with one reference from its directory and one from the
VFS. -/
def newFile (name : Path) (d : Nat) : TmpfsNode :=
  { name := name, dir := false, refcount := 2, size := 0, nlink := 1, parent := some d, blocks := [],
    children := [], childCap := 0, orphaned := false }

/-- A node that `tmpfs_vfs_mkdir` makes. -/
def newDir (name : Path) (d : Nat) : TmpfsNode :=
  { name := name, dir := true, refcount := 2, size := 0, nlink := 2, parent := some d, blocks := [],
    children := [], childCap := TMPFS_CHILDREN_INIT_CAP, orphaned := false }

/-- The root of a mounted file system. -/
def root : TmpfsNode :=
  { name := [slash], dir := true, refcount := 1, size := 0, nlink := 2, parent := none, blocks := [],
    children := [], childCap := TMPFS_CHILDREN_INIT_CAP, orphaned := false }

/-- Room for one more child; `none` if the larger array cannot be allocated. -/
def reserve (n : TmpfsNode) (mem : Bool) : Option TmpfsNode :=
  if n.children.length < n.childCap then some n
  else if mem then
    some { n with childCap := if 0 < n.childCap then n.childCap * 2 else TMPFS_CHILDREN_INIT_CAP }
  else none

/-- `children[child_count++] = c`. -/
def push (n : TmpfsNode) (c : Nat) : Option TmpfsNode :=
  if n.children.length < n.childCap then some { n with children := n.children ++ [c] } else none

end TmpfsNode

/-- The nodes that are allocated, the first number that is not used yet, and the number of VFS nodes
of each. -/
structure Tmpfs where
  node : Nat → Option TmpfsNode
  next : Nat
  handles : Nat → Nat

/-- What an operation returns. -/
inductive TmpfsResult
  | node (id : Nat)
  | null
  | code (r : Int)
  /-- The result of a read, with the bytes it stored in the buffer. -/
  | data (r : Int) (bytes : List UInt8)
  /-- A directory entry; the size is not filled in for `.` and `..`. -/
  | dirent (name : Path) (dir : Bool) (size : Option Nat) (ino : Nat)
  /-- The empty name after the last entry. -/
  | done
deriving DecidableEq

/-- The conversion of a 64-bit size to `int`. -/
def toInt32 (n : Nat) : Int := (n : Int).bmod (2 ^ 32)

namespace Tmpfs

variable (s : Tmpfs)

/-- Replace a node. -/
def set (id : Nat) (n : TmpfsNode) : Tmpfs := { s with node := update s.node id (some n) }

/-- One more VFS node of a node. -/
def addHandle (id : Nat) : Tmpfs :=
  { s with handles := update s.handles id (s.handles id + 1) }

/-- Whether a child has a name. -/
def named (name : Path) (c : Nat) : Bool := (s.node c).any fun n => decide (n.name = name)

/-- `tmpfs_find_child`; `none` is -1. -/
def findChild (n : TmpfsNode) (name : Path) : Option Nat := n.children.findIdx? (s.named name)

/-- `tmpfs_node_put_locked`, and `tmpfs_destroy_node_unlocked` for the last reference. -/
def put (id : Nat) : Option Tmpfs := do
  let n ← s.node id
  if n.refcount - 1 = 0 then return { s with node := update s.node id none }
  return s.set id { n with refcount := n.refcount - 1 }

/-- Take a child out of its directory and mark it and its VFS nodes. -/
def detach (d i : Nat) : Option (Tmpfs × Nat) := do
  let n ← s.node d
  let c ← n.children[i]?
  let s := s.set d { n with children := swapRemove n.children i }
  let m ← s.node c
  return (s.set c { m with nlink := 0, parent := none, orphaned := true }, c)

/-- A new node in a directory. -/
def addChild (d : Nat) (child : TmpfsNode) (grow : Bool) : Option (Tmpfs × TmpfsResult) := do
  let n ← s.node d
  if !n.dir || n.nlink == 0 || n.orphaned || (s.findChild n child.name).isSome then
    return (s, .null)
  match n.reserve grow with
  | none => return (s, .null)
  | some n =>
    let n ← n.push s.next
    let s' := (s.set d n).set s.next child
    return ({ s' with next := s.next + 1 }.addHandle s.next, .node s.next)

/-- `tmpfs_vfs_create`. -/
def create (d : Nat) (name : Path) (mem grow : Bool) : Option (Tmpfs × TmpfsResult) :=
  if mem then s.addChild d (.newFile name d) grow else some (s, .null)

/-- `tmpfs_vfs_mkdir`. -/
def mkdir (d : Nat) (name : Path) (mem grow : Bool) : Option (Tmpfs × TmpfsResult) :=
  if mem then s.addChild d (.newDir name d) grow else some (s, .null)

/-- `tmpfs_vfs_unlink`: the type of the child is not looked at. -/
def unlink (d : Nat) (name : Path) : Option (Tmpfs × TmpfsResult) := do
  let n ← s.node d
  if !n.dir then return (s, .code (-1))
  match s.findChild n name with
  | none => return (s, .code (-1))
  | some i =>
    let (s, c) ← s.detach d i
    return (← s.put c, .code 0)

/-- `tmpfs_vfs_rmdir`: neither does this one, only whether the child has children. -/
def rmdir (d : Nat) (name : Path) : Option (Tmpfs × TmpfsResult) := do
  let n ← s.node d
  if !n.dir then return (s, .code (-1))
  match s.findChild n name with
  | none => return (s, .code (-1))
  | some i =>
    let c ← n.children[i]?
    let m ← s.node c
    if 0 < m.children.length then return (s, .code (-1))
    let (s, c) ← s.detach d i
    return (← s.put c, .code 0)

/-- The end of `tmpfs_vfs_rename`: the child at an index gets its new name and directory. An index of
-1 is `none`. -/
def move (od : Nat) (idx : Option Nat) (nd : Nat) (newname : Path) : Option Tmpfs := do
  let i ← idx
  let o ← s.node od
  let c ← o.children[i]?
  let m ← s.node c
  let s := s.set c { m with name := newname.take 255, parent := some nd }
  let o ← s.node od
  let s := s.set od { o with children := swapRemove o.children i }
  let n ← s.node nd
  let n ← n.push c
  return s.set nd n

/-- `tmpfs_vfs_rename`. The index of the source is looked up again after the target is removed from
the same directory. -/
def rename (od : Nat) (oldname : Path) (nd : Nat) (newname : Path) (grow : Bool) :
    Option (Tmpfs × TmpfsResult) := do
  let o ← s.node od
  let n ← s.node nd
  match s.findChild o oldname with
  | none => return (s, .code (-1))
  | some i =>
    match s.findChild n newname with
    | none =>
      match n.reserve grow with
      | none => return (s, .code (-1))
      | some n => return (← (s.set nd n).move od (some i) nd newname, .code 0)
    | some j =>
      let t ← n.children[j]?
      let m ← s.node t
      if m.dir && decide (0 < m.children.length) then return (s, .code (-1))
      let (s, t) ← s.detach nd j
      let o ← s.node od
      let idx := if od = nd then s.findChild o oldname else some i
      let s ← s.move od idx nd newname
      return (← s.put t, .code 0)

/-- `tmpfs_vfs_write`; `alloc` says which blocks can be allocated. -/
def write (id off : Nat) (data : List UInt8) (alloc : Nat → Bool) :
    Option (Tmpfs × TmpfsResult) :=
  if data = [] then some (s, .code 0)
  else do
    let n ← s.node id
    let endPos := off + data.length
    let lastBlk := if 0 < endPos then (endPos - 1) / 4096 else 0
    match Block.growTo alloc n.blocks (List.range (lastBlk + 1)) with
    | (bs, false) => return (s.set id { n with blocks := bs }, .code (-1))
    | (bs, true) =>
      let size := if n.size < endPos then endPos else n.size
      match Block.writeLoop data.length bs off data with
      | (bs, false) => return (s.set id { n with blocks := bs, size := size }, .code (-1))
      | (bs, true) =>
        return (s.set id { n with blocks := bs, size := size }, .code (toInt32 data.length))

/-- `tmpfs_vfs_truncate`. -/
def truncate (id newSize : Nat) : Option (Tmpfs × TmpfsResult) := do
  let n ← s.node id
  return (s.set id { n with blocks := Block.truncate n.blocks newSize, size := newSize }, .code 0)

/-- `tmpfs_vfs_read`. -/
def read (id off len : Nat) : Option (Tmpfs × TmpfsResult) :=
  if len = 0 then some (s, .data 0 [])
  else do
    let n ← s.node id
    if n.size ≤ off then return (s, .data 0 [])
    let len := if n.size < off + len then n.size - off else len
    match Block.readLoop n.blocks len off len with
    | none => return (s, .code (-1))
    | some bytes => return (s, .data (toInt32 len) bytes)

/-- `tmpfs_vfs_readdir`. -/
def readdir (d index : Nat) : Option (Tmpfs × TmpfsResult) := do
  let n ← s.node d
  if !n.dir then return (s, .code (-1))
  match index with
  | 0 => return (s, .dirent [dot] true none d)
  | 1 => return (s, .dirent [dot, dot] true none (n.parent.getD d))
  | k + 2 =>
    match n.children[k]? with
    | none => return (s, .done)
    | some c =>
      let m ← s.node c
      return (s, .dirent m.name m.dir (some m.size) c)

/-- `tmpfs_iop_lookup`. -/
def lookup (d : Nat) (name : Path) (mem : Bool) : Option (Tmpfs × TmpfsResult) :=
  if !mem then some (s, .code (-ENOMEM))
  else do
    let n ← s.node d
    if !n.dir then return (s, .code (-ENOTDIR))
    match s.findChild n name with
    | none => return (s, .code (-ENOENT))
    | some i =>
      let c ← n.children[i]?
      let m ← s.node c
      return ((s.set c { m with refcount := m.refcount + 1 }).addHandle c, .node c)

/-- `tmpfs_iop_evict_node`. -/
def evict (id : Nat) : Option (Tmpfs × TmpfsResult) := do
  let s := { s with handles := update s.handles id (s.handles id - 1) }
  return (← s.put id, .code 0)

end Tmpfs

/-- The calls. -/
inductive TmpfsEvent
  | lookup (d : Nat) (name : Path) (mem : Bool)
  | create (d : Nat) (name : Path) (mem grow : Bool)
  | mkdir (d : Nat) (name : Path) (mem grow : Bool)
  | unlink (d : Nat) (name : Path)
  | rmdir (d : Nat) (name : Path)
  | rename (od : Nat) (oldname : Path) (nd : Nat) (newname : Path) (grow : Bool)
  | write (id off : Nat) (data : List UInt8) (alloc : Nat → Bool)
  | truncate (id newSize : Nat)
  | read (id off len : Nat)
  | readdir (d index : Nat)
  | evict (id : Nat)

namespace Tmpfs

/-- One call. -/
def call (s : Tmpfs) : TmpfsEvent → Option (Tmpfs × TmpfsResult)
  | .lookup d name mem => s.lookup d name mem
  | .create d name mem grow => s.create d name mem grow
  | .mkdir d name mem grow => s.mkdir d name mem grow
  | .unlink d name => s.unlink d name
  | .rmdir d name => s.rmdir d name
  | .rename od oldname nd newname grow => s.rename od oldname nd newname grow
  | .write id off data alloc => s.write id off data alloc
  | .truncate id newSize => s.truncate id newSize
  | .read id off len => s.read id off len
  | .readdir d index => s.readdir d index
  | .evict id => s.evict id

/-- A file system that was just mounted: the root only. -/
def init : Tmpfs := ⟨update (fun _ => none) 0 (some .root), 1, fun _ => 0⟩

end Tmpfs

end OS01.Fs
