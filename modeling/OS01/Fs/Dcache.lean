import Mathlib.Algebra.Group.Nat.Defs
import OS01.Fs.Path
import OS01.Lib.Run

/-!
# The dentry cache

`kernel/fs/dcache.c`, run by any number of lookers and mutators at the granularity of the sections
under `dcache_lock`. A looker calls `dcache_lookup_begin`; on a miss it reads the directory at some
later moment and offers what it found to `dcache_insert_validated`, with the token of the miss. A
mutator calls `dcache_mutation_begin`, changes the name space, and calls
`dcache_mutation_end_invalidate` or `dcache_mutation_end_rename`.

The entries are kept as one list, the most recently used first. The hash chains are left out: an entry
is always in the chain of its own key and a chain is only searched for a key, so a search of the chain
finds what a search of the list finds. Nodes carry the object of the name space they stand for; the
name space says which object each name of each directory denotes. Reference counts of nodes and the
statistics are left out.

The fields `bumps`, `begun`, `working` and `sweeping`, and the numbers that a looker keeps beside its
token, are not in the source; the code reads none of them.
-/

namespace OS01.Fs

open Function Lib

/-- Entries of the pool. -/
def VFS_DCACHE_CAPACITY : Nat := 256

/-- A mounted file system. -/
structure Mount where
  id : Nat
  caseInsensitive : Bool := false
  noDcache : Bool := false
deriving DecidableEq, Repr

/-- A file name: it fits its buffer. -/
structure FileName where
  bytes : List UInt8
  short : bytes.length < VFS_NAME_MAX

/-- A directory node; `node` stands for its address and `ino` for `vfs_node_stable_ino`. -/
structure DirNode where
  node : Nat
  mount : Mount
  ino : Nat
  noDcache : Bool := false

/-- A child node, with the object it stands for. -/
structure ChildNode where
  node : Nat
  object : Nat
  mount : Mount
  /-- The address of the parent node. -/
  parent : Nat
  /-- `VFS_NODE_NO_DCACHE` or `VFS_NODE_MOUNT_STUB`. -/
  uncached : Bool := false
deriving DecidableEq, Repr

/-- What an entry is found by. -/
structure DKey where
  mount : Mount
  ino : Nat
  name : List UInt8
deriving DecidableEq, Repr

/-- `dcache_normalize_name`. -/
def dcacheNormalizeName (mp : Mount) (name : FileName) : List UInt8 :=
  (name.bytes.take (VFS_NAME_MAX - 1)).map fun c => if mp.caseInsensitive then toUpper c else c

/-- The key of a name in a directory. -/
def DirNode.key (dir : DirNode) (name : FileName) : DKey :=
  ⟨dir.mount, dir.ino, dcacheNormalizeName dir.mount name⟩

/-- `vfs_dcache_entry_t`. -/
structure DEntry where
  key : DKey
  child : ChildNode
deriving DecidableEq, Repr

/-- The static variables of the cache. -/
structure Dcache where
  /-- In order of use, the last used first. -/
  entries : List DEntry
  /-- `dcache_mut_gen`; 64 bits. -/
  gen : Nat
  /-- `dcache_wrap_epoch`; 64 bits. -/
  epoch : Nat
  /-- `dcache_mut_active`; 32 bits. -/
  active : Nat

namespace Dcache

variable (c : Dcache)

/-- The entry of a key. -/
def find (k : DKey) : Option DEntry := c.entries.find? fun e => decide (e.key = k)

/-- `dcache_detach_entry_locked` for the entry of a key, if there is one. -/
def detach (k : DKey) : Dcache := { c with entries := c.entries.eraseP fun e => decide (e.key = k) }

/-- Put an entry at the head of the list. -/
def pushHead (e : DEntry) : Dcache := { c with entries := e :: c.entries }

/-- `dcache_encode_token_locked`. -/
def encodeToken : Nat :=
  if c.active ≠ 0 then 0
  else
    let token := ((c.epoch <<< 48) % 2 ^ 64) ||| (c.gen % 2 ^ 48)
    if token = 0 then 1 else token

/-- `dcache_bump_gen_locked`; whether the generation wrapped. -/
def bumpGen : Dcache × Bool :=
  let gen := (c.gen + 1) % 2 ^ 64
  if gen % 2 ^ 48 = 0 then ({ c with gen := 1, epoch := (c.epoch + 1) % 2 ^ 64 }, true)
  else ({ c with gen := gen }, false)

/-- The locked section of `dcache_lookup_begin`: a hit, or a token. -/
def lookupBegin (dead : Nat → Bool) (dir : DirNode) (name : FileName) :
    Dcache × Option ChildNode × Nat :=
  if name.bytes = [] ∨ dir.noDcache ∨ dir.mount.noDcache then (c, none, 0)
  else
    let k := dir.key name
    match c.find k with
    | some e =>
      if e.child.parent = dir.node ∧ dead e.child.node = false then
        ((c.detach k).pushHead e, some e.child, 0)
      else (c.detach k, none, (c.detach k).encodeToken)
    | none => (c, none, c.encodeToken)

/-- The part of `dcache_insert_validated` after the token was found valid. -/
def insert (k : DKey) (child : ChildNode) : Dcache :=
  match c.find k with
  | some _ => (c.detach k).pushHead ⟨k, child⟩
  | none =>
    if VFS_DCACHE_CAPACITY ≤ c.entries.length then
      ({ c with entries := c.entries.dropLast }).pushHead ⟨k, child⟩
    else c.pushHead ⟨k, child⟩

/-- `dcache_insert_validated`. -/
def insertValidated (dead : Nat → Bool) (dir : DirNode) (name : FileName) (child : ChildNode)
    (token : Nat) : Dcache :=
  if name.bytes = [] ∨ token = 0 then c
  else if dir.noDcache ∨ dir.mount.noDcache ∨ child.uncached ∨ dead child.node then c
  else if child.mount ≠ dir.mount ∨ child.parent ≠ dir.node then c
  else if c.active ≠ 0 ∨ c.encodeToken = 0 ∨ c.encodeToken ≠ token ∨ dead child.node then c
  else c.insert (dir.key name) child

/-- The counter of active mutations goes up. -/
def enter : Dcache := { c with active := (c.active + 1) % 2 ^ 32 }

/-- It goes down. -/
def leave : Dcache := if 0 < c.active then { c with active := c.active - 1 } else c

/-- An iteration of `dcache_flush_all`: `none` once the list is empty. -/
def flushOne : Option Dcache :=
  match c.entries with
  | [] => none
  | _ :: es => some { c with entries := es }

/-- The entry belongs to a mount, by its directory or by its node. -/
def ofMount (mp : Mount) (e : DEntry) : Bool := decide (e.key.mount = mp) || decide (e.child.mount = mp)

/-- An iteration of `dcache_flush_mount`. -/
def flushMountOne (mp : Mount) : Option Dcache :=
  if c.entries.any (ofMount mp) then some { c with entries := c.entries.eraseP (ofMount mp) } else none

end Dcache

/-! ## Tasks -/

/-- What a mutation changes: a name, by `unlink` and the like, or names of two mounts, by `rename`. -/
inductive Target
  | name (k : DKey)
  | rename (old new : Mount)
deriving DecidableEq

/-- The names a mutation may change. -/
def Target.Covers : Target → DKey → Prop
  | .name k, k' => k' = k
  | .rename old new, k' => k'.mount = old ∨ k'.mount = new

/-- Where a task is. -/
inductive DPc
  | idle
  /-- After a miss. `issued` and `begun` say how many bumps and mutations there had been. -/
  | missed (dir : DirNode) (name : FileName) (token issued begun : Nat)
  /-- The directory was read. -/
  | found (dir : DirNode) (name : FileName) (token issued begun : Nat) (child : ChildNode)
  /-- `dcache_mutation_begin`, in `dcache_flush_all`. -/
  | beginFlush (target : Target)
  /-- Between the two calls. -/
  | changing (target : Target)
  /-- `dcache_mutation_end_rename`, in the first `dcache_flush_mount`. -/
  | flushOld (old new : Mount)
  /-- In the second one. -/
  | flushNew (old new : Mount)
  /-- Before the last section of `dcache_mutation_end_rename`. -/
  | closing (old new : Mount)
  /-- The end of a mutation, in `dcache_flush_all` after the generation wrapped. -/
  | endFlush
  /-- Before the section that counts the mutation down. -/
  | leaving

/-- The cache, the name space and the tasks. -/
structure DSystem (τ : Type*) where
  cache : Dcache
  /-- The object that each name denotes. -/
  ns : DKey → Option Nat
  /-- The nodes that are `VFS_NODE_ORPHANED` or `VFS_NODE_STALE`. -/
  dead : Nat → Bool
  pc : τ → DPc
  bumps : Nat
  /-- Mutations begun so far. -/
  begun : Nat
  /-- Tasks in a mutation whose last bump is still to come. -/
  working : List τ
  /-- Tasks in a mutation after its last bump. -/
  sweeping : List τ

/-- The steps of the tasks, and removals that anyone may make at any time. -/
inductive DEvent (τ : Type*)
  | lookup (t : τ) (dir : DirNode) (name : FileName)
  | readDir (t : τ) (child : Option ChildNode)
  | insert (t : τ)
  | mutationBegin (t : τ) (target : Target)
  | change (t : τ) (k : DKey) (object : Option Nat)
  | mutationEnd (t : τ)
  /-- The next section of a call. -/
  | advance (t : τ)
  | invalidate (k : DKey)
  | flushMount (mp : Mount)
  | mark (node : Nat)

namespace DSystem

variable {τ : Type*} [DecidableEq τ] (s : DSystem τ)

/-- Move a task. -/
def goto (t : τ) (pc : DPc) : DSystem τ := { s with pc := update s.pc t pc }

/-- Replace the cache. -/
def withCache (c : Dcache) : DSystem τ := { s with cache := c }

/-- `dcache_mutation_begin` up to the end of its locked section. -/
def mutationBegin (t : τ) (target : Target) : DSystem τ :=
  let (c, wrapped) := s.cache.enter.bumpGen
  { (s.withCache c).goto t (if wrapped then .beginFlush target else .changing target) with
    bumps := s.bumps + 1
    begun := s.begun + 1
    working := t :: s.working }

/-- The bump at the end of a mutation: it is over, or a flush follows. -/
def lastBump (t : τ) : DSystem τ :=
  let (c, wrapped) := s.cache.bumpGen
  if wrapped then
    { (s.withCache c).goto t .endFlush with
      bumps := s.bumps + 1
      working := s.working.erase t
      sweeping := t :: s.sweeping }
  else
    { (s.withCache c.leave).goto t .idle with
      bumps := s.bumps + 1
      working := s.working.erase t }

/-- The mutation is counted down after a flush. -/
def lastLeave (t : τ) : DSystem τ :=
  { (s.withCache s.cache.leave).goto t .idle with sweeping := s.sweeping.erase t }

/-- The next section of a call that has begun; `none` where a task waits for another event. -/
def advance (t : τ) : Option (DSystem τ) :=
  match s.pc t with
  | .beginFlush target =>
    some (match s.cache.flushOne with
      | some c => s.withCache c
      | none => s.goto t (.changing target))
  | .flushOld old new =>
    some (match s.cache.flushMountOne old with
      | some c => s.withCache c
      | none => s.goto t (if new = old then .closing old new else .flushNew old new))
  | .flushNew old new =>
    some (match s.cache.flushMountOne new with
      | some c => s.withCache c
      | none => s.goto t (.closing old new))
  | .closing _ _ => some (s.lastBump t)
  | .endFlush =>
    some (match s.cache.flushOne with
      | some c => s.withCache c
      | none => s.goto t .leaving)
  | .leaving => some (s.lastLeave t)
  | _ => none

/-- The steps. -/
inductive Step : DSystem τ → DEvent τ → DSystem τ → Prop
  | hit {s : DSystem τ} {t : τ} {dir : DirNode} {name : FileName} {c : Dcache} {child : ChildNode}
      {token : Nat} : s.pc t = .idle → s.cache.lookupBegin s.dead dir name = (c, some child, token) →
      Step s (.lookup t dir name) (s.withCache c)
  | miss {s : DSystem τ} {t : τ} {dir : DirNode} {name : FileName} {c : Dcache} {token : Nat} :
      s.pc t = .idle → s.cache.lookupBegin s.dead dir name = (c, none, token) →
      Step s (.lookup t dir name) ((s.withCache c).goto t (.missed dir name token s.bumps s.begun))
  /-- The directory read finds a node for the object that the name denotes at that moment. -/
  | readFound {s : DSystem τ} {t : τ} {dir : DirNode} {name : FileName} {token issued begun : Nat}
      {child : ChildNode} : s.pc t = .missed dir name token issued begun →
      s.ns (dir.key name) = some child.object →
      Step s (.readDir t (some child)) (s.goto t (.found dir name token issued begun child))
  | readNone {s : DSystem τ} {t : τ} {dir : DirNode} {name : FileName} {token issued begun : Nat} :
      s.pc t = .missed dir name token issued begun → s.ns (dir.key name) = none →
      Step s (.readDir t none) (s.goto t .idle)
  | insert {s : DSystem τ} {t : τ} {dir : DirNode} {name : FileName} {token issued begun : Nat}
      {child : ChildNode} : s.pc t = .found dir name token issued begun child →
      Step s (.insert t)
        ((s.withCache (s.cache.insertValidated s.dead dir name child token)).goto t .idle)
  | mutationBegin {s : DSystem τ} {t : τ} {target : Target} : s.pc t = .idle →
      Step s (.mutationBegin t target) (s.mutationBegin t target)
  | change {s : DSystem τ} {t : τ} {target : Target} {k : DKey} {object : Option Nat} :
      s.pc t = .changing target → target.Covers k →
      Step s (.change t k object) { s with ns := update s.ns k object }
  /-- `dcache_mutation_end_invalidate`, its first section. -/
  | endName {s : DSystem τ} {t : τ} {k : DKey} : s.pc t = .changing (.name k) →
      Step s (.mutationEnd t) ((s.withCache (s.cache.detach k)).lastBump t)
  | endRename {s : DSystem τ} {t : τ} {old new : Mount} : s.pc t = .changing (.rename old new) →
      Step s (.mutationEnd t) (s.goto t (.flushOld old new))
  | advance {s s' : DSystem τ} {t : τ} : s.advance t = some s' → Step s (.advance t) s'
  | invalidate {s : DSystem τ} {k : DKey} :
      Step s (.invalidate k) (s.withCache (s.cache.detach k))
  | flushMount {s : DSystem τ} {mp : Mount} {c : Dcache} : s.cache.flushMountOne mp = some c →
      Step s (.flushMount mp) (s.withCache c)
  | mark {s : DSystem τ} {node : Nat} :
      Step s (.mark node) { s with dead := update s.dead node true }

end DSystem

end OS01.Fs
