import OS01.Lib.Run
import OS01.Aarch64.Descriptor

/-!
# The aarch64 page table

The walker and the operations of `kernel/arch/aarch64/memory/page_table.c` on one root. A table is
addressed by its physical page, which the direct map makes a pointer, and holds 512 words. Where a walk
creates missing tables it takes pages from an allocator that may fail at any call; where it does not, the
`create` argument is `none`.

The locks, the barriers and the invalidations of the local TLB do not change the tables, and are left out.
-/

namespace OS01.Aarch64

open Function (update)

/-- The return codes. -/
inductive PtRc
  | ok | einval | eexist | enoent | enomem | econflict | eperm | eagain | eprotNone
  deriving DecidableEq, Repr

/-- The memory behind the direct map, the pages the allocator has given out, and the registry of published
roots. -/
structure Tables where
  word : Word → Nat → Word
  used : Word → Bool
  published : Word → Bool

/-- What `alloc_4k_page` may do: fail, or give a page that is not in use. -/
structure PageAllocator where
  take : (Word → Bool) → Option Word
  sound : ∀ used p, take used = some p → used p = false ∧ PageAddr p ∧ p ≠ 0

namespace Tables

/-- `p[i] = d`. -/
def store (s : Tables) (p : Word) (i : Nat) (d : Word) : Tables :=
  { s with word := update s.word p (update (s.word p) i d) }

/-- `zero_page`. -/
def zeroPage (s : Tables) (p : Word) : Tables := { s with word := update s.word p fun _ => 0 }

/-- `alloc_4k_page`. -/
def alloc4kPage (s : Tables) (alloc : PageAllocator) : Option (Word × Tables) :=
  match alloc.take s.used with
  | none => none
  | some p => some (p, { s with used := update s.used p true })

/-- `free_4k_page`. -/
def free4kPage (s : Tables) (p : Word) : Tables := { s with used := update s.used p false }

/-- The loop of `aarch64_pt_split_block_2m` that fills the table `l3` with the pages of the block `d`. -/
def fillLeaves (s : Tables) (l3 d : Word) : Nat → Tables
  | 0 => s
  | i + 1 => (s.fillLeaves l3 d i).store l3 i (splitLeaf d i)

end Tables

/-! ## Walking -/

/-- `va_canonical`. -/
def vaCanonical (va : Word) : Prop :=
  let hi := va &&& 0xffff000000000000
  hi = 0 ∨ hi = 0xffff000000000000

instance (va : Word) : Decidable (vaCanonical va) := inferInstanceAs (Decidable (_ ∨ _))

/-- `root_valid`, of the root at the physical page `root`. -/
def rootValid (root : Word) : Prop := root &&& 0xfff = 0 ∧ root < PA_LIMIT

instance (root : Word) : Decidable (rootValid root) := inferInstanceAs (Decidable (_ ∧ _))

def L0_SHIFT : Nat := 39
def L1_SHIFT : Nat := 30
def L2_SHIFT : Nat := 21
def L3_SHIFT : Nat := 12

/-- `(va >> shift) & IDX_MASK`. -/
def tableIndex (va : Word) (shift : Nat) : Nat := ((va >>> shift) &&& 0x1ff).toNat

/-- The end of `ensure_child_table`: the child that a table descriptor points to. -/
def childTable (desc : Word) : Except PtRc Word :=
  match parentPa desc with
  | none => .error .einval
  | some pa => .ok pa

/-- `ensure_child_table`. -/
def ensureChildTable (parent : Word) (index : Nat) (create : Option PageAllocator) (isL0 : Bool)
    (s : Tables) : Except PtRc Word × Tables :=
  let desc := s.word parent index
  if desc &&& DESC_VALID = 0 then
    match create with
    | none => (.error .enoent, s)
    | some alloc =>
      match s.alloc4kPage alloc with
      | none => (.error .enomem, s)
      | some (pa, s₁) =>
        let s₂ := (s₁.zeroPage pa).store parent index (encodeTableDesc pa)
        (childTable (s₂.word parent index), s₂)
  else if desc &&& DESC_TABLE = 0 then (.error (if isL0 then .einval else .econflict), s)
  else (childTable desc, s)

/-- `walk_to_l2`: the page of the level 2 table. -/
def walkToL2 (root va : Word) (create : Option PageAllocator) (s : Tables) : Except PtRc Word × Tables :=
  match ensureChildTable root (tableIndex va L0_SHIFT) create true s with
  | (.error rc, s₁) => (.error rc, s₁)
  | (.ok pud, s₁) => ensureChildTable pud (tableIndex va L1_SHIFT) create false s₁

/-- `walk_to_l3`: the page of the level 3 table. Its first two levels are those of `walk_to_l2`. -/
def walkToL3 (root va : Word) (create : Option PageAllocator) (s : Tables) : Except PtRc Word × Tables :=
  match walkToL2 root va create s with
  | (.error rc, s₁) => (.error rc, s₁)
  | (.ok pmd, s₁) =>
    match ensureChildTable pmd (tableIndex va L2_SHIFT) create false s₁ with
    | (.error rc, s₂) => (.error rc, s₂)
    | (.ok pte, s₂) =>
      let leaf := s₂.word pte (tableIndex va L3_SHIFT)
      if leaf &&& DESC_VALID ≠ 0 ∧ leaf &&& DESC_TABLE = 0 then (.error .einval, s₂)
      else (.ok pte, s₂)

/-- `read_leaf`, which every caller calls without `create`: the level 3 table, the descriptor and the kind
of slot it is. -/
def readLeaf (root va : Word) (s : Tables) : Except PtRc (Word × Word × PtRc) :=
  if ¬ vaCanonical va then .error .einval
  else if va &&& 0xfff ≠ 0 then .error .einval
  else
    match (walkToL3 root va none s).1 with
    | .error rc => .error rc
    | .ok pte =>
      let desc := s.word pte (tableIndex va L3_SHIFT)
      if desc &&& DESC_VALID ≠ 0 then
        match decodePerm desc with
        | none => .error .einval
        | some _ => .ok (pte, desc, .ok)
      else if desc &&& SOFTWARE_PROTNONE ≠ 0 then .ok (pte, desc, .eprotNone)
      else .ok (pte, desc, .enoent)

/-! ## Operations -/

/-- What an operation returns: its code, and what it writes through its pointers where it does. -/
structure Result where
  rc : PtRc
  pa : Option Word
  perm : Option Perm
  sw : Option Word
  deriving DecidableEq, Repr

/-- A code and nothing written. -/
def Result.code (rc : PtRc) : Result := ⟨rc, none, none, none⟩

/-- The values that are written for the leaf `desc` of kind `kind`; `none` where it cannot be decoded. -/
def leafValues (desc : Word) (kind : PtRc) : Option (Word × Perm × Word) :=
  if kind = .eprotNone then some (desc &&& PA_MASK, 0, SOFTWARE_PROTNONE)
  else
    match decodePerm desc with
    | none => none
    | some (perm, sw) => some (desc &&& PA_MASK, perm, sw)

/-- The code `rc` with the values `v` written. -/
def Result.values (rc : PtRc) (v : Word × Perm × Word) : Result := ⟨rc, some v.1, some v.2.1, some v.2.2⟩

/-- `aarch64_pt_map_4k_ext`. -/
def map4kExt (root va pa : Word) (perm : Perm) (softwareBits : Word) (alloc : PageAllocator)
    (s : Tables) : Result × Tables :=
  if ¬ rootValid root then (.code .einval, s)
  else if ¬ vaCanonical va then (.code .einval, s)
  else if va &&& 0xfff ≠ 0 then (.code .einval, s)
  else if pa &&& 0xfff ≠ 0 then (.code .einval, s)
  else if PA_LIMIT ≤ pa then (.code .einval, s)
  else
    match buildLeafDesc pa perm softwareBits with
    | none => (.code .einval, s)
    | some desc =>
      match walkToL3 root va (some alloc) s with
      | (.error rc, s₁) => (.code rc, s₁)
      | (.ok pte, s₁) =>
        let l3 := tableIndex va L3_SHIFT
        if s₁.word pte l3 &&& DESC_VALID ≠ 0 then (.code .eexist, s₁)
        else if s₁.word pte l3 &&& SOFTWARE_PROTNONE ≠ 0 then (.code .eexist, s₁)
        else (.code .ok, s₁.store pte l3 desc)

/-- `aarch64_pt_query_4k_ext`. -/
def query4kExt (root va : Word) (s : Tables) : Result :=
  if ¬ rootValid root then .code .einval
  else
    match readLeaf root va s with
    | .error rc => .code rc
    | .ok (_, desc, kind) =>
      if kind = .enoent then .code .enoent
      else
        match leafValues desc kind with
        | none => .code .einval
        | some v => .values kind v

/-- `aarch64_pt_unmap_4k_ext`. -/
def unmap4kExt (root va : Word) (s : Tables) : Result × Tables :=
  if ¬ rootValid root then (.code .einval, s)
  else
    match readLeaf root va s with
    | .error rc => (.code rc, s)
    | .ok (pte, desc, kind) =>
      if kind = .enoent then (.code .enoent, s)
      else
        match leafValues desc kind with
        | none => (.code .einval, s)
        | some v => (.values kind v, s.store pte (tableIndex va L3_SHIFT) 0)

/-- `aarch64_pt_replace_4k`. -/
def replace4k (root va pa : Word) (perm : Perm) (softwareBits : Word) (s : Tables) : Result × Tables :=
  if ¬ rootValid root then (.code .einval, s)
  else if ¬ vaCanonical va then (.code .einval, s)
  else if va &&& 0xfff ≠ 0 then (.code .einval, s)
  else if PA_LIMIT ≤ pa then (.code .einval, s)
  else
    match buildLeafDesc pa perm softwareBits with
    | none => (.code .einval, s)
    | some newDesc =>
      match readLeaf root va s with
      | .error rc => (.code rc, s)
      | .ok (pte, oldDesc, kind) =>
        if kind = .enoent then (.code .enoent, s)
        else
          match leafValues oldDesc kind with
          | none => (.code .einval, s)
          | some old =>
            let l3 := tableIndex va L3_SHIFT
            let samePa := old.1 == pa
            let sameAttr := oldDesc &&& (0x7 <<< 2) == newDesc &&& (0x7 <<< 2)
            let sameValid := (kind != .eprotNone) == (softwareBits &&& SOFTWARE_PROTNONE == 0)
            if samePa && sameAttr && sameValid then
              (.values .ok old, s.store pte l3 newDesc)
            else
              -- break before make
              (.values .ok old, (s.store pte l3 0).store pte l3 newDesc)

/-- `aarch64_pt_map_2m_block`. -/
def map2mBlock (root va pa : Word) (perm : Perm) (alloc : PageAllocator) (s : Tables) : Result × Tables :=
  if ¬ rootValid root then (.code .einval, s)
  else if ¬ vaCanonical va then (.code .einval, s)
  else if va &&& 0x1fffff ≠ 0 then (.code .einval, s)
  else if pa &&& 0x1fffff ≠ 0 then (.code .einval, s)
  else if PA_LIMIT ≤ pa then (.code .einval, s)
  else
    match encodePerm perm with
    | none => (.code .einval, s)
    | some _ =>
      let desc := encodeBlockDesc pa perm 0
      match walkToL2 root va (some alloc) s with
      | (.error rc, s₁) => (.code rc, s₁)
      | (.ok pmd, s₁) =>
        let l2 := tableIndex va L2_SHIFT
        let cur := s₁.word pmd l2
        if cur &&& DESC_VALID ≠ 0 ∨ cur &&& SOFTWARE_PROTNONE ≠ 0 then (.code .eexist, s₁)
        else (.code .ok, s₁.store pmd l2 desc)

/-- `aarch64_pt_unmap_2m_block`. -/
def unmap2mBlock (root va : Word) (s : Tables) : Result × Tables :=
  if ¬ rootValid root then (.code .einval, s)
  else if ¬ vaCanonical va then (.code .einval, s)
  else if va &&& 0x1fffff ≠ 0 then (.code .einval, s)
  else
    match (walkToL2 root va none s).1 with
    | .error rc => (.code rc, s)
    | .ok pmd =>
      let l2 := tableIndex va L2_SHIFT
      let desc := s.word pmd l2
      if desc &&& DESC_VALID = 0 then (.code .enoent, s)
      else if desc &&& DESC_TABLE ≠ 0 then (.code .einval, s)
      else (⟨.ok, some (desc &&& BLOCK_OA_MASK), none, none⟩, s.store pmd l2 0)

/-- `aarch64_pt_split_block_2m`. -/
def splitBlock2m (root va : Word) (alloc : PageAllocator) (s : Tables) : Result × Tables :=
  if ¬ rootValid root then (.code .einval, s)
  else if ¬ vaCanonical va then (.code .einval, s)
  else if va &&& 0x1fffff ≠ 0 then (.code .einval, s)
  else if s.published root then (.code .eperm, s)
  else
    match s.alloc4kPage alloc with
    | none => (.code .enomem, s)
    | some (l3Pa, s₀) =>
      let s₁ := s₀.zeroPage l3Pa
      match (walkToL2 root va none s₁).1 with
      | .error rc => (.code rc, s₁.free4kPage l3Pa)
      | .ok pmd =>
        let l2 := tableIndex va L2_SHIFT
        let d := s₁.word pmd l2
        if d &&& DESC_VALID = 0 then (.code .enoent, s₁.free4kPage l3Pa)
        else if d &&& DESC_TABLE ≠ 0 then (.code .eagain, s₁.free4kPage l3Pa)
        else (.code .ok, (s₁.fillLeaves l3Pa d 512).store pmd l2 (encodeTableDesc l3Pa))

/-- A call of one of the operations. -/
inductive PtCall
  | map4k (va pa : Word) (perm : Perm) (sw : Word)
  | replace4k (va pa : Word) (perm : Perm) (sw : Word)
  | unmap4k (va : Word)
  | map2m (va pa : Word) (perm : Perm)
  | unmap2m (va : Word)
  | split (va : Word)

/-- The call on the tables of `root`. -/
def PtCall.run (root : Word) (alloc : PageAllocator) (s : Tables) : PtCall → Result × Tables
  | .map4k va pa perm sw => map4kExt root va pa perm sw alloc s
  | .replace4k va pa perm sw => Aarch64.replace4k root va pa perm sw s
  | .unmap4k va => unmap4kExt root va s
  | .map2m va pa perm => map2mBlock root va pa perm alloc s
  | .unmap2m va => unmap2mBlock root va s
  | .split va => splitBlock2m root va alloc s

/-- A call and what it returned, with the allocator's answers. -/
structure PtEvent where
  call : PtCall
  alloc : PageAllocator
  result : Result

/-- The calls as steps. -/
def ptStep (root : Word) (s : Tables) (e : PtEvent) (s' : Tables) : Prop :=
  e.call.run root e.alloc s = (e.result, s')

end OS01.Aarch64
