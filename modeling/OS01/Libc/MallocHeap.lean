import OS01.Libc.Malloc

/-!
# The blocks of the heap

What the allocator's stores do to the blocks. Two headers lie at one place or apart (`Separate`), so that a store into
one is not seen in another; from this follow what taking a block, extending the heap and freeing a block do to the blocks
and to the free list (`Holds.takeBlock`, `Holds.extend`, `Holds.free`). Each of them leaves alone the bytes behind the
headers of the other blocks in use.
-/

namespace OS01.Libc

open List Lib Memory Mem

/-- Two headers with their links: at one place, or apart. -/
def Separate (a b : Nat) : Prop := a = b ∨ a + 24 ≤ b ∨ b + 24 ≤ a

/-- Being separate is symmetric. -/
lemma Separate.symm {a b : Nat} (h : Separate a b) : Separate b a := by
  unfold Separate at h ⊢
  omega

namespace Heap

variable {h : Heap} {a b x v prev total : Nat}

/-! ## Stores into a header -/

/-- A field reads back what was stored in it. -/
lemma read_stored {k : Nat} (hv : v < 256 ^ k) : leNat ((h.mem.write a (leBytes k v)).read a k) = v := by
  have hr := h.mem.read_write_self a (leBytes k v)
  rw [length_leBytes] at hr
  rw [hr, leNat_leBytes]
  exact Nat.mod_eq_of_lt hv

/-- A store leaves the fields elsewhere as they are. -/
lemma read_apart {k n : Nat} (hab : b + n ≤ a ∨ a + k ≤ b) :
    (h.mem.write a (leBytes k v)).read b n = h.mem.read b n :=
  read_write_disjoint _ _ _ _ _ (by rwa [length_leBytes])

section

variable (hs : a = b ∨ a + 24 ≤ b ∨ b + 24 ≤ a)
include hs

/-- The size of a block, after a store of a size. -/
lemma size_setSize (hv : v < 2 ^ 64) : (h.setSize a v).size b = if a = b then v else h.size b := by
  unfold size setSize
  split_ifs with hab
  · rw [← hab, read_stored hv]
  · rw [read_apart (by omega)]

/-- A store of a free flag changes no size. -/
lemma size_setFree : (h.setFree a v).size b = h.size b := by
  unfold size setFree
  rw [read_apart (by omega)]

/-- A store of a link changes no size. -/
lemma size_setNext : (h.setNext a v).size b = h.size b := by
  unfold size setNext
  rw [read_apart (by omega)]

/-- A store of a size changes no free flag. -/
lemma isFree_setSize : (h.setSize a v).isFree b = h.isFree b := by
  unfold isFree setSize
  rw [read_apart (by omega)]

/-- The free flag of a block, after a store of one. -/
lemma isFree_setFree (hv : v < 2 ^ 32) :
    (h.setFree a v).isFree b = if a = b then decide (v ≠ 0) else h.isFree b := by
  unfold isFree setFree
  split_ifs with hab
  · rw [← hab, read_stored hv]
  · rw [read_apart (by omega)]

/-- A store of a link changes no free flag. -/
lemma isFree_setNext : (h.setNext a v).isFree b = h.isFree b := by
  unfold isFree setNext
  rw [read_apart (by omega)]

/-- A store of a size changes no link. -/
lemma next_setSize : (h.setSize a v).next b = h.next b := by
  unfold next setSize
  rw [read_apart (by omega)]

/-- A store of a free flag changes no link. -/
lemma next_setFree : (h.setFree a v).next b = h.next b := by
  unfold next setFree
  rw [read_apart (by omega)]

/-- The link of a block, after a store of one. -/
lemma next_setNext (hv : v < 2 ^ 64) : (h.setNext a v).next b = if a = b then v else h.next b := by
  unfold next setNext
  split_ifs with hab
  · rw [← hab, read_stored hv]
  · rw [read_apart (by omega)]

end

section

variable (hx : x < a ∨ a + 24 ≤ x)
include hx

/-- A store of a size stays in the header. -/
lemma mem_setSize : (h.setSize a v).mem x = h.mem x := write_outside _ _ _ (by rw [length_leBytes]; omega)

/-- A store of a free flag stays in the header. -/
lemma mem_setFree : (h.setFree a v).mem x = h.mem x := write_outside _ _ _ (by rw [length_leBytes]; omega)

/-- A store of a link stays in the header. -/
lemma mem_setNext : (h.setNext a v).mem x = h.mem x := write_outside _ _ _ (by rw [length_leBytes]; omega)

end

/-! ## Links -/

/-- Linking leaves the start of the heap alone. -/
@[simp] lemma link_start : (h.link prev x).start = h.start := by unfold link; split <;> rfl

/-- Linking leaves the break alone. -/
@[simp] lemma link_brk : (h.link prev x).brk = h.brk := by unfold link; split <;> rfl

/-- Linking leaves the flag of the heap alone. -/
@[simp] lemma link_initialized : (h.link prev x).initialized = h.initialized := by unfold link; split <;> rfl

/-- The head of the free list changes where there is no block before. -/
lemma link_freelist : (h.link prev x).freelist = if prev = 0 then x else h.freelist := by
  unfold link
  split <;> rfl

section

variable (hs : prev ≠ 0 → Separate prev b)
include hs

/-- Linking changes no size. -/
lemma size_link : (h.link prev x).size b = h.size b := by
  unfold link
  split_ifs with hp
  · rfl
  · exact size_setNext (hs hp)

/-- Linking changes no free flag. -/
lemma isFree_link : (h.link prev x).isFree b = h.isFree b := by
  unfold link
  split_ifs with hp
  · rfl
  · exact isFree_setNext (hs hp)

/-- Linking changes the link of the block before. -/
lemma next_link (hx : x < 2 ^ 64) : (h.link prev x).next b = if prev ≠ 0 ∧ prev = b then x else h.next b := by
  unfold link
  split_ifs with hp hb hb
  · exact absurd hp hb.1
  · rfl
  · rw [next_setNext (hs hp) hx, if_pos hb.2]
  · rw [next_setNext (hs hp) hx, if_neg fun heq => hb ⟨hp, heq⟩]

end

/-- Linking stays in the header of the block before. -/
lemma mem_link {y : Nat} (hy : prev ≠ 0 → y < prev ∨ prev + 24 ≤ y) : (h.link prev x).mem y = h.mem y := by
  unfold link
  split_ifs with hp
  · rfl
  · exact mem_setNext (hy hp)

/-- A link has 64 bits. -/
lemma next_lt (h : Heap) (a : Nat) : h.next a < 2 ^ 64 := by
  have hlt := leNat_lt (h.mem.read (a + 16) 8)
  rw [length_read] at hlt
  exact hlt

/-- Taking a block leaves the start of the heap alone. -/
@[simp] lemma takeBlock_start (total prev block : Nat) : (h.takeBlock total prev block).start = h.start := by
  rw [takeBlock]
  split_ifs <;> simp

/-- Taking a block leaves the break alone. -/
@[simp] lemma takeBlock_brk (total prev block : Nat) : (h.takeBlock total prev block).brk = h.brk := by
  rw [takeBlock]
  split_ifs <;> simp

/-- Taking a block leaves the flag of the heap alone. -/
@[simp] lemma takeBlock_initialized (total prev block : Nat) :
    (h.takeBlock total prev block).initialized = h.initialized := by
  rw [takeBlock]
  split_ifs <;> simp

/-- The headers after a block is split. -/
lemma takeBlock_split {block remain : Nat} (hsz : h.size block = total + remain) (hlt : total + remain < 2 ^ 64)
    (hrem : MIN_BLOCK_SIZE ≤ remain) (hnew : Separate block (block + total)) (hb : Separate block b)
    (hb' : Separate (block + total) b) (hp : prev ≠ 0 → Separate prev b) (ha : block + total < 2 ^ 64) :
    (h.takeBlock total prev block).size b =
        (if block = b then total else if block + total = b then remain else h.size b) ∧
      (h.takeBlock total prev block).isFree b =
        (if block = b then false else if block + total = b then true else h.isFree b) ∧
      (h.takeBlock total prev block).next b =
        (if prev ≠ 0 ∧ prev = b then block + total else if block + total = b then h.next block else h.next b) ∧
      (h.takeBlock total prev block).freelist = if prev = 0 then block + total else h.freelist := by
  have hrem' : h.size block - total = remain := by omega
  rw [takeBlock, hrem']
  rw [if_pos hrem]
  refine ⟨?_, ?_, ?_, by simp [link_freelist]⟩
  · rw [size_setFree hb, size_link hp, size_setSize hb (by omega), size_setNext hb', size_setFree hb',
      size_setSize hb' (by omega)]
  · rw [isFree_setFree hb (by decide), isFree_link hp, isFree_setSize hb, isFree_setNext hb',
      isFree_setFree hb' (by decide), isFree_setSize hb']
    rfl
  · rw [next_setFree hb, next_link hp ha, next_setSize hb, next_setNext hb' (next_lt _ _),
      next_setFree hb', next_setSize hb', next_setFree hnew.symm, next_setSize hnew.symm]

/-- Taking a block stays in it and in the header of the block before. -/
lemma mem_takeBlock {block y : Nat} (hsz : 24 ≤ h.size block) (hy : y < block ∨ block + h.size block ≤ y)
    (hp : prev ≠ 0 → y < prev ∨ prev + 24 ≤ y) : (h.takeBlock total prev block).mem y = h.mem y := by
  have hblk : y < block ∨ block + 24 ≤ y := by omega
  rw [takeBlock]
  split_ifs with hrem
  · unfold MIN_BLOCK_SIZE at hrem
    have hnew : y < block + total ∨ block + total + 24 ≤ y := by omega
    rw [mem_setFree hblk, mem_link hp, mem_setSize hblk, mem_setNext hnew, mem_setFree hnew, mem_setSize hnew]
  · rw [mem_setFree hblk, mem_link hp]

/-- The bytes behind the headers of these blocks in use are the same in both heaps. -/
def Kept (h h' : Heap) (bs : List HeapBlock) : Prop :=
  ∀ c ∈ bs, c.free = false → ∀ x, c.addr + HEADER_SIZE ≤ x → x < c.addr + c.size → h'.mem x = h.mem x

/-! ## Blocks in memory -/

namespace Holds

variable {h' : Heap} {bs xs ys mid new : List HeapBlock} {order order' pre rest : List Nat} {b c : HeapBlock}

section

variable (hh : h.Holds bs order)
include hh

/-- The headers of two blocks are separate. -/
lemma separate (hb : b ∈ bs) (hc : c ∈ bs) : Separate b.addr c.addr := by
  have hbsize := (hh.sizes b hb).1
  have hcsize := (hh.sizes c hc).1
  unfold MIN_BLOCK_SIZE at hbsize hcsize
  obtain rfl | hlt | hlt := hh.tiles.apart hb hc
  · exact .inl rfl
  · exact .inr (.inl (by omega))
  · exact .inr (.inr (by omega))

/-- No block is at address 0. -/
lemma addr_pos (hb : b ∈ bs) : 0 < b.addr := hh.room.1.trans_le (hh.tiles.bounds hb).1

/-- Every block ends below the limit of the heap. -/
lemma end_le (hb : b ∈ bs) : b.addr + b.size ≤ HEAP_LIMIT := (hh.tiles.bounds hb).2.trans hh.room.2

/-- A node of the free list is a free block. -/
lemma node (ha : a ∈ order) : ∃ b ∈ bs, b.free = true ∧ b.addr = a := (hh.exact a).1 ha

end

/-- The other blocks are still there when some are replaced. -/
lemma stays (hc : c ∈ xs ++ ys) : c ∈ xs ++ mid ++ ys := by
  rcases mem_append.1 hc with hc | hc <;> simp [hc]

/-- The blocks that replace others are there. -/
lemma middle (hb : b ∈ mid) : b ∈ xs ++ mid ++ ys := by simp [hb]

/-- Blocks on both sides have other addresses than those in the middle. -/
lemma addr_ne (hh : h.Holds (xs ++ mid ++ ys) order) (hb : b ∈ mid) (hc : c ∈ xs ++ ys) : b.addr ≠ c.addr := by
  have hp := hh.tiles.pos (middle hb)
  have hps := hh.tiles.pos (stays hc)
  obtain hc | hc := mem_append.1 hc
  · have htil := hh.tiles
    rw [append_assoc] at htil
    have := htil.ordered hc (mem_append_left ys hb)
    omega
  · have := hh.tiles.ordered (mem_append_right xs hb) hc
    omega

/-- **Some neighbours are exchanged** for others, which have their headers, and the free list is right again. -/
theorem exchange (hh : h.Holds (xs ++ mid ++ ys) order) (hst : h'.start = h.start) (hbrk : h'.brk = h.brk)
    (hi : h'.initialized = true)
    (htil : ∀ p q, Tiles HeapBlock.addr HeapBlock.size p mid q → Tiles HeapBlock.addr HeapBlock.size p new q)
    (hsizes : ∀ c ∈ new, MIN_BLOCK_SIZE ≤ c.size ∧ MALLOC_ALIGN ∣ c.size)
    (hsm : ∀ c ∈ xs ++ ys, h'.size c.addr = h.size c.addr ∧ h'.isFree c.addr = h.isFree c.addr)
    (hnew : ∀ c ∈ new, h'.size c.addr = c.size ∧ h'.isFree c.addr = c.free)
    (hl : IsList h'.next h'.freelist order') (hnd : order'.Nodup)
    (hex : ∀ a, a ∈ order' ↔ (a ∈ order ∧ ∀ c ∈ mid, c.addr ≠ a) ∨ ∃ c ∈ new, c.free = true ∧ c.addr = a) :
    h'.Holds (xs ++ new ++ ys) order' where
  tiles := by
    rw [hst, hbrk]
    exact hh.tiles.replace htil
  sizes := by
    intro c hc
    obtain hc | hc := mem_append.1 hc
    · obtain hc | hc := mem_append.1 hc
      · exact hh.sizes c (by simp [hc])
      · exact hsizes c hc
    · exact hh.sizes c (by simp [hc])
  headers := by
    have hold : ∀ c ∈ xs ++ ys, h'.size c.addr = c.size ∧ h'.isFree c.addr = c.free := by
      intro c hc
      obtain ⟨hsz, hf⟩ := hsm c hc
      rw [hsz, hf]
      exact hh.headers c (stays hc)
    intro c hc
    obtain hc | hc := mem_append.1 hc
    · obtain hc | hc := mem_append.1 hc
      · exact hold c (mem_append_left _ hc)
      · exact hnew c hc
    · exact hold c (mem_append_right _ hc)
  list := hl
  nodup := hnd
  exact := by
    intro a
    rw [hex, hh.exact]
    constructor
    · rintro (⟨⟨b, hb, hf, rfl⟩, hmid⟩ | ⟨c, hc, hf, rfl⟩)
      · have hb' : b ∉ mid := fun hb' => hmid b hb' rfl
        simp only [mem_append] at hb ⊢
        exact ⟨b, by tauto, hf, rfl⟩
      · exact ⟨c, by simp [hc], hf, rfl⟩
    rintro ⟨b, hb, hf, rfl⟩
    simp only [mem_append] at hb
    by_cases hbn : b ∈ new
    · exact .inr ⟨b, hbn, hf, rfl⟩
    have hb' : b ∈ xs ++ ys := by
      rw [mem_append]
      tauto
    refine .inl ⟨⟨b, ?_, hf, rfl⟩, fun c hc => hh.addr_ne hc hb'⟩
    simp only [mem_append]
    tauto
  aligned := hst ▸ hh.aligned
  room := by
    rw [hst, hbrk]
    exact hh.room
  fresh := fun hno => absurd (hi.symm.trans hno) (by decide)

/-- The node in front of a place in the free list is a free block. -/
lemma before (hh : h.Holds bs (pre ++ rest)) (hne : lastNode pre ≠ 0) :
    lastNode pre ∈ pre ∧ ∃ b ∈ bs, b.free = true ∧ b.addr = lastNode pre := by
  have hmem : lastNode pre ∈ pre := lastNode_mem fun hnil => hne (by rw [hnil, lastNode_nil])
  exact ⟨hmem, hh.node (mem_append_left _ hmem)⟩

/-- The node in front of a place in the free list is separate from every block. -/
lemma separate_before (hh : h.Holds bs (pre ++ rest)) (hc : c ∈ bs) (hne : lastNode pre ≠ 0) :
    Separate (lastNode pre) c.addr := by
  obtain ⟨-, b, hb, -, ha⟩ := hh.before hne
  exact ha ▸ hh.separate hb hc

/-- The free list, after one link in it was set. -/
lemma relink (hh : h.Holds bs (pre ++ a :: rest)) {rest' : List Nat}
    (hfreelist : h'.freelist = if lastNode pre = 0 then x else h.freelist)
    (hn : ∀ c ∈ pre ++ rest, h'.next c = if lastNode pre ≠ 0 ∧ lastNode pre = c then x else h.next c)
    (hx : IsList h'.next (h.next a) rest → IsList h'.next x rest') :
    IsList h'.next h'.freelist (pre ++ rest') := by
  obtain ⟨hpre, -, hdj⟩ := nodup_append.1 hh.nodup
  have hr : IsList h'.next (h.next a) rest := by
    refine hh.list.behind.congr fun c hc => ?_
    rw [hn c (mem_append_right _ hc), if_neg]
    rintro ⟨hne, rfl⟩
    exact hdj _ (hh.before hne).1 _ (mem_cons_of_mem _ hc) rfl
  rw [hfreelist]
  refine hh.list.relink hpre (hx hr) ?_ ?_
  · intro c hc hne
    rw [hn c (mem_append_left _ hc), if_neg fun heq => hne heq.2.symm]
  · intro hne
    have hmem := lastNode_mem hne
    rw [hn _ (mem_append_left _ hmem), if_pos]
    exact ⟨hh.list.ne_zero (mem_append_left _ hmem), rfl⟩

/-! ## Taking a block -/

/-- A byte of a block in use is not in the header of a free block. -/
lemma outside (hh : h.Holds bs order) (hb : b ∈ bs) (hf : b.free = true) (hc : c ∈ bs) (hu : c.free = false)
    (hlow : c.addr + HEADER_SIZE ≤ x) (hhg : x < c.addr + c.size) : x < b.addr ∨ b.addr + b.size ≤ x := by
  obtain rfl | hlt | hlt := hh.tiles.apart hb hc
  · rw [hf] at hu
    cases hu
  · exact .inr (by omega)
  · exact .inl (by omega)

/-- Taking the whole block. -/
lemma takeWhole (hh : h.Holds (xs ++ [b] ++ ys) (pre ++ b.addr :: rest)) (hi : h.initialized = true) :
    ((h.link (lastNode pre) (h.next b.addr)).setFree b.addr 0).Holds
      (xs ++ [⟨b.addr, b.size, false⟩] ++ ys) (pre ++ rest) := by
  have hb : b ∈ xs ++ [b] ++ ys := middle (mem_singleton_self b)
  have hsep := hh.separate hb hb
  obtain ⟨hnot, hnd⟩ := nodup_cons.1 (perm_middle.nodup_iff.1 hh.nodup)
  refine hh.exchange (by simp) (by simp) (by simpa using hi) ?_ ?_ ?_ ?_ ?_ hnd ?_
  · intro p q htil
    exact htil
  · intro c hc
    rw [mem_singleton.1 hc]
    exact hh.sizes b hb
  · intro c hc
    have hsep := hh.separate hb (stays hc)
    rw [size_setFree hsep, size_link (hh.separate_before (stays hc)), isFree_setFree hsep (by decide),
      if_neg (hh.addr_ne (mem_singleton_self b) hc), isFree_link (hh.separate_before (stays hc))]
    exact ⟨rfl, rfl⟩
  · intro c hc
    rw [mem_singleton.1 hc, size_setFree hsep, size_link (hh.separate_before hb),
      isFree_setFree hsep (by decide), if_pos rfl]
    exact ⟨(hh.headers b hb).1, rfl⟩
  · refine hh.relink (by simp [link_freelist]) (fun c hc => ?_) id
    obtain ⟨d, hd, -, rfl⟩ := hh.node (perm_middle.mem_iff.2 (mem_cons_of_mem _ hc))
    rw [next_setFree (hh.separate hb hd), next_link (hh.separate_before hd) (h.next_lt _)]
  · intro a
    rw [perm_middle.mem_iff, mem_cons]
    simp only [mem_singleton, forall_eq, exists_eq_left, Bool.false_eq_true, false_and, or_false]
    constructor
    · intro ha
      exact ⟨.inr ha, fun heq => hnot (heq ▸ ha)⟩
    · rintro ⟨rfl | ha, hne⟩
      · exact absurd rfl hne
      · exact ha

/-- Taking the front of a block, and keeping the rest as a free block in its place of the free list. -/
lemma takeFront (hh : h.Holds (xs ++ [b] ++ ys) (pre ++ b.addr :: rest)) (hi : h.initialized = true)
    (htot : MIN_BLOCK_SIZE ≤ total ∧ MALLOC_ALIGN ∣ total) (hrem : MIN_BLOCK_SIZE ≤ b.size - total) :
    (h.takeBlock total (lastNode pre) b.addr).Holds
      (xs ++ [⟨b.addr, total, false⟩, ⟨b.addr + total, b.size - total, true⟩] ++ ys)
      (pre ++ (b.addr + total) :: rest) := by
  have hb : b ∈ xs ++ [b] ++ ys := middle (mem_singleton_self b)
  obtain ⟨hnot, hnd⟩ := nodup_cons.1 (perm_middle.nodup_iff.1 hh.nodup)
  have hlim := hh.end_le hb
  have hlimit64 : HEAP_LIMIT < 2 ^ 64 := by decide
  have hmin : MIN_BLOCK_SIZE = 32 := rfl
  have hsizeb : h.size b.addr = total + (b.size - total) := by
    rw [(hh.headers b hb).1]
    omega
  have hbn : Separate b.addr (b.addr + total) := .inr (.inl (by omega))
  -- the new header lies inside the block
  have hins : ∀ c ∈ xs ++ [b] ++ ys, Separate (b.addr + total) c.addr ∧ b.addr + total ≠ c.addr := by
    intro c hc
    obtain rfl | hlt | hlt := hh.tiles.apart hb hc
    · exact ⟨hbn.symm, by omega⟩
    · exact ⟨.inr (.inl (by omega)), by omega⟩
    · exact ⟨.inr (.inr (by omega)), by omega⟩
  have hpr : lastNode pre ≠ 0 → Separate (lastNode pre) (b.addr + total) ∧ lastNode pre ≠ b.addr + total := by
    intro hne
    obtain ⟨-, p, hp, -, had⟩ := hh.before hne
    obtain ⟨hsep, hne'⟩ := hins p hp
    rw [← had]
    exact ⟨hsep.symm, hne'.symm⟩
  have hbl : ∀ c ∈ xs ++ [b] ++ ys, _ := fun c hc =>
    takeBlock_split hsizeb (by omega) hrem hbn (hh.separate hb hc) (hins c hc).1 (hh.separate_before hc)
      (by omega)
  obtain ⟨hnewsize, hnewfree, hnewnext, hfreelist⟩ := takeBlock_split hsizeb (by omega) hrem hbn hbn (.inl rfl)
    (fun hne => (hpr hne).1) (by omega)
  refine hh.exchange (by simp) (by simp) (by simpa using hi) ?_ ?_ ?_ ?_ ?_ ?_ ?_
  · rintro p q ⟨rfl, -, hend⟩
    have hend : b.addr + b.size = q := hend
    exact ⟨rfl, by dsimp only; omega, rfl, by dsimp only; omega, by dsimp only [Tiles]; omega⟩
  · intro c hc
    obtain rfl | hc := mem_cons.1 hc
    · exact htot
    · rw [mem_singleton.1 hc]
      exact ⟨hrem, Nat.dvd_sub (hh.sizes b hb).2 htot.2⟩
  · intro c hc
    obtain ⟨hsz, hf, -⟩ := hbl c (stays hc)
    have hne := hh.addr_ne (mem_singleton_self b) hc
    rw [hsz, hf, if_neg hne, if_neg hne, if_neg (hins c (stays hc)).2, if_neg (hins c (stays hc)).2]
    exact ⟨rfl, rfl⟩
  · intro c hc
    obtain rfl | hc := mem_cons.1 hc
    · obtain ⟨hsz, hf, -⟩ := hbl b hb
      rw [hsz, hf, if_pos rfl, if_pos rfl]
      exact ⟨rfl, rfl⟩
    · have hne : b.addr ≠ b.addr + total := by omega
      rw [mem_singleton.1 hc, hnewsize, hnewfree, if_neg hne, if_neg hne, if_pos rfl, if_pos rfl]
      exact ⟨rfl, rfl⟩
  · refine hh.relink hfreelist (fun c hc => ?_) fun hr => ⟨⟨rfl, by omega⟩, ?_⟩
    · obtain ⟨d, hd, -, rfl⟩ := hh.node (perm_middle.mem_iff.2 (mem_cons_of_mem _ hc))
      rw [(hbl d hd).2.2.1, if_neg (hins d hd).2]
    · rw [hnewnext, if_neg fun heq => (hpr heq.1).2 heq.2, if_pos rfl]
      exact hr
  · refine perm_middle.nodup_iff.2 (nodup_cons.2 ⟨fun hmem => ?_, hnd⟩)
    obtain ⟨d, hd, -, had⟩ := hh.node (perm_middle.mem_iff.2 (mem_cons_of_mem _ hmem))
    exact (hins d hd).2 had.symm
  · intro a
    rw [perm_middle.mem_iff, perm_middle.mem_iff]
    simp only [mem_cons, not_mem_nil, or_false, forall_eq, exists_eq_or_imp, exists_eq_left,
      Bool.false_eq_true, false_and, false_or, true_and]
    constructor
    · rintro (rfl | ha)
      · exact .inr rfl
      · exact .inl ⟨.inr ha, fun heq => hnot (heq ▸ ha)⟩
    · rintro (⟨rfl | ha, hne⟩ | rfl)
      · exact absurd rfl hne
      · exact .inr ha
      · exact .inl rfl

/-- Taking a block keeps the data of those in use. -/
lemma kept_takeBlock (hh : h.Holds bs (pre ++ b.addr :: rest)) (hb : b ∈ bs) (hf : b.free = true) (total : Nat) :
    Kept h (h.takeBlock total (lastNode pre) b.addr) bs := by
  intro c hc hu x hlow hhg
  have hsz := (hh.headers b hb).1
  have hmin := (hh.sizes b hb).1
  unfold MIN_BLOCK_SIZE at hmin
  refine mem_takeBlock (by omega) ?_ ?_
  · rw [hsz]
    exact hh.outside hb hf hc hu hlow hhg
  intro hne
  obtain ⟨-, p, hp, hpfree, ha⟩ := hh.before hne
  have hpm := (hh.sizes p hp).1
  have hout := hh.outside hp hpfree hc hu hlow hhg
  unfold MIN_BLOCK_SIZE at hpm
  omega

/-! ## Extending the heap -/

/-- A block at the end of the heap. -/
lemma append (hh : h.Holds bs order) (hi : h.initialized = true)
    (htot : MIN_BLOCK_SIZE ≤ total ∧ MALLOC_ALIGN ∣ total) (hr : h.brk + total ≤ HEAP_LIMIT) :
    ((Heap.setSize { h with brk := h.brk + total } h.brk total).setFree h.brk 0).Holds
      (bs ++ [⟨h.brk, total, false⟩]) order := by
  have hmin : MIN_BLOCK_SIZE = 32 := rfl
  have hlimit64 : HEAP_LIMIT < 2 ^ 64 := by decide
  have hbel : ∀ c ∈ bs, Separate h.brk c.addr ∧ h.brk ≠ c.addr := by
    intro c hc
    have hsz := (hh.sizes c hc).1
    have hend := (hh.tiles.bounds hc).2
    exact ⟨.inr (.inr (by omega)), by omega⟩
  have hsl : Separate h.brk h.brk := .inl rfl
  refine ⟨?_, ?_, ?_, ?_, hh.nodup, ?_, hh.aligned, ⟨hh.room.1, hr⟩, ?_⟩
  · exact Tiles.append_iff.2 ⟨h.brk, hh.tiles, rfl, by dsimp only; omega, rfl⟩
  · intro c hc
    obtain hc | hc := mem_append.1 hc
    · exact hh.sizes c hc
    · rw [mem_singleton.1 hc]
      exact htot
  · intro c hc
    obtain hc | hc := mem_append.1 hc
    · obtain ⟨hsep, hne⟩ := hbel c hc
      rw [size_setFree hsep, size_setSize hsep (by omega), if_neg hne, isFree_setFree hsep (by decide), if_neg hne,
        isFree_setSize hsep]
      exact hh.headers c hc
    · rw [mem_singleton.1 hc, size_setFree hsl, size_setSize hsl (by omega), if_pos rfl,
        isFree_setFree hsl (by decide), if_pos rfl]
      exact ⟨rfl, rfl⟩
  · refine hh.list.congr fun a ha => ?_
    obtain ⟨c, hc, -, rfl⟩ := hh.node ha
    rw [next_setFree (hbel c hc).1, next_setSize (hbel c hc).1]
    rfl
  · intro a
    rw [hh.exact]
    constructor
    · rintro ⟨c, hc, hf, rfl⟩
      exact ⟨c, mem_append_left _ hc, hf, rfl⟩
    · rintro ⟨c, hc, hf, rfl⟩
      obtain hc | hc := mem_append.1 hc
      · exact ⟨c, hc, hf, rfl⟩
      · rw [mem_singleton.1 hc] at hf
        cases hf
  · intro hno
    rw [show h.initialized = false from hno] at hi
    cases hi

/-- A new block at the end keeps the data of the others. -/
lemma kept_append (hh : h.Holds bs order) (total brk : Nat) :
    Kept h ((Heap.setSize { h with brk := brk } h.brk total).setFree h.brk 0) bs := by
  intro c hc _ x _ hhg
  have hend := (hh.tiles.bounds hc).2
  rw [mem_setFree (.inl (by omega)), mem_setSize (.inl (by omega))]

/-! ## Freeing a block -/

/-- A block in use becomes free, at the head of the free list. -/
lemma release (hh : h.Holds (xs ++ [b] ++ ys) order) (hu : b.free = false) (hi : h.initialized = true) :
    Heap.Holds { (h.setFree b.addr 1).setNext b.addr h.freelist with freelist := b.addr }
      (xs ++ [⟨b.addr, b.size, true⟩] ++ ys) (b.addr :: order) := by
  have hb : b ∈ xs ++ [b] ++ ys := middle (mem_singleton_self b)
  have hsep := hh.separate hb hb
  have hnot : b.addr ∉ order := by
    intro hmem
    obtain ⟨c, hc, hf, had⟩ := hh.node hmem
    rw [hh.tiles.eq_of_addr hc hb had, hu] at hf
    cases hf
  have hhd : h.freelist < 2 ^ 64 := by
    cases order with
    | nil =>
      have hnil : h.freelist = 0 := hh.list
      omega
    | cons a order =>
      obtain ⟨c, hc, -, had⟩ := hh.node mem_cons_self
      have hlim := hh.end_le hc
      have hlimit64 : HEAP_LIMIT < 2 ^ 64 := by decide
      rw [hh.list.1.1, ← had]
      omega
  refine hh.exchange rfl rfl hi ?_ ?_ ?_ ?_ ?_ (nodup_cons.2 ⟨hnot, hh.nodup⟩) ?_
  · intro p q htil
    exact htil
  · intro c hc
    rw [mem_singleton.1 hc]
    exact hh.sizes b hb
  · intro c hc
    have hsep := hh.separate hb (stays hc)
    have hne := hh.addr_ne (mem_singleton_self b) hc
    have hsz : ((h.setFree b.addr 1).setNext b.addr h.freelist).size c.addr = h.size c.addr := by
      rw [size_setNext hsep, size_setFree hsep]
    have hf : ((h.setFree b.addr 1).setNext b.addr h.freelist).isFree c.addr = h.isFree c.addr := by
      rw [isFree_setNext hsep, isFree_setFree hsep (by decide), if_neg hne]
    exact ⟨hsz, hf⟩
  · intro c hc
    rw [mem_singleton.1 hc]
    have hsz : ((h.setFree b.addr 1).setNext b.addr h.freelist).size b.addr = h.size b.addr := by
      rw [size_setNext hsep, size_setFree hsep]
    have hf : ((h.setFree b.addr 1).setNext b.addr h.freelist).isFree b.addr = true := by
      rw [isFree_setNext hsep, isFree_setFree hsep (by decide), if_pos rfl]
      rfl
    exact ⟨hsz.trans (hh.headers b hb).1, hf⟩
  · have hn : ((h.setFree b.addr 1).setNext b.addr h.freelist).next b.addr = h.freelist := by
      rw [next_setNext hsep hhd, if_pos rfl]
    have hl : IsList ((h.setFree b.addr 1).setNext b.addr h.freelist).next h.freelist order := by
      refine hh.list.congr fun a ha => ?_
      obtain ⟨c, hc, -, rfl⟩ := hh.node ha
      have hsep := hh.separate hb hc
      have hne : b.addr ≠ c.addr := fun heq => hnot (heq ▸ ha)
      rw [next_setNext hsep hhd, if_neg hne, next_setFree hsep]
    refine ⟨⟨rfl, (hh.addr_pos hb).ne'⟩, ?_⟩
    change IsList ((h.setFree b.addr 1).setNext b.addr h.freelist).next
      (((h.setFree b.addr 1).setNext b.addr h.freelist).next b.addr) order
    rw [hn]
    exact hl
  · intro a
    simp only [mem_cons, not_mem_nil, or_false, forall_eq, exists_eq_left, true_and]
    constructor
    · rintro (rfl | ha)
      · exact .inr rfl
      · exact .inl ⟨ha, fun heq => hnot (heq ▸ ha)⟩
    · rintro (⟨ha, -⟩ | rfl)
      · exact .inr ha
      · exact .inl rfl

/-- Freeing a block keeps the data of the others. -/
lemma kept_release (hh : h.Holds (xs ++ [b] ++ ys) order) :
    Kept h { (h.setFree b.addr 1).setNext b.addr h.freelist with freelist := b.addr } (xs ++ ys) := by
  intro c hc _ x hlow hhg
  have hb : b ∈ xs ++ [b] ++ ys := middle (mem_singleton_self b)
  have hmin := (hh.sizes b hb).1
  unfold MIN_BLOCK_SIZE at hmin
  have hout : x < b.addr ∨ b.addr + 24 ≤ x := by
    obtain rfl | hlt | hlt := hh.tiles.apart hb (stays hc)
    · exact absurd rfl (hh.addr_ne (mem_singleton_self b) hc)
    · exact .inr (by omega)
    · exact .inl (by omega)
  rw [mem_setNext hout, mem_setFree hout]

/-- Two free neighbours become one block; the second one leaves the free list. -/
lemma merge (pre : List Nat) (hh : h.Holds (xs ++ [b, c] ++ ys) (pre ++ c.addr :: rest)) (hi : h.initialized = true)
    (hbfree : b.free = true) (hne : lastNode pre ≠ 0) :
    ((h.setSize b.addr (b.size + c.size)).setNext (lastNode pre) (h.next c.addr)).Holds
      (xs ++ [⟨b.addr, b.size + c.size, true⟩] ++ ys) (pre ++ rest) := by
  have hbm : b ∈ [b, c] := by simp
  have hb : b ∈ xs ++ [b, c] ++ ys := middle hbm
  have hc : c ∈ xs ++ [b, c] ++ ys := middle (by simp)
  obtain ⟨hnot, hnd⟩ := nodup_cons.1 (perm_middle.nodup_iff.1 hh.nodup)
  obtain ⟨q, hl, -⟩ := Tiles.append_iff.1 hh.tiles
  obtain ⟨p, -, rfl, -, haft, -⟩ := Tiles.append_iff.1 hl
  have hlim := hh.end_le hc
  have hlimit64 : HEAP_LIMIT < 2 ^ 64 := by decide
  have hm := (hh.sizes b hb).1
  have hsum : b.size + c.size < 2 ^ 64 := by omega
  refine hh.exchange rfl rfl hi ?_ ?_ ?_ ?_ ?_ hnd ?_
  · rintro p q ⟨rfl, -, -, -, hend⟩
    have hend : b.addr + b.size + c.size = q := hend
    exact ⟨rfl, by dsimp only; unfold MIN_BLOCK_SIZE at hm; omega, by dsimp only [Tiles]; omega⟩
  · intro d hd
    rw [mem_singleton.1 hd]
    exact ⟨hm.trans (Nat.le_add_right _ _), (Nat.dvd_add_right (hh.sizes b hb).2).2 (hh.sizes c hc).2⟩
  · intro d hd
    have hsep := hh.separate hb (stays hd)
    have hp := hh.separate_before (stays hd) hne
    rw [size_setNext hp, size_setSize hsep hsum, if_neg (hh.addr_ne hbm hd), isFree_setNext hp,
      isFree_setSize hsep]
    exact ⟨rfl, rfl⟩
  · intro d hd
    have hsep := hh.separate hb hb
    have hp := hh.separate_before hb hne
    rw [mem_singleton.1 hd, size_setNext hp, size_setSize hsep hsum, if_pos rfl, isFree_setNext hp,
      isFree_setSize hsep]
    exact ⟨rfl, (hh.headers b hb).2.trans hbfree⟩
  · refine hh.relink (by simp [hne]) (fun a ha => ?_) id
    obtain ⟨d, hd, -, rfl⟩ := hh.node (perm_middle.mem_iff.2 (mem_cons_of_mem _ ha))
    rw [next_setNext (hh.separate_before hd hne) (h.next_lt _), next_setSize (hh.separate hb hd)]
    simp [hne]
  · intro a
    have hmm : b.addr ∈ c.addr :: (pre ++ rest) := perm_middle.mem_iff.1 ((hh.exact _).2 ⟨b, hb, hbfree, rfl⟩)
    have hbc : b.addr ≠ c.addr := by
      unfold MIN_BLOCK_SIZE at hm
      omega
    rw [perm_middle.mem_iff]
    simp only [mem_cons, not_mem_nil, or_false, forall_eq_or_imp, forall_eq, exists_eq_left, true_and]
      at hmm ⊢
    constructor
    · intro ha
      by_cases hab : b.addr = a
      · exact .inr hab
      · exact .inl ⟨.inr ha, hab, fun heq => hnot (heq ▸ ha)⟩
    · rintro (⟨rfl | ha, -, hne⟩ | rfl)
      · exact absurd rfl hne
      · exact ha
      · exact hmm.resolve_left hbc

/-- Merging free blocks keeps the data of those in use. -/
lemma kept_merge (pre : List Nat) (hh : h.Holds bs (pre ++ rest)) (hb : b ∈ bs) (hf : b.free = true) (hne : lastNode pre ≠ 0)
    (v w : Nat) : Kept h ((h.setSize b.addr v).setNext (lastNode pre) w) bs := by
  intro c hc hu x hlow hhg
  obtain ⟨-, p, hp, hpfree, ha⟩ := hh.before hne
  have hpm := (hh.sizes p hp).1
  have hbm := (hh.sizes b hb).1
  have hpt := hh.outside hp hpfree hc hu hlow hhg
  have hbt := hh.outside hb hf hc hu hlow hhg
  unfold MIN_BLOCK_SIZE at hpm hbm
  rw [mem_setNext (by omega), mem_setSize (by omega)]

end Holds

end Heap

end OS01.Libc
