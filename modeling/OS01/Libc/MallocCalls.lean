import Mathlib.Data.List.Perm.Subperm
import OS01.Libc.MallocHeap

/-!
# The calls of the allocator

`Holds.malloc` and `Holds.free` say what a call does to the blocks: it returns, the blocks tile the heap again, and the
blocks in use are those from before with the one that was taken, or without the one that was given back. The loops end
because there is room for every block of the free list.
-/

namespace OS01.Libc

open List Lib Memory Nat

namespace Heap

variable {h : Heap} {bs : List HeapBlock} {order : List Nat}

/-! ## The searches -/

lemma Holds.length_lt (hh : h.Holds bs order) : order.length < h.rounds := by
  have hsub : order ⊆ bs.map HeapBlock.addr := by
    intro a ha
    obtain ⟨b, hb, -, rfl⟩ := hh.node ha
    exact mem_map_of_mem hb
  have hlen := (hh.nodup.subperm hsub).length_le
  have hr := hh.tiles.length_mul_le (k := 32) fun b hb => (hh.sizes b hb).1
  rw [length_map] at hlen
  unfold rounds
  omega

variable {p rounds size : Nat} {rest pre : List Nat} {b : HeapBlock}

/-- The search for a block finds one that is large enough, or none. -/
lemma findFit_spec (total : Nat) (done : List Nat) (hl : IsList h.next p rest)
    (hlen : rest.length < rounds) : h.findFit total rounds (lastNode done) p = some none ∨
      ∃ pre a post, rest = pre ++ a :: post ∧ total ≤ h.size a ∧
        h.findFit total rounds (lastNode done) p = some (some (lastNode (done ++ pre), a)) := by
  induction rest generalizing p rounds done with
  | nil =>
    have hp : p = 0 := hl
    obtain ⟨rounds, rfl⟩ := Nat.exists_eq_add_of_lt hlen
    exact .inl (by simp [findFit, hp])
  | cons a rest ih =>
    obtain ⟨⟨rfl, hne⟩, hr⟩ := hl
    obtain ⟨rounds, rfl⟩ : ∃ n, rounds = n + 1 := ⟨rounds - 1, by omega⟩
    rw [findFit, if_neg hne]
    by_cases hfit : total ≤ h.size p
    · exact .inr ⟨[], p, rest, rfl, hfit, by rw [if_pos hfit, append_nil]⟩
    rw [if_neg hfit]
    obtain hn | ⟨pre, a, post, rfl, hfit', hfnd⟩ := ih (done ++ [p]) hr (by simpa using hlen)
    · rw [lastNode_concat] at hn
      exact .inl hn
    · rw [lastNode_concat, append_assoc] at hfnd
      exact .inr ⟨p :: pre, a, post, rfl, hfit', hfnd⟩

/-- The search for the node in front of another one finds it. -/
lemma findPrev_eq {t : Nat} (hl : IsList h.next p (pre ++ t :: rest)) (hne : pre ≠ [])
    (hnd : (pre ++ t :: rest).Nodup) (hlen : pre.length ≤ rounds) : h.findPrev t rounds p = some (lastNode pre) := by
  induction pre generalizing p rounds with
  | nil => exact absurd rfl hne
  | cons a pre ih =>
    obtain ⟨⟨rfl, hne0⟩, hl⟩ := hl
    obtain ⟨rounds, rfl⟩ : ∃ n, rounds = n + 1 := ⟨rounds - 1, by simp only [length_cons] at hlen; omega⟩
    obtain ⟨-, hnd⟩ := nodup_cons.1 hnd
    cases pre with
    | nil =>
      have hn : h.next p = t := hl.1.1
      rw [findPrev, if_pos (.inr hn)]
      rfl
    | cons a pre =>
      have hn : h.next p = a := hl.1.1
      have hat : a ≠ t := by
        rintro rfl
        exact (nodup_cons.1 hnd).1 (by simp)
      have hs : ¬(p = 0 ∨ h.next p = t) := by
        rw [hn]
        exact not_or.2 ⟨hne0, hat⟩
      have hrec : h.findPrev t rounds (h.next p) = some (lastNode (a :: pre)) :=
        ih hl (by simp) hnd (by simpa using hlen)
      rw [findPrev, if_neg hs, hrec]
      simp [lastNode]

/-! ## Sizes -/

lemma blockTotal_spec (hpos : size ≠ 0) (hlt : size + 31 < 2 ^ 64) :
    (MIN_BLOCK_SIZE ≤ blockTotal size ∧ MALLOC_ALIGN ∣ blockTotal size) ∧ size + HEADER_SIZE ≤ blockTotal size ∧
      blockTotal size < 2 ^ 64 := by
  have hal : alignUp size = (size + 15) / 16 * 16 := by
    unfold alignUp u64 MALLOC_ALIGN
    rw [mod_eq_of_lt (by omega)]
  have htot : u64 (alignUp size + HEADER_SIZE) = (size + 15) / 16 * 16 + 16 := by
    rw [hal]
    exact mod_eq_of_lt (by unfold HEADER_SIZE; omega)
  have hval : blockTotal size = (size + 15) / 16 * 16 + 16 := by
    rw [blockTotal, htot, if_neg (by unfold MIN_BLOCK_SIZE; omega)]
  exact ⟨⟨by unfold MIN_BLOCK_SIZE; omega, ⟨(size + 15) / 16 + 1, by unfold MALLOC_ALIGN; omega⟩⟩,
    by unfold HEADER_SIZE; omega, by omega⟩

/-- Extending the heap fails, or moves the break up by the size of the block. -/
lemma extend_cases (hh : h.Holds bs order) (hw : h.NoWrap size) (hpos : size ≠ 0) (env : BrkAnswers) :
    h.extend (blockTotal size) env = (h, 0) ∨ h.brk + blockTotal size ≤ HEAP_LIMIT ∧
        h.extend (blockTotal size) env =
          ((Heap.setSize { h with brk := h.brk + blockTotal size } h.brk (blockTotal size)).setFree h.brk 0,
            h.brk + HEADER_SIZE) := by
  obtain ⟨hlt, ha⟩ := hw.resolve_left hpos
  have hst := hh.tiles.le
  have hr := hh.room.1
  rw [extend]
  cases hquery : env.query with
  | false => exact .inl rfl
  | true =>
    have hbrk : h.getBrk true = h.brk := rfl
    rw [hbrk, if_neg (by omega)]
    cases henv : env.extend with
    | false => exact .inl rfl
    | true =>
      obtain hf | ⟨hpos', hlow⟩ := ha
      · have hs : u64 (h.brk + blockTotal size) = h.brk + blockTotal size := mod_eq_of_lt hf
        rw [hs, setBrk, if_neg (by decide), if_neg (by omega)]
        by_cases hlim : h.brk + blockTotal size ≤ HEAP_LIMIT
        · rw [if_neg (by omega)]
          exact .inr ⟨hlim, rfl⟩
        · rw [if_pos (by omega)]
          exact .inl rfl
      · rw [setBrk, if_neg (by decide), if_neg (by omega), if_pos (.inl hlow)]
        exact .inl rfl

/-! ## `malloc` -/

/-- The blocks in use afterwards are those from before. -/
def SameUsed (bs bs' : List HeapBlock) : Prop := ∀ c, c.free = false → (c ∈ bs' ↔ c ∈ bs)

/-- The blocks in use afterwards are those from before and a new one. -/
def OneMore (bs bs' : List HeapBlock) (b : HeapBlock) : Prop :=
  b.free = false ∧ (∀ c ∈ bs, c.free = false → c.addr ≠ b.addr) ∧ ∀ c, c.free = false → (c ∈ bs' ↔ c = b ∨ c ∈ bs)

/-- The blocks in use afterwards are those from before without one. -/
def OneLess (bs bs' : List HeapBlock) (b : HeapBlock) : Prop := ∀ c, c.free = false → (c ∈ bs' ↔ c ∈ bs ∧ c ≠ b)

lemma split_of_mem (hb : b ∈ bs) : ∃ xs ys, bs = xs ++ [b] ++ ys := by
  obtain ⟨xs, ys, rfl⟩ := append_of_mem hb
  exact ⟨xs, ys, by simp⟩

lemma Holds.heapInit (hh : h.Holds bs order) : h.heapInit.Holds bs order ∧ h.heapInit.initialized = true := by
  unfold Heap.heapInit
  cases hi : h.initialized with
  | true => exact ⟨hh, hi⟩
  | false =>
    -- there are no blocks yet, so the free list is empty already
    have hbs := hh.fresh hi
    have hord : order = [] := by
      refine eq_nil_iff_forall_not_mem.2 fun a ha => ?_
      obtain ⟨b, hb, -⟩ := hh.node ha
      rw [hbs] at hb
      cases hb
    subst hord
    exact ⟨⟨hh.tiles, hh.sizes, hh.headers, rfl, hh.nodup, hh.exact, hh.aligned, hh.room, fun _ => hbs⟩, rfl⟩

/-- Taking a block of the free list. -/
lemma Holds.take {total : Nat} (hh : h.Holds bs (pre ++ b.addr :: rest))
    (hi : h.initialized = true) (hb : b ∈ bs) (hf : b.free = true)
    (htot : MIN_BLOCK_SIZE ≤ total ∧ MALLOC_ALIGN ∣ total) (hfit : total ≤ b.size) :
    ∃ c bs' order', (h.takeBlock total (lastNode pre) b.addr).Holds bs' order' ∧ OneMore bs bs' c ∧ c.addr = b.addr ∧
      total ≤ c.size := by
  obtain ⟨xs, ys, rfl⟩ := split_of_mem hb
  have hoth : ∀ c ∈ xs ++ [b] ++ ys, c.free = false → c.addr ≠ b.addr := by
    intro c hc hu heq
    rw [hh.tiles.eq_of_addr hc hb heq, hf] at hu
    cases hu
  have hne : ∀ c : HeapBlock, c.free = false → c ≠ b := by
    rintro c hu rfl
    rw [hf] at hu
    cases hu
  by_cases hrem : MIN_BLOCK_SIZE ≤ b.size - total
  · refine ⟨⟨b.addr, total, false⟩, _, _, hh.takeFront hi htot hrem, ⟨rfl, hoth, ?_⟩, rfl, le_rfl⟩
    intro c hu
    have hr : c ≠ ⟨b.addr + total, b.size - total, true⟩ := by
      rintro rfl
      cases hu
    simp only [mem_append, mem_cons, not_mem_nil, or_false, hne c hu, hr]
    tauto
  have ht : h.takeBlock total (lastNode pre) b.addr =
      (h.link (lastNode pre) (h.next b.addr)).setFree b.addr 0 := by
    rw [takeBlock, (hh.headers b hb).1]
    exact if_neg hrem
  rw [ht]
  refine ⟨⟨b.addr, b.size, false⟩, _, _, hh.takeWhole hi, ⟨rfl, hoth, ?_⟩, rfl, hfit⟩
  intro c hu
  simp only [mem_append, mem_cons]
  tauto

/-- **`malloc`** returns; it gives nothing, or takes one block, large enough. -/
theorem Holds.malloc (hh : h.Holds bs order) (hw : h.NoWrap size) (env : BrkAnswers) :
    ∃ h' p bs' order', h.malloc size env = some (h', p) ∧ h'.Holds bs' order' ∧ h'.start = h.start ∧ Kept h h' bs ∧
      (p = 0 ∧ SameUsed bs bs' ∨
        ∃ b, OneMore bs bs' b ∧ p = b.addr + HEADER_SIZE ∧ size + HEADER_SIZE ≤ b.size) := by
  rw [Heap.malloc]
  split_ifs with hs
  · exact ⟨h, 0, bs, order, rfl, hh, rfl, fun _ _ _ _ _ _ => rfl, .inl ⟨rfl, fun _ _ => Iff.rfl⟩⟩
  obtain ⟨hh', hi⟩ := hh.heapInit
  obtain ⟨hst, hbrk, hmem⟩ : h.heapInit.start = h.start ∧ h.heapInit.brk = h.brk ∧ h.heapInit.mem = h.mem := by
    unfold Heap.heapInit
    split_ifs <;> exact ⟨rfl, rfl, rfl⟩
  have hk : ∀ {h'}, Kept h.heapInit h' bs → Kept h h' bs := by
    intro h' hk c hc hu x hlow hhg
    rw [hk c hc hu x hlow hhg, hmem]
  have hw' : h.heapInit.NoWrap size := by
    unfold NoWrap at hw ⊢
    rwa [hbrk, hst]
  obtain ⟨htot, hf, -⟩ := blockTotal_spec hs (hw.resolve_left hs).1
  dsimp only
  generalize h.heapInit = g at hh' hi hst hk hw'
  obtain hn | ⟨pre, a, post, rfl, hfit, hfnd⟩ := findFit_spec (blockTotal size) [] hh'.list hh'.length_lt
  · rw [lastNode_nil] at hn
    rw [hn]
    obtain hfl | ⟨hr, hext⟩ := extend_cases hh' hw' hs env
    · rw [hfl]
      exact ⟨g, 0, bs, order, rfl, hh', hst, hk fun _ _ _ _ _ _ => rfl, .inl ⟨rfl, fun _ _ => Iff.rfl⟩⟩
    rw [hext]
    refine ⟨_, _, _, order, rfl, hh'.append hi htot hr, hst, hk (hh'.kept_append _ _),
      .inr ⟨⟨g.brk, blockTotal size, false⟩, ⟨rfl, ?_, ?_⟩, rfl, hf⟩⟩
    · intro c hc _ heq
      have hend := (hh'.tiles.bounds hc).2
      have hpos := hh'.tiles.pos hc
      dsimp only at heq
      omega
    · intro c _
      simp only [mem_append, mem_singleton]
      tauto
  · rw [lastNode_nil] at hfnd
    rw [hfnd]
    obtain ⟨b, hb, hfr, rfl⟩ := hh'.node (mem_append_right pre mem_cons_self)
    rw [(hh'.headers b hb).1] at hfit
    obtain ⟨c, bs', order', hhd, hm, ha, hlarge⟩ := hh'.take hi hb hfr htot hfit
    exact ⟨_, _, bs', order', rfl, hhd, (takeBlock_start _ _ _).trans hst,
      hk (hh'.kept_takeBlock hb hfr _), .inr ⟨c, hm, by rw [ha], hf.trans hlarge⟩⟩

/-! ## `free` -/

/-- `try_coalesce` on the block at the head of the free list. -/
lemma Holds.tryCoalesce (hh : h.Holds bs (b.addr :: order)) (hi : h.initialized = true) (hb : b ∈ bs)
    (granted : Bool) :
    ∃ h' bs' order', h.tryCoalesce b.addr granted = some h' ∧ h'.Holds bs' order' ∧ h'.start = h.start ∧ Kept h h' bs ∧
      SameUsed bs bs' := by
  have hun : ∃ h' bs' order', some h = some h' ∧ h'.Holds bs' order' ∧ h'.start = h.start ∧ Kept h h' bs ∧
      SameUsed bs bs' := ⟨h, bs, _, rfl, hh, rfl, fun _ _ _ _ _ _ => rfl, fun _ _ => Iff.rfl⟩
  have hf : b.free = true := by
    obtain ⟨c, hc, hf, had⟩ := hh.node mem_cons_self
    rwa [hh.tiles.eq_of_addr hc hb had] at hf
  obtain ⟨hsizeb, -⟩ := hh.headers b hb
  rw [Heap.tryCoalesce]
  rw [hsizeb]
  by_cases hend : h.getBrk granted ≤ b.addr + b.size
  · rw [if_pos hend]
    exact hun
  rw [if_neg hend]
  have hlt : b.addr + b.size < h.brk := by
    unfold getBrk at hend
    split_ifs at hend <;> omega
  obtain ⟨xs, ys, rfl⟩ := split_of_mem hb
  have htil : Tiles HeapBlock.addr HeapBlock.size h.start (xs ++ b :: ys) h.brk := by simpa using hh.tiles
  obtain ⟨c, zs, rfl, hcaddr⟩ := htil.behind hlt
  have hl : xs ++ [b] ++ c :: zs = xs ++ [b, c] ++ zs := by simp
  rw [hl] at hh hb hun ⊢
  have hc : c ∈ xs ++ [b, c] ++ zs := by simp
  obtain ⟨hsizec, hfreec⟩ := hh.headers c hc
  rw [← hcaddr, hfreec]
  cases hcfree : c.free with
  | false => exact hun
  | true =>
    have hm : c.addr ∈ b.addr :: order := (hh.exact _).2 ⟨c, hc, hcfree, rfl⟩
    have hpos := hh.tiles.pos hb
    obtain ⟨pre, rest, hord⟩ := append_of_mem ((mem_cons.1 hm).resolve_left (by omega))
    have hlim := hh.end_le hc
    have hlimit64 : HEAP_LIMIT < 2 ^ 64 := by decide
    have hsum : u64 (b.size + c.size) = b.size + c.size := mod_eq_of_lt (by omega)
    subst hord
    -- the link of the list that is set: the one that leads to the second block
    have hne : lastNode (b.addr :: pre) ≠ 0 :=
      hh.list.ne_zero (mem_append_left (c.addr :: rest) (lastNode_mem (cons_ne_nil b.addr pre)))
    have hnodes : IsList (h.setSize b.addr (b.size + c.size)).next h.freelist ((b.addr :: pre) ++ c.addr :: rest) := by
      refine hh.list.congr fun a ha => ?_
      obtain ⟨d, hd, -, rfl⟩ := hh.node ha
      exact next_setSize (hh.separate hb hd)
    have hfnd : (h.setSize b.addr (b.size + c.size)).findPrev c.addr (h.setSize b.addr (b.size + c.size)).rounds
        (h.setSize b.addr (b.size + c.size)).freelist = some (lastNode (b.addr :: pre)) := by
      refine findPrev_eq hnodes (cons_ne_nil _ _) hh.nodup ?_
      have hlen := hh.length_lt
      change _ ≤ h.rounds
      simp only [length_cons, length_append] at hlen ⊢
      omega
    have hhd : (h.setSize b.addr (b.size + c.size)).freelist ≠ c.addr := by
      have hfst : h.freelist = b.addr := hh.list.1.1
      rw [setSize_freelist]
      omega
    rw [hsizec, hsum, if_neg hhd, hfnd]
    dsimp only
    rw [if_neg hne, next_setSize (hh.separate hb hc)]
    refine ⟨_, _, _, rfl, hh.merge (b.addr :: pre) hi hf hne, rfl,
      hh.kept_merge (b.addr :: pre) hb hf hne _ _, ?_⟩
    intro d hu
    have hd : d ≠ b ∧ d ≠ c ∧ d ≠ ⟨b.addr, b.size + c.size, true⟩ := by
      refine ⟨?_, ?_, ?_⟩ <;> rintro rfl
      · rw [hf] at hu
        cases hu
      · rw [hcfree] at hu
        cases hu
      · cases hu
    simp [hd]

/-- **`free`** of a block in use returns, and the block is no longer in use. -/
theorem Holds.free (hh : h.Holds bs order) (hb : b ∈ bs) (hu : b.free = false) (granted : Bool) :
    ∃ h' bs' order', h.free (b.addr + HEADER_SIZE) granted = some h' ∧ h'.Holds bs' order' ∧ h'.start = h.start ∧
      OneLess bs bs' b ∧ Kept h h' (bs.filter fun c => c ≠ b) := by
  have hi : h.initialized = true := by
    cases hi : h.initialized with
    | true => rfl
    | false =>
      rw [hh.fresh hi] at hb
      cases hb
  have hbc : b.addr + HEADER_SIZE - HEADER_SIZE = b.addr := Nat.add_sub_cancel _ _
  have hf : h.free (b.addr + HEADER_SIZE) granted =
      Heap.tryCoalesce { (h.setFree b.addr 1).setNext b.addr h.freelist with freelist := b.addr } b.addr granted := by
    rw [Heap.free, hi, hbc]
    dsimp only
    rw [(hh.headers b hb).2, hu]
    rfl
  rw [hf]
  obtain ⟨xs, ys, rfl⟩ := split_of_mem hb
  obtain ⟨h', bs', order', hco, hhd, hst, hk, hs⟩ :=
    (hh.release hu hi).tryCoalesce (b := ⟨b.addr, b.size, true⟩) hi (by simp) granted
  have ho : ∀ c, c.free = false → (c ∈ xs ++ [⟨b.addr, b.size, true⟩] ++ ys ↔ c ∈ xs ++ ys) := by
    intro c hcused
    have hne : c ≠ ⟨b.addr, b.size, true⟩ := by
      rintro rfl
      cases hcused
    simp [hne]
  have hl : ∀ c, c ∈ xs ++ ys ↔ c ∈ xs ++ [b] ++ ys ∧ c ≠ b := by
    intro c
    constructor
    · intro hc
      refine ⟨Holds.stays hc, ?_⟩
      rintro rfl
      exact hh.addr_ne (mem_singleton_self c) hc rfl
    · rintro ⟨hc, hne⟩
      simpa [hne] using hc
  refine ⟨h', bs', order', hco, hhd, hst, fun c hcused => ?_, fun c hc hcused x hlow hhg => ?_⟩
  · rw [hs c hcused, ho c hcused, hl]
  · obtain ⟨hmem, hne⟩ := mem_filter.1 hc
    have hc' : c ∈ xs ++ ys := (hl c).2 ⟨hmem, of_decide_eq_true hne⟩
    rw [hk c ((ho c hcused).2 hc') hcused x hlow hhg]
    exact hh.kept_release c hc' hcused x hlow hhg

end Heap

end OS01.Libc
