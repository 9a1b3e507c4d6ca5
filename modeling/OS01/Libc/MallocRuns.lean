import Mathlib.Data.List.Nodup
import OS01.Libc.MallocCalls

/-!
# Runs of the heap

A step of the system keeps the heap in order as long as no size wraps (`Sound.step`), and so does every run. A request
whose size wraps gets a block that is too small: `calloc(2^60 + 1, 16)` is given 16 bytes.
-/

namespace OS01.Libc

open Function List Lib Memory HeapSystem Heap

/-- The heap is in order, with these blocks. -/
structure HeapSystem.Sound (s : HeapSystem) (bs : List HeapBlock) (order : List Nat) : Prop where
  holds : s.heap.Holds bs order
  owned : Owned s.live bs
  contents : s.heap.Stores s.live

variable {h h' : Heap} {live : List Held} {bs bs' : List HeapBlock} {order : List Nat} {b : HeapBlock}

/-! ## What the clients hold -/

namespace Owned

lemma same (ho : Owned live bs) (hs : Heap.SameUsed bs bs') : Owned live bs' where
  nodup := ho.nodup
  block := by
    intro e he
    obtain ⟨b, hb, hu, hptr, hsz⟩ := ho.block e he
    exact ⟨b, (hs b hu).2 hb, hu, hptr, hsz⟩
  held := fun b hb hu => ho.held b ((hs b hu).1 hb) hu

variable {e : Held}

variable (ho : Owned live bs)
include ho

lemma add (hm : Heap.OneMore bs bs' b) (hptr : e.ptr = b.addr + HEADER_SIZE)
    (hs : e.size + HEADER_SIZE ≤ b.size) : Owned (e :: live) bs' where
  nodup := by
    rw [map_cons, nodup_cons]
    refine ⟨fun hmem => ?_, ho.nodup⟩
    obtain ⟨f, hf, hfe⟩ := mem_map.1 hmem
    obtain ⟨c, hc, hu, hfp, -⟩ := ho.block f hf
    exact hm.2.1 c hc hu (by omega)
  block := by
    intro f hf
    obtain rfl | hf := mem_cons.1 hf
    · exact ⟨b, (hm.2.2 b hm.1).2 (.inl rfl), hm.1, hptr, hs⟩
    · obtain ⟨c, hc, hu, hfp, hfsize⟩ := ho.block f hf
      exact ⟨c, (hm.2.2 c hu).2 (.inr hc), hu, hfp, hfsize⟩
  held := by
    intro c hc hu
    obtain rfl | hc := (hm.2.2 c hu).1 hc
    · exact ⟨e, mem_cons_self, hptr⟩
    · obtain ⟨f, hf, hfp⟩ := ho.held c hc hu
      exact ⟨f, mem_cons_of_mem _ hf, hfp⟩

lemma remove (hh : h.Holds bs order) (hb : b ∈ bs) (hl : Heap.OneLess bs bs' b) {ptr : Nat}
    (hptr : ptr = b.addr + HEADER_SIZE) : Owned (drop live ptr) bs' where
  nodup := (filter_sublist.map _).nodup ho.nodup
  block := by
    intro e he
    obtain ⟨he, hne⟩ := mem_filter.1 he
    obtain ⟨c, hc, hu, hep, hs⟩ := ho.block e he
    have hcb : c ≠ b := by
      rintro rfl
      exact of_decide_eq_true hne (hep.trans hptr.symm)
    exact ⟨c, (hl c hu).2 ⟨hc, hcb⟩, hu, hep, hs⟩
  held := by
    intro c hc hu
    obtain ⟨hc, hne⟩ := (hl c hu).1 hc
    obtain ⟨e, he, hep⟩ := ho.held c hc hu
    refine ⟨e, mem_filter.2 ⟨he, decide_eq_true fun heq => hne ?_⟩, hep⟩
    exact hh.tiles.eq_of_addr hc hb (by omega)

/-- A client writes to a block that it holds; only the expected contents change. -/
lemma map {f : Held → Held} (hptr : ∀ e, (f e).ptr = e.ptr) (hsz : ∀ e, (f e).size = e.size) :
    Owned (live.map f) bs where
  nodup := by
    have hs : (live.map f).map Held.ptr = live.map Held.ptr := by
      rw [map_map]
      exact map_congr_left fun e _ => hptr e
    rw [hs]
    exact ho.nodup
  block := by
    intro e he
    obtain ⟨e', he', rfl⟩ := mem_map.1 he
    rw [hptr, hsz]
    exact ho.block e' he'
  held := by
    intro c hc hu
    obtain ⟨e, he, hep⟩ := ho.held c hc hu
    exact ⟨f e, mem_map_of_mem he, (hptr e).trans hep⟩

/-- What one call leaves alone. -/
lemma stores_of_kept (hsto : h.Stores live) (hk : h.Kept h' bs) : h'.Stores live := by
  intro e he i hi
  obtain ⟨b, hb, hu, hptr, hs⟩ := ho.block e he
  rw [hk b hb hu _ (by omega) (by omega)]
  exact hsto e he i hi

/-- A block that a client holds is not at the address of another one. -/
lemma apart (hh : h.Holds bs order) (hb : b ∈ bs) (he : e ∈ live)
    (hne : e.ptr ≠ b.addr + HEADER_SIZE) {i : Nat} (hi : i < e.size) :
    e.ptr + i < b.addr + HEADER_SIZE ∨ b.addr + b.size ≤ e.ptr + i := by
  obtain ⟨c, hc, hu, hptr, hs⟩ := ho.block e he
  obtain rfl | hlt | hlt := hh.tiles.apart hb hc
  · exact absurd hptr hne
  · exact .inr (by omega)
  · exact .inl (by omega)

end Owned

/-! ## Writing behind the header of a block in use -/

namespace Heap.Holds

variable {m : Mem}

/-- The blocks do not depend on what is in the blocks in use. -/
lemma write (hh : h.Holds bs order) (hb : b ∈ bs) (hu : b.free = false)
    (hm : ∀ x, x < b.addr + HEADER_SIZE ∨ b.addr + b.size ≤ x → m x = h.mem x) :
    Heap.Holds { h with mem := m } bs order := by
  have houtside : ∀ c ∈ bs, ∀ x, c.addr ≤ x → x < c.addr + HEADER_SIZE → m x = h.mem x := by
    intro c hc x hlow hhg
    unfold HEADER_SIZE at hhg
    refine hm x ?_
    unfold HEADER_SIZE
    rcases hh.tiles.apart hb hc with rfl | hlt | hlt <;> omega
  refine ⟨hh.tiles, hh.sizes, ?_, ?_, hh.nodup, hh.exact, hh.aligned, hh.room, hh.fresh⟩
  · intro c hc
    have hs : size { h with mem := m } c.addr = h.size c.addr := by
      unfold size
      rw [Mem.read_congr fun x hlow hhg => houtside c hc x hlow (by unfold HEADER_SIZE; omega)]
    have hf : isFree { h with mem := m } c.addr = h.isFree c.addr := by
      unfold isFree
      rw [Mem.read_congr fun x hlow hhg => houtside c hc x (by omega) (by unfold HEADER_SIZE; omega)]
    rw [hs, hf]
    exact hh.headers c hc
  · refine hh.list.congr fun a ha => ?_
    obtain ⟨c, hc, hf, rfl⟩ := hh.node ha
    have hmin := (hh.sizes c hc).1
    unfold MIN_BLOCK_SIZE at hmin
    refine congrArg leNat (Mem.read_congr fun x hlow hhg => hm x ?_)
    obtain rfl | hlt | hlt := hh.tiles.apart hb hc
    · rw [hu] at hf
      cases hf
    · exact .inr (by omega)
    · exact .inl (by omega)

end Heap.Holds

/-! ## Steps -/

namespace HeapSystem

variable {s t : HeapSystem}

/-- An orderly heap has the property. -/
lemma Sound.heapOk (hs : s.Sound bs order) : s.HeapOk where
  aligned := by
    intro e he
    obtain ⟨b, hb, -, hptr, -⟩ := hs.owned.block e he
    have hdvd := hs.holds.tiles.dvd_addr hs.holds.aligned (fun b hb => (hs.holds.sizes b hb).2) hb
    rw [hptr]
    exact (Nat.dvd_add_right hdvd).2 ⟨1, rfl⟩
  inside := by
    intro e he
    obtain ⟨b, hb, -, hptr, hsz⟩ := hs.owned.block e he
    have hbounds := hs.holds.tiles.bounds hb
    omega
  disjoint := by
    have hp : s.live.Pairwise fun e f => e.ptr ≠ f.ptr := pairwise_map.1 hs.owned.nodup
    refine hp.imp_of_mem fun {e f} he hf hne => ?_
    obtain ⟨b, hb, -, hep, hesize⟩ := hs.owned.block e he
    obtain ⟨c, hc, -, hfp, hfsize⟩ := hs.owned.block f hf
    obtain rfl | hlt | hlt := hs.holds.tiles.apart hb hc
    · exact absurd (hep.trans hfp.symm) hne
    · exact .inl (by omega)
    · exact .inr (by omega)
  contents := hs.contents
  blocks := ⟨bs, order, hs.holds, hs.owned⟩

variable {size ptr : Nat} {m : Mem} {data : Nat → UInt8} {e : Held} {env : BrkAnswers}

/-- What a call that takes a block gives to its client. -/
lemma Sound.hold {order' : List Nat} (data : Nat → UInt8) (ho : Owned live bs)
    (hh : h'.Holds bs' order') (hm : Heap.OneMore bs bs' b) (hs : size + HEADER_SIZE ≤ b.size)
    (hold : h'.Stores live) (hd : ∀ i < size, h'.mem (b.addr + HEADER_SIZE + i) = data i) :
    Sound ⟨h', ⟨b.addr + HEADER_SIZE, size, data⟩ :: live⟩ bs' order' where
  holds := hh
  owned := ho.add hm rfl hs
  contents := by
    intro e he i hi
    obtain rfl | he := mem_cons.1 he
    · exact hd i hi
    · exact hold e he i hi

/-- The contents of one block, as its client expects them afterwards. -/
def expect (ptr : Nat) (d : (Nat → UInt8) → Nat → UInt8) (e : Held) : Held :=
  if e.ptr = ptr then { e with data := d e.data } else e

lemma expect_ptr (ptr : Nat) (d : (Nat → UInt8) → Nat → UInt8) (e : Held) : (expect ptr d e).ptr = e.ptr := by
  unfold expect
  split_ifs <;> rfl

lemma expect_size (ptr : Nat) (d : (Nat → UInt8) → Nat → UInt8) (e : Held) : (expect ptr d e).size = e.size := by
  unfold expect
  split_ifs <;> rfl

/-- Writing to one block changes what is expected of that one only. -/
lemma Sound.write (hs : Sound ⟨h, live⟩ bs order) (hb : b ∈ bs) (hu : b.free = false)
    (hm : ∀ x, x < b.addr + HEADER_SIZE ∨ b.addr + b.size ≤ x → m x = h.mem x) (d : (Nat → UInt8) → Nat → UInt8)
    (hd : ∀ e ∈ live, e.ptr = b.addr + HEADER_SIZE → ∀ i < e.size, m (e.ptr + i) = d e.data i) :
    Sound ⟨{ h with mem := m }, live.map (expect (b.addr + HEADER_SIZE) d)⟩ bs order where
  holds := hs.holds.write hb hu hm
  owned := hs.owned.map (expect_ptr _ d) (expect_size _ d)
  contents := by
    intro f hf i hi
    obtain ⟨e, he, rfl⟩ := mem_map.1 hf
    rw [expect_size] at hi
    by_cases hptr : e.ptr = b.addr + HEADER_SIZE
    · rw [expect, if_pos hptr]
      exact hd e he hptr i hi
    · rw [expect, if_neg hptr, ← hs.contents e he i hi]
      exact hm _ (hs.owned.apart hs.holds hb he hptr hi)

/-- The same, for the block that was taken last. -/
lemma Sound.fill {data' : Nat → UInt8}
    (hs : Sound ⟨h, ⟨b.addr + HEADER_SIZE, size, data⟩ :: live⟩ bs order) (hb : b ∈ bs) (hu : b.free = false)
    (hm : ∀ x, x < b.addr + HEADER_SIZE ∨ b.addr + b.size ≤ x → m x = h.mem x)
    (hd : ∀ i < size, m (b.addr + HEADER_SIZE + i) = data' i) :
    Sound ⟨{ h with mem := m }, ⟨b.addr + HEADER_SIZE, size, data'⟩ :: live⟩ bs order := by
  have hnot : ∀ e ∈ live, e.ptr ≠ b.addr + HEADER_SIZE := by
    intro e he heq
    exact (nodup_cons.1 hs.owned.nodup).1 (mem_map.2 ⟨e, he, heq⟩)
  have hot : live.map (expect (b.addr + HEADER_SIZE) fun _ => data') = live := by
    have hid : ∀ e ∈ live, expect (b.addr + HEADER_SIZE) (fun _ => data') e = id e := fun e he => if_neg (hnot e he)
    rw [map_congr_left hid]
    exact map_id live
  have hwr := hs.write hb hu hm (fun _ => data') fun e he heq i hi => by
    obtain rfl | he := mem_cons.1 he
    · exact hd i hi
    · exact absurd heq (hnot e he)
  rw [map_cons, hot, expect, if_pos rfl] at hwr
  exact hwr

/-- What is expected of the block that was taken last may be said in other words. -/
lemma Sound.relabel (hs : Sound ⟨h, e :: live⟩ bs order)
    (hd : ∀ i < e.size, h.mem (e.ptr + i) = data i) : Sound ⟨h, { e with data := data } :: live⟩ bs order where
  holds := hs.holds
  owned := by
    refine ⟨hs.owned.nodup, ?_, ?_⟩
    · intro f hf
      obtain rfl | hf := mem_cons.1 hf
      · exact hs.owned.block e mem_cons_self
      · exact hs.owned.block f (mem_cons_of_mem _ hf)
    · intro c hc hu
      obtain ⟨f, hf, hptr⟩ := hs.owned.held c hc hu
      obtain rfl | hf := mem_cons.1 hf
      · exact ⟨_, mem_cons_self, hptr⟩
      · exact ⟨f, mem_cons_of_mem _ hf, hptr⟩
  contents := by
    intro f hf i hi
    obtain rfl | hf := mem_cons.1 hf
    · exact hd i hi
    · exact hs.contents f (mem_cons_of_mem _ hf) i hi

/-- A block that is given back. -/
lemma Sound.free (hs : Sound ⟨h, live⟩ bs order) (he : e ∈ live) (granted : Bool) :
    ∃ h' bs' order', h.free e.ptr granted = some h' ∧ h'.start = h.start ∧
      Sound ⟨h', drop live e.ptr⟩ bs' order' := by
  obtain ⟨b, hb, hu, hptr, hsz⟩ := hs.owned.block e he
  obtain ⟨h', bs', order', hcl, hhd, hst, hl, hk⟩ := hs.holds.free hb hu granted
  refine ⟨h', bs', order', by rw [hptr]; exact hcl, hst, hhd, hs.owned.remove hs.holds hb hl hptr, ?_⟩
  intro f hf i hi
  obtain ⟨hf, hne⟩ := mem_filter.1 hf
  obtain ⟨c, hc, hcused, hfp, hfsize⟩ := hs.owned.block f hf
  have hcb : c ≠ b := by
    rintro rfl
    exact of_decide_eq_true hne (hfp.trans hptr.symm)
  rw [hk c (mem_filter.2 ⟨hc, decide_eq_true hcb⟩) hcused _ (by omega) (by omega)]
  exact hs.contents f hf i hi

/-- The call returns, and the heap is in order afterwards. -/
def Leads (s : HeapSystem) (e : HeapEvent) : Prop := ∃ t, s.next e = some t ∧ ∃ bs order, t.Sound bs order

lemma ptr_ne_zero (ho : Owned live bs) (he : e ∈ live) : e.ptr ≠ 0 := by
  obtain ⟨b, -, -, hptr, -⟩ := ho.block e he
  unfold HEADER_SIZE at hptr
  omega

lemma drop_zero (ho : Owned live bs) : drop live 0 = live :=
  filter_eq_self.2 fun _ he => decide_eq_true (ptr_ne_zero ho he)

/-- What a client expects of a block that was resized. -/
lemma next_realloc (ho : Owned s.live bs) (he : e ∈ s.live) (size : Nat) (env : BrkAnswers) :
    s.next (.realloc e.ptr size env) = (s.heap.realloc e.ptr size env).map fun (h, p) =>
        ⟨h, hold (if p = 0 ∧ size ≠ 0 then s.live else drop s.live e.ptr) p size fun i =>
          if i < min e.size size then e.data i else h.mem (p + i)⟩ := by
  have hf : s.live.find? (fun f => decide (f.ptr = e.ptr)) = some e := by
    cases hf : s.live.find? fun f => decide (f.ptr = e.ptr) with
    | none => simpa using find?_eq_none.1 hf e he
    | some f =>
      have hptr : f.ptr = e.ptr := by simpa using find?_some hf
      rw [inj_on_of_nodup_map ho.nodup (mem_of_find?_eq_some hf) he hptr]
  rw [next]
  simp [hf]

section

variable (hs : s.Sound bs order)
include hs

lemma leads_malloc (hw : s.heap.NoWrap size) (env : BrkAnswers) :
    s.Leads (.malloc size env) := by
  obtain ⟨h', p, bs', order', hc, hhd, -, hk, hp⟩ := hs.holds.malloc hw env
  have hsto := hs.owned.stores_of_kept hs.contents hk
  refine ⟨⟨h', hold s.live p size fun i => h'.mem (p + i)⟩, by rw [next, hc]; rfl, bs', order', ?_⟩
  obtain ⟨rfl, hsm⟩ | ⟨b, hm, rfl, hsz⟩ := hp
  · exact ⟨hhd, hs.owned.same hsm, hsto⟩
  · exact Sound.hold _ hs.owned hhd hm hsz hsto fun _ _ => rfl

lemma leads_calloc {n : Nat} (hw : s.NoWrap (.calloc n size env)) :
    s.Leads (.calloc n size env) := by
  obtain ⟨hpr, hw⟩ := hw
  obtain ⟨h', p, bs', order', hc, hhd, -, hk, hp⟩ := hs.holds.malloc hw env
  have hsto := hs.owned.stores_of_kept hs.contents hk
  obtain ⟨rfl, hsm⟩ | ⟨b, hm, rfl, hsz⟩ := hp
  · refine ⟨⟨h', s.live⟩, ?_, bs', order', hhd, hs.owned.same hsm, hsto⟩
    rw [next, calloc, hc]
    rfl
  have hne : b.addr + HEADER_SIZE ≠ 0 := by
    unfold HEADER_SIZE
    omega
  have hex : u64 (n * size) = n * size := by
    obtain hlt | hz := hpr
    · exact Nat.mod_eq_of_lt hlt
    · -- a request for nothing is not given a block
      rw [hz, malloc, if_pos rfl] at hc
      simp only [Option.some.injEq, Prod.mk.injEq] at hc
      exact absurd hc.2.symm hne
  rw [hex] at hsz hc
  refine ⟨⟨h'.zero (b.addr + HEADER_SIZE) (n * size), ⟨b.addr + HEADER_SIZE, n * size, fun _ => 0⟩ :: s.live⟩, ?_, bs',
    order', ?_⟩
  · rw [next, calloc, hex, hc]
    simp only [if_neg hne, Option.map_some, hold]
  · have htkn := Sound.hold (fun i => h'.mem (b.addr + HEADER_SIZE + i)) hs.owned hhd hm hsz hsto
      fun _ _ => rfl
    refine htkn.fill ((hm.2.2 b hm.1).2 (.inl rfl)) hm.1 (fun x hx => if_neg ?_) fun i hi => if_pos ?_
    all_goals omega

lemma leads_free (hp : s.Permitted (.free ptr env)) : s.Leads (.free ptr env) := by
  obtain rfl | ⟨e, he, rfl⟩ := hp
  · refine ⟨⟨s.heap, drop s.live 0⟩, rfl, bs, order, ?_⟩
    rw [drop_zero hs.owned]
    exact hs
  · obtain ⟨h', bs', order', hc, -, hsnd⟩ := hs.free he env.coalesce
    exact ⟨⟨h', drop s.live e.ptr⟩, by rw [next, hc]; rfl, bs', order', hsnd⟩

lemma leads_realloc
    (hpr : s.Permitted (.realloc ptr size env)) (hw : s.heap.NoWrap size) : s.Leads (.realloc ptr size env) := by
  obtain rfl | ⟨e, he, rfl⟩ := hpr.2
  · have hsm : s.next (.realloc 0 size env) = s.next (.malloc size env) := by
      have hfn : s.live.find? (fun f => decide (f.ptr = 0)) = none :=
        find?_eq_none.2 fun f hf => by simpa using ptr_ne_zero hs.owned hf
      rw [next, next, realloc, if_pos rfl]
      simp only [hfn, drop_zero hs.owned, ite_self]
    unfold Leads
    rw [hsm]
    exact leads_malloc hs hw env
  have hptr := ptr_ne_zero hs.owned he
  unfold Leads
  rw [next_realloc hs.owned he, realloc, if_neg hptr]
  by_cases hsz : size = 0
  · obtain ⟨h', bs', order', hcl, -, hsnd⟩ := hs.free he env.coalesce
    refine ⟨⟨h', drop s.live e.ptr⟩, ?_, bs', order', hsnd⟩
    rw [if_pos hsz, hcl, hsz]
    rfl
  rw [if_neg hsz]
  obtain ⟨h', p, bs', order', hcl, hhd, -, hk, hp⟩ := hs.holds.malloc hw env
  have hsto := hs.owned.stores_of_kept hs.contents hk
  obtain ⟨rfl, hsm⟩ | ⟨b, hm, rfl, hft⟩ := hp
  · refine ⟨⟨h', s.live⟩, ?_, bs', order', hhd, hs.owned.same hsm, hsto⟩
    rw [hcl]
    simp [hsz, hold]
  obtain ⟨c, hc, hcused, hcptr, hcsize⟩ := hs.owned.block e he
  have hne : b.addr + HEADER_SIZE ≠ 0 := by
    unfold HEADER_SIZE
    omega
  have hoth : b.addr + HEADER_SIZE ≠ e.ptr := by
    have := hm.2.1 c hc hcused
    omega
  have hb : e.ptr - HEADER_SIZE = c.addr := by omega
  have husable : h'.size (e.ptr - HEADER_SIZE) - HEADER_SIZE = c.size - HEADER_SIZE := by
    rw [hb, (hhd.headers c ((hm.2.2 c hcused).2 (.inr hc))).1]
  rw [hcl]
  dsimp only
  rw [if_neg hne, husable]
  generalize hcp : (if c.size - HEADER_SIZE < size then c.size - HEADER_SIZE else size) = n
  have hn : n ≤ size ∧ min e.size size ≤ n := by
    rw [← hcp]
    split_ifs <;> omega
  -- the new block with the copied bytes
  have htkn := Sound.hold (fun i => h'.mem (b.addr + HEADER_SIZE + i)) hs.owned hhd hm hft hsto fun _ _ => rfl
  have hfilled : Sound ⟨h'.copy (b.addr + HEADER_SIZE) e.ptr n, ⟨b.addr + HEADER_SIZE, size, _⟩ :: s.live⟩ bs' order' :=
    htkn.fill ((hm.2.2 b hm.1).2 (.inl rfl)) hm.1 (fun x hx => if_neg (by omega)) fun _ _ => rfl
  obtain ⟨h'', bs'', order'', hfr, -, hsnd⟩ := hfilled.free (mem_cons_of_mem _ he) env.coalesce
  have hd : ∀ data, drop (⟨b.addr + HEADER_SIZE, size, data⟩ :: s.live) e.ptr =
      ⟨b.addr + HEADER_SIZE, size, data⟩ :: drop s.live e.ptr := fun _ => filter_cons_of_pos (by simpa using hoth)
  rw [hd] at hsnd
  have hby : ∀ i < size, h''.mem (b.addr + HEADER_SIZE + i) =
      if i < min e.size size then e.data i else h''.mem (b.addr + HEADER_SIZE + i) := by
    intro i hi
    split_ifs with hold
    · have hcopied := hsnd.contents _ mem_cons_self i hi
      have hsource := hsto e he i (by omega)
      rw [hcopied, ← hsource]
      dsimp only [copy]
      rw [if_pos (by omega), Nat.add_sub_cancel_left]
    · rfl
  refine ⟨_, ?_, bs'', order'', hsnd.relabel hby⟩
  rw [hfr]
  simp only [Option.map_some, hold, hne, false_and, if_false]

lemma leads_store {i : Nat} {v : UInt8} (hp : s.Permitted (.store ptr i v)) :
    s.Leads (.store ptr i v) := by
  obtain ⟨e, he, rfl, hi⟩ := hp
  obtain ⟨b, hb, hu, hptr, hsz⟩ := hs.owned.block e he
  refine ⟨_, rfl, bs, order, ?_⟩
  have hwr := hs.write (m := update s.heap.mem (e.ptr + i) v) hb hu (fun x hx => ?_)
    (fun data => update data i v) ?_
  · rw [hptr]
    exact hptr ▸ hwr
  · exact update_of_ne (by omega) _ _
  intro f hf hfp j hj
  rw [hfp, hptr]
  by_cases hij : j = i
  · rw [hij, update_self, update_self]
  · rw [update_of_ne (by omega), update_of_ne hij, ← hfp]
    exact hs.contents f hf j hj

/-- **Step.** A permitted step whose sizes do not wrap returns and keeps the heap in order. -/
lemma Sound.leads {e : HeapEvent} (hp : s.Permitted e) (hw : s.NoWrap e) : s.Leads e := by
  cases e with
  | malloc size env => exact leads_malloc hs hw env
  | calloc n size env => exact leads_calloc hs hw
  | free ptr env => exact leads_free hs hp
  | realloc ptr size env => exact leads_realloc hs hp hw
  | store ptr i v => exact leads_store hs hp

end

/-- A process starts with an empty heap. -/
lemma sound_init {start : Nat} (mem : Mem) (hal : MALLOC_ALIGN ∣ start) (hpos : 0 < start)
    (hlim : start ≤ HEAP_LIMIT) : (init start mem).Sound [] [] where
  holds := ⟨rfl, by simp, by simp, rfl, nodup_nil, by simp, hal, ⟨hpos, hlim⟩, fun _ => rfl⟩
  owned := ⟨nodup_nil, by simp [init], by simp⟩
  contents := by
    intro e he
    cases he

end HeapSystem

/-- **The heap is in order in every run** in which no size wraps, and then every call returns. -/
theorem heap_ok_while_sizes_fit {start : Nat} (mem : Mem) (haligned : MALLOC_ALIGN ∣ start) (hpos : 0 < start)
    (hlimit : start ≤ HEAP_LIMIT) {es : List HeapEvent} {t : HeapSystem}
    (hrun : Run (guarded HeapSystem.Step HeapSystem.NoWrap) (init start mem) es t) :
    t.HeapOk ∧ ∀ e, t.Permitted e → t.NoWrap e → ∃ u, t.next e = some u := by
  obtain ⟨bs, order, hsnd⟩ : ∃ bs order, t.Sound bs order := by
    refine hrun.invariant (I := fun s => ∃ bs order, s.Sound bs order) ?_
      ⟨[], [], sound_init mem haligned hpos hlimit⟩
    rintro s e t ⟨bs, order, hsnd⟩ ⟨hw, hp, hn⟩
    obtain ⟨u, hu, hsnd'⟩ := hsnd.leads hp hw
    obtain rfl : u = t := Option.some_injective _ (hu.symm.trans hn)
    exact hsnd'
  refine ⟨hsnd.heapOk, fun e hp hw => ?_⟩
  obtain ⟨u, hu, -⟩ := hsnd.leads hp hw
  exact ⟨u, hu⟩

/-- The kernel grants every request. -/
def granted : BrkAnswers := ⟨true, true, true⟩

/-- A process that has taken a block. -/
def afterCalloc : HeapSystem := ((init 4096 fun _ => 7).next (.calloc 3 5 granted)).get rfl

/-- The process, when it has given the block back. -/
def afterFree : HeapSystem := (afterCalloc.next (.free 4112 granted)).get rfl

/-- A run with a block that is taken, filled with zeros, and given back. -/
theorem heap_ok_calloc_free : Run (guarded HeapSystem.Step HeapSystem.NoWrap) (init 4096 fun _ => 7)
      [.calloc 3 5 granted, .free 4112 granted] afterFree ∧ afterFree.HeapOk := by
  have hrun : Run (guarded HeapSystem.Step HeapSystem.NoWrap) (init 4096 fun _ => 7)
      [.calloc 3 5 granted, .free 4112 granted] afterFree := by
    refine .cons (t := afterCalloc) ⟨?_, ?_, (Option.some_get _).symm⟩
      (.single ⟨trivial, ?_, (Option.some_get _).symm⟩)
    · exact ⟨.inl (by decide), .inr ⟨by decide, .inl (by decide)⟩⟩
    · exact ⟨by decide, by decide⟩
    · exact .inr ⟨⟨4112, 15, fun _ => 0⟩, mem_cons_self, rfl⟩
  exact ⟨hrun, (heap_ok_while_sizes_fit _ (by decide) (by decide) (by decide) hrun).1⟩

/-- A process that has asked for more than there is: the size wraps to 16. -/
def afterWrap : HeapSystem := ((init 4096 fun _ => 0).next (.calloc (2 ^ 60 + 1) 16 granted)).get rfl

/-- `calloc(2^60 + 1, 16)` is given a block of 32 bytes. -/
theorem calloc_wraps :
    Run HeapSystem.Step (init 4096 fun _ => 0) [.calloc (2 ^ 60 + 1) 16 granted] afterWrap ∧
      ¬afterWrap.HeapOk := by
  refine ⟨.single ⟨⟨by decide, by decide⟩, (Option.some_get _).symm⟩, fun hok => ?_⟩
  have hins := (hok.inside ⟨4112, (2 ^ 60 + 1) * 16, fun _ => 0⟩ mem_cons_self).2
  exact absurd hins (by decide)

end OS01.Libc
