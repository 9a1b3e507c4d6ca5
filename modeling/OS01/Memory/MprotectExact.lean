import OS01.Memory.MunmapCover
import OS01.Memory.PageOps

/-!
# What `mprotect` changes

`do_mprotect` should give the areas in its range the new protection and leave every address outside alone, and no page
of the range should lose its data. It gives the protection to whole areas, so an area that reaches out of the range is
changed outside as well (`MprotectOk.areas`). It changes the entries page by page, and two kinds of page go wrong
(`PageOk`): the argument is compared with `PROT_NONE` in 64 bits but decoded in 32, so a value with only high bits set
stores an entry that is neither valid nor a stash; and a shared page that was stashed stays a stash when there is no
memory for its copy, in an area that is readable again. `mprotect_exact_iff` says that the call is right exactly
otherwise, and that a call that fails changes nothing.
-/

namespace OS01.Memory

open Function List Lib Pte PhysMem Ctx

/-! ## The specification -/

/-- An area has a protection. -/
def Vma.Carries (v : Vma) (pageProt : PageProt) (flags : VmFlags) : Prop := v.reprotect pageProt flags = v

instance (v : Vma) (pageProt : PageProt) (flags : VmFlags) : Decidable (v.Carries pageProt flags) :=
  inferInstanceAs (Decidable (_ = _))

/-- An address is covered by an area with these flags and this page protection. -/
def Shown (l : List Vma) (va : Nat) (flags : VmFlags) (pageProt : PageProt) : Prop :=
  ∃ v ∈ l, v.Has va ∧ v.vmFlags = flags ∧ v.vmPageProt = pageProt

namespace Ctx

/-- A page holds data: its entry is in use, and its frame has these bytes. -/
def Holds (c : Ctx) (n : Nat) (b : Nat → UInt8) : Prop :=
  (c.pte n).present = true ∧ ∀ i < 4096, c.mem.byteAt (c.pte n).phys i = b i

/-- A page keeps its data: its entry still has them, and can be read where the protection allows it. -/
def DataKept (pageProt : PageProt) (c c' : Ctx) (n : Nat) : Prop :=
  ∀ b, c.Holds n b → c'.Holds n b ∧ (pageProt ≠ .none → (c'.pte n).valid = true)

/-- The protection changes in `[start, stop)` and nowhere else, and no data are lost. -/
structure MprotectExact (pageProt : PageProt) (flags : VmFlags) (start stop : Nat) (c c' : Ctx) : Prop where
  inside : ∀ va, start ≤ va → va < stop →
    (∃ v ∈ c'.cur.mm.vmaList, v.Has va) ∧ ∀ v ∈ c'.cur.mm.vmaList, v.Has va → v.Carries pageProt flags
  outside : ∀ va, ¬ (start ≤ va ∧ va < stop) →
    ∀ f p, Shown c'.cur.mm.vmaList va f p ↔ Shown c.cur.mm.vmaList va f p
  entries : ∀ n, ¬ (start ≤ n * 4096 ∧ n * 4096 < stop) → c'.pte n = c.pte n
  data : ∀ n, start ≤ n * 4096 → n * 4096 < stop → DataKept pageProt c c' n

/-! ## Where the code is exact -/

/-- What the loop does to the data of a page in the state in which it meets it. A page that is skipped for lack of
memory must be readable already if the new protection is; any other page needs an entry that is still in use. -/
def PageOk (protNone : Bool) (pageProt : PageProt) (alloc : Nat → Option Nat) (c : Ctx) (va : Nat) : Prop :=
  let e := c.pte (PageTable.pageOf va)
  e.present = true → protNone = false →
    if (e.cow = true ∧ 1 < c.mem.cowRefs e.phys) ∧ (c.mem.alloc4kPage (alloc va)).2 = none then
      pageProt ≠ .none → e.valid = true
    else pageProt ≠ .none

/-- The same for all pages, along the loop. -/
def PagesOk (protNone : Bool) (pageProt : PageProt) (alloc : Nat → Option Nat) : Ctx → List Nat → Prop
  | _, [] => True
  | c, va :: vas =>
    c.PageOk protNone pageProt alloc va ∧
      PagesOk protNone pageProt alloc (protectPage protNone pageProt alloc (c, []) va).1 vas

/-- When `do_mprotect` is exact. -/
structure MprotectOk (prot : Nat) (pageProt : PageProt) (flags : VmFlags) (alloc : Nat → Option Nat)
    (start stop : Nat) (c : Ctx) : Prop where
  areas : ∀ v ∈ c.cur.mm.vmaList, start < v.vmEnd → v.vmStart < stop →
    start ≤ v.vmStart ∧ v.vmEnd ≤ stop ∨ v.Carries pageProt flags
  pages : PagesOk (decide (prot = 0)) pageProt alloc c (rangePages (start, stop))

/-- What the kernel keeps of an address space: the area list and the break are in order, areas other than the heap end
on page boundaries, and no frame of an entry in use is free. -/
structure Consistent (c : Ctx) : Prop where
  inv : c.cur.mm.Inv
  pages : ∀ v ∈ c.cur.mm.vmaList, v.vmFlags.heap = false → 4096 ∣ v.vmEnd
  frames : ∀ n, (c.pte n).present = true → ¬ c.mem.Available (c.pte n).phys

end Ctx

/-! ## The areas -/

variable {stop addr va : Nat} {pageProt : PageProt} {flags : VmFlags} {l : List Vma} {v w : Vma}

/-- A range that passes the scan is covered. -/
lemma mprotectScan_covers (hs : mprotectScan stop addr l = none) (hlo : addr ≤ va) (hhi : va < stop) :
    ∃ v ∈ l, v.Has va := by
  induction l generalizing addr with
  | nil =>
    rw [mprotectScan, if_pos (by omega)] at hs
    cases hs
  | cons v l ih =>
    rw [mprotectScan] at hs
    by_cases hsk : v.vmEnd ≤ addr
    · rw [if_pos hsk] at hs
      obtain ⟨w, hw, hhas⟩ := ih hs hlo
      exact ⟨w, mem_cons_of_mem _ hw, hhas⟩
    rw [if_pos (show addr < stop by omega)] at hs
    split_ifs at hs with hbrk hhl hio hl
    · exact ⟨v, mem_cons_self, by unfold Vma.Has; omega⟩
    · by_cases hin : va < v.vmEnd
      · exact ⟨v, mem_cons_self, by unfold Vma.Has; omega⟩
      · obtain ⟨w, hw, hhas⟩ := ih hs (by omega)
        exact ⟨w, mem_cons_of_mem _ hw, hhas⟩

/-- After the scan the loop reaches the end of the range. -/
lemma mprotectLoop_reached (hs : mprotectScan stop addr l = none) :
    stop ≤ (mprotectLoop stop pageProt flags addr l).2.2 := by
  induction l generalizing addr with
  | nil =>
    rw [mprotectScan] at hs
    split_ifs at hs with hlt
    exact not_lt.1 hlt
  | cons v l ih =>
    rw [mprotectScan] at hs
    rw [mprotectLoop]
    by_cases hsk : v.vmEnd ≤ addr
    · rw [if_pos hsk] at hs ⊢
      exact ih hs
    rw [if_neg hsk] at hs ⊢
    by_cases hbrk : stop ≤ v.vmStart
    · rw [if_pos hbrk] at hs ⊢
      split_ifs at hs with hlt
      exact not_lt.1 hlt
    rw [if_neg hbrk] at hs ⊢
    split_ifs at hs with hhl hio hl
    · dsimp only
      rw [if_pos hl]
      exact hl
    · dsimp only
      rw [if_neg hl]
      exact ih hs

lemma rangePages_append {a m s : Nat} (ham : a ≤ m) (hms : m ≤ s) (hdvd : 4096 ∣ m - a) :
    rangePages (a, m) ++ rangePages (m, s) = rangePages (a, s) := by
  obtain ⟨k, hk⟩ := hdvd
  have h1 : (m - a + 4095) / 4096 = k := by omega
  have h2 : (s - a + 4095) / 4096 = k + (s - m + 4095) / 4096 := by omega
  simp only [rangePages, h1, h2, range_add, map_append, map_map]
  congr 1
  refine map_congr_left fun i _ => ?_
  simp only [comp_apply]
  omega

/-- After the scan the loop passes the pages of the range, one by one. -/
lemma mprotectLoop_pages (hs : mprotectScan stop addr l = none) (hlt : addr < stop) (had : 4096 ∣ addr)
    (hpgs : ∀ v ∈ l, addr < v.vmEnd → v.vmStart < stop → 4096 ∣ v.vmEnd) :
    (mprotectLoop stop pageProt flags addr l).2.1.flatMap rangePages = rangePages (addr, stop) := by
  induction l generalizing addr with
  | nil =>
    rw [mprotectScan, if_pos hlt] at hs
    cases hs
  | cons v l ih =>
    rw [mprotectScan] at hs
    rw [mprotectLoop]
    have hr (a : Nat) (ha : addr ≤ a) : ∀ w ∈ l, a < w.vmEnd → w.vmStart < stop → 4096 ∣ w.vmEnd :=
      fun w hw hend => hpgs w (mem_cons_of_mem _ hw) (by omega)
    by_cases hsk : v.vmEnd ≤ addr
    · rw [if_pos hsk] at hs ⊢
      exact ih hs hlt had (hr addr le_rfl)
    rw [if_neg hsk]
    split_ifs at hs with hbrk hhl hio hl
    · rw [if_neg hbrk]
      rw [if_pos hl, max_eq_left (by omega), min_eq_left hl]
      simp
    · rw [if_neg hbrk]
      rw [if_neg hl, max_eq_left (by omega), min_eq_right (by omega)]
      have hend := hpgs v mem_cons_self (by omega) (by omega)
      rw [flatMap_cons, ih hs (by omega) hend (hr _ (by omega))]
      exact rangePages_append (by omega) (by omega) (Nat.dvd_sub hend had)

/-- An area that the range meets. -/
def Vma.Meets (addr stop : Nat) (v : Vma) : Prop := addr < v.vmEnd ∧ v.vmStart < stop

instance (v : Vma) : Decidable (v.Meets addr stop) := inferInstanceAs (Decidable (_ ∧ _))

lemma Vma.carries_iff : v.Carries pageProt flags ↔
    (v.reprotect pageProt flags).vmFlags = v.vmFlags ∧ (v.reprotect pageProt flags).vmPageProt = v.vmPageProt := by
  cases v
  simp [Vma.Carries, Vma.reprotect]

/-- The areas behind one of a well-formed list. -/
lemma WellFormed.behind (h : WellFormed (v :: l)) :
    WellFormed l ∧ ∀ w ∈ l, w.vmStart < w.vmEnd → v.vmEnd ≤ w.vmStart := by
  obtain ⟨hs, hbd, hdis⟩ := h
  obtain ⟨hv, hs⟩ := pairwise_cons.1 hs
  obtain ⟨hd, hdis⟩ := pairwise_cons.1 hdis
  refine ⟨⟨hs, fun w hw => hbd w (mem_cons_of_mem _ hw), hdis⟩, fun w hw hpos => ?_⟩
  have hle := hv w hw
  by_contra hlt
  exact hd w hw w.vmStart ⟨⟨hle, by omega⟩, le_rfl, hpos⟩

section

variable (hwf : WellFormed l)
include hwf

/-- **The loop over the areas** gives the protection to the areas that meet the range. Empty areas cover nothing. -/
lemma mem_mprotectLoop (hpos : w.vmStart < w.vmEnd) : w ∈ (mprotectLoop stop pageProt flags addr l).1 ↔
      ∃ v ∈ l, w = if v.Meets addr stop then v.reprotect pageProt flags else v := by
  induction l generalizing addr with
  | nil => simp [mprotectLoop]
  | cons v l ih =>
    obtain ⟨hwf', hbehind⟩ := hwf.behind
    have hsrt := (pairwise_cons.1 hwf.1).1
    -- an area behind is not empty if it gives `w`
    have hs {x : Vma} {a : Nat} (hx : w = if x.Meets a stop then x.reprotect pageProt flags else x) :
        x.vmStart < x.vmEnd := by
      split_ifs at hx <;> subst hx <;> exact hpos
    rw [mprotectLoop]
    by_cases hsk : v.vmEnd ≤ addr
    · have hv : ¬ v.Meets addr stop := by
        unfold Vma.Meets
        omega
      rw [if_pos hsk]
      simp [ih hwf', hv]
    rw [if_neg hsk]
    by_cases hbrk : stop ≤ v.vmStart
    · rw [if_pos hbrk]
      have hn : ∀ x ∈ v :: l, ¬ x.Meets addr stop := by
        intro x hx
        unfold Vma.Meets
        obtain rfl | hx := mem_cons.1 hx
        · omega
        · have := hsrt x hx
          omega
      constructor
      · intro hw
        exact ⟨w, hw, by rw [if_neg (hn w hw)]⟩
      · rintro ⟨x, hx, rfl⟩
        rwa [if_neg (hn x hx)]
    rw [if_neg hbrk]
    have hv : v.Meets addr stop := by
      unfold Vma.Meets
      omega
    split_ifs with hl
    · have hr : w ∈ l ↔ ∃ x ∈ l, w = if x.Meets addr stop then x.reprotect pageProt flags else x := by
        have hn {x : Vma} (hx : x ∈ l) (hlt : x.vmStart < x.vmEnd) : ¬ x.Meets addr stop := by
          have := hbehind x hx hlt
          unfold Vma.Meets
          omega
        constructor
        · intro hw
          exact ⟨w, hw, by rw [if_neg (hn hw hpos)]⟩
        · rintro ⟨x, hx, heq⟩
          rw [if_neg (hn hx (hs heq))] at heq
          exact heq ▸ hx
      simp [hr, hv]
    · have hr : (∃ x ∈ l, w = if x.Meets v.vmEnd stop then x.reprotect pageProt flags else x) ↔
          ∃ x ∈ l, w = if x.Meets addr stop then x.reprotect pageProt flags else x := by
        refine exists_congr fun x => and_congr_right fun hx => ?_
        by_cases hlt : x.vmStart < x.vmEnd
        · have hbeh := hbehind x hx hlt
          have hiff : x.Meets v.vmEnd stop ↔ x.Meets addr stop := by
            unfold Vma.Meets
            omega
          simp [hiff]
        · exact iff_of_false (fun heq => hlt (hs heq)) fun heq => hlt (hs heq)
      simp [ih hwf', hr, hv]

/-- Every area of the new list that holds an address comes from one of the old list that holds it, and the other way
round. -/
lemma has_mprotectLoop (va : Nat) {Q : Vma → Prop} :
    (∃ w ∈ (mprotectLoop stop pageProt flags addr l).1, w.Has va ∧ Q w) ↔
      ∃ v ∈ l, v.Has va ∧ Q (if v.Meets addr stop then v.reprotect pageProt flags else v) := by
  constructor
  · rintro ⟨w, hw, hhas, hQ⟩
    obtain ⟨v, hv, heq⟩ := (mem_mprotectLoop hwf (hhas.1.trans_lt hhas.2)).1 hw
    subst heq
    refine ⟨v, hv, ?_, hQ⟩
    split_ifs at hhas <;> exact hhas
  · rintro ⟨v, hv, hhas, hQ⟩
    have hs : (if v.Meets addr stop then v.reprotect pageProt flags else v).Has va := by
      split_ifs <;> exact hhas
    exact ⟨_, (mem_mprotectLoop hwf (hs.1.trans_lt hs.2)).2 ⟨v, hv, rfl⟩, hs, hQ⟩

/-- Inside the range the new protection is carried. -/
lemma carries_inside (hlo : addr ≤ va) (hhi : va < stop)
    (hw : w ∈ (mprotectLoop stop pageProt flags addr l).1) (hhas : w.Has va) : w.Carries pageProt flags := by
  obtain ⟨v, hv, heq⟩ := (mem_mprotectLoop hwf (hhas.1.trans_lt hhas.2)).1 hw
  have hvh : v.Has va := by
    subst heq
    split_ifs at hhas <;> exact hhas
  have hmts : v.Meets addr stop := ⟨hlo.trans_lt hvh.2, hvh.1.trans_lt hhi⟩
  rw [if_pos hmts] at heq
  subst heq
  rfl

/-- Outside nothing changes exactly if the areas that reach out of the range carry the protection already. -/
lemma shown_outside_iff : (∀ va, ¬ (addr ≤ va ∧ va < stop) →
        ∀ f p, Shown (mprotectLoop stop pageProt flags addr l).1 va f p ↔ Shown l va f p) ↔
      ∀ v ∈ l, addr < v.vmEnd → v.vmStart < stop →
        addr ≤ v.vmStart ∧ v.vmEnd ≤ stop ∨ v.Carries pageProt flags := by
  constructor
  · intro h v hv hend hst
    by_contra hnot
    rw [not_or] at hnot
    -- an address of the area outside the range
    obtain ⟨va, hhas, hout⟩ : ∃ va, v.Has va ∧ ¬ (addr ≤ va ∧ va < stop) := by
      unfold Vma.Has
      by_cases hlo : v.vmStart < addr
      · exact ⟨v.vmStart, by omega, by omega⟩
      · exact ⟨v.vmEnd - 1, by omega, by omega⟩
    obtain ⟨x, hx, hxh, hflg, hp⟩ :=
      (has_mprotectLoop hwf va).1 ((h va hout v.vmFlags v.vmPageProt).2 ⟨v, hv, hhas, rfl, rfl⟩)
    obtain rfl := hwf.eq_of_has hx hv hxh hhas
    rw [if_pos ⟨hend, hst⟩] at hflg hp
    exact hnot.2 (Vma.carries_iff.2 ⟨hflg, hp⟩)
  · intro h va hout f p
    have hs : ∀ v ∈ l, v.Has va → (if v.Meets addr stop then v.reprotect pageProt flags else v) = v := by
      intro v hv hhas
      split_ifs with hmts
      · obtain hin | hcarries := h v hv hmts.1 hmts.2
        · unfold Vma.Has at hhas
          omega
        · exact hcarries
      · rfl
    unfold Shown
    rw [has_mprotectLoop hwf va]
    constructor
    · rintro ⟨v, hv, hhas, hQ⟩
      rw [hs v hv hhas] at hQ
      exact ⟨v, hv, hhas, hQ⟩
    · rintro ⟨v, hv, hhas, hQ⟩
      refine ⟨v, hv, hhas, ?_⟩
      rwa [hs v hv hhas]

end

/-! ## The pages -/

namespace PhysMem

variable {m : PhysMem} {f g : Nat}

/-- A frame that is not free stays so when another one is taken. -/
lemma take_inUse (hg : m.Available g) (hf : ¬ m.Available f) : ¬ (m.take g).Available f := by
  rintro ⟨hs, hu, hown⟩
  have hne : f ≠ g := by
    rintro rfl
    exact hf hg
  simp only [take, update_of_ne hne] at hu
  refine hf ⟨hs, hu, ?_⟩
  by_cases hp : f / 512 = g / 512
  · rw [hp]
    exact hg.2.2
  · simpa [take, update_of_ne hp] using hown

lemma take_self_inUse : ¬ (m.take g).Available g := by
  rintro ⟨-, hu, -⟩
  simp [take] at hu

lemma cowPut_available : (m.cowPut f).1.Available g ↔ m.Available g := by
  unfold cowPut
  split_ifs <;> rfl

variable {i : Nat}

lemma cowPut_byteAt : (m.cowPut f).1.byteAt g i = m.byteAt g i := by
  unfold cowPut
  split_ifs <;> rfl

lemma copyPage_available : (m.copyPage f g).Available = m.Available := rfl

lemma copyPage_byteAt_of_ne {h : Nat} (hi : i < 4096) (hne : h ≠ g) :
    (m.copyPage f g).byteAt h i = m.byteAt h i := by
  have hdiv : (h * 4096 + i) / 4096 = h := by omega
  simp [copyPage, fillPage, byteAt, hdiv, hne]

lemma copyPage_byteAt (hi : i < 4096) : (m.copyPage f g).byteAt g i = m.byteAt f i := by
  have hdiv : (g * 4096 + i) / 4096 = g := by omega
  have hmod : (g * 4096 + i) % 4096 = i := by omega
  simp [copyPage, fillPage, byteAt, hdiv, hmod]

/-- The frames in use stay in use and keep their contents. -/
structure Preserves (m m' : PhysMem) : Prop where
  inUse : ∀ f, ¬ m.Available f → ¬ m'.Available f
  bytes : ∀ f, ¬ m.Available f → ∀ i < 4096, m'.byteAt f i = m.byteAt f i

lemma Preserves.refl : Preserves m m := ⟨fun _ h => h, fun _ _ _ _ => rfl⟩

lemma Preserves.trans {m' m'' : PhysMem} (h : Preserves m m') (h' : Preserves m' m'') : Preserves m m'' :=
  ⟨fun f hf => h'.inUse f (h.inUse f hf), fun f hf i hi => (h'.bytes f (h.inUse f hf) i hi).trans (h.bytes f hf i hi)⟩

lemma Preserves.cowPut : Preserves m (m.cowPut f).1 :=
  ⟨fun _ hg => cowPut_available.not.2 hg, fun _ _ _ _ => cowPut_byteAt⟩

/-- A frame is taken and filled with a copy. -/
lemma Preserves.takeCopy (hg : m.Available g) : Preserves m ((m.take g).copyPage f g) := by
  refine ⟨fun h hh => ?_, fun h hh i hi => ?_⟩
  · rw [copyPage_available]
    exact take_inUse hg hh
  · have hne : h ≠ g := by
      rintro rfl
      exact hh hg
    rw [copyPage_byteAt_of_ne hi hne]
    rfl

end PhysMem

namespace Ctx

open PageTable

/-- What a step of the loop leaves alone, whatever it does to its page. -/
structure StepsPage (c c' : Ctx) (n : Nat) : Prop where
  mm : c'.cur.mm = c.cur.mm
  others : ∀ k, k ≠ n → c'.pte k = c.pte k
  mem : c.mem.Preserves c'.mem
  frame : (c'.pte n).present = true → ¬ c'.mem.Available (c'.pte n).phys

lemma setPte_pte {c : Ctx} {n : Nat} {e : Pte} (htab : (c.cur.pt.pmd (n / 512)).isTable = true) :
    (c.setPte n e).pte = update c.pte n e := PageTable.setPte_pte htab

variable {c c' : Ctx} {e : Pte} {n f a s : Nat}

/-- An entry is replaced by one of a frame in use. -/
lemma StepsPage.of_setPte (htab : (c.cur.pt.pmd (n / 512)).isTable = true)
    {m : PhysMem} (hc' : c' = (c.withMem m).setPte n e) (hmem : c.mem.Preserves m) (hfrm : ¬ m.Available e.phys) :
    c.StepsPage c' n ∧ c'.pte n = e := by
  subst hc'
  have hpte : ((c.withMem m).setPte n e).pte = update c.pte n e := setPte_pte htab
  refine ⟨⟨rfl, fun k hk => by rw [hpte, update_of_ne hk], hmem, fun _ => ?_⟩, by rw [hpte, update_self]⟩
  rw [hpte, update_self]
  exact hfrm

lemma StepsPage.refl (h : (c.pte n).present = true → ¬ c.mem.Available (c.pte n).phys) : c.StepsPage c n :=
  ⟨rfl, fun _ _ => rfl, .refl, h⟩

/-- A page whose entry gets the same frame, or one with the same contents. -/
lemma dataKept_of_frame (hpte : c'.pte n = e)
    (hph : e.phys = f) (hby : ∀ i < 4096, c'.mem.byteAt f i = c.mem.byteAt (c.pte n).phys i)
    (hin : (c.pte n).present = true) :
    DataKept pageProt c c' n ↔ e.present = true ∧ (pageProt ≠ .none → e.valid = true) := by
  unfold DataKept Holds
  rw [hpte, hph]
  constructor
  · intro h
    obtain ⟨⟨hp, -⟩, hval⟩ := h (c.mem.byteAt (c.pte n).phys) ⟨hin, fun _ _ => rfl⟩
    exact ⟨hp, hval⟩
  · rintro ⟨hp, hval⟩ b ⟨-, hb⟩
    exact ⟨⟨hp, fun i hi => (hby i hi).trans (hb i hi)⟩, hval⟩

lemma ofProt_present :
    (ofProt f pageProt).present = true ∧ (pageProt ≠ .none → (ofProt f pageProt).valid = true) ↔
      pageProt ≠ .none := by
  cases pageProt <;> simp [ofProt, present]

lemma ofProt_phys : (ofProt f pageProt).phys = f := by
  cases pageProt <;> rfl

variable {protNone : Bool} {alloc : Nat → Option Nat}

lemma isTable_of_present (hin : (c.pte n).present = true) : (c.cur.pt.pmd (n / 512)).isTable = true := by
  refine c.cur.pt.pteBacked _ fun h => ?_
  change c.pte n = clear at h
  rw [h] at hin
  cases hin

/-- The step on an entry in use. -/
lemma protectPage_eq (hin : (c.pte (pageOf va)).present = true) (deferred : List Nat) :
    protectPage protNone pageProt alloc (c, deferred) va =
      if protNone then (c.setPte (pageOf va) (c.pte (pageOf va)).stash, deferred)
      else if (c.pte (pageOf va)).cow then
        match c.resolveCow (pageOf va) (fun f => ofProt f pageProt) (alloc va) with
        | none => (c, deferred)
        | some (c', pending) => (c', pending.toList ++ deferred)
      else (c.setPte (pageOf va) (ofProt (c.pte (pageOf va)).phys pageProt), deferred) := by
  simp only [protectPage, walk_of_isTable (isTable_of_present hin), hin]
  rfl

/-- The step on any other entry does nothing. -/
lemma protectPage_absent (hin : ¬ (c.pte (pageOf va)).present = true) (deferred : List Nat) :
    protectPage protNone pageProt alloc (c, deferred) va = (c, deferred) := by
  unfold protectPage
  cases hw : c.cur.pt.walk va with
  | none => simp [hw]
  | some n =>
    obtain ⟨rfl, -⟩ := walk_eq_some hw
    simp [hw, hin]

/-- A copy-on-write page: it is skipped for lack of memory, or gets an entry of a frame with its contents. -/
lemma resolveCow_spec (hin : (c.pte n).present = true) (huse : ¬ c.mem.Available (c.pte n).phys)
    (o : Option Nat) : (1 < c.mem.cowRefs (c.pte n).phys ∧ (c.mem.alloc4kPage o).2 = none) ∧
        c.resolveCow n (fun f => ofProt f pageProt) o = none ∨
      ¬ (1 < c.mem.cowRefs (c.pte n).phys ∧ (c.mem.alloc4kPage o).2 = none) ∧
        ∃ c' pending, c.resolveCow n (fun f => ofProt f pageProt) o = some (c', pending) ∧
          c.StepsPage c' n ∧ (DataKept pageProt c c' n ↔ pageProt ≠ .none) := by
  have htab := isTable_of_present hin
  -- the new entry is of frame `f` in memory `m`
  have hset (m : PhysMem) (f : Nat) (hmem : c.mem.Preserves m) (hf : ¬ m.Available f)
      (hby : ∀ i < 4096, m.byteAt f i = c.mem.byteAt (c.pte n).phys i) :
      c.StepsPage ((c.withMem m).setPte n (ofProt f pageProt)) n ∧
        (DataKept pageProt c ((c.withMem m).setPte n (ofProt f pageProt)) n ↔ pageProt ≠ .none) := by
    obtain ⟨hs, hpte⟩ := StepsPage.of_setPte (e := ofProt f pageProt) htab rfl hmem (by rwa [ofProt_phys])
    exact ⟨hs, (dataKept_of_frame hpte ofProt_phys hby hin).trans ofProt_present⟩
  unfold resolveCow
  by_cases hr : 1 < c.mem.cowRefs (c.pte n).phys
  · simp only [if_pos hr]
    cases o with
    | none => exact .inl ⟨⟨hr, rfl⟩, rfl⟩
    | some g =>
      by_cases hg : c.mem.Available g
      · have halc : c.mem.alloc4kPage (some g) = (c.mem.take g, some g) := if_pos hg
        rw [halc]
        refine .inr ⟨by simp, _, _, rfl, hset _ g ?_ ?_ ?_⟩
        · exact (PhysMem.Preserves.takeCopy hg).trans .cowPut
        · rw [cowPut_available]
          exact take_self_inUse
        · intro i hi
          rw [cowPut_byteAt, copyPage_byteAt hi]
          rfl
      · have halc : c.mem.alloc4kPage (some g) = (c.mem, none) := if_neg hg
        rw [halc]
        exact .inl ⟨⟨hr, rfl⟩, rfl⟩
  · simp only [if_neg hr]
    refine .inr ⟨by tauto, _, _, rfl, hset _ _ .cowPut ?_ fun i _ => cowPut_byteAt⟩
    rwa [cowPut_available]

/-- **One page.** The step changes the entry of its page only, and keeps the data of that page exactly if `PageOk`. -/
lemma protectPage_spec (alloc : Nat → Option Nat) (hpr : protNone = true → pageProt = .none) (c : Ctx) (deferred : List Nat) (va : Nat)
    (hfrm : (c.pte (pageOf va)).present = true → ¬ c.mem.Available (c.pte (pageOf va)).phys) :
    c.StepsPage (protectPage protNone pageProt alloc (c, deferred) va).1 (pageOf va) ∧
      (DataKept pageProt c (protectPage protNone pageProt alloc (c, deferred) va).1 (pageOf va) ↔
        c.PageOk protNone pageProt alloc va) := by
  unfold PageOk
  by_cases hin : (c.pte (pageOf va)).present = true
  · have htab := isTable_of_present hin
    have huse := hfrm hin
    rw [protectPage_eq hin]
    simp only [hin]
    cases hn : protNone with
    | true =>
      obtain ⟨hs, hpte⟩ := StepsPage.of_setPte (e := (c.pte (pageOf va)).stash) htab rfl .refl huse
      refine ⟨hs, ?_⟩
      refine (dataKept_of_frame (f := (c.pte (pageOf va)).phys) hpte rfl ?_ hin).trans ?_
      · exact fun _ _ => rfl
      · simp [stash, present, hpr hn]
    | false =>
      simp only [true_implies]
      cases hcow : (c.pte (pageOf va)).cow with
      | true =>
        simp only [true_and]
        rcases @resolveCow_spec pageProt c (pageOf va) hin huse (alloc va) with
          ⟨hsk, hn⟩ | ⟨hgo, c', pending, hsm, hs, hd⟩
        · rw [hn, if_pos hsk]
          refine ⟨.refl hfrm, ?_⟩
          refine (dataKept_of_frame rfl rfl (fun _ _ => rfl) hin).trans ?_
          simp [hin]
        · rw [hsm, if_neg hgo]
          exact ⟨hs, hd⟩
      | false =>
        obtain ⟨hs, hpte⟩ := StepsPage.of_setPte (e := ofProt (c.pte (pageOf va)).phys pageProt) htab rfl
          .refl (by rwa [ofProt_phys])
        refine ⟨hs, (dataKept_of_frame hpte ofProt_phys ?_ hin).trans ofProt_present⟩
        exact fun _ _ => rfl
  · rw [protectPage_absent hin]
    refine ⟨.refl hfrm, iff_of_true ?_ ?_⟩
    · rintro b ⟨hp, -⟩
      exact absurd hp hin
    · intro e hp
      exact absurd hp hin

/-- The list of frames to free does not matter for the pages. -/
lemma protectPage_deferred (c : Ctx) (deferred : List Nat) (va : Nat) :
    (protectPage protNone pageProt alloc (c, deferred) va).1 = (protectPage protNone pageProt alloc (c, []) va).1 := by
  by_cases hin : (c.pte (pageOf va)).present = true
  · rw [protectPage_eq hin, protectPage_eq hin]
    split_ifs
    · rfl
    · split <;> rfl
    · rfl
  · rw [protectPage_absent hin, protectPage_absent hin]

/-- A page with the same entry holds the same data, if its frame was in use. -/
lemma holds_congr (hpte : c'.pte n = c.pte n) (hmem : c.mem.Preserves c'.mem)
    (hfrm : (c.pte n).present = true → ¬ c.mem.Available (c.pte n).phys) (b : Nat → UInt8) :
    c'.Holds n b ↔ c.Holds n b := by
  unfold Holds
  rw [hpte]
  refine and_congr_right fun hin => forall₂_congr fun i hi => ?_
  rw [hmem.bytes _ (hfrm hin) i hi]

/-- **The loop over the pages**: only their entries change, and their data are kept exactly if `PagesOk`. -/
lemma protectPages_spec (hp : protNone = true → pageProt = .none) {vas : List Nat} {deferred : List Nat}
    {st : Ctx × List Nat} (hst : vas.foldl (protectPage protNone pageProt alloc) (c, deferred) = st)
    (hnd : (vas.map pageOf).Nodup) (hframes : ∀ n, (c.pte n).present = true → ¬ c.mem.Available (c.pte n).phys) :
    (∀ n, n ∉ vas.map pageOf → st.1.pte n = c.pte n) ∧ c.mem.Preserves st.1.mem ∧
      ((∀ va ∈ vas, DataKept pageProt c st.1 (pageOf va)) ↔ PagesOk protNone pageProt alloc c vas) := by
  induction vas generalizing c deferred with
  | nil =>
    subst hst
    exact ⟨fun _ _ => rfl, .refl, by simp [PagesOk]⟩
  | cons va vas ih =>
    obtain ⟨hs, hd⟩ := protectPage_spec alloc hp c deferred va (hframes _)
    rw [map_cons, nodup_cons] at hnd
    rw [foldl_cons] at hst
    rw [PagesOk, ← hd, ← protectPage_deferred c deferred va]
    generalize protectPage protNone pageProt alloc (c, deferred) va = st1 at hst hs ⊢
    obtain ⟨c1, deferred1⟩ := st1
    have hframes1 : ∀ n, (c1.pte n).present = true → ¬ c1.mem.Available (c1.pte n).phys := by
      intro n hin
      by_cases hn : n = pageOf va
      · subst hn
        exact hs.frame hin
      · rw [hs.others n hn] at hin ⊢
        exact hs.mem.inUse _ (hframes n hin)
    obtain ⟨ho, hmem, hpgs⟩ := ih hst hnd.2 hframes1
    rw [← hpgs]
    refine ⟨fun n hn => ?_, hs.mem.trans hmem, ?_⟩
    · rw [map_cons, mem_cons, not_or] at hn
      rw [ho n hn.2, hs.others n hn.1]
    rw [forall_mem_cons]
    refine and_congr ?_ (forall₂_congr fun x hx => ?_)
    · -- the rest of the loop does not come back to the page
      have hlater := ho _ hnd.1
      refine forall₂_congr fun b _ => ?_
      rw [holds_congr hlater hmem (hframes1 _), hlater]
    · -- and the step did not touch the later pages
      have hne : pageOf x ≠ pageOf va := fun h => hnd.1 (h ▸ mem_map_of_mem hx)
      refine forall_congr' fun b => ?_
      rw [holds_congr (hs.others _ hne) hs.mem (hframes _)]

/-- Freeing frames changes no entry and no byte. -/
lemma foldl_free_same (fs : List Nat) (c : Ctx) :
    (fs.foldl free c).cur = c.cur ∧ (fs.foldl free c).mem.bytes = c.mem.bytes := by
  induction fs generalizing c with
  | nil => exact ⟨rfl, rfl⟩
  | cons f fs ih =>
    obtain ⟨hcur, hby⟩ := ih (c.free f)
    refine ⟨hcur, hby.trans ?_⟩
    unfold free free4kPage
    split_ifs <;> rfl

/-- The slots of the pages of a range. -/
lemma map_pageOf_rangePages (ha : 4096 ∣ a) (hs : s ≤ ADDR_LIMIT) :
    (rangePages (a, s)).map pageOf = (range ((s - a + 4095) / 4096)).map (a / 4096 + ·) := by
  rw [rangePages, map_map]
  refine map_congr_left fun i hi => ?_
  have hlt := mem_range.1 hi
  have hlim : ADDR_LIMIT = 140737488355327 := rfl
  simp only [comp_apply, pageOf]
  omega

lemma mem_map_pageOf (ha : 4096 ∣ a) (hs : s ≤ ADDR_LIMIT) :
    n ∈ (rangePages (a, s)).map pageOf ↔ a ≤ n * 4096 ∧ n * 4096 < s := by
  rw [map_pageOf_rangePages ha hs, mem_map]
  constructor
  · rintro ⟨i, hi, rfl⟩
    have := mem_range.1 hi
    omega
  · rintro ⟨hlo, hhi⟩
    exact ⟨n - a / 4096, mem_range.2 (by omega), by omega⟩

lemma nodup_map_pageOf (ha : 4096 ∣ a) (hs : s ≤ ADDR_LIMIT) : ((rangePages (a, s)).map pageOf).Nodup := by
  rw [map_pageOf_rangePages ha hs]
  exact nodup_range.map fun i j hij => Nat.add_left_cancel hij

end Ctx

/-! ## The call -/

lemma mprotectScan_neg {err : Int} (h : mprotectScan stop addr l = some err) :
    err < 0 := by
  induction l generalizing addr with
  | nil =>
    rw [mprotectScan] at h
    split_ifs at h
    cases h
    decide
  | cons v l ih =>
    rw [mprotectScan] at h
    split_ifs at h
    · exact ih h
    all_goals first
      | exact ih h
      | cases h
        decide

/-- What `do_mprotect` does to the areas: it fails and does nothing, or the range is in order and the loops run. -/
lemma doMprotect_cases (mm : Mm) (addr length prot : Nat) :
    (∃ rc < 0, doMprotect mm addr length prot = (mm, none, rc)) ∨
      ∃ pageProt flags, protToPageFlags prot = some (pageProt, flags) ∧
        pageAlign addr < pageAlign addr + pageAlign length ∧
        mmUserRangeProtected mm (pageAlign addr) (pageAlign addr + pageAlign length) = false ∧
        mprotectScan (pageAlign addr + pageAlign length) (pageAlign addr) mm.vmaList = none ∧
        doMprotect mm addr length prot =
          let r := mprotectLoop (pageAlign addr + pageAlign length) pageProt flags (pageAlign addr) mm.vmaList
          ({ mm with vmaList := r.1 }, some (pageProt, r.2.1), 0) := by
  have hL := pageAlign_lt length
  unfold doMprotect
  dsimp only
  split_ifs with hz hw hp
  · exact .inl ⟨_, by decide, rfl⟩
  · exact .inl ⟨_, by decide, rfl⟩
  · exact .inl ⟨_, by decide, rfl⟩
  have hlt : pageAlign addr + pageAlign length < 2 ^ 64 := by
    unfold u64 at hw
    omega
  rw [u64_of_lt hlt] at hp ⊢
  rcases hflg : protToPageFlags prot with _ | ⟨pageProt, flags⟩
  · exact .inl ⟨_, by decide, rfl⟩
  dsimp only
  rcases hs : mprotectScan (pageAlign addr + pageAlign length) (pageAlign addr) mm.vmaList with _ | err
  · refine .inr ⟨pageProt, flags, rfl, by omega, by simpa using hp, rfl, ?_⟩
    have hreached := @mprotectLoop_reached _ _ pageProt flags _ hs
    rw [if_neg (not_lt.2 hreached)]
  · exact .inl ⟨err, mprotectScan_neg hs, rfl⟩

namespace Ctx

/-- **`do_mprotect`.** A call that succeeds changes the protection in its range and nowhere else, and loses no data,
exactly if the areas that reach out of the range carry the new protection already and every page passes `PageOk`. A
call that fails changes nothing. -/
theorem mprotect_exact_iff (c : Ctx) (hc : c.Consistent) (addr length prot : Nat) (alloc : Nat → Option Nat) :
    ((c.doMprotect addr length prot alloc).2 = 0 →
        ∃ pageProt flags, protToPageFlags prot = some (pageProt, flags) ∧
          (MprotectExact pageProt flags (pageAlign addr) (pageAlign addr + pageAlign length) c
              (c.doMprotect addr length prot alloc).1 ↔
            MprotectOk prot pageProt flags alloc (pageAlign addr) (pageAlign addr + pageAlign length) c)) ∧
      ((c.doMprotect addr length prot alloc).2 < 0 →
        (c.doMprotect addr length prot alloc).1.cur.mm.vmaList = c.cur.mm.vmaList ∧
          ∀ n, (c.doMprotect addr length prot alloc).1.pte n = c.pte n) := by
  have hwf := hc.inv.list.wellFormed
  have hstart := dvd_pageAlign addr
  rcases doMprotect_cases c.cur.mm addr length prot with
    ⟨rc, hneg, hcl⟩ | ⟨pageProt, flags, hflg, hlt, hap, hs, hcl⟩
  · unfold doMprotect
    rw [hcl]
    exact ⟨fun h => absurd h hneg.ne, fun _ => ⟨rfl, fun _ => rfl⟩⟩
  generalize pageAlign addr + pageAlign length = stop at hlt hap hs hcl ⊢
  generalize pageAlign addr = start at hstart hlt hap hs hcl ⊢
  -- the areas that the range meets are not the heap, so the loop passes the pages of the range
  have hpgs : ∀ v ∈ c.cur.mm.vmaList, start < v.vmEnd → v.vmStart < stop → 4096 ∣ v.vmEnd := by
    intro v hv hend hbegin
    refine hc.pages v hv (Bool.eq_false_iff.2 fun hhp => ?_)
    have hok := hc.inv.list.areas v hv
    have := unprotected_apart hc.inv.brk_pos hlt hap hhp (hok.heapAt hhp)
    have := hok.within
    unfold Vma.Apart at *
    omega
  have hvas := @mprotectLoop_pages _ _ pageProt flags _ hs hlt hstart hpgs
  have hlim : stop ≤ ADDR_LIMIT := by
    obtain ⟨v, hv, hhas⟩ := @mprotectScan_covers _ _ (stop - 1) _ hs (by omega) (by omega)
    have := (hwf.2.1 v hv).2
    unfold Vma.Has at hhas
    omega
  have hp : decide (prot = 0) = true → pageProt = .none := by
    intro h
    obtain rfl := of_decide_eq_true h
    obtain ⟨rfl, -⟩ := Prod.mk.inj (Option.some.inj hflg)
    rfl
  obtain ⟨st, hst⟩ :
      ∃ st, (rangePages (start, stop)).foldl (protectPage (decide (prot = 0)) pageProt alloc) (c, []) = st := ⟨_, rfl⟩
  obtain ⟨ho, -, hd⟩ := protectPages_spec hp hst (nodup_map_pageOf hstart hlim) hc.frames
  have hres : (c.doMprotect addr length prot alloc).2 = 0 := by
    unfold doMprotect
    rw [hcl]
  refine ⟨fun _ => ⟨pageProt, flags, hflg, ?_⟩, fun hneg => absurd hneg (by rw [hres]; decide)⟩
  -- what the call leaves: the new list, and the entries and contents after the loop
  have hl : (c.doMprotect addr length prot alloc).1.cur.mm.vmaList =
      (mprotectLoop (stop) pageProt flags (start) c.cur.mm.vmaList).1 := by
    unfold doMprotect
    rw [hcl]
    rfl
  obtain ⟨hpte, hby⟩ : (c.doMprotect addr length prot alloc).1.pte = st.1.pte ∧
      (c.doMprotect addr length prot alloc).1.mem.bytes = st.1.mem.bytes := by
    unfold doMprotect
    rw [hcl]
    dsimp only
    rw [hvas, hst]
    obtain ⟨hcur, hby⟩ := foldl_free_same st.2 st.1
    exact ⟨by unfold pte; rw [← hcur]; rfl, hby⟩
  generalize (c.doMprotect addr length prot alloc).1 = c' at hl hpte hby ⊢
  have hk (n : Nat) : DataKept pageProt c c' n ↔ DataKept pageProt c st.1 n := by
    simp only [DataKept, Holds, byteAt, hpte, hby]
  constructor
  · intro h
    refine ⟨(shown_outside_iff hwf).1 (hl ▸ h.outside), hd.1 fun va hva => ?_⟩
    obtain ⟨hlo, hhi⟩ := (mem_map_pageOf hstart hlim).1 (mem_map_of_mem hva)
    exact (hk _).1 (h.data _ hlo hhi)
  intro h
  refine ⟨fun va hlo hhi => ?_, ?_, fun n hn => ?_, fun n hlo hhi => ?_⟩
  · rw [hl]
    refine ⟨?_, fun v hv hhas => carries_inside hwf hlo hhi hv hhas⟩
    obtain ⟨v, hv, hhas⟩ := mprotectScan_covers hs hlo hhi
    obtain ⟨w, hw, hwh, -⟩ := (has_mprotectLoop hwf va (Q := fun _ => True)).2 ⟨v, hv, hhas, trivial⟩
    exact ⟨w, hw, hwh⟩
  · rw [hl]
    exact (shown_outside_iff hwf).2 h.areas
  · rw [hpte]
    exact ho n fun hmem => hn ((mem_map_pageOf hstart hlim).1 hmem)
  · obtain ⟨va, hva, rfl⟩ := mem_map.1 ((mem_map_pageOf hstart hlim).2 ⟨hlo, hhi⟩)
    exact (hk _).2 (hd.2 h.pages va hva)

/-- Tables down to the page at `0x50000000`. -/
def lowTables : PageTable := (((PageTable.empty 0).addPud 0 1).addPmd 1 2).addPmde 640 (.table 3)

/-- An address space with an anonymous area of two pages, the first of which has a frame. -/
def twoPages : Ctx where
  mem := ⟨fun _ => .pool, fun f => f == 513, fun _ => 0, fun _ => 0, fun _ => false⟩
  cur :=
    { mm :=
        { vmaList :=
            [⟨0x402000, 0x402000, { read := true, write := true, anon := true, heap := true }, .rw, 0, none⟩,
              ⟨0x50000000, 0x50002000, { read := true, write := true, anon := true }, .rw, 0, none⟩]
          startBrk := 0x402000
          endBrk := 0x402000
          mmapBase := 0x40000000 }
      pt := lowTables.setPte 0x50000 (ofProt 513 .rw) }
  rest := []
  freed := []

lemma twoPages_pte : twoPages.pte = update (fun _ => clear) 0x50000 (ofProt 513 .rw) := by
  have htab : lowTables.pmd (0x50000 / 512) = .table 3 := by decide
  have hpte : lowTables.pte = fun _ => clear := by
    rfl
  have hset := @PageTable.setPte_pte lowTables 0x50000 (ofProt 513 .rw) (by rw [htab]; rfl)
  rwa [hpte] at hset

lemma twoPages_consistent : twoPages.Consistent := by
  refine ⟨⟨⟨?_, ?_⟩, rfl, by decide, by decide⟩, by decide, fun n hin => ?_⟩
  · simp [twoPages, Chained.cons_iff, Chained.nil, Vma.top, HEAP_LIMIT]
  · intro v hv
    simp only [twoPages, mem_cons, not_mem_nil, or_false] at hv
    rcases hv with rfl | rfl <;> constructor <;> decide
  rw [twoPages_pte] at hin ⊢
  by_cases hn : n = 0x50000
  · subst hn
    decide
  · rw [update_of_ne hn] at hin
    cases hin

/-- Access to both pages is taken away; the first one keeps its data. -/
theorem mprotect_exact_none :
    MprotectExact .none {} (pageAlign 0x50000000) (pageAlign 0x50000000 + pageAlign 0x2000) twoPages
      (twoPages.doMprotect 0x50000000 0x2000 0 fun _ => none).1 := by
  obtain ⟨pageProt, flags, hflg, hiff⟩ :=
    (mprotect_exact_iff twoPages twoPages_consistent 0x50000000 0x2000 0 fun _ => none).1 rfl
  cases hflg
  refine hiff.2 ⟨by decide, ?_⟩
  exact ⟨fun _ h => (Bool.noConfusion h), fun _ h => (Bool.noConfusion h), trivial⟩

/-- Only the first page is made read-only: the second one is in the same area and becomes read-only as well. -/
theorem mprotect_part_of_area :
    twoPages.Consistent ∧ (twoPages.doMprotect 0x50000000 0x1000 1 fun _ => none).2 = 0 ∧
      ¬ MprotectExact .ro { read := true } (pageAlign 0x50000000) (pageAlign 0x50000000 + pageAlign 0x1000) twoPages
        (twoPages.doMprotect 0x50000000 0x1000 1 fun _ => none).1 := by
  refine ⟨twoPages_consistent, by decide, fun h => ?_⟩
  have hold : Shown twoPages.cur.mm.vmaList 0x50001000 { read := true, write := true, anon := true } .rw := by
    refine ⟨_, mem_cons_of_mem _ mem_cons_self, ?_⟩
    unfold Vma.Has
    decide
  obtain ⟨v, hv, hhas, hflg, -⟩ := (h.outside 0x50001000 (by decide) _ _).2 hold
  unfold Vma.Has at hhas
  revert v
  decide

end Ctx

end OS01.Memory
