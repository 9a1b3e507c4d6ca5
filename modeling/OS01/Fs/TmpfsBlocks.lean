import OS01.Fs.Tmpfs

/-!
# The pages of a file

What the block list of a file stores (`Block.stored`): a byte of a page that is not there counts as
zero. Adding pages stores nothing new, truncation keeps what is below the new size, the write loop
lays its data over what is stored, and the read loop returns what is stored if all pages it reaches
are there.
-/

namespace OS01.Fs.Block

open List Option Lib Content

/-- The byte stored for a position. -/
def stored (bs : List Block) (i : Nat) : UInt8 :=
  match find bs (i / 4096) with
  | none => 0
  | some b => b.page (i % 4096)

/-- Whether a page is there. -/
def Has (bs : List Block) (k : Nat) : Prop := (find bs k).isSome

instance (bs : List Block) (k : Nat) : Decidable (Has bs k) := inferInstanceAs (Decidable (_ = true))

variable {bs bs' : List Block} {i k n off pos : Nat} {data : List UInt8}

/-! ## Adding and dropping pages -/

lemma find_append_zero (h : ¬Has bs i) : find (bs ++ [⟨i, fun _ => 0⟩]) k =
    if k = i then some ⟨i, fun _ => 0⟩ else find bs k := by
  have hn : find bs i = none := not_isSome_iff_eq_none.1 h
  unfold find at hn ⊢
  rw [find?_append]
  by_cases hk : k = i
  · rw [hk, hn]
    simp
  · have hik : (i == k) = false := by simp [Ne.symm hk]
    rw [if_neg hk]
    simp [hik]

/-- **Growing.** What is stored stays, pages stay, and if every allocation succeeds the pages asked
for are there. -/
lemma growTo_spec (alloc : Nat → Bool) (is : List Nat) (bs : List Block) :
    stored (growTo alloc bs is).1 = stored bs ∧ (∀ k, Has bs k → Has (growTo alloc bs is).1 k) ∧
      ((growTo alloc bs is).2 = true → ∀ k ∈ is, Has (growTo alloc bs is).1 k) ∧
      ((growTo alloc bs is).2 = false → ∃ k, alloc k = false) := by
  induction is generalizing bs with
  | nil => simp [growTo]
  | cons i is ih =>
    unfold growTo
    split
    · next hhas =>
      obtain ⟨hst, hkp, hall, hf⟩ := ih bs
      refine ⟨hst, hkp, fun hok k hk => ?_, hf⟩
      obtain rfl | hk := mem_cons.1 hk
      · exact hkp _ hhas
      · exact hall hok k hk
    next hhas =>
    split
    · obtain ⟨hst, hkp, hall, hf⟩ := ih (bs ++ [⟨i, fun _ => 0⟩])
      have hnew : ∀ k, Has bs k ∨ k = i → Has (bs ++ [⟨i, fun _ => 0⟩]) k := by
        intro k hk
        unfold Has
        rw [find_append_zero hhas]
        split
        · rfl
        · next hne => exact hk.resolve_right hne
      refine ⟨hst.trans ?_, fun k hk => hkp k (hnew k (.inl hk)), fun hok k hk => ?_, hf⟩
      · funext j
        unfold stored
        rw [find_append_zero hhas]
        by_cases hj : j / 4096 = i
        · rw [if_pos hj, hj, not_isSome_iff_eq_none.1 hhas]
        · rw [if_neg hj]
      · obtain rfl | hk := mem_cons.1 hk
        · exact hkp _ (hnew _ (.inr rfl))
        · exact hall hok k hk
    · next halc =>
      exact ⟨rfl, fun _ hk => hk, fun hok => absurd hok (by simp), fun _ => ⟨i, Bool.eq_false_iff.2 halc⟩⟩

/-- What is below the new size is kept. -/
lemma stored_truncate (hi : i < n) : stored (truncate bs n) i = stored bs i := by
  have hk : i / 4096 ≤ (n - 1) / 4096 := Nat.div_le_div_right (by omega)
  have hn : 0 < n := by omega
  have hf : find (truncate bs n) (i / 4096) = find bs (i / 4096) := by
    unfold find truncate
    rw [find?_filter]
    congr 1
    funext b
    by_cases hb : b.idx = i / 4096
    · simp [hb, hn, hk]
    · simp [hb]
  unfold stored
  rw [hf]

/-! ## Reading and writing -/

/-- **The read loop.** -/
lemma readLoop_eq (bs : List Block) (fuel pos remaining : Nat) (hf : remaining ≤ fuel)
    (hhas : ∀ i, pos ≤ i → i < pos + remaining → Has bs (i / 4096)) :
    readLoop bs fuel pos remaining = some ((range remaining).map fun i => stored bs (pos + i)) := by
  induction fuel generalizing pos remaining with
  | zero =>
    obtain rfl : remaining = 0 := by omega
    rfl
  | succ fuel ih =>
    unfold readLoop
    split
    · next hz =>
      subst hz
      rfl
    next hrem =>
    obtain ⟨b, hb⟩ := isSome_iff_exists.1 (hhas pos le_rfl (by omega))
    rw [hb]
    dsimp only
    generalize hchunk : min (4096 - pos % 4096) remaining = chunk
    rw [ih _ _ (by omega) fun i h1 h2 => hhas i (by omega) (by omega), map_some]
    congr 1
    have hspl : remaining = chunk + (remaining - chunk) := by omega
    conv_rhs => rw [hspl, List.range_add, List.map_append, List.map_map]
    congr 1
    · refine map_congr_left fun i hi => ?_
      have hlt := mem_range.1 hi
      have hdiv : (pos + i) / 4096 = pos / 4096 := by omega
      have hmod : (pos + i) % 4096 = pos % 4096 + i := by omega
      unfold stored
      rw [hdiv, hb, hmod]
    · exact map_congr_left fun i _ => by simp [Nat.add_assoc]

variable {f : (Nat → UInt8) → Nat → UInt8}

lemma find_modify : find (modify i f bs) k = if k = i then (find bs k).map fun b => ⟨b.idx, f b.page⟩
      else find bs k := by
  induction bs with
  | nil => simp [modify, find]
  | cons b bs ih =>
    unfold find at ih ⊢
    unfold modify
    split
    · next hb =>
      subst hb
      by_cases hk : k = b.idx
      · simp [hk]
      · simp [hk, Ne.symm hk]
    · next hb =>
      by_cases hbk : b.idx = k
      · have hki : k ≠ i := fun h => hb (hbk.trans h)
        simp [hbk, hki]
      · simp [beq_eq_false_iff_ne.2 hbk, ih]

lemma has_modify : Has (modify i f bs) k ↔ Has bs k := by
  unfold Has
  rw [find_modify]
  split
  · rw [isSome_map]
  · rfl

/-- One chunk, which does not leave its page. -/
lemma stored_modify (hhas : Has bs (pos / 4096)) (hlen : pos % 4096 + data.length ≤ 4096) :
    stored (modify (pos / 4096) (fun page => overlay page (pos % 4096) data) bs) =
      overlay (stored bs) pos data := by
  obtain ⟨b, hb⟩ := isSome_iff_exists.1 hhas
  funext i
  unfold stored
  rw [find_modify]
  by_cases hi : i / 4096 = pos / 4096
  · rw [if_pos hi, hi, hb]
    simp only [map_some, overlay]
    by_cases hin : pos ≤ i ∧ i < pos + data.length
    · have hin' : pos % 4096 ≤ i % 4096 ∧ i % 4096 < pos % 4096 + data.length := by omega
      have hoff : i % 4096 - pos % 4096 = i - pos := by omega
      rw [if_pos hin, if_pos hin', hoff]
    · have hin' : ¬(pos % 4096 ≤ i % 4096 ∧ i % 4096 < pos % 4096 + data.length) := by omega
      rw [if_neg hin, if_neg hin', hi, hb]
  · have hout : ¬(pos ≤ i ∧ i < pos + data.length) := by omega
    rw [if_neg hi]
    simp only [overlay]
    rw [if_neg hout]

/-- **The write loop.** -/
lemma writeLoop_eq (fuel : Nat) (bs : List Block) (pos : Nat) (data : List UInt8) (hf : data.length ≤ fuel)
    (hhas : ∀ i, pos ≤ i → i < pos + data.length → Has bs (i / 4096)) :
    ∃ bs', writeLoop fuel bs pos data = (bs', true) ∧ stored bs' = overlay (stored bs) pos data := by
  induction fuel generalizing bs pos data with
  | zero =>
    obtain rfl : data = [] := length_eq_zero_iff.1 (by omega)
    exact ⟨bs, rfl, overlay_nil.symm⟩
  | succ fuel ih =>
    unfold writeLoop
    split
    · next hnil =>
      subst hnil
      exact ⟨bs, rfl, overlay_nil.symm⟩
    next hd =>
    have hlen := length_pos_of_ne_nil hd
    have hpos := hhas pos le_rfl (by omega)
    obtain ⟨b, hb⟩ := isSome_iff_exists.1 hpos
    rw [hb]
    generalize hchunk : min (4096 - pos % 4096) data.length = chunk
    have ht : (data.take chunk).length = chunk := by
      rw [length_take]
      omega
    have hdr : (data.drop chunk).length = data.length - chunk := length_drop ..
    obtain ⟨bs', hl, hstored⟩ := ih
      (modify (pos / 4096) (fun page => overlay page (pos % 4096) (data.take chunk)) bs)
      (pos + chunk) (data.drop chunk) (by omega) fun i h1 h2 => has_modify.2 (hhas i (by omega) (by omega))
    refine ⟨bs', hl, ?_⟩
    rw [hstored, stored_modify hpos (by omega)]
    conv_rhs => rw [← take_append_drop chunk data, overlay_append, ht]

end OS01.Fs.Block
