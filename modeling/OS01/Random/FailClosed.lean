import OS01.Random.Keystream

/-!
# A pool that is dropped

`get_random_bytes` tests `random_ready` once, before its loop over the chunks. A reseed in the loop may drop
a weak pool: the key becomes zero and the pool is not ready, but the loop goes on, and the rest of the request
is the key stream of the zero key (`dropped_source`). No such byte is given out if every request is of one
chunk, or the pool is strong, or the hardware has entropy at every reseed (`pool_fails_closed`).
-/

namespace OS01.Random

open Pool Entropy

variable {f : Block} {ask : Nat → Entropy} {p : Pool} {e : Entropy} {len fuel : Nat}

/-- The pools from which the chunks of a request are taken, with the length of each chunk. -/
def sources (f : Block) (ask : Nat → Entropy) : Nat → Nat → Pool → List (Pool × Nat)
  | 0, _, _ => []
  | fuel + 1, len, p =>
    if len = 0 then []
    else (p, min len 65536) :: sources f ask fuel (len - min len 65536) (p.chunk f ask (min len 65536)).1

/-- A pool that is not ready gives out zeros, and every chunk of a request is taken from a ready pool. -/
def FailsClosed (f : Block) (ask : Nat → Entropy) (p : Pool) (len : Nat) : Prop :=
  (p.ready = false → (p.getRandomBytes f ask len).2 = List.replicate len 0) ∧
    (p.ready = true →
      (p.getRandomBytes f ask len).2 = (sources f ask len len p).flatMap (fun q => (q.1.chunk f ask q.2).2) ∧
        ∀ q ∈ sources f ask len len p, q.1.ready = true)

/-- A strong answer of the hardware. -/
def Entropy.isStrong (e : Entropy) : Bool := e.ok && decide (e.quality = .strong)

/-- `kernel_random_get_strong`, with the answer that the hardware would give. -/
def kernelRandomGetStrong (f : Block) (ask : Nat → Entropy) (p : Pool) (hw : Entropy) :
    Pool × List UInt8 × Bool :=
  if p.ready && decide (p.quality = .strong) then
    ((p.getRandomBytes f ask 32).1, (p.getRandomBytes f ask 32).2, true)
  else (p, List.ofFn hw.bytes, hw.isStrong)

/-- **A reseed** keeps a strong pool ready, and any pool if there is entropy; only strong entropy makes a pool
strong. -/
lemma reseed_spec (f : Block) (p : Pool) (e : Entropy) :
    (p.reseed f e).ready = (p.ready && (e.granted || decide (p.quality = .strong))) ∧
      ((p.reseed f e).quality = .strong ↔ p.quality = .strong ∨ e.isStrong = true) := by
  cases hq : e.quality <;> cases hok : e.ok <;> cases hp : p.quality <;> cases hr : p.ready <;>
    simp [reseed, derive, granted, isStrong, hq, hok, hp, hr]

/-- A chunk is its blocks, which touch nothing that a reseed tests, and then perhaps a reseed. -/
lemma chunk_cases (f : Block) (ask : Nat → Entropy) (p : Pool) (n : Nat) :
    ∃ p' : Pool, p'.ready = p.ready ∧ p'.quality = p.quality ∧ p'.reseeds = p.reseeds ∧
      p'.sinceReseed = p.sinceReseed + n ∧
      (p.chunk f ask n).1 = if RESEED_INTERVAL ≤ p'.sinceReseed then p'.reseed f (ask p'.reseeds) else p' := by
  obtain ⟨-, h2, h3, h4, h5, -⟩ := blocks_keeps (f := f) ((n + 63) / 64) p
  exact ⟨{ (blocks f ((n + 63) / 64) p).1 with sinceReseed := (blocks f ((n + 63) / 64) p).1.sinceReseed + n },
    h2, h3, h4, congrArg (· + n) h5, rfl⟩

/-! ## A request -/

/-- The loop gives out the chunks of its sources. -/
lemma chunks_sources :
    (chunks f ask fuel len p).2 = (sources f ask fuel len p).flatMap fun q => (q.1.chunk f ask q.2).2 := by
  induction fuel generalizing len p with
  | zero => rfl
  | succ fuel ih =>
    rw [chunks, sources]
    split_ifs
    · rfl
    · exact congrArg (_ ++ ·) ih

/-- Nothing drops the pool: it is strong, or the hardware has entropy. -/
def Kept (ask : Nat → Entropy) (p : Pool) : Prop :=
  p.ready = true ∧ (p.quality = .strong ∨ ∀ i, (ask i).granted = true)

lemma Kept.chunk (h : Kept ask p) (n : Nat) : Kept ask (p.chunk f ask n).1 := by
  obtain ⟨p', hrdy, hq, -, -, heq⟩ := chunk_cases f ask p n
  have h' : Kept ask p' := ⟨hrdy.trans h.1, h.2.imp_left hq.trans⟩
  rw [heq]
  split_ifs
  · obtain ⟨hr, hs⟩ := reseed_spec f p' (ask p'.reseeds)
    refine ⟨?_, h'.2.imp_left fun hstr => hs.2 (.inl hstr)⟩
    obtain hstr | hgrant := h'.2
    · simp [hr, h'.1, hstr]
    · simp [hr, h'.1, hgrant]
  · exact h'

lemma Kept.sources (h : Kept ask p) : ∀ q ∈ sources f ask fuel len p, q.1.ready = true := by
  induction fuel generalizing len p with
  | zero => nofun
  | succ fuel ih =>
    rw [Random.sources]
    split_ifs
    · nofun
    · rintro q (_ | ⟨_, hq⟩)
      · exact h.1
      · exact ih (h.chunk _) q hq

/-- A request of one chunk is taken from the pool as it is. -/
lemma sources_one (hlen : len ≤ 65536) : ∀ q ∈ sources f ask fuel len p, q.1 = p := by
  cases fuel with
  | zero => nofun
  | succ fuel =>
    rw [sources, min_eq_left hlen]
    cases fuel <;> split_ifs <;> simp [sources]

/-- A strong pool had a strong seed or a strong answer at a reseed. -/
def StrongFrom (ask : Nat → Entropy) (seeded : Bool) (p : Pool) : Prop :=
  p.quality = .strong → seeded = true ∨ ∃ i < p.reseeds, (ask i).isStrong = true

lemma StrongFrom.chunk {seeded : Bool} (h : StrongFrom ask seeded p) (n : Nat) :
    StrongFrom ask seeded (p.chunk f ask n).1 := by
  obtain ⟨p', -, hq, hres, -, heq⟩ := chunk_cases f ask p n
  rw [heq]
  split_ifs
  · intro hstr
    rw [(reseed_cases p' _).1]
    obtain hold | hnew := (reseed_spec f p' _).2.1 hstr
    · refine (h (hq ▸ hold)).imp_right ?_
      rintro ⟨i, hi, hi'⟩
      exact ⟨i, by omega, hi'⟩
    · exact .inr ⟨p'.reseeds, by omega, hnew⟩
  · rw [StrongFrom, hq, hres]
    exact h

lemma strongFrom_run (f : Block) (ask : Nat → Entropy) (boot : Option (Bytes 32)) (e : Entropy) (lens : List Nat) :
    StrongFrom ask (boot.isSome || e.isStrong) ((randomInit boot e).run f ask (lens.map .get)) := by
  refine Pool.run_keeps (fun _ n _ h => h.chunk n) (fun h => .inl ?_) lens
  cases boot with
  | some _ => rfl
  | none =>
    unfold randomInit at h
    split_ifs at h with hok
    simp_all [isStrong]

/-- **The pool fails closed** in every request, after any requests, that is of one chunk or finds nothing that
drops the pool; and `kernel_random_get_strong` succeeds only with a strong source. -/
theorem pool_fails_closed (f : Block) (ask : Nat → Entropy) (boot : Option (Bytes 32)) (e hw : Entropy)
    (lens : List Nat) (len : Nat) (p : Pool) (hp : p = (randomInit boot e).run f ask (lens.map .get))
    (h : len ≤ 65536 ∨ p.quality = .strong ∨ ∀ i, (ask i).granted = true) :
    FailsClosed f ask p len ∧ ((kernelRandomGetStrong f ask p hw).2.2 = true →
      boot.isSome ∨ e.isStrong ∨ hw.isStrong ∨ ∃ i < p.reseeds, (ask i).isStrong) := by
  refine ⟨⟨fun hnot => by simp [getRandomBytes, hnot], fun hrdy => ⟨?_, fun q hq => ?_⟩⟩, fun hstr => ?_⟩
  · rw [getRandomBytes, hrdy]
    exact chunks_sources
  · obtain hlen | hk := h
    · rwa [sources_one hlen q hq]
    · exact Kept.sources ⟨hrdy, hk⟩ q hq
  have hf := strongFrom_run f ask boot e lens
  rw [← hp] at hf
  rw [kernelRandomGetStrong] at hstr
  split_ifs at hstr with hpl
  · obtain hs | hreseed := hf (of_decide_eq_true (Bool.and_eq_true_iff.1 hpl).2)
    · exact (Bool.or_eq_true_iff.1 hs).imp_right .inl
    · exact .inr (.inr (.inr hreseed))
  · exact .inr (.inr (.inl hstr))

/-- Two mebibytes from a pool that the boot loader seeded, after one mebibyte and a reseed that failed. -/
theorem pool_fails_closed_seeded : ∃ p, p = (randomInit (some fun _ => 0) (refused 0)).run chacha20Block refused
      ([RESEED_INTERVAL].map .get) ∧ p.ready = true ∧ FailsClosed chacha20Block refused p (2 * RESEED_INTERVAL) ∧
    (kernelRandomGetStrong chacha20Block refused p (refused 0)).2.2 = true := by
  refine ⟨_, rfl, ?_⟩
  have hk : Kept refused ((randomInit (some fun _ => 0) (refused 0)).run chacha20Block refused
      ([RESEED_INTERVAL].map .get)) := run_keeps (fun _ n _ h => h.chunk n) ⟨rfl, .inl rfl⟩ [RESEED_INTERVAL]
  have hstr := hk.2.resolve_right fun h => Bool.noConfusion (h 0)
  exact ⟨hk.1, (pool_fails_closed _ _ _ _ (refused 0) _ _ _ rfl (.inr (.inl hstr))).1,
    by rw [kernelRandomGetStrong, hk.1, hstr]; rfl⟩

/-- **A request that goes on** after the reseed that drops the pool takes a chunk from the dropped pool. -/
lemma dropped_source (fuel : Nat) {k : Nat} (hrdy : p.ready = true) (hq : p.quality ≠ .strong)
    (hask : (ask p.reseeds).granted = false) (hk : p.sinceReseed + 65536 * (k + 1) = RESEED_INTERVAL)
    (hlen : 65536 * (k + 1) < len) : ∃ q ∈ sources f ask (fuel + k + 2) len p, q.1.ready = false := by
  induction k generalizing p len with
  | zero =>
    obtain ⟨p', -, hq', hres, hsince, heq⟩ := chunk_cases f ask p 65536
    rw [if_pos (by omega)] at heq
    refine ⟨((p.chunk f ask 65536).1, min (len - 65536) 65536), ?_, ?_⟩
    · rw [sources, if_neg (by omega), min_eq_right (by omega), sources, if_neg (by omega)]
      exact .tail _ (.head _)
    · rw [heq, (reseed_spec f p' _).1, hres, hask, hq', decide_eq_false hq]
      exact Bool.and_false _
  | succ k ih =>
    obtain ⟨p', hrdy', hq', hres, hsince, heq⟩ := chunk_cases f ask p 65536
    rw [if_neg (by omega)] at heq
    have hk' : p'.sinceReseed + 65536 * (k + 1) = RESEED_INTERVAL := by
      rw [hsince, ← hk, Nat.mul_succ 65536 (k + 1), Nat.add_assoc, Nat.add_comm 65536]
    have hr : 65536 * (k + 1) < len - 65536 := by omega
    rw [← hrdy'] at hrdy
    rw [← hq'] at hq
    rw [← hres] at hask
    obtain ⟨q, hmem, hd⟩ := ih hrdy hq hask hk' hr
    refine ⟨q, ?_, hd⟩
    rw [sources, if_neg (by omega), min_eq_right (by omega), heq]
    exact .tail _ hmem

/-- A mebibyte and one byte from a pool with a weak seed, where the hardware has no more entropy. -/
theorem pool_open_weak : ¬ FailsClosed chacha20Block refused
    (randomInit none ⟨true, .weak, fun _ => 0⟩) 1048577 := by
  rintro ⟨-, hrdy⟩
  obtain ⟨q, hmem, hq⟩ : ∃ q ∈ sources chacha20Block refused (1048560 + 15 + 2) 1048577
      (randomInit none ⟨true, .weak, fun _ => 0⟩), q.1.ready = false :=
    dropped_source 1048560 rfl (by decide) rfl (by decide) (by decide)
  exact Bool.noConfusion (((hrdy rfl).2 q hmem).symm.trans hq)

end OS01.Random
