import Mathlib.Data.List.Nodup
import Mathlib.Data.List.Range
import OS01.Random.Pool

/-!
# Fresh bytes and the key stream

Two defects of `reseed` (`kernel/random/random.c`). It puts the old key and the 32 fresh bytes into one
buffer of 64 bytes and passes it to the block function as the key; that function reads 32 bytes, which
are the old key. So the fresh bytes do not matter (`run_congr`), and two runs whose bytes differ compute
the same keys and the same output (`reseed_never_absorbs`).

And it derives the new key from block 0 of the old one. The blocks of output are numbered from 0 as
well, and the numbers go on when the key changes. So under the first key, and under no other, the
derivation repeats a block: the first block that was given out becomes the next key
(`keystream_fresh_iff`).
-/

namespace OS01.Random

open Function Nat Pool List BlockCall

variable {f : Block} {ask ask' : Nat → Entropy} {p p' : Pool}

/-! ## What becomes of the fresh bytes -/

/-- The answers agree in everything but the bytes. -/
def SameAnswers (ask ask' : Nat → Entropy) : Prop :=
  ∀ i, (ask i).ok = (ask' i).ok ∧ (ask i).quality = (ask' i).quality

/-- The key that the derivation passes on is the old one. -/
lemma keyOf_seed (p : Pool) (fresh : Bytes 32) : keyOf (p.seed fresh) = p.key := by
  funext k
  simp [keyOf, seed]

lemma reseed_congr {e e' : Entropy} (hok : e.ok = e'.ok) (hq : e.quality = e'.quality) :
    p.reseed f e = p.reseed f e' := by
  simp only [reseed, derive, keyOf_seed, hok, hq]

section

variable (h : SameAnswers ask ask')
include h

lemma chunk_congr (n : Nat) : p.chunk f ask n = p.chunk f ask' n := by
  unfold chunk
  dsimp only
  rw [reseed_congr (h _).1 (h _).2]

lemma chunks_congr (fuel len : Nat) (p : Pool) : chunks f ask fuel len p = chunks f ask' fuel len p := by
  induction fuel generalizing len p with
  | zero => rfl
  | succ fuel ih =>
    unfold chunks
    dsimp only
    rw [chunk_congr h]
    split
    · rfl
    · rw [ih]

/-- The fresh bytes do not matter, whatever the calls. -/
lemma run_congr (p : Pool) (ops : List RandomOp) : p.run f ask ops = p.run f ask' ops := by
  unfold run
  induction ops generalizing p with
  | nil => rfl
  | cons op ops ih =>
    have hop : p.next f ask op = p.next f ask' op := by
      cases op with
      | get len => simp only [Pool.next, getRandomBytes, chunks_congr h]
      | add data => rfl
    rw [foldl_cons, foldl_cons, hop, ih]

end

/-- The inputs of the block function for the new keys, the last one first. -/
def derivations (p : Pool) : List (Bytes 32 × UInt32 × Bytes 12) :=
  (p.calls.filter derives).map fun c => (c.key, c.counter, c.nonce)

/-- Two runs that differ only in the bytes that reseed number `r` gets, a reseed that they make and that succeeds. -/
structure DifferIn (f : Block) (p : Pool) (ops : List RandomOp) (ask ask' : Nat → Entropy) (r : Nat) : Prop where
  others : ∀ i, i ≠ r → ask i = ask' i
  made : p.reseeds ≤ r ∧ r < (p.run f ask ops).reseeds
  success : (ask r).ok = true ∧ (ask r).quality ≠ .none
  answer : (ask' r).ok = (ask r).ok ∧ (ask' r).quality = (ask r).quality
  bytes : (ask r).bytes ≠ (ask' r).bytes

lemma DifferIn.sameAnswers {ops : List RandomOp} {r : Nat} (h : DifferIn f p ops ask ask' r) :
    SameAnswers ask ask' := by
  intro i
  by_cases hi : i = r
  · rw [hi]
    exact ⟨h.answer.1.symm, h.answer.2.symm⟩
  · rw [h.others i hi]
    exact ⟨rfl, rfl⟩

/-- Reseed number `r` takes its fresh bytes in: the inputs of the block function for the new keys are different in
the two runs, and if the block function is injective in the key then any pool gets different keys from the two answers. -/
def Absorbs (f : Block) (p : Pool) (ops : List RandomOp) (ask ask' : Nat → Entropy) (r : Nat) : Prop :=
  derivations (p.run f ask ops) ≠ derivations (p.run f ask' ops) ∧
    ((∀ c n, Function.Injective fun key => f key c n) →
      ∀ q : Pool, (q.reseed f (ask r)).key ≠ (q.reseed f (ask' r)).key)

/-- **Fresh bytes are never taken in**, for no block function, pool and sequence of calls: two runs that differ only
in the bytes of a successful reseed compute the same inputs. -/
theorem reseed_never_absorbs (f : Block) (p : Pool) (ops : List RandomOp) (ask ask' : Nat → Entropy)
    (r : Nat) (h : DifferIn f p ops ask ask' r) : ¬Absorbs f p ops ask ask' r := by
  rintro ⟨hinputs, -⟩
  exact hinputs (by rw [run_congr h.sameAnswers])

/-- A block function that is injective in its key: the block is the key, twice. -/
def copyBlock : Block := fun key _ _ k => key ⟨k.val % 32, by omega⟩

/-- A ready pool that is 64 bytes short of its next reseed. -/
def nearReseed : Pool := ⟨fun _ => 0, 1, RESEED_INTERVAL - 64, true, .strong, 0, 0, []⟩

/-- Hardware that always succeeds; its first answer has the byte `b` over and over. -/
def firstAnswer (b : UInt8) (i : Nat) : Entropy := ⟨true, .strong, fun _ => if i = 0 then b else 0⟩

/-- The pool is reseeded, by any block function, and two first answers are all that differs. -/
lemma nearReseed_differIn (f : Block) {b b' : UInt8} (hb : b ≠ b') :
    DifferIn f nearReseed [.get 64] (firstAnswer b) (firstAnswer b') 0 where
  others := fun i hi => by rw [firstAnswer, firstAnswer, if_neg hi, if_neg hi]
  made := by
    simp [run, Pool.next, getRandomBytes, nearReseed, chunks, chunk, blocks, block, reseed, derive,
      RESEED_INTERVAL, firstAnswer]
  success := ⟨rfl, Quality.noConfusion⟩
  answer := ⟨rfl, rfl⟩
  bytes := fun h => hb (congrFun h 0)

/-- The kernel's block function ignores what its pool is reseeded with. -/
theorem reseed_never_absorbs_chacha20 : DifferIn chacha20Block nearReseed [.get 64] (firstAnswer 7) (firstAnswer 8) 0 ∧
    ¬Absorbs chacha20Block nearReseed [.get 64] (firstAnswer 7) (firstAnswer 8) 0 :=
  ⟨nearReseed_differIn _ (by decide), reseed_never_absorbs _ _ _ _ _ _ (nearReseed_differIn _ (by decide))⟩

/-- The hardware returns zeros in one run and ones in the other; the pool is reseeded in both, by a
block function that is injective in its key, and has the same key afterwards. -/
theorem reseed_absorbs_ignored : (∀ c n, Function.Injective fun key => copyBlock key c n) ∧
      DifferIn copyBlock nearReseed [.get 64] (firstAnswer 0) (firstAnswer 1) 0 ∧
      ¬Absorbs copyBlock nearReseed [.get 64] (firstAnswer 0) (firstAnswer 1) 0 := by
  have hdiff := nearReseed_differIn copyBlock (show (0 : UInt8) ≠ 1 by decide)
  refine ⟨fun c n key key' h => ?_, hdiff, fun habs => ?_⟩
  · funext k
    have hk := congrFun h ⟨k.val, by omega⟩
    have hmod : k.val % 32 = k.val := mod_eq_of_lt k.isLt
    simpa [copyBlock, hmod] using hk
  · exact habs.1 (by rw [run_congr hdiff.sameAnswers])

/-! ## The inputs of the block function -/

/-- What makes two calls under one key the same: the key is given by its number. -/
def BlockCall.input (c : BlockCall) : Nat × UInt32 × Bytes 12 := (c.span, c.counter, c.nonce)

/-- The calls for output. -/
def outputs (p : Pool) : List BlockCall := p.calls.filter fun c => !c.derives

/-- The calls for new keys. -/
def derivers (p : Pool) : List BlockCall := p.calls.filter derives

lemma nonceOf_zero : nonceOf 0 = fun _ => 0 := by
  funext k
  simp [nonceOf]

/-- Blocks of different numbers have different counters or nonces. -/
lemma split_inj {i j : Nat} (hi : i < 2 ^ 64) (hj : j < 2 ^ 64) (hc : counterOf i = counterOf j)
    (hn : nonceOf i = nonceOf j) : i = j := by
  have hlow : i % 2 ^ 32 = j % 2 ^ 32 := by
    simpa [counterOf] using congrArg UInt32.toNat hc
  have hb (k : Fin 12) (hk : k.val < 4) :
      i / 2 ^ (32 + 8 * k.val) % 2 ^ 8 = j / 2 ^ (32 + 8 * k.val) % 2 ^ 8 := by
    simpa [nonceOf, hk] using congrArg UInt8.toNat (congrFun hn k)
  have h0 := hb 0 (by decide)
  have h1 := hb 1 (by decide)
  have h2 := hb 2 (by decide)
  have h3 := hb 3 (by decide)
  simp only [Fin.val_zero, Fin.val_one, Fin.val_two, show (3 : Fin 12).val = 3 from rfl] at h0 h1 h2 h3
  omega

/-- How the calls stand to the counter and the numbers of the keys: the blocks of output are numbered
in turn, block 0 was computed under the first key, and every key before the present one was replaced
once. -/
structure Counted (p : Pool) : Prop where
  blk : p.blk = (outputs p).length % 2 ^ 64
  numbered : ∃ spanOf : Nat → Nat, spanOf 0 = 0 ∧
    (outputs p).map BlockCall.input = ((range (outputs p).length).map fun j =>
      (spanOf j, counterOf (j % 2 ^ 64), nonceOf (j % 2 ^ 64))).reverse
  start : p.span = 0 ∨ 0 < (outputs p).length
  derived : ∀ c ∈ derivers p, c.span < p.span ∧ c.counter = 0 ∧ c.nonce = fun _ => 0
  once : ((derivers p).map BlockCall.span).Nodup

lemma counted_randomInit (boot : Option (Bytes 32)) (e : Entropy) : Counted (randomInit boot e) := by
  have hcls : (randomInit boot e).calls = [] ∧ (randomInit boot e).blk = 0 ∧
      (randomInit boot e).span = 0 := by
    unfold randomInit
    split
    · exact ⟨rfl, rfl, rfl⟩
    · split <;> exact ⟨rfl, rfl, rfl⟩
  obtain ⟨hcls, hblk, hs⟩ := hcls
  have hout : outputs (randomInit boot e) = [] := by simp [outputs, hcls]
  have hder : derivers (randomInit boot e) = [] := by simp [derivers, hcls]
  refine ⟨by simp [hout, hblk], ⟨fun _ => 0, rfl, by simp [hout]⟩, .inl hs, ?_, ?_⟩
  all_goals simp [hder]

lemma outputs_block : outputs (p.block f).1 =
    ⟨p.span, p.key, counterOf p.blk, nonceOf p.blk, false⟩ :: outputs p := by
  simp [outputs, block]

lemma derivers_block : derivers (p.block f).1 = derivers p := by
  simp [derivers, block]

section

variable (h : Counted p)
include h

/-- What `Counted` looks at. -/
lemma Counted.congr (hblk : p'.blk = p.blk) (hs : p'.span = p.span)
    (hcls : p'.calls = p.calls) : Counted p' := by
  have hout : outputs p' = outputs p := by rw [outputs, hcls, outputs]
  have hder : derivers p' = derivers p := by rw [derivers, hcls, derivers]
  exact ⟨by rw [hblk, hout, h.blk], by rw [hout]; exact h.numbered,
    by rw [hs, hout]; exact h.start, by rw [hs, hder]; exact h.derived, by rw [hder]; exact h.once⟩

/-- One block of output. -/
lemma Counted.block : Counted (p.block f).1 := by
  obtain ⟨spanOf, h0, hnum⟩ := h.numbered
  have hlen : (outputs (p.block f).1).length = (outputs p).length + 1 := by
    rw [outputs_block, length_cons]
  refine ⟨?_, ⟨update spanOf (outputs p).length p.span, ?_, ?_⟩, ?_, ?_, ?_⟩
  · rw [hlen]
    show (p.blk + 1) % 2 ^ 64 = _
    rw [h.blk, mod_add_mod]
  · by_cases hz : (outputs p).length = 0
    · rw [hz, update_self]
      exact h.start.resolve_right (by omega)
    · rw [update_of_ne (Ne.symm hz), h0]
  · rw [hlen, range_succ, map_append, reverse_append, outputs_block, map_cons, hnum]
    simp only [map_cons, map_nil, reverse_singleton, singleton_append, update_self, BlockCall.input, h.blk]
    congr 2
    refine map_congr_left fun j hj => ?_
    rw [update_of_ne (Nat.ne_of_lt (mem_range.1 hj))]
  · exact .inr (by omega)
  · rw [derivers_block]
    exact h.derived
  · rw [derivers_block]
    exact h.once

/-- The inner loop. -/
lemma Counted.blocks (n : Nat) : Counted (blocks f n p).1 := by
  induction n generalizing p with
  | zero => exact h
  | succ n ih => exact ih (p := (p.block f).1) h.block

/-- The derivation, once there was output. -/
lemma Counted.derive (hout : 0 < (outputs p).length) (fresh : Bytes 32) :
    Counted (p.derive f fresh) := by
  have ho : outputs (p.derive f fresh) = outputs p := by simp [outputs, Pool.derive]
  have hdr : derivers (p.derive f fresh) =
      ⟨p.span, keyOf (p.seed fresh), 0, fun _ => 0, true⟩ :: derivers p := by
    simp [derivers, Pool.derive]
  have hs : (p.derive f fresh).span = p.span + 1 := rfl
  refine ⟨by rw [ho]; exact h.blk, by rw [ho]; exact h.numbered,
    .inr (by rw [ho]; exact hout), fun c hc => ?_, ?_⟩
  · rw [hdr, mem_cons] at hc
    obtain rfl | hc := hc
    · exact ⟨lt_succ_self _, rfl, rfl⟩
    · have hd := h.derived c hc
      exact ⟨by omega, hd.2⟩
  · rw [hdr, map_cons, nodup_cons]
    refine ⟨fun hmem => ?_, h.once⟩
    obtain ⟨c, hc, hs'⟩ := mem_map.1 hmem
    exact Nat.ne_of_lt (h.derived c hc).1 hs'

lemma Counted.reseed (hout : 0 < (outputs p).length) (e : Entropy) :
    Counted (p.reseed f e) := by
  have h' : Counted { p with reseeds := p.reseeds + 1 } := h.congr rfl rfl rfl
  unfold Pool.reseed
  dsimp only
  split
  · split
    · exact h.congr rfl rfl rfl
    · split
      · exact h.congr rfl rfl rfl
      · refine ⟨h.blk, h.numbered, .inr hout, fun c hc => ?_, h.once⟩
        have hd := h.derived c hc
        exact ⟨lt_succ_of_lt hd.1, hd.2⟩
  · have hd : Counted (({ p with reseeds := p.reseeds + 1 } : Pool).derive f e.bytes) :=
      h'.derive hout e.bytes
    split
    all_goals exact hd.congr rfl rfl rfl

end

lemma outputs_blocks (n : Nat) (p : Pool) : (outputs (blocks f n p).1).length = (outputs p).length + n := by
  induction n generalizing p with
  | zero => rfl
  | succ n ih =>
    show (outputs (blocks f n (p.block f).1).1).length = _
    rw [ih, outputs_block, length_cons]
    omega

lemma outputs_reseed (p : Pool) (e : Entropy) : outputs (p.reseed f e) = outputs p := by
  unfold reseed
  dsimp only
  split
  · split
    · rfl
    · split <;> rfl
  · split <;> simp [outputs, derive]

/-- One chunk, of at least one byte. -/
lemma Counted.chunk (h : Counted p) {n : Nat} (hn : 0 < n) : Counted (p.chunk f ask n).1 := by
  have hlen := outputs_blocks (f := f) ((n + 63) / 64) p
  have hout : 0 < (outputs (Pool.blocks f ((n + 63) / 64) p).1).length := by omega
  have hb : Counted { (Pool.blocks f ((n + 63) / 64) p).1 with
      sinceReseed := (Pool.blocks f ((n + 63) / 64) p).1.sinceReseed + n } :=
    (h.blocks _).congr rfl rfl rfl
  unfold Pool.chunk
  dsimp only
  split
  · exact hb.reseed hout _
  · exact hb

/-- **The rule for runs**: what a chunk of at least one byte keeps, calls of `get_random_bytes` keep. -/
lemma Pool.run_keeps {I : Pool → Prop} (hchunk : ∀ p n, 0 < n → I p → I (p.chunk f ask n).1) (h : I p)
    (lens : List Nat) : I (p.run f ask (lens.map .get)) := by
  have hchunks (fuel len : Nat) (p : Pool) (h : I p) : I (chunks f ask fuel len p).1 := by
    induction fuel generalizing len p with
    | zero => exact h
    | succ fuel ih =>
      unfold chunks
      split
      · exact h
      · exact ih _ _ (hchunk _ _ (by omega) h)
  have hget (len : Nat) (p : Pool) (h : I p) : I (p.getRandomBytes f ask len).1 := by
    unfold getRandomBytes
    split
    · exact h
    · exact hchunks len len p h
  unfold run
  induction lens generalizing p with
  | nil => exact h
  | cons len lens ih => exact ih (hget len p h)

lemma Counted.run (h : Counted p) (lens : List Nat) : Counted (p.run f ask (lens.map .get)) :=
  run_keeps (fun _ _ hn h => h.chunk hn) h lens

/-- When the inputs of the block function are all different. -/
lemma Counted.nodup_iff (h : Counted p) (hfew : (outputs p).length < 2 ^ 64) :
    (p.calls.map BlockCall.input).Nodup ↔ ∀ c ∈ derivers p, c.span ≠ 0 := by
  obtain ⟨spanOf, h0, hnum⟩ := h.numbered
  have hp : (p.calls.map BlockCall.input).Perm
      ((derivers p).map BlockCall.input ++ (outputs p).map BlockCall.input) := by
    rw [← map_append]
    exact ((filter_append_perm BlockCall.derives p.calls).map BlockCall.input).symm
  have hder : ((derivers p).map BlockCall.input).Nodup := by
    refine List.Nodup.of_map Prod.fst ?_
    rw [map_map]
    exact h.once
  have hlt {j : Nat} (hj : j < (outputs p).length) : j % 2 ^ 64 = j := mod_eq_of_lt (lt_trans hj hfew)
  have hout : ((outputs p).map BlockCall.input).Nodup := by
    rw [hnum, nodup_reverse]
    refine List.Nodup.map_on (fun i hi j hj hij => ?_) nodup_range
    rw [mem_range] at hi hj
    simp only [Prod.mk.injEq, hlt hi, hlt hj] at hij
    exact split_inj (lt_trans hi hfew) (lt_trans hj hfew) hij.2.1 hij.2.2
  rw [hp.nodup_iff, nodup_append]
  constructor
  · -- a key that replaced the first one was derived from block 0
    rintro ⟨-, -, hap⟩ c hc hs
    obtain ⟨hcspan, hcnt, hnonce⟩ := h.derived c hc
    have hpos : 0 < (outputs p).length := h.start.resolve_left (by omega)
    refine hap _ (mem_map_of_mem hc) (0, counterOf 0, nonceOf 0) ?_ ?_
    · rw [hnum, mem_reverse]
      refine mem_map.2 ⟨0, mem_range.2 hpos, ?_⟩
      simp [h0]
    · rw [BlockCall.input, hs, hcnt, hnonce, nonceOf_zero]
      rfl
  · intro hs
    refine ⟨hder, hout, fun a ha b hb hab => ?_⟩
    obtain ⟨c, hc, rfl⟩ := mem_map.1 ha
    obtain ⟨-, hcnt, hnonce⟩ := h.derived c hc
    rw [hnum, mem_reverse] at hb
    obtain ⟨j, hj, rfl⟩ := mem_map.1 hb
    rw [mem_range] at hj
    simp only [BlockCall.input, Prod.mk.injEq, hlt hj] at hab
    -- a block of output with counter and nonce zero is block 0
    have hj0 : j = 0 := split_inj (lt_trans hj hfew) (by decide) (hab.2.1.symm.trans hcnt)
        ((hab.2.2.symm.trans hnonce).trans nonceOf_zero.symm)
    subst hj0
    exact hs c hc (hab.1.trans h0)

/-! ## Which reseed replaces the first key -/

/-- The hardware returns fresh bytes. -/
def Entropy.granted (e : Entropy) : Bool := e.ok && !decide (e.quality = .none)

/-- Reseed number `i` can find the first key in the pool: it stays through the failures of a strong
pool, and a weak pool loses it at its first failure. -/
def MeetsFirstKey (q : Quality) (i : Nat) : Prop := i = 0 ∨ q = .strong

/-- A key was derived from the first one. -/
def FirstReplaced (p : Pool) : Prop := ∃ c ∈ derivers p, c.span = 0

/-- How a pool that was ready at first, with quality `q`, came to have its key: it is the first one and
no reseed succeeded; or the first one was replaced, by a reseed that met it; or a weak pool was dropped
at its first reseed. -/
inductive KeyHistory (ask : Nat → Entropy) (q : Quality) (p : Pool) : Prop
  | first (hspan : p.span = 0) (hready : p.ready = true) (hq : p.quality = q)
      (hder : ¬FirstReplaced p) (hweak : q ≠ .strong → p.reseeds = 0)
      (hfail : ∀ i < p.reseeds, (ask i).granted = false)
  | replaced (hspan : 0 < p.span) (hder : FirstReplaced p)
      (hok : ∃ i < p.reseeds, MeetsFirstKey q i ∧ (ask i).granted = true)
  | dropped (hspan : 0 < p.span) (hder : ¬FirstReplaced p) (hq : q ≠ .strong)
      (hsome : 0 < p.reseeds) (hfail : (ask 0).granted = false)

variable {q : Quality}

/-- A derivation from a later key. -/
lemma firstReplaced_derive (fresh : Bytes 32) :
    FirstReplaced (p.derive f fresh) ↔ p.span = 0 ∨ FirstReplaced p := by
  simp [FirstReplaced, derivers, derive]

/-- What a reseed does, by its answer. -/
lemma reseed_cases (p : Pool) (e : Entropy) : (p.reseed f e).reseeds = p.reseeds + 1 ∧
      ((e.granted = true ∧ (p.reseed f e).span = p.span + 1 ∧
          (FirstReplaced (p.reseed f e) ↔ p.span = 0 ∨ FirstReplaced p)) ∨
        (e.granted = false ∧ derivers (p.reseed f e) = derivers p ∧
          ((p.ready = true ∧ p.quality ≠ .strong ∧ (p.reseed f e).span = p.span + 1) ∨
            ((p.ready = false ∨ p.quality = .strong) ∧ (p.reseed f e).span = p.span ∧
              (p.reseed f e).ready = p.ready ∧ (p.reseed f e).quality = p.quality)))) := by
  unfold reseed Entropy.granted
  dsimp only
  split
  · rename_i hf
    have hf' : (e.ok && !decide (e.quality = .none)) = false := by
      cases hok : e.ok <;> simp_all
    split
    · rename_i hrdy
      exact ⟨rfl, .inr ⟨hf', rfl, .inr ⟨.inl (by simpa using hrdy), rfl, rfl, rfl⟩⟩⟩
    rename_i hrdy
    split
    · rename_i hstr
      exact ⟨rfl, .inr ⟨hf', rfl, .inr ⟨.inr hstr, rfl, rfl, rfl⟩⟩⟩
    · rename_i hw
      exact ⟨rfl, .inr ⟨hf', rfl, .inl ⟨by simpa using hrdy, hw, rfl⟩⟩⟩
  · rename_i hgrant
    have hgrant' : (e.ok && !decide (e.quality = .none)) = true := by
      cases hok : e.ok <;> simp_all
    have hrep : FirstReplaced (({ p with reseeds := p.reseeds + 1 } : Pool).derive f e.bytes) ↔
        p.span = 0 ∨ FirstReplaced p := firstReplaced_derive e.bytes
    split
    all_goals exact ⟨rfl, .inl ⟨hgrant', rfl, hrep⟩⟩

/-- The inner loop changes nothing but the counter and the calls for output. -/
lemma blocks_keeps (n : Nat) (p : Pool) : (blocks f n p).1.span = p.span ∧ (blocks f n p).1.ready = p.ready ∧
      (blocks f n p).1.quality = p.quality ∧ (blocks f n p).1.reseeds = p.reseeds ∧
      (blocks f n p).1.sinceReseed = p.sinceReseed ∧ derivers (blocks f n p).1 = derivers p := by
  induction n generalizing p with
  | zero => exact ⟨rfl, rfl, rfl, rfl, rfl, rfl⟩
  | succ n ih =>
    obtain ⟨h1, h2, h3, h4, h5, h6⟩ := ih (p.block f).1
    exact ⟨h1, h2, h3, h4, h5, h6.trans derivers_block⟩

section

variable (h : KeyHistory ask q p)
include h

lemma KeyHistory.congr (hs : p'.span = p.span)
    (hrdy : p'.ready = p.ready) (hq : p'.quality = p.quality) (hres : p'.reseeds = p.reseeds)
    (hder : derivers p' = derivers p) : KeyHistory ask q p' := by
  have hrep : FirstReplaced p' ↔ FirstReplaced p := by rw [FirstReplaced, hder, FirstReplaced]
  cases h with
  | first h1 h2 h3 h4 h5 h6 =>
    exact .first (hs.trans h1) (hrdy.trans h2) (hq.trans h3) (mt hrep.1 h4)
      (fun hw => hres.trans (h5 hw)) (by rwa [hres])
  | replaced h1 h2 h3 => exact .replaced (by rwa [hs]) (hrep.2 h2) (by rwa [hres])
  | dropped h1 h2 h3 h4 h5 =>
    exact .dropped (by rwa [hs]) (mt hrep.1 h2) h3 (by rwa [hres]) h5

lemma KeyHistory.reseed : KeyHistory ask q (p.reseed f (ask p.reseeds)) := by
  obtain ⟨hcnt, hcs⟩ := reseed_cases (f := f) p (ask p.reseeds)
  have hder' (hk : derivers (p.reseed f (ask p.reseeds)) = derivers p) :
      FirstReplaced (p.reseed f (ask p.reseeds)) ↔ FirstReplaced p := by
    rw [FirstReplaced, hk, FirstReplaced]
  cases h with
  | first hsp hrdy hq hder hw hf =>
    have hmts : MeetsFirstKey q p.reseeds := by
      by_cases hs : q = .strong
      · exact .inr hs
      · exact .inl (hw hs)
    obtain ⟨hok, hs', hrep⟩ | ⟨hno, hk, hd | hst⟩ := hcs
    · exact .replaced (by omega) (hrep.2 (.inl hsp)) ⟨p.reseeds, by omega, hmts, hok⟩
    · obtain ⟨-, hq', hs'⟩ := hd
      have hz : p.reseeds = 0 := hw (hq ▸ hq')
      exact .dropped (by omega) (mt (hder' hk).1 hder) (hq ▸ hq') (by omega) (by rwa [hz] at hno)
    obtain ⟨hstr, hs', hrdy', hq'⟩ := hst
    have hs : q = .strong := hq ▸ hstr.resolve_left (by simp [hrdy])
    refine .first (hs'.trans hsp) (hrdy'.trans hrdy) (hq'.trans hq)
      (mt (hder' hk).1 hder) (absurd hs) fun i hi => ?_
    obtain hlt | hge := lt_or_ge i p.reseeds
    · exact hf i hlt
    · have hl : i = p.reseeds := by omega
      rw [hl]
      exact hno
  | replaced hsp hder hok =>
    obtain ⟨i, hi, hok⟩ := hok
    obtain ⟨-, hs', hrep⟩ | ⟨-, hk, ⟨-, -, hs'⟩ | ⟨-, hs', -⟩⟩ := hcs
    · exact .replaced (by omega) (hrep.2 (.inr hder)) ⟨i, by omega, hok⟩
    all_goals exact .replaced (by omega) ((hder' hk).2 hder) ⟨i, by omega, hok⟩
  | dropped hsp hder hq hsm hf =>
    obtain ⟨-, hs', hrep⟩ | ⟨-, hk, ⟨-, -, hs'⟩ | ⟨-, hs', -⟩⟩ := hcs
    · refine .dropped (by omega) (fun hc => ?_) hq (by omega) hf
      exact (hrep.1 hc).elim (by omega) hder
    all_goals exact .dropped (by omega) (mt (hder' hk).1 hder) hq (by omega) hf

lemma KeyHistory.chunk (n : Nat) : KeyHistory ask q (p.chunk f ask n).1 := by
  obtain ⟨h1, h2, h3, h4, -, h6⟩ := blocks_keeps (f := f) ((n + 63) / 64) p
  have hb : KeyHistory ask q { (Pool.blocks f ((n + 63) / 64) p).1 with
      sinceReseed := (Pool.blocks f ((n + 63) / 64) p).1.sinceReseed + n } :=
    h.congr h1 h2 h3 h4 h6
  unfold Pool.chunk
  dsimp only
  split
  · exact hb.reseed
  · exact hb

lemma KeyHistory.run (lens : List Nat) :
    KeyHistory ask q (p.run f ask (lens.map .get)) := run_keeps (fun _ n _ h => h.chunk n) h lens

lemma KeyHistory.replaced_iff :
    FirstReplaced p ↔ ∃ i < p.reseeds, MeetsFirstKey q i ∧ (ask i).granted = true := by
  cases h with
  | first _ _ _ hder _ hf =>
    refine iff_of_false hder ?_
    rintro ⟨i, hi, -, hok⟩
    simp [hf i hi] at hok
  | replaced _ hder hok => exact iff_of_true hder hok
  | dropped _ hder hq _ hf =>
    refine iff_of_false hder ?_
    rintro ⟨i, -, rfl | hs, hok⟩
    · simp [hf] at hok
    · exact hq hs

end

/-- A pool that is not ready stays as it is. -/
lemma run_of_not_ready (h : p.ready = false) (lens : List Nat) : p.run f ask (lens.map .get) = p := by
  unfold run
  induction lens with
  | nil => rfl
  | cons len lens ih =>
    have hn : p.next f ask (.get len) = p := by simp [Pool.next, getRandomBytes, h]
    rw [map_cons, foldl_cons, hn, ih]

/-- One call on a pool that is ready. -/
lemma run_get (h : p.ready = true) (len : Nat) : p.run f ask ([len].map .get) = (chunks f ask len len p).1 := by
  simp [run, Pool.next, getRandomBytes, h]

lemma firstReplaced_iff (f : Block) (ask : Nat → Entropy) (boot : Option (Bytes 32)) (e : Entropy)
    (lens : List Nat) : FirstReplaced ((randomInit boot e).run f ask (lens.map .get)) ↔
      ∃ i < ((randomInit boot e).run f ask (lens.map .get)).reseeds,
        MeetsFirstKey (randomInit boot e).quality i ∧ (ask i).granted = true := by
  have hst : (randomInit boot e).span = 0 ∧ (randomInit boot e).reseeds = 0 ∧
      (randomInit boot e).calls = [] := by
    unfold randomInit
    split
    · exact ⟨rfl, rfl, rfl⟩
    · split <;> exact ⟨rfl, rfl, rfl⟩
  obtain ⟨hs, hres, hcls⟩ := hst
  have hder : ¬FirstReplaced (randomInit boot e) := by simp [FirstReplaced, derivers, hcls]
  cases hrdy : (randomInit boot e).ready with
  | false =>
    rw [run_of_not_ready hrdy]
    refine iff_of_false hder ?_
    rintro ⟨i, hi, -⟩
    omega
  | true =>
    have h : KeyHistory ask (randomInit boot e).quality (randomInit boot e) :=
      .first hs hrdy rfl hder (fun _ => hres) fun i hi => by omega
    exact (h.run lens).replaced_iff

/-- What a chunk does to the numbers. -/
lemma chunk_counts (f : Block) (ask : Nat → Entropy) (p : Pool) (n : Nat) :
    (outputs (p.chunk f ask n).1).length = (outputs p).length + (n + 63) / 64 ∧
      ((p.chunk f ask n).1.reseeds = p.reseeds + 1 ∨
        p.sinceReseed + n < RESEED_INTERVAL ∧ (p.chunk f ask n).1.reseeds = p.reseeds ∧
          (p.chunk f ask n).1.sinceReseed = p.sinceReseed + n) := by
  obtain ⟨-, -, -, hres, hsince, -⟩ := blocks_keeps (f := f) ((n + 63) / 64) p
  have hlen := outputs_blocks (f := f) ((n + 63) / 64) p
  unfold chunk
  dsimp only
  split
  · refine ⟨?_, .inl ?_⟩
    · rw [outputs_reseed]
      exact hlen
    · rw [(reseed_cases _ _).1]
      exact congrArg (· + 1) hres
  · rename_i hsht
    refine ⟨hlen, .inr ⟨?_, hres, congrArg (· + n) hsince⟩⟩
    rw [hsince] at hsht
    exact Nat.lt_of_not_le hsht

/-- The hardware is asked once the interval is over, and no more blocks are computed than there are
bytes. -/
lemma chunks_counts (f : Block) (ask : Nat → Entropy) (fuel len : Nat) (p : Pool) (hf : len ≤ fuel) :
    p.reseeds ≤ (chunks f ask fuel len p).1.reseeds ∧ (RESEED_INTERVAL ≤ p.sinceReseed + len → 0 < len →
        p.reseeds < (chunks f ask fuel len p).1.reseeds) ∧
      (outputs (chunks f ask fuel len p).1).length ≤ (outputs p).length + len := by
  induction fuel generalizing len p with
  | zero => exact ⟨le_refl _, fun _ hlen => by omega, le_add_right _ _⟩
  | succ fuel ih =>
    unfold chunks
    split
    · exact ⟨le_refl _, fun _ hlen => by omega, le_add_right _ _⟩
    dsimp only
    obtain ⟨hout, hs⟩ := chunk_counts f ask p (min len 65536)
    obtain ⟨hm, ho, hfew⟩ := ih (len - min len 65536) (p.chunk f ask (min len 65536)).1 (by omega)
    refine ⟨by omega, fun hlen hpos => ?_, by omega⟩
    obtain hmr | ⟨hsht, hsm, hsince⟩ := hs
    · omega
    · have hlater := ho (by omega) (by omega)
      omega

/-- Hardware that always fails. -/
def refused (_ : Nat) : Entropy := ⟨false, .none, fun _ => 0⟩

/-- A mebibyte from a pool that was seeded by the boot loader: the hardware is asked. -/
lemma mebibyte_counts (ask : Nat → Entropy) :
    0 < ((randomInit (some fun _ => 0) (firstAnswer 7 0)).run chacha20Block ask ([RESEED_INTERVAL].map .get)).reseeds ∧
      (outputs ((randomInit (some fun _ => 0) (firstAnswer 7 0)).run chacha20Block ask
        ([RESEED_INTERVAL].map .get))).length < 2 ^ 64 := by
  obtain ⟨-, hasked, hfew⟩ := chunks_counts chacha20Block ask RESEED_INTERVAL
    RESEED_INTERVAL (randomInit (some fun _ => 0) (firstAnswer 7 0)) (le_refl _)
  rw [← run_get rfl] at hasked hfew
  exact ⟨hasked (le_add_left _ _) (by decide), lt_of_le_of_lt hfew (show _ < 2 ^ 64 by decide)⟩

/-- **Which key streams repeat a block.** After `random_init`, through any calls of `get_random_bytes`
with fewer than `2 ^ 64` blocks in all, the inputs of the block function are pairwise different under
each key exactly if no reseed that meets the first key succeeds: none at all if the pool was strong, and
not the first one if it was weak. -/
theorem keystream_fresh_iff (f : Block) (ask : Nat → Entropy) (boot : Option (Bytes 32)) (e : Entropy)
    (lens : List Nat) (hfew : (outputs ((randomInit boot e).run f ask (lens.map .get))).length < 2 ^ 64) :
    (((randomInit boot e).run f ask (lens.map .get)).calls.map input).Nodup ↔
      ∀ i < ((randomInit boot e).run f ask (lens.map .get)).reseeds,
        MeetsFirstKey (randomInit boot e).quality i → (ask i).granted = false := by
  have hrep := firstReplaced_iff f ask boot e lens
  rw [((counted_randomInit boot e).run lens).nodup_iff hfew]
  constructor
  · intro hn i hi hmts
    by_contra hok
    obtain ⟨c, hc, hs⟩ := hrep.2 ⟨i, hi, hmts, by simpa using hok⟩
    exact hn c hc hs
  · intro hn c hc hs
    obtain ⟨i, hi, hmts, hok⟩ := hrep.1 ⟨c, hc, hs⟩
    simp [hn i hi hmts] at hok

/-- A strong pool gives out a mebibyte, and the hardware fails when it is asked for fresh bytes: no block repeats. -/
theorem keystream_fresh_iff_refused :
    0 < ((randomInit (some fun _ => 0) (firstAnswer 7 0)).run chacha20Block refused ([RESEED_INTERVAL].map .get)).reseeds ∧
      (((randomInit (some fun _ => 0) (firstAnswer 7 0)).run chacha20Block refused
        ([RESEED_INTERVAL].map .get)).calls.map input).Nodup := by
  obtain ⟨hres, hsht⟩ := mebibyte_counts refused
  exact ⟨hres, (keystream_fresh_iff _ _ _ _ _ hsht).2 fun _ _ _ => rfl⟩

/-- A strong pool gives out a mebibyte in one call, and the hardware has fresh bytes: the first block
of output is computed again for the next key. -/
theorem keystream_fresh_repeated :
    (outputs ((randomInit (some fun _ => 0) (firstAnswer 7 0)).run chacha20Block (firstAnswer 7)
        ([RESEED_INTERVAL].map .get))).length < 2 ^ 64 ∧
      ¬(((randomInit (some fun _ => 0) (firstAnswer 7 0)).run chacha20Block (firstAnswer 7)
        ([RESEED_INTERVAL].map .get)).calls.map input).Nodup := by
  obtain ⟨hres, hsht⟩ := mebibyte_counts (firstAnswer 7)
  refine ⟨hsht, fun hnd => ?_⟩
  obtain ⟨c, hc, hs⟩ := (firstReplaced_iff chacha20Block (firstAnswer 7)
    (some fun _ => 0) (firstAnswer 7 0) [RESEED_INTERVAL]).2 ⟨0, hres, .inl rfl, rfl⟩
  exact (((counted_randomInit _ _).run _).nodup_iff hsht).1 hnd c hc hs

end OS01.Random
