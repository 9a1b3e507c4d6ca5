import Mathlib.Algebra.Group.Nat.Defs
import Mathlib.Data.Fin.Basic

/-!
# The random pool

`kernel/random/random.c` and the ChaCha20 block function of `libc/random/chacha20.c`. The pool is a
32-byte key with a 64-bit block counter. `get_random_bytes` gives out the blocks of the key stream in
turn, in chunks of 64 KiB, and after every mebibyte has the key replaced (`reseed`): the new key is the
first half of a block computed with the old one.

The block function is a parameter (`Block`); `chacha20Block` is the one the kernel uses. The answers of
the hardware are given by their number. The state records every call of the block function, with the
number of the key it was made with, counted from the start (`span`): the key changes when a reseed
derives a new one, when a weak pool is dropped, and when `random_add_entropy` mixes bytes into it.
-/

namespace OS01.Random

open Function

/-- An array of `n` bytes. -/
abbrev Bytes (n : Nat) : Type := Fin n → UInt8

/-- A block function: key, counter and nonce to a block. -/
abbrev Block : Type := Bytes 32 → UInt32 → Bytes 12 → Bytes 64

/-! ## ChaCha20 -/

/-- `rotl32`. -/
def rotl32 (v : UInt32) (c : UInt32) : UInt32 := (v <<< c) ||| (v >>> (32 - c))

/-- `QR` on four words of the state. -/
def quarterRound (x : Fin 16 → UInt32) (a b c d : Fin 16) : Fin 16 → UInt32 :=
  let x := update x a (x a + x b)
  let x := update x d (rotl32 (x d ^^^ x a) 16)
  let x := update x c (x c + x d)
  let x := update x b (rotl32 (x b ^^^ x c) 12)
  let x := update x a (x a + x b)
  let x := update x d (rotl32 (x d ^^^ x a) 8)
  let x := update x c (x c + x d)
  update x b (rotl32 (x b ^^^ x c) 7)

/-- The columns and then the diagonals. -/
def doubleRound (x : Fin 16 → UInt32) : Fin 16 → UInt32 :=
  let x := quarterRound x 0 4 8 12
  let x := quarterRound x 1 5 9 13
  let x := quarterRound x 2 6 10 14
  let x := quarterRound x 3 7 11 15
  let x := quarterRound x 0 5 10 15
  let x := quarterRound x 1 6 11 12
  let x := quarterRound x 2 7 8 13
  quarterRound x 3 4 9 14

/-- `load32_le`. -/
def load32Le (p : Fin 4 → UInt8) : UInt32 :=
  (p 0).toUInt32 ||| ((p 1).toUInt32 <<< 8) ||| ((p 2).toUInt32 <<< 16) ||| ((p 3).toUInt32 <<< 24)

/-- Byte `j` of `store32_le`. -/
def store32Le (v : UInt32) (j : Nat) : UInt8 := (v >>> (8 * j).toUInt32).toUInt8

/-- The words that the block function starts from. -/
def chachaInit (key : Bytes 32) (counter : UInt32) (nonce : Bytes 12) (i : Fin 16) : UInt32 :=
  if i = 0 then 0x61707865
  else if i = 1 then 0x3320646e
  else if i = 2 then 0x79622d32
  else if i = 3 then 0x6b206574
  else if h : i.val < 12 then load32Le fun j => key ⟨4 * (i.val - 4) + j.val, by omega⟩
  else if i = 12 then counter
  else load32Le fun j => nonce ⟨4 * (i.val - 13) + j.val, by omega⟩

/-- `chacha20_block`. -/
def chacha20Block : Block := fun key counter nonce =>
  let s := chachaInit key counter nonce
  let x := (List.range 10).foldl (fun x _ => doubleRound x) s
  fun k => store32Le (x ⟨k.val / 4, by omega⟩ + s ⟨k.val / 4, by omega⟩) (k.val % 4)

/-! ## The pool -/

/-- `arch_entropy_source_t`. -/
inductive Quality
  | none
  | weak
  | strong
deriving DecidableEq, Repr

/-- An answer of `arch_random_get_entropy`. -/
structure Entropy where
  ok : Bool
  quality : Quality
  bytes : Bytes 32

/-- A call of the block function. -/
structure BlockCall where
  /-- The number of the key. -/
  span : Nat
  key : Bytes 32
  counter : UInt32
  nonce : Bytes 12
  /-- Whether the block becomes the next key, and not output. -/
  derives : Bool

/-- The pool. -/
structure Pool where
  /-- `pool_key`. -/
  key : Bytes 32
  /-- `pool_blk`. -/
  blk : Nat
  /-- `pool_bytes_since_reseed`. -/
  sinceReseed : Nat
  /-- `random_ready`. -/
  ready : Bool
  /-- `pool_quality`. -/
  quality : Quality
  /-- How often the hardware was asked. -/
  reseeds : Nat
  /-- The number of the key. -/
  span : Nat
  /-- The calls of the block function, the last one first. -/
  calls : List BlockCall

/-- `RESEED_INTERVAL`. -/
def RESEED_INTERVAL : Nat := 2 ^ 20

/-- The nonce of a block: the upper half of its number in the first word. -/
def nonceOf (blk : Nat) (k : Fin 12) : UInt8 :=
  if k.val < 4 then (blk / 2 ^ (32 + 8 * k.val)).toUInt8 else 0

/-- The counter of a block: the lower half of its number. -/
def counterOf (blk : Nat) : UInt32 := blk.toUInt32

namespace Pool

variable (f : Block) (p : Pool)

/-- The buffer of `reseed`: the key and the fresh bytes. -/
def seed (fresh : Bytes 32) (k : Fin 64) : UInt8 :=
  if h : k.val < 32 then p.key ⟨k.val, h⟩ else fresh ⟨k.val - 32, by omega⟩

/-- The key that `chacha20_block` reads when it is passed a longer buffer. -/
def keyOf (buf : Bytes 64) : Bytes 32 := fun k => buf ⟨k.val, by omega⟩

/-- The derivation in `reseed`: one block with counter and nonce zero. -/
def derive (fresh : Bytes 32) : Pool :=
  let key := keyOf (p.seed fresh)
  let block := f key 0 fun _ => 0
  { p with
    key := keyOf block
    span := p.span + 1
    calls := ⟨p.span, key, 0, fun _ => 0, true⟩ :: p.calls }

/-- `reseed`, with the answer of the hardware. -/
def reseed (e : Entropy) : Pool :=
  let p : Pool := { p with reseeds := p.reseeds + 1 }
  if !e.ok || decide (e.quality = .none) then
    if !p.ready then { p with sinceReseed := 0 }
    else if p.quality = .strong then { p with sinceReseed := 0 }
    else
      { p with
        key := fun _ => 0
        span := p.span + 1
        ready := false
        quality := .none
        sinceReseed := 0 }
  else
    let p : Pool := { p.derive f e.bytes with sinceReseed := 0 }
    if e.quality = .weak ∧ p.quality = .strong then p else { p with quality := e.quality }

/-- One block of output. -/
def block : Pool × Bytes 64 :=
  let counter := counterOf p.blk
  let nonce := nonceOf p.blk
  ({ p with
    blk := (p.blk + 1) % 2 ^ 64
    calls := ⟨p.span, p.key, counter, nonce, false⟩ :: p.calls }, f p.key counter nonce)

/-- The inner loop of `get_random_bytes`: `n` blocks. -/
def blocks : Nat → Pool → Pool × List UInt8
  | 0, p => (p, [])
  | n + 1, p =>
    let (p, b) := p.block f
    let (p, out) := blocks n p
    (p, List.ofFn b ++ out)

/-- One chunk of `get_random_bytes`: the blocks it needs, the last one cut, and a reseed if it is
time. -/
def chunk (ask : Nat → Entropy) (n : Nat) : Pool × List UInt8 :=
  let (p, out) := blocks f ((n + 63) / 64) p
  let p : Pool := { p with sinceReseed := p.sinceReseed + n }
  (if RESEED_INTERVAL ≤ p.sinceReseed then p.reseed f (ask p.reseeds) else p, out.take n)

/-- The loop of `get_random_bytes` over the chunks; there are no more of them than bytes. -/
def chunks (ask : Nat → Entropy) : Nat → Nat → Pool → Pool × List UInt8
  | 0, _, p => (p, [])
  | fuel + 1, len, p =>
    if len = 0 then (p, [])
    else
      let n := min len 65536
      let (p, out) := p.chunk f ask n
      let (p, rest) := chunks ask fuel (len - n) p
      (p, out ++ rest)

/-- `get_random_bytes`: zeros if the pool is not ready. -/
def getRandomBytes (ask : Nat → Entropy) (len : Nat) : Pool × List UInt8 :=
  if !p.ready then (p, List.replicate len 0) else chunks f ask len len p

/-- `random_add_entropy`. -/
def addEntropy (data : List UInt8) : Pool :=
  if data = [] ∨ p.ready = false then p
  else
    { p with
      key := fun k => ((data.zipIdx.filter fun x => decide (x.2 % 32 = k.val)).map Prod.fst).foldl
        (· ^^^ ·) (p.key k)
      span := p.span + 1 }

end Pool

/-- `random_init`, with the bytes of the boot loader or the answer of the hardware. -/
def randomInit (boot : Option (Bytes 32)) (e : Entropy) : Pool :=
  match boot with
  | some key => ⟨key, 0, 0, true, .strong, 0, 0, []⟩
  | none =>
    if e.ok && !decide (e.quality = .none) then ⟨e.bytes, 0, 0, true, e.quality, 0, 0, []⟩
    else ⟨fun _ => 0, 0, 0, false, .none, 0, 0, []⟩

/-- A call of the pool. -/
inductive RandomOp
  | get (len : Nat)
  | add (data : List UInt8)

/-- The state after a call. -/
def Pool.next (f : Block) (ask : Nat → Entropy) (p : Pool) : RandomOp → Pool
  | .get len => (p.getRandomBytes f ask len).1
  | .add data => p.addEntropy data

/-- The state after a sequence of calls. -/
def Pool.run (f : Block) (ask : Nat → Entropy) (p : Pool) (ops : List RandomOp) : Pool :=
  ops.foldl (Pool.next f ask) p

end OS01.Random
