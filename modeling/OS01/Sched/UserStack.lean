import OS01.Lib.Bytes

/-!
# The first stack of a user task

`setup_user_stack` of `kernel/sched/exec.c` with the two checks that its callers make before. Strings, random
bytes, the platform string, a pad, the auxiliary vector and the pointer arrays are pushed downwards onto the
2 MiB stack page, which is addressed here by its user addresses.

What a push leaves is described once, by the list of what has been laid on the stack so far (`Laid`). The
pointer arrays and the auxiliary vector grow together as one table (`Laid.grow`).

A string is the list of its bytes before the NUL. The arrays are lists, so that the check for a NULL inside one
has nothing to find.
-/

namespace OS01.Sched

open List Lib Mem

def USER_STACK_BASE : Nat := 0x20400000
def USER_STACK_SIZE : Nat := 0x200000
def USER_STACK_TOP : Nat := USER_STACK_BASE + USER_STACK_SIZE - 16
def STARTUP_STR_MAX : Nat := 128
def MAX_ARG_STRLEN : Nat := 4096
def MAX_ARG_TOTAL : Nat := 65536
def E2BIG : Int := 7
def AT_NULL : Nat := 0
def AT_PLATFORM : Nat := 15
def AT_RANDOM : Nat := 25

/-! ## The checks -/

/-- `startup_args_count`. -/
def startupArgsCount (argv envp : List (List UInt8)) : Except Int (Nat × Nat) :=
  if STARTUP_STR_MAX < argv.length + envp.length then .error (-E2BIG) else .ok (argv.length, envp.length)

/-- A loop of `setup_user_stack_check_capacity` over the strings of an array. -/
def addStrings (strBytes : Nat) : List (List UInt8) → Except Int Nat
  | [] => .ok strBytes
  | s :: ss =>
    let len := s.length + 1
    if MAX_ARG_STRLEN < len then .error (-E2BIG)
    else if MAX_ARG_TOTAL < strBytes + len then .error (-E2BIG)
    else addStrings (strBytes + len) ss

/-- `setup_user_stack_check_capacity`. -/
def setupUserStackCheckCapacity (argv envp : List (List UInt8)) : Except Int Unit := do
  let strBytes ← addStrings 0 argv
  let strBytes ← addStrings strBytes envp
  let metaOverhead := (argv.length + envp.length + 3) * 8 + 96 + 16
  if USER_STACK_SIZE - 16 < strBytes + metaOverhead then .error (-E2BIG) else .ok ()

/-! ## The stack -/

structure UserStack where
  rsp : Nat
  mem : Mem

namespace UserStack

/-- `rsp = a; memcpy(KSTACK(rsp), bs, ...)`. -/
def place (s : UserStack) (a : Nat) (bs : List UInt8) : UserStack := ⟨a, s.mem.write a bs⟩

def push (s : UserStack) (bs : List UInt8) : UserStack := s.place (s.rsp - bs.length) bs

/-- Words are pushed from the last to the first, so that they stand in order. -/
def pushWords (s : UserStack) (ws : List Nat) : UserStack := ws.foldr (fun w s => s.push (leBytes 8 w)) s

/-- The strings of an array, with the addresses that go into `str_offset`. -/
def pushStrings (s : UserStack) : List (List UInt8) → UserStack × List Nat
  | [] => (s, [])
  | str :: strs =>
    let s := s.push (str ++ [0])
    let r := s.pushStrings strs
    (r.1, s.rsp :: r.2)

end UserStack

/-- What `setup_user_stack` hands out, and the memory it leaves. -/
structure Startup where
  rsp : Nat
  argvPtr : Nat
  envpPtr : Nat
  mem : Mem

/-- The part of `setup_user_stack` above the pointer arrays: the stack, and the addresses of the random bytes
and of the platform string. -/
def pushPayload (s : UserStack) (slots : Nat) (platform random : List UInt8) : UserStack × Nat × Nat :=
  let s := s.place ((s.rsp / 16 * 16 - 16) / 16 * 16) random
  let atRandomAddr := s.rsp
  let s := s.push platform
  let atPlatformAddr := s.rsp
  let fixed := 16 + platform.length + 3 * 16
  let metadata := slots * 8
  let pad := (16 - (fixed + metadata) % 16) % 16
  let s := if 0 < pad then s.push (List.replicate pad 0) else s
  (s, atRandomAddr, atPlatformAddr)

/-- `setup_user_stack`. `strong` is what `kernel_random_get_strong` puts into its buffer of 32 bytes. -/
def setupUserStack (mem : Mem) (argv envp : List (List UInt8)) (platform : List UInt8) (kmallocOk : Bool)
    (strong : Option (List UInt8)) : Option Startup :=
  if !kmallocOk then none
  else
    let (s, argvOffset) := UserStack.pushStrings ⟨USER_STACK_TOP, mem⟩ argv
    let (s, envpOffset) := s.pushStrings envp
    match strong with
    | none => none
    | some buf =>
      let (s, atRandomAddr, atPlatformAddr) :=
        pushPayload s (argv.length + envp.length + 3) platform (buf.take 16)
      let s := s.pushWords [AT_NULL, 0]
      let s := s.pushWords [AT_RANDOM, atRandomAddr]
      let s := s.pushWords [AT_PLATFORM, atPlatformAddr]
      let s := s.pushWords [0]
      let s := s.pushWords envpOffset
      let envpArr := s.rsp
      let s := s.pushWords [0]
      let s := s.pushWords argvOffset
      let argvArr := s.rsp
      let s := s.pushWords [argv.length]
      some ⟨s.rsp, argvArr, envpArr, s.mem⟩

/-! ## What is laid on the stack -/

/-- What has been laid on the stack, first to last, each with its address: it is still there, one below the
other, and nothing else of the memory has changed. -/
structure Laid (mem : Mem) (chunks : List (Nat × List UInt8)) (s : UserStack) : Prop where
  top : s.rsp ≤ USER_STACK_TOP
  inside : ∀ c ∈ chunks, s.rsp ≤ c.1
  holds : ∀ c ∈ chunks, s.mem.read c.1 c.2.length = c.2
  apart : chunks.Pairwise fun c d => d.1 + d.2.length ≤ c.1
  outside : ∀ a, a < s.rsp ∨ USER_STACK_TOP ≤ a → s.mem a = mem a

namespace Laid

variable {mem : Mem} {chunks : List (Nat × List UInt8)} {s : UserStack} {bs : List UInt8} {a : Nat}

lemma place (h : Laid mem chunks s) (ha : a + bs.length ≤ s.rsp) : Laid mem (chunks ++ [(a, bs)]) (s.place a bs) := by
  have htop := h.top
  have hk : ∀ x, x < a ∨ a + bs.length ≤ x → (s.place a bs).mem x = s.mem x :=
    fun x hx => write_outside s.mem a bs hx
  refine ⟨by simp only [UserStack.place]; omega, ?_, ?_, ?_, fun x hx => ?_⟩
  · intro c hc
    simp only [UserStack.place]
    obtain hc | hc := mem_append.1 hc
    · have hin := h.inside c hc
      omega
    · rw [mem_singleton.1 hc]
  · intro c hc
    obtain hc | hc := mem_append.1 hc
    · have hin := h.inside c hc
      rw [← h.holds c hc, length_read]
      exact read_congr fun x hx _ => hk x (by omega)
    · rw [mem_singleton.1 hc]
      exact read_write_self s.mem a bs
  · refine pairwise_append.2 ⟨h.apart, pairwise_singleton _ _, fun c hc d hd => ?_⟩
    rw [mem_singleton.1 hd]
    exact ha.trans (h.inside c hc)
  · simp only [UserStack.place] at hx
    rw [hk x (by omega)]
    exact h.outside x (by omega)

lemma push (h : Laid mem chunks s) (bs : List UInt8) (hf : bs.length ≤ s.rsp) :
    Laid mem (chunks ++ [(s.rsp - bs.length, bs)]) (s.push bs) := h.place (by omega)

/-- What was laid last may be forgotten. -/
lemma init {c : Nat × List UInt8} (h : Laid mem (chunks ++ [c]) s) : Laid mem chunks s :=
  ⟨h.top, fun d hd => h.inside d (mem_append_left _ hd), fun d hd => h.holds d (mem_append_left _ hd),
    (pairwise_append.1 h.apart).1, h.outside⟩

/-- What is pushed onto the last chunk adds to it. -/
lemma grow (h : Laid mem (chunks ++ [(s.rsp, bs)]) s) (bs' : List UInt8) (hf : bs'.length ≤ s.rsp) :
    Laid mem (chunks ++ [(s.rsp - bs'.length, bs' ++ bs)]) (s.push bs') := by
  have hpsh := h.push bs' hf
  have hlen : s.rsp - bs'.length + bs'.length = s.rsp := by omega
  refine ⟨hpsh.top, fun c hc => ?_, fun c hc => ?_, ?_, hpsh.outside⟩
  · obtain hc | hc := mem_append.1 hc
    · exact hpsh.init.init.inside c hc
    · rw [mem_singleton.1 hc]
      exact le_rfl
  · obtain hc | hc := mem_append.1 hc
    · exact hpsh.init.init.holds c hc
    · have hnew := hpsh.holds _ (mem_append_right _ (mem_singleton_self _))
      have hold := hpsh.init.holds _ (mem_append_right _ (mem_singleton_self _))
      rw [mem_singleton.1 hc]
      rw [length_append, read_add, hlen, hnew, hold]
  · obtain ⟨hchunks, -, hbel⟩ := pairwise_append.1 h.apart
    refine pairwise_append.2 ⟨hchunks, pairwise_singleton _ _, fun c hc d hd => ?_⟩
    have hl := hbel c hc _ (mem_singleton_self _)
    rw [mem_singleton.1 hd]
    dsimp only at hl ⊢
    rw [length_append]
    omega

lemma pushWords {ws : List Nat} (h : Laid mem (chunks ++ [(s.rsp, bs)]) s) (hf : 8 * ws.length ≤ s.rsp) :
    (s.pushWords ws).rsp = s.rsp - 8 * ws.length ∧
      Laid mem (chunks ++ [((s.pushWords ws).rsp, ws.flatMap (leBytes 8) ++ bs)]) (s.pushWords ws) := by
  induction ws with
  | nil => exact ⟨rfl, h⟩
  | cons w ws ih =>
    rw [length_cons] at hf
    obtain ⟨hrsp, hl⟩ := ih (by omega)
    have hg := hl.grow (leBytes 8 w) (by rw [length_leBytes]; omega)
    have hn : (s.pushWords (w :: ws)).rsp = (s.pushWords ws).rsp - (leBytes 8 w).length := rfl
    refine ⟨by rw [hn, hrsp, length_leBytes, length_cons]; omega, ?_⟩
    exact hg

end Laid

/-- The bytes that the copies of some strings take. -/
def stringBytes (strs : List (List UInt8)) : Nat := (strs.map fun str => str.length + 1).sum

variable {chunks : List (Nat × List UInt8)} {mem : Mem} {s : UserStack}

lemma Laid.pushStrings (h : Laid mem chunks s) (strs : List (List UInt8)) (hf : stringBytes strs ≤ s.rsp) :
    (s.pushStrings strs).1.rsp = s.rsp - stringBytes strs ∧ (s.pushStrings strs).2.length = strs.length ∧
      Laid mem (chunks ++ (s.pushStrings strs).2.zip (strs.map (· ++ [0]))) (s.pushStrings strs).1 := by
  induction strs generalizing s chunks with
  | nil => exact ⟨rfl, rfl, by rw [map_nil, zip_nil_right, append_nil]; exact h⟩
  | cons str strs ih =>
    have hsum : stringBytes (str :: strs) = (str ++ [0]).length + stringBytes strs := by
      rw [length_append]
      rfl
    have hp := h.push (str ++ [0]) (by omega)
    have hrsp : (s.push (str ++ [0])).rsp = s.rsp - (str ++ [0]).length := rfl
    obtain ⟨hr, hlen, hl⟩ := ih hp (by omega)
    rw [append_assoc] at hl
    refine ⟨?_, congrArg Nat.succ hlen, hl⟩
    exact hr.trans (by omega)

lemma addStrings_le {n m : Nat} {strs : List (List UInt8)} (h : addStrings n strs = .ok m)
    (hn : n ≤ MAX_ARG_TOTAL) : n + stringBytes strs = m ∧ m ≤ MAX_ARG_TOTAL := by
  induction strs generalizing n with
  | nil =>
    cases h
    exact ⟨rfl, hn⟩
  | cons str strs ih =>
    rw [addStrings] at h
    split_ifs at h with hl htot
    obtain ⟨hsum, hle⟩ := ih h (Nat.not_lt.1 htot)
    rw [stringBytes, map_cons, sum_cons, ← stringBytes]
    omega

/-- The strings of arrays that pass the check fit into 64 KiB. -/
lemma stringBytes_le {argv envp : List (List UInt8)} (h : setupUserStackCheckCapacity argv envp = .ok ()) :
    stringBytes argv + stringBytes envp ≤ MAX_ARG_TOTAL := by
  unfold setupUserStackCheckCapacity at h
  cases ha : addStrings 0 argv with
  | error e =>
    rw [ha] at h
    cases h
  | ok n =>
    obtain ⟨hn, hle⟩ := addStrings_le ha (Nat.zero_le _)
    rw [ha] at h
    cases he : addStrings n envp with
    | error e =>
      dsimp only [bind, Except.bind] at h
      rw [he] at h
      cases h
    | ok m =>
      obtain ⟨hm, hle'⟩ := addStrings_le he hle
      omega

/-! ## The whole stack -/

/-- The words from `rsp` upwards. -/
def startupTable (argvPtrs envpPtrs : List Nat) (platformAddr randomAddr : Nat) : List Nat :=
  [argvPtrs.length] ++ (argvPtrs ++ ([0] ++ (envpPtrs ++ ([0] ++
    ([AT_PLATFORM, platformAddr] ++ ([AT_RANDOM, randomAddr] ++ [AT_NULL, 0]))))))

/-- The stack of a new task, with the addresses of what lies on it. -/
structure StartupOk (mem : Mem) (argv envp : List (List UInt8)) (platform random : List UInt8) (r : Startup)
    (argvPtrs envpPtrs : List Nat) (platformAddr randomAddr : Nat) : Prop where
  aligned : r.rsp % 16 = 0
  inPage : ∀ a, a < USER_STACK_BASE ∨ USER_STACK_BASE + USER_STACK_SIZE ≤ a → r.mem a = mem a
  argc : argvPtrs.length = argv.length
  envc : envpPtrs.length = envp.length
  laid : Laid mem (argvPtrs.zip (argv.map (· ++ [0])) ++ envpPtrs.zip (envp.map (· ++ [0])) ++
    [(randomAddr, random), (platformAddr, platform),
      (r.rsp, (startupTable argvPtrs envpPtrs platformAddr randomAddr).flatMap (leBytes 8))]) ⟨r.rsp, r.mem⟩
  argvPtr : r.argvPtr = r.rsp + 8
  envpPtr : r.envpPtr = r.rsp + 8 + 8 * (argv.length + 1)

lemma Laid.payload {platform random : List UInt8}
    (h : Laid mem chunks s) (slots : Nat) (hrandom : random.length = 16) (hr : 64 + platform.length ≤ s.rsp) :
    Laid mem (chunks ++ [((pushPayload s slots platform random).2.1, random),
        ((pushPayload s slots platform random).2.2, platform)]) (pushPayload s slots platform random).1 ∧
      ((pushPayload s slots platform random).1.rsp + 8 * slots) % 16 = 0 ∧
      s.rsp ≤ (pushPayload s slots platform random).1.rsp + 62 + platform.length := by
  have hpl := h.place (a := (s.rsp / 16 * 16 - 16) / 16 * 16) (by omega : _ + random.length ≤ s.rsp)
  have hpsh := hpl.push platform (by simp only [UserStack.place]; omega)
  rw [append_assoc] at hpsh
  unfold pushPayload
  dsimp only
  split_ifs with hpad
  · refine ⟨(hpsh.push _ ?_).init, ?_, ?_⟩ <;>
      simp only [UserStack.push, UserStack.place, length_replicate] <;> omega
  · refine ⟨hpsh, ?_, ?_⟩ <;> simp only [UserStack.push, UserStack.place] <;> omega

lemma pushWords_append (s : UserStack) (ws₁ ws₂ : List Nat) :
    s.pushWords (ws₁ ++ ws₂) = (s.pushWords ws₂).pushWords ws₁ := foldr_append ..

/-- The pushes after the payload make one table. -/
lemma setupUserStack_eq (mem : Mem) (argv envp : List (List UInt8)) (platform buf : List UInt8) :
    setupUserStack mem argv envp platform true (some buf) =
      let s₁ := UserStack.pushStrings ⟨USER_STACK_TOP, mem⟩ argv
      let s2 := s₁.1.pushStrings envp
      let p := pushPayload s2.1 (argv.length + envp.length + 3) platform (buf.take 16)
      let auxv := [AT_PLATFORM, p.2.2] ++ ([AT_RANDOM, p.2.1] ++ [AT_NULL, 0])
      let envpTable := s2.2 ++ ([0] ++ auxv)
      let argvTable := s₁.2 ++ ([0] ++ envpTable)
      let s := p.1.pushWords ([argv.length] ++ argvTable)
      some ⟨s.rsp, (p.1.pushWords argvTable).rsp, (p.1.pushWords envpTable).rsp, s.mem⟩ := by
  simp only [pushWords_append]
  rfl

/-- **The first stack.** After the two checks, a successful call leaves the copies of all strings, the random
bytes, the platform string and the table on the stack page, one below the other. -/
theorem setupUserStack_ok {mem : Mem} {argv envp : List (List UInt8)} {platform buf : List UInt8} {counts : Nat × Nat}
    {r : Startup} (hcount : startupArgsCount argv envp = .ok counts)
    (hcapacity : setupUserStackCheckCapacity argv envp = .ok ()) (hplatform : platform.length ≤ 64)
    (hbuf : buf.length = 32) (h : setupUserStack mem argv envp platform true (some buf) = some r) :
    ∃ argvPtrs envpPtrs platformAddr randomAddr,
      StartupOk mem argv envp platform (buf.take 16) r argvPtrs envpPtrs platformAddr randomAddr := by
  have hby := stringBytes_le hcapacity
  have hfew : argv.length + envp.length ≤ STARTUP_STR_MAX := by
    by_contra hm
    rw [startupArgsCount, if_pos (Nat.not_le.1 hm)] at hcount
    cases hcount
  have htop : USER_STACK_TOP = USER_STACK_BASE + USER_STACK_SIZE - 16 := rfl
  have hrandom : (buf.take 16).length = 16 := by rw [length_take, hbuf]; rfl
  have hst : Laid mem [] ⟨USER_STACK_TOP, mem⟩ :=
    ⟨le_rfl, fun c hc => (by cases hc), fun c hc => (by cases hc), .nil, fun _ _ => rfl⟩
  rw [setupUserStack_eq] at h
  simp only [USER_STACK_BASE, USER_STACK_SIZE, MAX_ARG_TOTAL, STARTUP_STR_MAX] at hby hfew htop
  obtain ⟨hrsp1, har, hl1⟩ := hst.pushStrings argv (by dsimp only; omega)
  dsimp only at hrsp1 h
  generalize UserStack.pushStrings ⟨USER_STACK_TOP, mem⟩ argv = s1 at *
  obtain ⟨hrsp2, he, hl2⟩ := hl1.pushStrings envp (by omega)
  generalize s1.1.pushStrings envp = s2 at *
  obtain ⟨hlaid3, hal, hlow⟩ := hl2.payload (argv.length + envp.length + 3) hrandom
    (by omega : 64 + platform.length ≤ _)
  generalize pushPayload s2.1 (argv.length + envp.length + 3) platform (buf.take 16) = p at *
  have ho : Laid mem _ p.1 := hlaid3.place (by simp : p.1.rsp + ([] : List UInt8).length ≤ p.1.rsp)
  have hrsp : ∀ ws : List Nat, ws.length ≤ 140 → (p.1.pushWords ws).rsp = p.1.rsp - 8 * ws.length :=
    fun ws hws => (ho.pushWords (by omega)).1
  have hlength : (startupTable s1.2 s2.2 p.2.2 p.2.1).length = argv.length + envp.length + 9 := by
    simp only [startupTable, length_append, length_cons, length_nil]
    omega
  have htab := (ho.pushWords (by omega : 8 * (startupTable s1.2 s2.2 p.2.2 p.2.1).length ≤ _)).2
  have hl := hrsp (startupTable s1.2 s2.2 p.2.2 p.2.1) (by omega)
  rw [← har] at h
  cases h
  refine ⟨s1.2, s2.2, p.2.2, p.2.1, ?_, fun a ha => ?_, har, he, ?_, ?_, ?_⟩
  · change (p.1.pushWords (startupTable s1.2 s2.2 p.2.2 p.2.1)).rsp % 16 = 0
    omega
  · refine htab.outside a ?_
    simp only [USER_STACK_BASE, USER_STACK_SIZE] at ha
    omega
  · simp only [append_assoc, append_nil] at htab ⊢
    exact htab
  · change _ = (p.1.pushWords (startupTable s1.2 s2.2 p.2.2 p.2.1)).rsp + 8
    dsimp only
    rw [hrsp] <;>
      simp only [length_append, length_cons, length_nil] <;> omega
  · change _ = (p.1.pushWords (startupTable s1.2 s2.2 p.2.2 p.2.1)).rsp + 8 + 8 * (argv.length + 1)
    dsimp only
    rw [hrsp] <;>
      simp only [length_append, length_cons, length_nil] <;> omega

/-- The theorem for one argument and one string of the environment. -/
theorem setupUserStack_ok_oneArgument : ∃ r argvPtrs envpPtrs platformAddr randomAddr,
      setupUserStack (fun _ => 0) [[0x73, 0x68]] [[0x41, 0x3d]] [0x78, 0x38, 0x36, 0] true
          (some (List.replicate 32 7)) = some r ∧
        StartupOk (fun _ => 0) [[0x73, 0x68]] [[0x41, 0x3d]] [0x78, 0x38, 0x36, 0] (List.replicate 16 7) r
          argvPtrs envpPtrs platformAddr randomAddr := by
  obtain ⟨argvPtrs, envpPtrs, platformAddr, randomAddr, hok⟩ :=
    @setupUserStack_ok (fun _ => 0) [[0x73, 0x68]] [[0x41, 0x3d]] [0x78, 0x38, 0x36, 0] (replicate 32 7)
      (1, 1) _ rfl rfl (by decide) rfl rfl
  exact ⟨_, argvPtrs, envpPtrs, platformAddr, randomAddr, rfl, hok⟩

end OS01.Sched
