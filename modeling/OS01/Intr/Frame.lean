import OS01.Lib.Bytes

/-!
# Register frames

`PtRegs` is the frame the entry code of `kernel/arch/x86_64/intr/entry.S` pushes on the task's
kernel stack and that `RESTORE_ALL` and `iretq` load back. `Sigframe` is the record of
`kernel/include/uapi/time.h` that signal delivery copies to the user stack, 25 words in the order
of the C struct. The codec between a `Sigframe` and its 200 bytes is exact (`ofBytes_toBytes`),
and so is the pair of field-by-field copies the kernel makes between the two records
(`restore_save`).
-/

namespace OS01.Intr

open Lib

/-- A 64-bit register. -/
abbrev Word : Type := BitVec 64

/-- `ARCH_USER_CS`: ring 3 code, GDT index 5 with RPL 3. -/
def USER_CS : Word := 0x2B

/-- `ARCH_USER_DS`: ring 3 data, GDT index 6 with RPL 3. -/
def USER_DS : Word := 0x33

/-- The register frame of a kernel entry (`pt_regs_t`). -/
structure PtRegs where
  (r15 r14 r13 r12 r11 r10 r9 r8 rbx rcx rdx rsi rdi rbp ds es rax : Word)
  /-- Handler the entry stub pushed; not a register of the interrupted code. -/
  func : Word
  /-- Hardware error code; not a register of the interrupted code. -/
  errcode : Word
  (rip cs rflags rsp ss : Word)
deriving DecidableEq, Repr

/-- The `memset(regs, 0, sizeof(pt_regs_t))` of `spawn_user_task`. -/
def PtRegs.zero : PtRegs :=
  ⟨0, 0, 0, 0, 0, 0, 0, 0, 0, 0, 0, 0, 0, 0, 0, 0, 0, 0, 0, 0, 0, 0, 0, 0⟩

/-- The record saved on the user stack by a signal delivery (`struct sigframe`). -/
structure Sigframe where
  (r15 r14 r13 r12 r11 r10 r9 r8 rbx rcx rdx rsi rdi
    rbp ds es rax func errcode rip cs rflags rsp ss blocked : Word)
deriving DecidableEq, Repr

namespace Sigframe

/-- `sizeof(struct sigframe)`. -/
def size : Nat := 200

/-- The words of a frame, in the order of the C struct. -/
def words (f : Sigframe) : List Word :=
  [f.r15, f.r14, f.r13, f.r12, f.r11, f.r10, f.r9, f.r8, f.rbx, f.rcx, f.rdx, f.rsi, f.rdi,
   f.rbp, f.ds, f.es, f.rax, f.func, f.errcode, f.rip, f.cs, f.rflags, f.rsp, f.ss, f.blocked]

/-- The memory image of a frame. -/
def toBytes (f : Sigframe) : List UInt8 := encodeWords f.words

/-- The frame a memory image holds. -/
def ofBytes (bs : List UInt8) : Sigframe where
  r15 := wordAt bs 0
  r14 := wordAt bs 1
  r13 := wordAt bs 2
  r12 := wordAt bs 3
  r11 := wordAt bs 4
  r10 := wordAt bs 5
  r9 := wordAt bs 6
  r8 := wordAt bs 7
  rbx := wordAt bs 8
  rcx := wordAt bs 9
  rdx := wordAt bs 10
  rsi := wordAt bs 11
  rdi := wordAt bs 12
  rbp := wordAt bs 13
  ds := wordAt bs 14
  es := wordAt bs 15
  rax := wordAt bs 16
  func := wordAt bs 17
  errcode := wordAt bs 18
  rip := wordAt bs 19
  cs := wordAt bs 20
  rflags := wordAt bs 21
  rsp := wordAt bs 22
  ss := wordAt bs 23
  blocked := wordAt bs 24

/-- The image of a frame has the size of the C struct. -/
@[simp] lemma length_toBytes (f : Sigframe) : f.toBytes.length = size := by
  rw [toBytes, length_encodeWords]
  rfl

/-- A frame is read back from its own image. -/
@[simp] lemma ofBytes_toBytes (f : Sigframe) : ofBytes f.toBytes = f := by
  have hw : ∀ i (hi : i < f.words.length), wordAt f.toBytes i = f.words[i] :=
    wordAt_encodeWords f.words
  have hlen : f.words.length = 25 := rfl
  unfold ofBytes
  rw [hw 0, hw 1, hw 2, hw 3, hw 4, hw 5, hw 6, hw 7, hw 8, hw 9,
    hw 10, hw 11, hw 12, hw 13, hw 14, hw 15, hw 16, hw 17, hw 18,
    hw 19, hw 20, hw 21, hw 22, hw 23, hw 24]
  · rfl
  all_goals omega

end Sigframe

namespace PtRegs

/-- The frame `arch_do_signal_delivery` builds: `func` and `errcode` stay zero from the
`memset`. -/
def saveFrame (regs : PtRegs) (blocked : Word) : Sigframe where
  r15 := regs.r15
  r14 := regs.r14
  r13 := regs.r13
  r12 := regs.r12
  r11 := regs.r11
  r10 := regs.r10
  r9 := regs.r9
  r8 := regs.r8
  rbx := regs.rbx
  rcx := regs.rcx
  rdx := regs.rdx
  rsi := regs.rsi
  rdi := regs.rdi
  rbp := regs.rbp
  ds := regs.ds
  es := regs.es
  rax := regs.rax
  func := 0
  errcode := 0
  rip := regs.rip
  cs := regs.cs
  rflags := regs.rflags
  rsp := regs.rsp
  ss := regs.ss
  blocked := blocked

/-- The register restore of `arch_syscall_sigreturn`: every field but the two entry slots. -/
def restoreFrame (regs : PtRegs) (frame : Sigframe) : PtRegs where
  r15 := frame.r15
  r14 := frame.r14
  r13 := frame.r13
  r12 := frame.r12
  r11 := frame.r11
  r10 := frame.r10
  r9 := frame.r9
  r8 := frame.r8
  rbx := frame.rbx
  rcx := frame.rcx
  rdx := frame.rdx
  rsi := frame.rsi
  rdi := frame.rdi
  rbp := frame.rbp
  ds := frame.ds
  es := frame.es
  rax := frame.rax
  func := regs.func
  errcode := regs.errcode
  rip := frame.rip
  cs := frame.cs
  rflags := frame.rflags
  rsp := frame.rsp
  ss := frame.ss

/-- Two register frames give the interrupted code the same registers: they agree on every field
that `RESTORE_ALL` and `iretq` load. -/
def SameRegisters (a b : PtRegs) : Prop :=
  { a with func := b.func, errcode := b.errcode } = b

/-- Restoring a saved frame gives back the registers that were saved. -/
lemma restore_save (regs now : PtRegs) (blocked : Word) :
    SameRegisters (now.restoreFrame (regs.saveFrame blocked)) regs := rfl

end PtRegs

end OS01.Intr
