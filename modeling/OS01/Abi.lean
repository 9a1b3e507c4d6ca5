import Mathlib.Data.Int.Notation

/-!
# Error numbers and addresses

The error numbers that the kernel returns, negated, in place of a result, and the user address space as the kernel and
the C library know it.
-/

namespace OS01

/-- Not permitted. -/
def EPERM : Int := 1
/-- No such file. -/
def ENOENT : Int := 2
/-- Interrupted call. -/
def EINTR : Int := 4
/-- Input or output failed. -/
def EIO : Int := 5
/-- Not an executable file. -/
def ENOEXEC : Int := 8
/-- Not an open descriptor. -/
def EBADF : Int := 9
/-- Try again. -/
def EAGAIN : Int := 11
/-- Out of memory. -/
def ENOMEM : Int := 12
/-- Permission denied. -/
def EACCES : Int := 13
/-- Bad address. -/
def EFAULT : Int := 14
/-- In use. -/
def EBUSY : Int := 16
/-- No such device. -/
def ENODEV : Int := 19
/-- Not a directory. -/
def ENOTDIR : Int := 20
/-- Malformed request. -/
def EINVAL : Int := 22
/-- The process has too many descriptors. -/
def EMFILE : Int := 24
/-- No space is left on the device. -/
def ENOSPC : Int := 28
/-- The device cannot be written. -/
def EROFS : Int := 30
/-- No reader is left. -/
def EPIPE : Int := 32
/-- A result does not fit. -/
def ERANGE : Int := 34
/-- A name or path is too long. -/
def ENAMETOOLONG : Int := 36
/-- Too many symbolic links. -/
def ELOOP : Int := 40
/-- A value does not fit, or data was lost. -/
def EOVERFLOW : Int := 75
/-- The object has moved on. -/
def ESTALE : Int := 116

/-- Size of a small page. -/
def PAGE_4K_SIZE : Nat := 4096
/-- Lowest address of a user image. -/
def USER_CODE_ADDR : Nat := 0x400000
/-- Lowest user address that a system call accepts. -/
def USER_MIN_ADDR : Nat := 0x400000
/-- Base of the user stack. -/
def USER_STACK_BASE : Nat := 0x20400000
/-- Upper bound of the program break, one page below the stack. -/
def HEAP_LIMIT : Nat := 0x203ff000

end OS01
