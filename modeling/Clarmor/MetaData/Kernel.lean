import Clarmor.MetaData.MemObj

/-!
# Descriptions of kernel arguments

The wrapper keeps one `kernel_arg` for every argument that was set, with the
description of the memory object that was passed, where it knows one.
-/

namespace Clarmor

/-- `kernel_arg`.  The value is kept as the number that its bytes are; a pointer
to a description is that description. -/
structure KernelArg where
  handle : Nat
  size : Nat
  value : Option Nat
  buffer : Option MemObj
  svmBuffer : Option SvmObj
deriving DecidableEq, Repr

/-- The handle of the memory object that an argument is. -/
def KernelArg.bufferHandle (a : KernelArg) : Option Handle := a.buffer.map MemObj.handle

end Clarmor
