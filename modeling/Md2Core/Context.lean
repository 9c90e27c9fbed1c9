import Mathlib.Init

/-!
# CPU contexts

The CPU contexts that the minidump reader hands over, restricted to the fields
the register encoders read. Contexts of architectures that are not supported
carry no fields.
-/

namespace Md2Core

/-- `FLOATING_SAVE_AREA_X86`. -/
structure FloatingSaveAreaX86 where
  controlWord : UInt32
  statusWord : UInt32
  tagWord : UInt32
  errorOffset : UInt32
  errorSelector : UInt32
  dataOffset : UInt32
  dataSelector : UInt32
  registerArea : Vector UInt8 80
  deriving DecidableEq

/-- `CONTEXT_X86`. -/
structure ContextX86 where
  ebx : UInt32
  ecx : UInt32
  edx : UInt32
  esi : UInt32
  edi : UInt32
  ebp : UInt32
  eax : UInt32
  ds : UInt32
  es : UInt32
  fs : UInt32
  gs : UInt32
  eip : UInt32
  cs : UInt32
  eflags : UInt32
  esp : UInt32
  ss : UInt32
  floatSave : FloatingSaveAreaX86
  extendedRegisters : Vector UInt8 512
  deriving DecidableEq

/-- `XMM_SAVE_AREA32`. -/
structure XmmSaveArea32 where
  controlWord : UInt16
  statusWord : UInt16
  tagWord : UInt8
  reserved1 : UInt8
  errorOpcode : UInt16
  errorOffset : UInt32
  dataOffset : UInt32
  mxCsr : UInt32
  mxCsrMask : UInt32
  floatRegisters : Vector (BitVec 128) 8
  xmmRegisters : Vector (BitVec 128) 16
  deriving DecidableEq

/-- `CONTEXT_AMD64`. -/
structure ContextAmd64 where
  r15 : UInt64
  r14 : UInt64
  r13 : UInt64
  r12 : UInt64
  rbp : UInt64
  rbx : UInt64
  r11 : UInt64
  r10 : UInt64
  r9 : UInt64
  r8 : UInt64
  rax : UInt64
  rcx : UInt64
  rdx : UInt64
  rsi : UInt64
  rdi : UInt64
  rip : UInt64
  rsp : UInt64
  eflags : UInt32
  cs : UInt16
  ds : UInt16
  es : UInt16
  fs : UInt16
  gs : UInt16
  ss : UInt16
  /-- What `float_save` decodes to, if it does. -/
  floatSave : Option XmmSaveArea32
  deriving DecidableEq

/-- `CONTEXT_ARM`. -/
structure ContextArm where
  iregs : Vector UInt32 16
  cpsr : UInt32
  deriving DecidableEq

/-- `CONTEXT_ARM64` and `CONTEXT_ARM64_OLD`, which hold the same registers. -/
structure ContextArm64 where
  iregs : Vector UInt64 31
  sp : UInt64
  pc : UInt64
  cpsr : UInt32
  deriving DecidableEq

/-- `CONTEXT_MIPS`. -/
structure ContextMips where
  iregs : Vector UInt64 32
  mdhi : UInt64
  mdlo : UInt64
  epc : UInt64
  badvaddr : UInt64
  status : UInt32
  cause : UInt32
  deriving DecidableEq

/-- `MinidumpRawContext`. -/
inductive MinidumpRawContext
  | x86 (context : ContextX86)
  | ppc
  | ppc64
  | amd64 (context : ContextAmd64)
  | sparc
  | arm (context : ContextArm)
  | arm64 (context : ContextArm64)
  | oldArm64 (context : ContextArm64)
  | mips (context : ContextMips)
  deriving DecidableEq

end Md2Core
