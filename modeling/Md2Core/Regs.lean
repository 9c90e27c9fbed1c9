import Md2Core.Foundation.ByteString
import Md2Core.Model

/-!
# Register serialization

The bytes of the `pr_reg` field of `elf_prstatus` and of the floating-point
register notes, for every supported architecture. A context of another
architecture is rejected.
-/

namespace Md2Core

open Foundation

/-- The architecture of a context, for diagnostics. -/
def contextArchName : MinidumpRawContext → String
  | .x86 _ => "x86"
  | .amd64 _ => "x86_64"
  | .arm _ => "arm"
  | .arm64 _ | .oldArm64 _ => "aarch64"
  | .mips _ => "mips"
  | .ppc => "ppc"
  | .ppc64 => "ppc64"
  | .sparc => "sparc"

/-! ## x86 -/

/-- Linux i386 `user_regs_struct`. The second `eax` is `orig_eax`. -/
def x86Gpregs (ctx : ContextX86) : List UInt8 :=
  encodeWords 4 ([ctx.ebx, ctx.ecx, ctx.edx, ctx.esi, ctx.edi, ctx.ebp, ctx.eax,
    ctx.ds, ctx.es, ctx.fs, ctx.gs, ctx.eax, ctx.eip, ctx.cs, ctx.eflags,
    ctx.esp, ctx.ss].map UInt32.toNat)

/-- Linux i386 `user_fpregs_struct`. -/
def x86Fpregs (ctx : ContextX86) : List UInt8 :=
  let f := ctx.floatSave
  encodeWords 4 ([f.controlWord, f.statusWord, f.tagWord, f.errorOffset,
    f.errorSelector, f.dataOffset, f.dataSelector].map UInt32.toNat) ++
    f.registerArea.toList

/-- A little-endian field of a buffer that is known to reach that far. -/
def leField (buf : List UInt8) (offset width : Nat) : Nat :=
  leNat (slice buf offset width)

/-- A control register as a 16-bit field, zero when it does not fit. -/
def u16OrZero (value : UInt32) : Nat :=
  ((u16TryFrom value.toNat).getD 0).toNat

/-- Linux i386 `user_fpxregs_struct`, derived from the extended registers with
its header fields rewritten. -/
def x86Fpxregs (ctx : ContextX86) : List UInt8 :=
  let f := ctx.floatSave
  let ext := ctx.extendedRegisters.toList
  let out :=
    leBytes 2 (u16OrZero f.controlWord) ++
    leBytes 2 (u16OrZero f.statusWord) ++
    leBytes 2 (u16OrZero f.tagWord) ++
    leBytes 2 (leField ext 6 2) ++
    leBytes 4 (leField ext 8 2) ++
    leBytes 4 (leField ext 12 2) ++
    leBytes 4 (leField ext 16 2) ++
    leBytes 4 (leField ext 20 2) ++
    leBytes 4 (leField ext 24 4) ++
    leBytes 4 0 ++
    slice ext 32 128 ++
    slice ext 160 128
  resize out 512 0

/-! ## x86_64 -/

/-- Linux `x86_64` `user_regs_struct`. The second `rax` is `orig_rax`; the bases
of `fs` and `gs` are not in a minidump. -/
def amd64Gpregs (ctx : ContextAmd64) : List UInt8 :=
  encodeWords 8 ([ctx.r15, ctx.r14, ctx.r13, ctx.r12, ctx.rbp, ctx.rbx, ctx.r11,
    ctx.r10, ctx.r9, ctx.r8, ctx.rax, ctx.rcx, ctx.rdx, ctx.rsi, ctx.rdi,
    ctx.rax, ctx.rip, ctx.cs.toUInt64, ctx.eflags.toUInt64, ctx.rsp,
    ctx.ss.toUInt64, 0, 0, ctx.ds.toUInt64, ctx.es.toUInt64, ctx.fs.toUInt64,
    ctx.gs.toUInt64].map UInt64.toNat)

/-- Linux `x86_64` `user_fpregs_struct`, if the save area was decoded. -/
def amd64Fpregs (ctx : ContextAmd64) : Option (List UInt8) := do
  let xmm ← ctx.floatSave
  let ftw := xmm.tagWord.toUInt16 ||| (xmm.reserved1.toUInt16 <<< 8)
  let x87Ip := xmm.errorOffset.toUInt64
  let x87DataPtr := xmm.dataOffset.toUInt64
  let out :=
    leBytes 2 xmm.controlWord.toNat ++
    leBytes 2 xmm.statusWord.toNat ++
    leBytes 2 ftw.toNat ++
    leBytes 2 xmm.errorOpcode.toNat ++
    leBytes 8 x87Ip.toNat ++
    leBytes 8 x87DataPtr.toNat ++
    leBytes 4 xmm.mxCsr.toNat ++
    leBytes 4 xmm.mxCsrMask.toNat ++
    encodeWords 16 (xmm.floatRegisters.toList.map BitVec.toNat) ++
    encodeWords 16 (xmm.xmmRegisters.toList.map BitVec.toNat)
  return resize out 512 0

/-! ## ARM -/

/-- Linux arm `user_regs`. The last word is `ORIG_r0`. -/
def armGpregs (ctx : ContextArm) : List UInt8 :=
  encodeWords 4 (ctx.iregs.toList.map UInt32.toNat) ++
    leBytes 4 ctx.cpsr.toNat ++ leBytes 4 0

/-- Linux aarch64 `user_pt_regs`. -/
def arm64Gpregs (ctx : ContextArm64) : List UInt8 :=
  encodeWords 8 (ctx.iregs.toList.map UInt64.toNat) ++
    leBytes 8 ctx.sp.toNat ++ leBytes 8 ctx.pc.toNat ++
    leBytes 8 ctx.cpsr.toUInt64.toNat

def arm64GpregsNew (ctx : ContextArm64) : List UInt8 := arm64Gpregs ctx

def arm64GpregsOld (ctx : ContextArm64) : List UInt8 := arm64Gpregs ctx

/-! ## MIPS -/

/-- The 45 slots of the Linux MIPS `elf_gregset_t`. -/
def mipsSlots (ctx : ContextMips) : Vector UInt64 45 :=
  let slots := (List.finRange 32).foldl
    (fun slots i => slots.set (6 + i.val) ctx.iregs[i])
    (Vector.replicate 45 0)
  let slots := slots.set 38 ctx.mdlo
  let slots := slots.set 39 ctx.mdhi
  let slots := slots.set 40 ctx.epc
  let slots := slots.set 41 ctx.badvaddr
  let slots := slots.set 42 ctx.status.toUInt64
  slots.set 43 ctx.cause.toUInt64

/-- Linux MIPS `elf_gregset_t`: `u32` slots for o32, `u64` slots for n64. -/
def mipsGpregs (ctx : ContextMips) (n64 : Bool) : List UInt8 :=
  let slot := if n64 then 8 else 4
  encodeWords slot ((mipsSlots ctx).toList.map UInt64.toNat)

/-! ## All architectures -/

/-- Bytes for the `pr_reg` field of `elf_prstatus`. -/
def toPrReg (architecture : Architecture) (context : MinidumpRawContext) :
    Result (List UInt8) :=
  match architecture, context with
  | .x86, .x86 ctx => .ok (x86Gpregs ctx)
  | .x86_64, .amd64 ctx => .ok (amd64Gpregs ctx)
  | .arm, .arm ctx => .ok (armGpregs ctx)
  | .aarch64, .arm64 ctx => .ok (arm64GpregsNew ctx)
  | .aarch64, .oldArm64 ctx => .ok (arm64GpregsOld ctx)
  | .mips, .mips ctx => .ok (mipsGpregs ctx false)
  | .mips64, .mips ctx => .ok (mipsGpregs ctx true)
  | _, _ => .error (.error
      (.contextMismatch architecture.asStr (contextArchName context)))

/-- Optional floating-point register payload for the `NT_FPREGSET` note. -/
def toFpregset (architecture : Architecture) (context : MinidumpRawContext) :
    Option (List UInt8) :=
  match architecture, context with
  | .x86, .x86 ctx => some (x86Fpregs ctx)
  | .x86_64, .amd64 ctx => amd64Fpregs ctx
  | _, _ => none

/-- Optional `NT_PRXFPREG` payload, for x86 only. -/
def toPrxfpreg (architecture : Architecture) (context : MinidumpRawContext) :
    Option (List UInt8) :=
  match architecture, context with
  | .x86, .x86 ctx => some (x86Fpxregs ctx)
  | _, _ => none

/-- Size of the general-purpose register set of an architecture. -/
def Architecture.gregsetSize : Architecture → Nat
  | .x86 => 68
  | .x86_64 => 216
  | .arm => 72
  | .aarch64 => 272
  | .mips => 180
  | .mips64 => 360

/-- The bytes of `pr_reg` are as many as the register set of the architecture
takes. -/
theorem length_of_toPrReg
    {architecture : Architecture}
    {context : MinidumpRawContext}
    {regs : List UInt8}
    (succeeded : toPrReg architecture context = .ok regs) :
    regs.length = architecture.gregsetSize := by
  unfold toPrReg at succeeded
  split at succeeded
  case h_8 => contradiction
  all_goals
    obtain rfl := Except.ok.inj succeeded
    simp [x86Gpregs, amd64Gpregs, armGpregs, arm64GpregsNew, arm64GpregsOld,
      arm64Gpregs, mipsGpregs, Architecture.gregsetSize]

end Md2Core
