import Md2Core.Regs

/-!
# Reading the general registers

A debugger finds the registers of a thread by their slots in `pr_reg`. A register
has the number that the instructions of the architecture give it, or a role. Reading
the slot of a register yields what the context holds, cut to the size of a slot.
-/

namespace Md2Core

open Foundation

/-- The segment registers of x86. -/
inductive SegmentRegister
  | cs
  | ss
  | ds
  | es
  | fs
  | gs
  deriving DecidableEq, Repr

/-- A register, by its number in instructions or by its role. -/
inductive Register
  | general (number : Nat)
  | programCounter
  | flags
  | segment (register : SegmentRegister)
  | hi
  | lo
  | badAddress
  | cause
  deriving DecidableEq, Repr

/-! ## The registers of a context -/

/-- The registers of a 32-bit x86 context. -/
def ContextX86.register (ctx : ContextX86) : Register → Option Nat
  | .general number =>
      [ctx.eax, ctx.ecx, ctx.edx, ctx.ebx, ctx.esp, ctx.ebp, ctx.esi,
        ctx.edi][number]?.map UInt32.toNat
  | .programCounter => some ctx.eip.toNat
  | .flags => some ctx.eflags.toNat
  | .segment .cs => some ctx.cs.toNat
  | .segment .ss => some ctx.ss.toNat
  | .segment .ds => some ctx.ds.toNat
  | .segment .es => some ctx.es.toNat
  | .segment .fs => some ctx.fs.toNat
  | .segment .gs => some ctx.gs.toNat
  | _ => none

/-- The registers of a 64-bit x86 context. -/
def ContextAmd64.register (ctx : ContextAmd64) : Register → Option Nat
  | .general number =>
      [ctx.rax, ctx.rcx, ctx.rdx, ctx.rbx, ctx.rsp, ctx.rbp, ctx.rsi, ctx.rdi,
        ctx.r8, ctx.r9, ctx.r10, ctx.r11, ctx.r12, ctx.r13, ctx.r14,
        ctx.r15][number]?.map UInt64.toNat
  | .programCounter => some ctx.rip.toNat
  | .flags => some ctx.eflags.toNat
  | .segment .cs => some ctx.cs.toNat
  | .segment .ss => some ctx.ss.toNat
  | .segment .ds => some ctx.ds.toNat
  | .segment .es => some ctx.es.toNat
  | .segment .fs => some ctx.fs.toNat
  | .segment .gs => some ctx.gs.toNat
  | _ => none

/-- The registers of an ARM context. The program counter has a number. -/
def ContextArm.register (ctx : ContextArm) : Register → Option Nat
  | .general number => ctx.iregs.toList[number]?.map UInt32.toNat
  | .programCounter => some ctx.iregs[15].toNat
  | .flags => some ctx.cpsr.toNat
  | _ => none

/-- The registers of an AArch64 context. The stack pointer has the last number. -/
def ContextArm64.register (ctx : ContextArm64) : Register → Option Nat
  | .general number => (ctx.iregs.toList ++ [ctx.sp])[number]?.map UInt64.toNat
  | .programCounter => some ctx.pc.toNat
  | .flags => some ctx.cpsr.toNat
  | _ => none

/-- The registers of a MIPS context. -/
def ContextMips.register (ctx : ContextMips) : Register → Option Nat
  | .general number => ctx.iregs.toList[number]?.map UInt64.toNat
  | .programCounter => some ctx.epc.toNat
  | .flags => some ctx.status.toNat
  | .hi => some ctx.mdhi.toNat
  | .lo => some ctx.mdlo.toNat
  | .badAddress => some ctx.badvaddr.toNat
  | .cause => some ctx.cause.toNat
  | _ => none

/-- The registers of a context. -/
def MinidumpRawContext.register : MinidumpRawContext → Register → Option Nat
  | .x86 ctx => ctx.register
  | .amd64 ctx => ctx.register
  | .arm ctx => ctx.register
  | .arm64 ctx | .oldArm64 ctx => ctx.register
  | .mips ctx => ctx.register
  | .ppc | .ppc64 | .sparc => fun _ => none

/-! ## The slots of `pr_reg` -/

/-- The slot of a register in the layout that the encoders document. -/
def Architecture.registerSlot : Architecture → Register → Option Nat
  | .x86, .general number => [6, 1, 2, 0, 15, 5, 3, 4][number]?
  | .x86, .programCounter => some 12
  | .x86, .flags => some 14
  | .x86, .segment .cs => some 13
  | .x86, .segment .ss => some 16
  | .x86, .segment .ds => some 7
  | .x86, .segment .es => some 8
  | .x86, .segment .fs => some 9
  | .x86, .segment .gs => some 10
  | .x86_64, .general number =>
      [10, 11, 12, 5, 19, 4, 13, 14, 9, 8, 7, 6, 3, 2, 1, 0][number]?
  | .x86_64, .programCounter => some 16
  | .x86_64, .flags => some 18
  | .x86_64, .segment .cs => some 17
  | .x86_64, .segment .ss => some 20
  | .x86_64, .segment .ds => some 23
  | .x86_64, .segment .es => some 24
  | .x86_64, .segment .fs => some 25
  | .x86_64, .segment .gs => some 26
  | .arm, .general number => if number < 16 then some number else none
  | .arm, .programCounter => some 15
  | .arm, .flags => some 16
  | .aarch64, .general number => if number < 32 then some number else none
  | .aarch64, .programCounter => some 32
  | .aarch64, .flags => some 33
  | .mips, register | .mips64, register =>
      match register with
      | .general number => if number < 32 then some (6 + number) else none
      | .programCounter => some 40
      | .flags => some 42
      | .hi => some 39
      | .lo => some 38
      | .badAddress => some 41
      | .cause => some 43
      | .segment _ => none
  | _, _ => none

/-- Read a register from `pr_reg`. -/
def readRegister
    (architecture : Architecture)
    (regs : List UInt8)
    (register : Register) : Option Nat := do
  let slot ← architecture.registerSlot register
  readLe regs (slot * architecture.longSize) architecture.longSize

/-- A row of words is read at the slot of a register. -/
theorem readRegister_encodeWords
    (architecture : Architecture)
    (words : List Nat)
    (register : Register) :
    readRegister architecture (encodeWords architecture.longSize words) register =
      ((architecture.registerSlot register).bind (words[·]?)).map
        (· % 256 ^ architecture.longSize) := by
  have positive : 0 < architecture.longSize := by
    cases architecture <;> decide
  unfold readRegister
  cases architecture.registerSlot register with
  | none => rfl
  | some slot => exact readLe_encodeWords_slot words slot positive

/-! ## Every register lies in its slot -/

theorem readRegister_x86Gpregs (ctx : ContextX86) (register : Register) :
    readRegister .x86 (x86Gpregs ctx) register =
      (ctx.register register).map (· % 256 ^ 4) := by
  refine (readRegister_encodeWords .x86 _ register).trans
    (congrArg (Option.map _) ?_)
  cases register with
  | general number =>
      match number with
      | 0 | 1 | 2 | 3 | 4 | 5 | 6 | 7 => rfl
      | _ + 8 => rfl
  | segment name => cases name <;> rfl
  | _ => rfl

theorem readRegister_amd64Gpregs (ctx : ContextAmd64) (register : Register) :
    readRegister .x86_64 (amd64Gpregs ctx) register =
      (ctx.register register).map (· % 256 ^ 8) := by
  refine (readRegister_encodeWords .x86_64 _ register).trans
    (congrArg (Option.map _) ?_)
  cases register with
  | general number =>
      match number with
      | 0 | 1 | 2 | 3 | 4 | 5 | 6 | 7 | 8 | 9 | 10 | 11 | 12 | 13 | 14 | 15 => rfl
      | _ + 16 => rfl
  | flags => exact congrArg some (UInt32.toNat_toUInt64 ctx.eflags)
  | segment name => cases name <;> exact congrArg some (UInt16.toNat_toUInt64 _)
  | _ => rfl

/-- The numbered registers come first in a row that begins with them. -/
theorem getElem?_numbered
    {number count : Nat}
    {numbered words : List Nat}
    (counted : numbered.length = count) :
    (if number < count then some number else none).bind
        ((numbered ++ words)[·]?) = numbered[number]? := by
  split
  · next inside =>
    rw [Option.bind_some, List.getElem?_append_left (counted ▸ inside)]
  · next outside =>
    rw [Option.bind_none, List.getElem?_eq_none (counted ▸ Nat.not_lt.mp outside)]

theorem readRegister_armGpregs (ctx : ContextArm) (register : Register) :
    readRegister .arm (armGpregs ctx) register =
      (ctx.register register).map (· % 256 ^ 4) := by
  have row : armGpregs ctx =
      encodeWords 4 (ctx.iregs.toList.map UInt32.toNat ++ [ctx.cpsr.toNat, 0]) := by
    simp [armGpregs, encodeWords_append]
  rw [row]
  refine (readRegister_encodeWords .arm _ register).trans
    (congrArg (Option.map _) ?_)
  cases register with
  | general number =>
      refine (getElem?_numbered (by simp)).trans ?_
      rw [List.getElem?_map]
      rfl
  | programCounter => simp [Architecture.registerSlot, ContextArm.register]
  | flags => simp [Architecture.registerSlot, ContextArm.register]
  | _ => rfl

theorem readRegister_arm64Gpregs (ctx : ContextArm64) (register : Register) :
    readRegister .aarch64 (arm64Gpregs ctx) register =
      (ctx.register register).map (· % 256 ^ 8) := by
  have row : arm64Gpregs ctx =
      encodeWords 8 ((ctx.iregs.toList ++ [ctx.sp]).map UInt64.toNat ++
        [ctx.pc.toNat, ctx.cpsr.toNat]) := by
    simp [arm64Gpregs, encodeWords_append]
  rw [row]
  refine (readRegister_encodeWords .aarch64 _ register).trans
    (congrArg (Option.map _) ?_)
  cases register with
  | general number =>
      refine (getElem?_numbered (by simp)).trans ?_
      rw [List.getElem?_map]
      rfl
  | programCounter => simp [Architecture.registerSlot, ContextArm64.register]
  | flags => simp [Architecture.registerSlot, ContextArm64.register]
  | _ => rfl

/-- The general registers stand behind the six slots that are padding. -/
theorem numberedSlot_lt (index : Fin 32) : 6 + index.val < 45 := by
  omega

/-- Write the numbered registers of a list to their slots. -/
def fillSlots
    (values : Fin 32 → UInt64)
    (indices : List (Fin 32))
    (slots : Vector UInt64 45) : Vector UInt64 45 :=
  indices.foldl (fun slots i => slots.set (6 + i.val) (values i) (numberedSlot_lt i)) slots

/-- Slots that are not written to stay. -/
theorem getElem?_fillSlots_of_not_mem
    {values : Fin 32 → UInt64}
    {indices : List (Fin 32)}
    {index : Fin 32}
    (absent : index ∉ indices)
    (slots : Vector UInt64 45) :
    (fillSlots values indices slots)[6 + index.val]? = slots[6 + index.val]? := by
  induction indices generalizing slots with
  | nil => rfl
  | cons first rest inductionHypothesis =>
      rw [List.mem_cons, not_or] at absent
      have elsewhere : 6 + first.val ≠ 6 + index.val := fun same =>
        absent.1 (Fin.ext (Nat.add_left_cancel same).symm)
      rw [fillSlots, List.foldl_cons, ← fillSlots, inductionHypothesis absent.2,
        Vector.getElem?_set_ne _ elsewhere]

/-- The slot of a register that is written holds it. -/
theorem getElem?_fillSlots_of_mem
    {values : Fin 32 → UInt64}
    {indices : List (Fin 32)}
    {index : Fin 32}
    (member : index ∈ indices)
    (slots : Vector UInt64 45) :
    (fillSlots values indices slots)[6 + index.val]? = some (values index) := by
  induction indices generalizing slots with
  | nil => contradiction
  | cons first rest inductionHypothesis =>
      rw [fillSlots, List.foldl_cons, ← fillSlots]
      by_cases later : index ∈ rest
      · exact inductionHypothesis later _
      · obtain rfl : index = first := (List.mem_cons.mp member).resolve_right later
        rw [getElem?_fillSlots_of_not_mem later, Vector.getElem?_set_self]

theorem getElem_mipsSlots_general
    (ctx : ContextMips)
    (number : Nat)
    (numbered : number < 32) :
    (mipsSlots ctx)[6 + number] = ctx.iregs[number] := by
  have written := @getElem?_fillSlots_of_mem (ctx.iregs[·]) _ ⟨number, numbered⟩
    (List.mem_finRange _) (Vector.replicate 45 0)
  unfold mipsSlots
  simp only [Vector.getElem_set]
  rw [if_neg (by omega), if_neg (by omega), if_neg (by omega), if_neg (by omega),
    if_neg (by omega), if_neg (by omega)]
  exact Vector.getElem_eq_iff.mpr written

/-- The slots of a MIPS context hold its registers. -/
theorem getElem?_mipsSlots
    (ctx : ContextMips)
    (register : Register) :
    (Architecture.mips.registerSlot register).bind
        (((mipsSlots ctx).toList.map UInt64.toNat)[·]?) = ctx.register register := by
  cases register with
  | general number =>
      by_cases numbered : number < 32
      · have value := getElem_mipsSlots_general ctx number numbered
        have inside : 6 + number < 45 := by omega
        simp [Architecture.registerSlot, ContextMips.register, numbered, inside, value]
      · simp [Architecture.registerSlot, ContextMips.register, numbered]
  | segment name => rfl
  | _ =>
      simp [Architecture.registerSlot, ContextMips.register, mipsSlots]

/-! ## All architectures -/

/-- The registers that were encoded are read back, cut to the size of a slot. -/
theorem readRegister_of_toPrReg
    {architecture : Architecture}
    {context : MinidumpRawContext}
    {regs : List UInt8}
    (encoded : toPrReg architecture context = .ok regs)
    (register : Register) :
    readRegister architecture regs register =
      (context.register register).map (· % 256 ^ architecture.longSize) := by
  unfold toPrReg at encoded
  split at encoded
  case h_8 => contradiction
  all_goals obtain rfl := Except.ok.inj encoded
  case h_1 ctx => exact readRegister_x86Gpregs ctx register
  case h_2 ctx => exact readRegister_amd64Gpregs ctx register
  case h_3 ctx => exact readRegister_armGpregs ctx register
  case h_4 ctx => exact readRegister_arm64Gpregs ctx register
  case h_5 ctx => exact readRegister_arm64Gpregs ctx register
  case h_6 ctx =>
    exact (readRegister_encodeWords .mips _ register).trans
      (congrArg (Option.map _) (getElem?_mipsSlots ctx register))
  case h_7 ctx =>
    exact (readRegister_encodeWords .mips64 _ register).trans
      (congrArg (Option.map _) (getElem?_mipsSlots ctx register))

end Md2Core
