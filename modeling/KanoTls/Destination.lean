import KanoTls.Target
import Mathlib.Algebra.Group.Nat.Defs

/-! The destination guard of `target.rs`, the blocks of addresses it rejects, and the IPv6
addresses that carry an IPv4 address. -/
namespace KanoTls.Destination
open IpText

structure SocketAddr where
  ip : IpAddr
  port : UInt16
  deriving DecidableEq, Repr

section V4
variable (ip : Ipv4Addr)

def isPrivate : Bool := ip.a = 10 || ip.a = 172 && 16 ≤ ip.b && ip.b ≤ 31 || ip.a = 192 && ip.b = 168
def isLoopback : Bool := ip.a = 127
def isLinkLocal : Bool := ip.a = 169 && ip.b = 254
def isMulticast : Bool := 224 ≤ ip.a && ip.a ≤ 239
def isUnspecified : Bool := ip = ⟨0,0,0,0⟩
def isBroadcast : Bool := ip = ⟨255,255,255,255⟩

def isBlockedIpv4 : Bool :=
  ip.a = 100 && ip.b &&& 0b11000000 = 0b01000000 ||
  isPrivate ip || isLoopback ip || isLinkLocal ip || isMulticast ip || isUnspecified ip || isBroadcast ip || 240 ≤ ip.a

end V4

section V6
variable (ip : Ipv6Addr)

def firstSegment : UInt16 := ip.segments.headD 0
def isLoopback6 : Bool := ip.segments = [0,0,0,0,0,0,0,1]
def isUnicastLinkLocal : Bool := firstSegment ip &&& 0xffc0 = 0xfe80
def isUniqueLocal : Bool := firstSegment ip &&& 0xfe00 = 0xfc00
def isMulticast6 : Bool := firstSegment ip &&& 0xff00 = 0xff00
def isUnspecified6 : Bool := ip.segments = [0,0,0,0,0,0,0,0]

end V6

/- The source asks itself again with the IPv4 address of a mapped one. -/
def isBlockedDestination (addr : SocketAddr) : Bool :=
  match addr.ip with
  | .v4 ip => isBlockedIpv4 ip
  | .v6 ip =>
    match toIpv4Mapped ip.segments with
    | some v4 => isBlockedIpv4 v4
    | none => isLoopback6 ip || isUnicastLinkLocal ip || isUniqueLocal ip || isMulticast6 ip || isUnspecified6 ip

structure Block where
  base : Ipv4Addr
  length : Nat

def number (ip : Ipv4Addr) : Nat := ((ip.a.toNat*256 + ip.b.toNat)*256 + ip.c.toNat)*256 + ip.d.toNat

def Block.Has (block : Block) (ip : Ipv4Addr) : Prop :=
  number ip/2^(32 - block.length) = number block.base/2^(32 - block.length)

def internalBlocks : List Block :=
  [⟨⟨100,64,0,0⟩,10⟩,⟨⟨10,0,0,0⟩,8⟩,⟨⟨172,16,0,0⟩,12⟩,⟨⟨192,168,0,0⟩,16⟩,⟨⟨127,0,0,0⟩,8⟩,⟨⟨169,254,0,0⟩,16⟩,
   ⟨⟨224,0,0,0⟩,4⟩,⟨⟨0,0,0,0⟩,32⟩,⟨⟨240,0,0,0⟩,4⟩]

def Internal (ip : Ipv4Addr) : Prop := ∃ block ∈ internalBlocks, block.Has ip

section Blocks
variable (ip : Ipv4Addr)

theorem sharedMask (b : UInt8) : b &&& 0b11000000 = 0b01000000 ↔ 64 ≤ b.toNat ∧ b.toNat < 128 := by
  have all : ∀ n < 256, n &&& 0b11000000 = 0b01000000 ↔ 64 ≤ n ∧ n < 128 := by decide +kernel
  rw [← all b.toNat b.toNat_lt,← UInt8.toNat_inj,UInt8.toNat_and]
  rfl

theorem hasIff (block : Block) {base width : Nat} (numbered : number block.base = base*width)
    (wide : 2^(32 - block.length) = width) : block.Has ip ↔ base*width ≤ number ip ∧ number ip < base*width + width := by
  have positive : 0 < width := by
    rw [← wide]
    exact Nat.two_pow_pos _
  rw [Block.Has,wide,numbered,Nat.mul_div_cancel _ positive,Nat.div_eq_iff positive]
  omega

theorem octetsSmall : ip.a.toNat < 256 ∧ ip.b.toNat < 256 ∧ ip.c.toNat < 256 ∧ ip.d.toNat < 256 :=
  ⟨ip.a.toNat_lt,ip.b.toNat_lt,ip.c.toNat_lt,ip.d.toNat_lt⟩

theorem octetsSame (other : Ipv4Addr) :
    ip = other ↔ ip.a = other.a ∧ ip.b = other.b ∧ ip.c = other.c ∧ ip.d = other.d := by
  cases ip
  cases other
  simp only [Ipv4Addr.mk.injEq]

theorem octetBlock (m : UInt8) : ip.a = m ↔ Block.Has ⟨⟨m,0,0,0⟩,8⟩ ip := by
  obtain ⟨a,b,c,d⟩ := octetsSmall ip
  have numbered : number ⟨m,0,0,0⟩ = m.toNat*16777216 := by
    simp only [number,UInt8.reduceToNat]
    omega
  rw [hasIff ip ⟨⟨m,0,0,0⟩,8⟩ numbered rfl,← UInt8.toNat_inj,number]
  omega

theorem pairBlock (m n : UInt8) : (ip.a = m ∧ ip.b = n) ↔ Block.Has ⟨⟨m,n,0,0⟩,16⟩ ip := by
  obtain ⟨a,b,c,d⟩ := octetsSmall ip
  have small := n.toNat_lt
  have numbered : number ⟨m,n,0,0⟩ = (m.toNat*256 + n.toNat)*65536 := by
    simp only [number,UInt8.reduceToNat]
    omega
  rw [hasIff ip ⟨⟨m,n,0,0⟩,16⟩ numbered rfl,← UInt8.toNat_inj,← UInt8.toNat_inj,number]
  omega

theorem sharedBlock : (ip.a = 100 ∧ ip.b &&& 0b11000000 = 0b01000000) ↔ Block.Has ⟨⟨100,64,0,0⟩,10⟩ ip := by
  obtain ⟨a,b,c,d⟩ := octetsSmall ip
  rw [@hasIff ip ⟨⟨100,64,0,0⟩,10⟩ 401 4194304 (by decide) (by decide),sharedMask,number]
  simp only [← UInt8.toNat_inj,UInt8.reduceToNat]
  omega

theorem sixteenBlock : ((ip.a = 172 ∧ 16 ≤ ip.b) ∧ ip.b ≤ 31) ↔ Block.Has ⟨⟨172,16,0,0⟩,12⟩ ip := by
  obtain ⟨a,b,c,d⟩ := octetsSmall ip
  rw [@hasIff ip ⟨⟨172,16,0,0⟩,12⟩ 2753 1048576 (by decide) (by decide),number]
  simp only [← UInt8.toNat_inj,UInt8.le_iff_toNat_le,UInt8.reduceToNat]
  omega

theorem multicastBlock : (224 ≤ ip.a ∧ ip.a ≤ 239) ↔ Block.Has ⟨⟨224,0,0,0⟩,4⟩ ip := by
  obtain ⟨a,b,c,d⟩ := octetsSmall ip
  rw [@hasIff ip ⟨⟨224,0,0,0⟩,4⟩ 14 268435456 (by decide) (by decide),number]
  simp only [UInt8.le_iff_toNat_le,UInt8.reduceToNat]
  omega

theorem unspecifiedBlock : ip = ⟨0,0,0,0⟩ ↔ Block.Has ⟨⟨0,0,0,0⟩,32⟩ ip := by
  obtain ⟨a,b,c,d⟩ := octetsSmall ip
  rw [@hasIff ip ⟨⟨0,0,0,0⟩,32⟩ 0 1 (by decide) (by decide),octetsSame,number]
  simp only [← UInt8.toNat_inj,UInt8.reduceToNat]
  omega

theorem reservedBlock : (ip = ⟨255,255,255,255⟩ ∨ 240 ≤ ip.a) ↔ Block.Has ⟨⟨240,0,0,0⟩,4⟩ ip := by
  obtain ⟨a,b,c,d⟩ := octetsSmall ip
  rw [@hasIff ip ⟨⟨240,0,0,0⟩,4⟩ 15 268435456 (by decide) (by decide),octetsSame,number]
  simp only [← UInt8.toNat_inj,UInt8.le_iff_toNat_le,UInt8.reduceToNat]
  omega

/- Every rule of the guard is a block or several. -/
theorem blockedInternal : isBlockedIpv4 ip = true ↔ Internal ip := by
  unfold Internal internalBlocks
  simp only [isBlockedIpv4,isPrivate,isLoopback,isLinkLocal,isMulticast,isUnspecified,isBroadcast,Bool.or_eq_true,
    Bool.and_eq_true,decide_eq_true_eq,List.mem_cons,List.not_mem_nil,or_false,exists_eq_or_imp,exists_eq_left]
  rw [← sharedBlock,← octetBlock,← sixteenBlock,← pairBlock,← octetBlock,← pairBlock,← multicastBlock,← unspecifiedBlock,
    ← reservedBlock]
  simp only [or_assoc]

end Blocks

/- The standard ways to write an IPv4 address into an IPv6 one: `::ffff:0:0/96`, `::/96`,
`64:ff9b::/96` and `2002::/16`. -/
inductive Embedding where
  | mapped | compatible | translated | sixToFour
  deriving DecidableEq, Repr

def ofWords (high low : UInt16) : Ipv4Addr := ⟨highByte high,lowByte high,highByte low,lowByte low⟩

def Embedding.carried : Embedding → List UInt16 → Option Ipv4Addr
  | .mapped,[0,0,0,0,0,0xffff,high,low] => some (ofWords high low)
  | .compatible,[0,0,0,0,0,0,high,low] => some (ofWords high low)
  | .translated,[0x64,0xff9b,0,0,0,0,high,low] => some (ofWords high low)
  | .sixToFour,0x2002::high::low::_ => some (ofWords high low)
  | _,_ => none

def Unwrapped (ip : Ipv6Addr) (port : UInt16) : Prop :=
  ∀ (e : Embedding) (v4 : Ipv4Addr), e.carried ip.segments = some v4 →
    isBlockedDestination ⟨.v4 v4,port⟩ = true → isBlockedDestination ⟨.v6 ip,port⟩ = true

/- An internal IPv4 address stands in one of the forms that the guard does not unwrap; `::` it
blocks as it is. -/
def Escapes (ip : Ipv6Addr) : Prop :=
  ∃ high low : UInt16, Internal (ofWords high low) ∧
    (ip.segments = [0,0,0,0,0,0,high,low] ∧ (high ≠ 0 ∨ low ≠ 0) ∨
      ip.segments = [0x64,0xff9b,0,0,0,0,high,low] ∨
      ∃ rest, ip.segments = 0x2002::high::low::rest)

section Forms
variable {ip : Ipv6Addr} {port : UInt16} {high low : UInt16}

theorem carriedForm {e : Embedding} {v4 : Ipv4Addr} {segments : List UInt16} (found : e.carried segments = some v4) :
    ∃ high low, v4 = ofWords high low ∧
      (e = .mapped ∧ segments = [0,0,0,0,0,0xffff,high,low] ∨ e = .compatible ∧ segments = [0,0,0,0,0,0,high,low] ∨
        e = .translated ∧ segments = [0x64,0xff9b,0,0,0,0,high,low] ∨
        e = .sixToFour ∧ ∃ rest, segments = 0x2002::high::low::rest) := by
  unfold Embedding.carried at found
  split at found
  · exact ⟨_,_,(Option.some.inj found).symm,.inl ⟨rfl,rfl⟩⟩
  · exact ⟨_,_,(Option.some.inj found).symm,.inr (.inl ⟨rfl,rfl⟩)⟩
  · exact ⟨_,_,(Option.some.inj found).symm,.inr (.inr (.inl ⟨rfl,rfl⟩))⟩
  · exact ⟨_,_,(Option.some.inj found).symm,.inr (.inr (.inr ⟨rfl,_,rfl⟩))⟩
  · contradiction

theorem unmappedBlocked (unmapped : toIpv4Mapped ip.segments = none) : isBlockedDestination ⟨.v6 ip,port⟩ =
    (isLoopback6 ip || isUnicastLinkLocal ip || isUniqueLocal ip || isMulticast6 ip || isUnspecified6 ip) := by
  rw [isBlockedDestination]
  dsimp only
  rw [unmapped]

theorem compatibleBlocked (segments : ip.segments = [0,0,0,0,0,0,high,low]) :
    isBlockedDestination ⟨.v6 ip,port⟩ = (decide (high = 0 ∧ low = 1) || decide (high = 0 ∧ low = 0)) := by
  rw [unmappedBlocked (by rw [segments]; rfl)]
  simp [isLoopback6,isUnicastLinkLocal,isUniqueLocal,isMulticast6,isUnspecified6,firstSegment,segments]

theorem firstPasses {first : UInt16} {rest : List UInt16} (segments : ip.segments = first::rest) (nonzero : first ≠ 0)
    (outside : first &&& 0xffc0 ≠ 0xfe80 ∧ first &&& 0xfe00 ≠ 0xfc00 ∧ first &&& 0xff00 ≠ 0xff00) :
    isBlockedDestination ⟨.v6 ip,port⟩ = false := by
  have unmapped : toIpv4Mapped ip.segments = none := by
    cases mapped : toIpv4Mapped ip.segments with
    | none => rfl
    | some v4 =>
      have form := segments.symm.trans (mappedSegments mapped)
      exact absurd (List.cons.inj form).1 nonzero
  rw [unmappedBlocked unmapped]
  simp [isLoopback6,isUnicastLinkLocal,isUniqueLocal,isMulticast6,isUnspecified6,firstSegment,segments,nonzero,outside]

/- `::1` carries `0.0.0.1`, which is in no block. -/
theorem loopbackOutside : ¬ Internal (ofWords 0 1) := by
  rw [← blockedInternal]
  decide

theorem escapesPass (escapes : Escapes ip) : isBlockedDestination ⟨.v6 ip,port⟩ = false := by
  obtain ⟨high,low,inside,⟨form,nonzero⟩ | form | ⟨rest,form⟩⟩ := escapes
  · have other : ¬ (high = 0 ∧ low = 1) := by
      rintro ⟨rfl,rfl⟩
      exact loopbackOutside inside
    have unspecified : ¬ (high = 0 ∧ low = 0) := by
      rintro ⟨rfl,rfl⟩
      simp at nonzero
    rw [compatibleBlocked form,decide_eq_false other,decide_eq_false unspecified]
    rfl
  · exact firstPasses form (by decide) (by decide)
  · exact firstPasses form (by decide) (by decide)

theorem escapesCarries (escapes : Escapes ip) :
    ∃ (e : Embedding) (v4 : Ipv4Addr), e.carried ip.segments = some v4 ∧ Internal v4 := by
  obtain ⟨high,low,inside,⟨form,_⟩ | form | ⟨rest,form⟩⟩ := escapes
  · exact ⟨.compatible,_,by rw [form]; rfl,inside⟩
  · exact ⟨.translated,_,by rw [form]; rfl,inside⟩
  · exact ⟨.sixToFour,_,by rw [form]; rfl,inside⟩

theorem unwrappedExactly (ip : Ipv6Addr) (port : UInt16) : Unwrapped ip port ↔ ¬ Escapes ip := by
  constructor
  · intro unwrapped escapes
    obtain ⟨e,v4,carried,inside⟩ := escapesCarries escapes
    have blocked := unwrapped e v4 carried ((blockedInternal v4).mpr inside)
    rw [escapesPass escapes] at blocked
    contradiction
  · intro kept e v4 carried blocked
    have inside := (blockedInternal v4).mp blocked
    obtain ⟨high,low,rfl,⟨_,form⟩ | ⟨_,form⟩ | ⟨_,form⟩ | ⟨_,rest,form⟩⟩ := carriedForm carried
    · rw [isBlockedDestination]
      dsimp only
      rw [form]
      exact blocked
    · by_cases zero : high = 0 ∧ low = 0
      · rw [compatibleBlocked form,decide_eq_true zero,Bool.or_true]
      · exact absurd (show Escapes ip from ⟨high,low,inside,.inl ⟨form,not_and_or.mp zero⟩⟩) kept
    · exact absurd ⟨high,low,inside,.inr (.inl form)⟩ kept
    · exact absurd ⟨high,low,inside,.inr (.inr ⟨rest,form⟩)⟩ kept

end Forms

end KanoTls.Destination
