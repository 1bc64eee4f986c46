import Mathlib.Data.List.GetD
import PostQuantumUav.Library.Bytes.Cell

/-!
# Constants of the proposed protocol

Sizes, message types, domain tags and limits of `ProtocolConstants.h`, with the
functions that select a size by path-delivery mode. Sizes are natural numbers;
tags and types are bytes, as they are stored in messages.
-/

namespace Puav

def protocolVersion : UInt8 := 1

abbrev idBytes : Nat := 32
abbrev nonceBytes : Nat := 16
abbrev hashBytes : Nat := 32
abbrev hmacBytes : Nat := 32

abbrev mlkemPublicKeyBytes : Nat := 800
abbrev mlkemCiphertextBytes : Nat := 768

abbrev lmotsSignatureBytes : Nat := 2180
abbrev lmsPathBytes : Nat := 320
abbrev lmsHeight : Nat := 10
abbrev lmsLeaves : Nat := 1024
abbrev lmsTreeNodes : Nat := 2048

/-- The two ways of delivering authentication paths; each has its own suite. -/
inductive PathDeliveryMode where
  | repositoryAssisted
  | signerCarried
  deriving DecidableEq, Repr

def suiteIdRepository : UInt32 := 0x00010001
def suiteIdCarried : UInt32 := 0x00010002

def suiteIdForMode : PathDeliveryMode → UInt32
  | .signerCarried => suiteIdCarried
  | .repositoryAssisted => suiteIdRepository

abbrev m0Bytes : Nat := 86
abbrev m1Bytes : Nat := 102
abbrev m4Bytes : Nat := 66

abbrev m2BaseBytes : Nat := 3022
abbrev m2CarriedBytes : Nat := m2BaseBytes + lmsPathBytes
abbrev m2MaxBytes : Nat := m2CarriedBytes

abbrev m3InnerBaseBytes : Nat := 2990
abbrev m3InnerCarriedBytes : Nat := m3InnerBaseBytes + lmsPathBytes

abbrev m3BaseBytes : Nat := 36 + m3InnerBaseBytes + hmacBytes
abbrev m3CarriedBytes : Nat := 36 + m3InnerCarriedBytes + hmacBytes
abbrev m3MaxBytes : Nat := m3CarriedBytes

def m2BytesForMode : PathDeliveryMode → Nat
  | .signerCarried => m2CarriedBytes
  | .repositoryAssisted => m2BaseBytes

def m3InnerBytesForMode : PathDeliveryMode → Nat
  | .signerCarried => m3InnerCarriedBytes
  | .repositoryAssisted => m3InnerBaseBytes

def m3BytesForMode : PathDeliveryMode → Nat
  | .signerCarried => m3CarriedBytes
  | .repositoryAssisted => m3BaseBytes

def expectedDirectApplicationBytes (mode : PathDeliveryMode) : Nat :=
  m0Bytes + m1Bytes + m2BytesForMode mode + m3BytesForMode mode + m4Bytes

abbrev muABytes : Nat := 902
abbrev muBBytes : Nat := 902
abbrev lmotsSignedObjectBytes : Nat := 1 + 1 + 2 + muABytes + 4

abbrev sid0InputBytes : Nat := 1 + 1 + 2 + m0Bytes + 2 + m1Bytes
abbrev sessionKeyMaterialBytes : Nat := 96

abbrev fragmentHeaderBytes : Nat := 14
abbrev fragmentPayloadBytes : Nat := 1000
abbrev maxFragments : Nat := 8
abbrev maxProtocolMessageBytes : Nat := m3MaxBytes

def fragmentMagic : UInt16 := 0xA55A

def credentialStatusPending : UInt8 := 0
def credentialStatusActive : UInt8 := 1

def msgM0Req : UInt8 := 0x10
def msgM1Chal : UInt8 := 0x11
def msgM2Init : UInt8 := 0x12
def msgM3RespFin : UInt8 := 0x13
def msgM3Inner : UInt8 := 0x14
def msgM4InitFin : UInt8 := 0x15
def msgResult : UInt8 := 0x7f

def domainSid0 : UInt8 := 0x30
def domainInit : UInt8 := 0x31
def domainResp : UInt8 := 0x32
def domainLmotsSign : UInt8 := 0x33
def domainTranscript : UInt8 := 0x34
def domainUavAke : UInt8 := 0x35
def domainBConfirm : UInt8 := 0x36
def domainAConfirm : UInt8 := 0x37

def resultOk : UInt8 := 0

/-- The largest byte count a single wolfSSL call accepts. -/
abbrev uint32Max : Nat := 4294967295

/-- The loop of `constantTimeEqual`: the differences of all byte pairs are collected
in one byte, so the running time does not depend on where two strings differ. -/
def constantTimeEqual (left right : Bytes) (length : Nat) : Bool :=
  (List.range length).foldl
    (fun difference i => difference ||| (left.getD i 0 ^^^ right.getD i 0)) (0 : UInt8) == 0

private theorem or_eq_zero {a b : UInt8} : a ||| b = 0 ↔ a = 0 ∧ b = 0 := by
  constructor
  · intro h
    have bits : ∀ i, a.toBitVec.getLsbD i = false ∧ b.toBitVec.getLsbD i = false := by
      intro i
      have bit := congrArg (fun x : UInt8 => x.toBitVec.getLsbD i) h
      simpa only [UInt8.toBitVec_or, BitVec.getLsbD_or, UInt8.toBitVec_zero,
        BitVec.getLsbD_zero, Bool.or_eq_false_iff] using bit
    refine ⟨?_, ?_⟩ <;> apply UInt8.eq_of_toBitVec_eq <;> apply BitVec.eq_of_getLsbD_eq <;>
      intro i _
    · simpa using (bits i).1
    · simpa using (bits i).2
  · rintro ⟨rfl, rfl⟩
    rfl

private theorem foldl_or_eq_zero (f : Nat → UInt8) (items : List Nat) (start : UInt8) :
    items.foldl (fun difference i => difference ||| f i) start = 0 ↔
      start = 0 ∧ ∀ i ∈ items, f i = 0 := by
  induction items generalizing start with
  | nil => simp
  | cons i rest ih =>
      rw [List.foldl_cons, ih, or_eq_zero]
      simp only [List.mem_cons, forall_eq_or_imp, and_assoc]

/-- The constant-time loop decides equality of two strings of the compared length. -/
theorem constantTimeEqual_iff {left right : Bytes} {length : Nat}
    (hl : left.length = length) (hr : right.length = length) :
    constantTimeEqual left right length = true ↔ left = right := by
  rw [constantTimeEqual, beq_iff_eq, foldl_or_eq_zero]
  simp only [List.mem_range, true_and, UInt8.xor_eq_zero_iff]
  constructor
  · intro same
    apply List.ext_getElem (hl.trans hr.symm)
    intro i h₁ h₂
    have equal := same i (by omega)
    rwa [List.getD_eq_getElem _ _ h₁, List.getD_eq_getElem _ _ h₂] at equal
  · rintro rfl i _
    rfl

end Puav
