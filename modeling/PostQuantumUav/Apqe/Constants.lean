import Mathlib.Algebra.Order.Ring.Nat
import Mathlib.Data.Vector.Basic
import PostQuantumUav.Puav.Constants

/-!
# Constants of the comparison protocol

`ApqeConstants.h`: sizes, message and operation codes, and the record that the
ledger keeps for a device and slot. The byte helpers of this header are those of
the other library.
-/

namespace Apqe

def protocolVersion : UInt8 := 1

abbrev idBytes : Nat := 32
abbrev hashBytes : Nat := 32
abbrev tidBytes : Nat := 32
abbrev challengeBytes : Nat := 32
abbrev nonceBytes : Nat := 32
abbrev pufBytes : Nat := 32

abbrev kyberPublicKeyBytes : Nat := 800
abbrev kyberSecretKeyBytes : Nat := 768
abbrev kyberCiphertextBytes : Nat := 768
abbrev kyberMessageBytes : Nat := 32

abbrev eiBlocks : Nat := 4
abbrev eiBytes : Nat := eiBlocks * kyberMessageBytes
abbrev m1Bytes : Nat := eiBlocks * kyberCiphertextBytes + hashBytes
abbrev pjBytes : Nat := challengeBytes + nonceBytes
abbrev m2Bytes : Nat := pufBytes + pjBytes + hashBytes
abbrev m3Bytes : Nat := pufBytes + hashBytes

theorem eiBlocks_ne_zero : eiBlocks ≠ 0 := by decide

instance : NeZero eiBlocks := ⟨eiBlocks_ne_zero⟩

theorem h1_fits : eiBlocks * kyberCiphertextBytes + hashBytes ≤ m1Bytes := Nat.le_refl _
theorem m2Mask_fits : 0 + hashBytes ≤ m2Bytes := by decide
theorem m2Nonce_fits : 64 + hashBytes ≤ m2Bytes := by decide
theorem m3Key_fits : 0 + hashBytes ≤ m3Bytes := by decide
theorem h3_fits : hashBytes + hashBytes ≤ m3Bytes := Nat.le_refl _

def fragmentMagic : UInt16 := 0xA951
abbrev maxFragments : Nat := 5
abbrev maxProtocolMessageBytes : Nat := m1Bytes

def gatewayMagic : UInt16 := 0xA952
def gatewayVersion : UInt8 := 1
abbrev gatewayRequestHeaderBytes : Nat := 12
abbrev gatewayResponseHeaderBytes : Nat := 19
abbrev gatewayTagBytes : Nat := 32
abbrev fabricRecordBytes : Nat :=
  idBytes + tidBytes + kyberPublicKeyBytes + pufBytes + hashBytes
abbrev gatewayMaxRequestBytes : Nat :=
  gatewayRequestHeaderBytes + fabricRecordBytes + gatewayTagBytes
abbrev gatewayMaxResponseBytes : Nat :=
  gatewayResponseHeaderBytes + fabricRecordBytes + gatewayTagBytes
abbrev gatewayRetries : Nat := 6

abbrev resultBytes : Nat := 153

def msgM1 : UInt8 := 0x21
def msgM2 : UInt8 := 0x22
def msgM3 : UInt8 := 0x23
def msgResult : UInt8 := 0x7f

def gwPutCredential : UInt8 := 1
def gwQueryIdSlot : UInt8 := 2
def gwQueryTid : UInt8 := 3
def gwPing : UInt8 := 4

def gwOk : UInt8 := 0
def gwBadRequest : UInt8 := 1
def gwNotFound : UInt8 := 2
def gwFabricError : UInt8 := 3
def gwAuthError : UInt8 := 4

abbrev Block := List.Vector UInt8 32
abbrev PublicKey := List.Vector UInt8 kyberPublicKeyBytes

structure FabricCredential where
  identityHash : Block
  tid : Block
  publicKey : PublicKey
  w : Block
  verifyHash : Block
  deriving DecidableEq

end Apqe
