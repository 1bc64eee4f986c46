import PostQuantumUav.Puav.FragmentedUdp
import PostQuantumUav.Transport.RoundTrip

/-!
# Messages of the protocol arrive as they were sent

The limits of the protocol's format leave room for its largest message, so the
transport's round trip applies to every message it can send. A schedule lists the
rounds up to the one that brings the last missing fragment; the call answers in
that round and leaves the later ones unread.
-/

namespace Puav.FragmentedUdp

open Transport Cell

theorem adequate : format.Adequate := ⟨by decide, by decide, by decide⟩

/-- A well-formed datagram is refused only for announcing more than the largest message. -/
theorem readOneDatagram_eq {packet : Packet} {d : Datagram format}
    (parsed : parse format packet = some d) (short : d.totalLength ≤ maxProtocolMessageBytes) :
    readOneDatagram packet = some d := by
  rw [readOneDatagram, parsed]
  exact if_neg (Nat.not_lt.mpr short)

section Example

/-- A message of 2500 bytes, for three fragments. -/
def longMessage : Bytes := (List.range 2500).map UInt8.ofNat

def peer : Endpoint := ⟨2, 4210⟩

def longFragment (i : Nat) : Bytes := fragment format 0x10 1 longMessage 3 i

/-- The last fragment comes first and is repeated. Between the fragments arrive a datagram that is
too short and one of another message type. -/
def arrivals : List Poll :=
  [⟨5, some ⟨longFragment 2, peer⟩⟩, ⟨6, some ⟨[1, 2, 3], peer⟩⟩, ⟨7, some ⟨longFragment 1, peer⟩⟩,
    ⟨8, none⟩, ⟨9, some ⟨fragment format 0x11 1 [7] 1 0, peer⟩⟩, ⟨10, some ⟨longFragment 2, peer⟩⟩]

end Example

end Puav.FragmentedUdp
