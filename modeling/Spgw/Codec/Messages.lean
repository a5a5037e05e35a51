/-
# Whether a message is decoded, and from what

The messages that the gateway receives and decodes: five of GTPv2-C, seven of PFCP.
-/

import Spgw.Codec.Lengths

namespace Spgw.Codec

open Tlv

inductive Message
  | gtp (m : Gtp.Message)
  | pfcp (m : Pfcp.Message)

namespace Message

def decode : Message → Buffer → ℕ → Option (List (ℕ × List (List ℕ)) × ℕ)
  | .gtp m, b, fuel => Gtp.protocol.decode m.table b fuel
  | .pfcp m, b, fuel => Pfcp.protocol.decode m.table b fuel

/-- At every element the decoder gets to, at any depth, the counter behind it is below `2 ^ 16` (for
an unknown one, the offset and four and the length), one that is copied by its length has less than
8188 octets, and a bearer context whose function leaves out the header is not empty. -/
def NoWrap : Message → Buffer → Prop
  | .gtp m, b => Gtp.protocol.NoWrap m.table b Gtp.Ie.Short
  | .pfcp m, b => Pfcp.protocol.NoWrap m.table b Pfcp.Ie.Short

/-- **A message in which no counter wraps is decoded.** -/
theorem decode_returns_of_noWrap {m : Message} {b : Buffer} (h : m.NoWrap b) :
    ∃ fuel r, m.decode b fuel = some r := by
  cases m with
  | gtp m => exact Protocol.returns_of_noWrap (fun _ _ => Gtp.Ie.size_pos) h
  | pfcp m => exact Protocol.returns_of_noWrap (fun _ _ => Pfcp.Ie.size_pos) h

end Message

namespace Demo

/-- A Create Session Request with a recovery counter and an element of type 254. -/
def recovery : Buffer :=
  Buffer.ofOctets [0x48, 32, 0, 19, 0, 0, 0, 0, 0, 0, 1, 0, 3, 0, 1, 0, 7, 254, 0, 2, 0, 9, 9]

theorem decode_recovery : Gtp.protocol.decode Gtp.createSessReq recovery 3 =
    some ([(0, [[3, 1, 0, 7]]), (5, [])], 11) := by decide +kernel

theorem decoderAt_recovery :
    Gtp.protocol.decoderAt (Gtp.Message.table .createSessReq) recovery 0 = .leaf .recovery ∧
      Gtp.protocol.decoderAt (Gtp.Message.table .createSessReq) recovery 5 = .skip := ⟨rfl, rfl⟩

/-- A Create Session Request of sixteen octets: an element of type 254 with the length
`0xFFFC`. -/
def zeroAdvance : Buffer :=
  Buffer.ofOctets [0x48, 32, 0, 12, 0, 0, 0, 0, 0, 0, 1, 0, 254, 0xFF, 0xFC, 0]

end Demo

theorem Message.returns_recovery : (Message.gtp .createSessReq).NoWrap Demo.recovery ∧
    ∃ fuel r, (Message.gtp .createSessReq).decode Demo.recovery fuel = some r := by
  have hnoWrap : (Message.gtp .createSessReq).NoWrap Demo.recovery := by
    intro o ho
    have hmem : o ∈ [0, 5] := Protocol.mem_of_visits Demo.decode_recovery ho
    rcases List.mem_pair.mp hmem with rfl | rfl
    · rw [Demo.decoderAt_recovery.1]
      exact ⟨fun h => (nomatch h), fun size h => by rw [takes_leaf.mp h]; decide +kernel⟩
    · rw [Demo.decoderAt_recovery.2]
      exact ⟨trivial, fun size h => by rw [takes_skip.mp h]; decide +kernel⟩
  exact ⟨hnoWrap, Message.decode_returns_of_noWrap hnoWrap⟩

/-- The counter stays at zero. -/
theorem not_returns_zeroAdvance :
    ¬ ∃ fuel r, (Message.gtp .createSessReq).decode Demo.zeroAdvance fuel = some r := by
  rintro ⟨fuel, ⟨visits, last⟩, hdecode⟩
  have hlands := Protocol.decode_iff.mp ⟨fuel, visits, hdecode, rfl⟩
  have hstep : Gtp.protocol.Next Gtp.createSessReq Demo.zeroAdvance 0 0 :=
    ⟨65536, takes_skip.mpr (by decide +kernel), by decide⟩
  exact absurd hlands (Lands.not_of_loop (fun h h' => Step.unique h h') hstep (by decide +kernel))

/-- What is received: `raw_buf`, with whatever lies behind it, and its size. -/
structure Datagram where
  memory : Buffer
  bytesRx : ℕ

namespace Datagram

/-- The header of the message and every element that the decoder gets to, at any depth, lie within
the octets received as far as they are read; an unknown element at the end may be cut off in its
length. -/
def Inside (d : Datagram) : Message → Prop
  | .gtp m => Gtp.protocol.Inside m.table d.memory (8 * d.bytesRx)
  | .pfcp m => Pfcp.protocol.Inside m.table d.memory (8 * d.bytesRx)

end Datagram

namespace Demo

end Demo

end Spgw.Codec
