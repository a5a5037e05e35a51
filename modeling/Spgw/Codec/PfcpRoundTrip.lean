/-
# Elements of PFCP that are written and read back

The F-TEID and the UE IP address, in `libpfcp/src/pfcp_ies_encoder.c` and
`libpfcp/src/pfcp_ies_decoder.c` with the macros for what is conditional.
-/

import Spgw.Lib.BitFields

namespace Spgw.Codec.PfcpIe

open BitFields

structure IeHeader where
  type : BitVec 16
  len : BitVec 16

def encodeIeHeader (h : IeHeader) : List Bool := put h.type ++ put h.len

def decodeIeHeader : Dec IeHeader := do
  let type ← take 16
  let len ← take 16
  return { type, len }

theorem reads_ieHeader (h : IeHeader) : Reads decodeIeHeader (encodeIeHeader h) (· = h) :=
  (reads_take h.type).next ((reads_take h.len).last rfl)

def swap (v : BitVec 32) : BitVec 32 :=
  BitVec.ofNat 32 (v.toNat % 2 ^ 8 * 2 ^ 24 + v.toNat / 2 ^ 8 % 2 ^ 8 * 2 ^ 16 +
    v.toNat / 2 ^ 16 % 2 ^ 8 * 2 ^ 8 + v.toNat / 2 ^ 24)

theorem toNat_swap {v : BitVec 32} {a b c d : ℕ} (ha : a < 256) (hb : b < 256) (hc : c < 256)
    (hd : d < 256) (h : v.toNat = a + 2 ^ 8 * b + 2 ^ 16 * c + 2 ^ 24 * d) :
    (swap v).toNat = d + 2 ^ 8 * c + 2 ^ 16 * b + 2 ^ 24 * a := by
  have h₀ : v.toNat % 2 ^ 8 = a := by omega
  have h₁ : v.toNat / 2 ^ 8 % 2 ^ 8 = b := by omega
  have h₂ : v.toNat / 2 ^ 16 % 2 ^ 8 = c := by omega
  have h₃ : v.toNat / 2 ^ 24 = d := by omega
  rw [swap, BitVec.toNat_ofNat, h₀, h₁, h₂, h₃]
  omega

theorem swap_swap (v : BitVec 32) : swap (swap v) = v := by
  obtain ⟨a, b, c, d, ha, hb, hc, hd, h⟩ : ∃ a b c d : ℕ, a < 256 ∧ b < 256 ∧ c < 256 ∧ d < 256 ∧
      v.toNat = a + 2 ^ 8 * b + 2 ^ 16 * c + 2 ^ 24 * d := by
    have := v.isLt
    exact ⟨v.toNat % 256, v.toNat / 256 % 256, v.toNat / 65536 % 256, v.toNat / 16777216, by omega,
      by omega, by omega, by omega, by omega⟩
  exact BitVec.eq_of_toNat_eq ((toNat_swap hd hc hb ha (toNat_swap ha hb hc hd h)).trans h.symm)

/-- `memcpy` of a field of a structure that has 32 bits. -/
def takeWord : Dec (BitVec 32) := do
  let v ← take 32
  return swap v

theorem reads_takeWord (v : BitVec 32) : Reads takeWord (put v) (· = swap v) :=
  (reads_take v).last rfl

structure Fteid where
  header : IeHeader
  fteidSpare : BitVec 4
  chid : BitVec 1
  ch : BitVec 1
  v6 : BitVec 1
  v4 : BitVec 1
  teid : BitVec 32
  ipv4Address : BitVec 32
  ipv6Address : BitVec 128
  chooseId : BitVec 8

namespace Fteid

/-- `encode_pfcp_fteid_ie_t`. -/
def encode (v : Fteid) : List Bool :=
  encodeIeHeader v.header ++ (put v.fteidSpare ++ (put v.chid ++ (put v.ch ++ (put v.v6 ++
    (put v.v4 ++ ((if v.ch = 0 then put v.teid else []) ++
      ((if v.v4 = 1 ∧ v.ch = 0 then put (swap v.ipv4Address) else []) ++
        ((if v.v6 = 1 ∧ v.ch = 0 then put v.ipv6Address else []) ++
          if v.ch = 1 then put v.chooseId else []))))))))

/-- `DECODE_IPV4_ADDRESS_COND_5`. -/
def takeIpv4 (ipv6Address : BitVec 128) : Dec (BitVec 32 × BitVec 128) := do
  let ipv4Address ← takeWord
  let behind ← Dec.peek 96
  return (ipv4Address, BitVec.ofNat 96 behind ++ ipv6Address.extractLsb' 0 32)

/-- `decode_pfcp_fteid_ie_t` into a zeroed structure. -/
def decode : Dec Fteid := do
  let header ← decodeIeHeader
  let fteidSpare ← take 4
  let chid ← take 1
  let ch ← take 1
  let v6 ← take 1
  let v4 ← take 1
  let teid ← takeIf (ch = 0) takeWord 0
  let addresses ← takeIf (v4 = 1 ∧ ch = 0) (takeIpv4 0) (0, 0)
  let ipv6Address ← takeIf (v6 = 1 ∧ ch = 0) (take 128) addresses.2
  let chooseId ← takeIf (ch = 1) (take 8) 0
  return ⟨header, fteidSpare, chid, ch, v6, v4, teid, addresses.1, ipv6Address, chooseId⟩

def Same (v w : Fteid) : Prop :=
  (w.chid = v.chid ∧ w.ch = v.ch ∧ w.v6 = v.v6 ∧ w.v4 = v.v4) ∧
    (v.ch = 0 → w.teid = v.teid) ∧ (v.v4 = 1 ∧ v.ch = 0 → w.ipv4Address = v.ipv4Address) ∧
    (v.v6 = 1 ∧ v.ch = 0 → w.ipv6Address = v.ipv6Address) ∧ (v.ch = 1 → w.chooseId = v.chooseId)

theorem reads_takeIpv4 (a : BitVec 32) (old : BitVec 128) :
    Reads (takeIpv4 old) (put (swap a)) (·.1 = a) := by
  rw [← List.append_nil (put (swap a))]
  refine (reads_takeWord (swap a)).next ?_
  rw [swap_swap]
  exact fun b c _ _ => ⟨rfl, rfl⟩

theorem reads_decode (v : Fteid) :
    Reads decode v.encode fun w => (v.ch = 0 → w.teid = swap v.teid) ∧
      v.Same { w with teid := v.teid } := by
  refine (reads_ieHeader v.header).next ((reads_take v.fteidSpare).next ((reads_take v.chid).next
    ((reads_take v.ch).next ((reads_take v.v6).next ((reads_take v.v4).next
    ((reads_takeIf (reads_takeWord v.teid)).next ?_))))))
  have hv4 : Reads (takeIf (v.v4 = 1 ∧ v.ch = 0) (takeIpv4 0) (0, 0))
      (if v.v4 = 1 ∧ v.ch = 0 then put (swap v.ipv4Address) else [])
      fun a => v.v4 = 1 ∧ v.ch = 0 → a.1 = v.ipv4Address := by
    unfold takeIf
    split_ifs with h
    · exact (reads_takeIpv4 v.ipv4Address 0).mono fun _ ha _ => ha
    · exact reads_pure fun h' => absurd h' h
  refine hv4.bind fun a ha => (reads_takeIf (reads_take v.ipv6Address)).next
    ((reads_takeIf (reads_take v.chooseId)).last ?_)
  exact ⟨fun h => if_pos h, ⟨rfl, rfl, rfl, rfl⟩, fun _ => rfl, ha, fun h => if_pos h,
    fun h => if_pos h⟩

end Fteid

structure UeIpAddress where
  header : IeHeader
  ueIpAddrSpare : BitVec 3
  chv4 : BitVec 1
  ipv6d : BitVec 1
  sd : BitVec 1
  v4 : BitVec 1
  v6 : BitVec 1
  ipv4Address : BitVec 32
  ipv6Address : BitVec 128
  ipv6PfxDlgtnBits : BitVec 8

namespace UeIpAddress

/-- `encode_pfcp_ue_ip_address_ie_t`. -/
def encode (v : UeIpAddress) : List Bool :=
  encodeIeHeader v.header ++ ((put v.ueIpAddrSpare ++ put v.chv4) ++ (put v.ipv6d ++ (put v.sd ++
    (put v.v4 ++ (put v.v6 ++ ((if v.v4 = 1 then put v.ipv4Address else []) ++
      ((if v.v6 = 1 then put v.ipv6Address else []) ++
        if v.ipv6d = 1 then put v.ipv6PfxDlgtnBits else [])))))))

/-- `decode_pfcp_ue_ip_address_ie_t` into a zeroed structure: four bits are read for the three
spare ones, and `chv4` is not written. -/
def decode : Dec UeIpAddress := do
  let header ← decodeIeHeader
  let ueIpAddrSpare ← take 4
  let ipv6d ← take 1
  let sd ← take 1
  let v4 ← take 1
  let v6 ← take 1
  let ipv4Address ← takeIf (v4 = 1) takeWord 0
  let ipv6Address ← takeIf (v6 = 1) (take 128) 0
  let ipv6PfxDlgtnBits ← takeIf (ipv6d = 1) (take 8) 0
  return ⟨header, ueIpAddrSpare.setWidth 3, 0, ipv6d, sd, v4, v6, ipv4Address, ipv6Address,
    ipv6PfxDlgtnBits⟩

def Same (v w : UeIpAddress) : Prop :=
  (w.chv4 = v.chv4 ∧ w.ipv6d = v.ipv6d ∧ w.sd = v.sd ∧ w.v4 = v.v4 ∧ w.v6 = v.v6) ∧
    (v.v4 = 1 → w.ipv4Address = v.ipv4Address) ∧ (v.v6 = 1 → w.ipv6Address = v.ipv6Address) ∧
    (v.ipv6d = 1 → w.ipv6PfxDlgtnBits = v.ipv6PfxDlgtnBits)

theorem reads_decode (v : UeIpAddress) :
    Reads decode v.encode fun w => w.chv4 = 0 ∧ (v.v4 = 1 → w.ipv4Address = swap v.ipv4Address) ∧
      v.Same { w with chv4 := v.chv4, ipv4Address := v.ipv4Address } := by
  have hspare : Reads (take 4) (put v.ueIpAddrSpare ++ put v.chv4) fun _ => True := by
    intro b c _ hlt
    simp only [List.length_append, length_put] at hlt ⊢
    exact ⟨trivial, Nat.mod_eq_of_lt hlt⟩
  refine (reads_ieHeader v.header).next (hspare.bind fun _ _ => (reads_take v.ipv6d).next
    ((reads_take v.sd).next ((reads_take v.v4).next ((reads_take v.v6).next
    ((reads_takeIf (reads_takeWord v.ipv4Address)).next
    ((reads_takeIf (reads_take v.ipv6Address)).next
    ((reads_takeIf (reads_take v.ipv6PfxDlgtnBits)).last ?_)))))))
  exact ⟨rfl, fun h => if_pos h, ⟨rfl, rfl, rfl, rfl, rfl⟩, fun _ => rfl, fun h => if_pos h,
    fun h => if_pos h⟩

end UeIpAddress

inductive Element
  | fteid (v : Fteid)
  | ueIpAddress (v : UeIpAddress)

namespace Element

/-- What is announced by the flags comes back. -/
def RoundTrips : Element → Prop
  | .fteid v => v.Same (Fteid.decode.eval (buffer v.encode) {}).1
  | .ueIpAddress v => v.Same (UeIpAddress.decode.eval (buffer v.encode) {}).1

/-- The octets of the TEID, if there is one, read the same backwards; so do those of the IPv4
address of a UE, and `chv4` is not set. -/
def Symmetric : Element → Prop
  | .fteid v => v.ch = 0 → swap v.teid = v.teid
  | .ueIpAddress v => v.chv4 = 0 ∧ (v.v4 = 1 → swap v.ipv4Address = v.ipv4Address)

/-- **The elements come back exactly if what is reversed is symmetric.** -/
theorem roundTrips_iff_symmetric (e : Element) : e.RoundTrips ↔ e.Symmetric := by
  have hlen : ∀ p : Prop, ∀ [Decidable p], ∀ w (v : BitVec w),
      (if p then put v else []).length ≤ w := by
    intro p _ w v
    split_ifs <;> simp
  cases e with
  | fteid v =>
    have hlt : v.encode.length < 65536 := by
      have h₁ := hlen (v.ch = 0) 32 v.teid
      have h₂ := hlen (v.v4 = 1 ∧ v.ch = 0) 32 (swap v.ipv4Address)
      have h₃ := hlen (v.v6 = 1 ∧ v.ch = 0) 128 v.ipv6Address
      have h₄ := hlen (v.ch = 1) 8 v.chooseId
      simp only [Fteid.encode, encodeIeHeader, List.length_append, length_put]
      omega
    have hread := (v.reads_decode.eval_buffer hlt).1
    rw [RoundTrips, Symmetric]
    generalize (Fteid.decode.eval (buffer v.encode) {}).1 = w at hread ⊢
    obtain ⟨hteid, hflags, -, hrest⟩ := hread
    constructor
    · exact fun h hch => (hteid hch).symm.trans (h.2.1 hch)
    · exact fun h => ⟨hflags, fun hch => (hteid hch).trans (h hch), hrest⟩
  | ueIpAddress v =>
    have hlt : v.encode.length < 65536 := by
      have h₁ := hlen (v.v4 = 1) 32 v.ipv4Address
      have h₂ := hlen (v.v6 = 1) 128 v.ipv6Address
      have h₃ := hlen (v.ipv6d = 1) 8 v.ipv6PfxDlgtnBits
      simp only [UeIpAddress.encode, encodeIeHeader, List.length_append, length_put]
      omega
    have hread := (v.reads_decode.eval_buffer hlt).1
    rw [RoundTrips, Symmetric]
    generalize (UeIpAddress.decode.eval (buffer v.encode) {}).1 = w at hread ⊢
    obtain ⟨hchv4, hipv4, ⟨-, hflags⟩, -, hrest⟩ := hread
    constructor
    · exact fun h => ⟨h.1.1.symm.trans hchv4, fun h4 => (hipv4 h4).symm.trans (h.2.1 h4)⟩
    · exact fun h => ⟨⟨hchv4.trans h.1.symm, hflags⟩, fun h4 => (hipv4 h4).trans (h.2 h4), hrest⟩

/-- An F-TEID as the control plane sends it: the TEID 1 comes back as `0x01000000`. -/
theorem not_roundTrips_localFteid :
    ¬(Element.fteid ⟨⟨21, 9⟩, 0, 0, 0, 0, 1, 1, 0x0a000001, 0, 0⟩).RoundTrips := by
  intro h
  have hteid := h.2.1 rfl
  revert hteid
  decide +kernel

end Element

end Spgw.Codec.PfcpIe
