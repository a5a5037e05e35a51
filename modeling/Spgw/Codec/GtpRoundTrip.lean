/-
# Elements of GTPv2-C that are written and read back

The encoders of `libgtpv2c/src/gtp_ies_encoder.c` and the decoders of
`libgtpv2c/src/gtp_ies_decoder.c` for the F-TEID, the PDN address allocation, the user location, the
cause, the FQ-CSID and the indication.
-/

import Spgw.Lib.BitFields

namespace Spgw.Codec

open BitFields

structure IeHeader where
  type : BitVec 8
  len : BitVec 16
  inst : BitVec 8

def encodeIeHeader (h : IeHeader) : List Bool := put h.type ++ (put h.len ++ put h.inst)

def decodeIeHeader : Dec IeHeader := do
  let type ← take 8
  let len ← take 16
  let inst ← take 8
  return { type, len, inst }

theorem reads_header (h : IeHeader) : Reads decodeIeHeader (encodeIeHeader h) (· = h) :=
  (reads_take h.type).next ((reads_take h.len).next ((reads_take h.inst).last rfl))

@[simp] theorem length_encodeIeHeader (h : IeHeader) : (encodeIeHeader h).length = 32 := by
  simp [encodeIeHeader]

/-- The value comes back, and both sides count the octets that `len` announces. -/
def RoundTrip {α : Type} (encoded : Option (List Bool)) (decode : Dec α) (len : BitVec 16)
    (Same : α → Prop) : Prop :=
  ∃ bits, encoded = some bits ∧ Same (decode.eval (buffer bits) {}).1 ∧
    bits.length % 65536 / 8 = len.toNat + 4 ∧
    (decode.eval (buffer bits) {}).2.total / 8 = len.toNat + 4

section RoundTrip

variable {α : Type} {bits : List Bool} {decode : Dec α} {len : BitVec 16} {Same : α → Prop}

theorem roundTrip_of_reads (hread : Reads decode bits Same)
    (hlen : bits.length = 8 * (len.toNat + 4)) (hlt : bits.length < 65536) :
    RoundTrip (some bits) decode len Same := by
  obtain ⟨hsame, htotal⟩ := hread.eval_buffer hlt
  refine ⟨bits, rfl, hsame, ?_, ?_⟩
  · rw [Nat.mod_eq_of_lt hlt, hlen, Nat.mul_div_cancel_left _ (by decide)]
  · rw [htotal, hlen, Nat.mul_div_cancel_left _ (by decide)]

theorem RoundTrip.length_eq (h : RoundTrip (some bits) decode len Same) :
    bits.length % 65536 / 8 = len.toNat + 4 := by
  obtain ⟨bits', hbits, -, hlen, -⟩ := h
  rw [Option.some.inj hbits]
  exact hlen

end RoundTrip

theorem bit_cases (b : BitVec 1) : b = 0 ∨ b = 1 := by
  revert b
  decide

/-- `gtp_fully_qual_tunn_endpt_idnt_ie_t`. -/
structure Fteid where
  header : IeHeader
  v4 : BitVec 1
  v6 : BitVec 1
  interfaceType : BitVec 6
  teidGreKey : BitVec 32
  ipv4Address : BitVec 32
  ipv6Address : BitVec 128

namespace Fteid

/-- `encode_gtp_fully_qual_tunn_endpt_idnt_ie`. -/
def encode (v : Fteid) : List Bool :=
  encodeIeHeader v.header ++ (put v.v4 ++ (put v.v6 ++ (put v.interfaceType ++
    (put v.teidGreKey ++ (put v.ipv4Address ++ if v.v6 = 1 then put v.ipv6Address else [])))))

/-- `decode_gtp_fully_qual_tunn_endpt_idnt_ie`. -/
def decode (old : Fteid) : Dec Fteid := do
  let header ← decodeIeHeader
  let v4 ← take 1
  let v6 ← take 1
  let interfaceType ← take 6
  let teidGreKey ← take 32
  let ipv4Address ← takeIf (v4 = 1) (take 32) old.ipv4Address
  let ipv6Address ← takeIf (v6 = 1) (take 128) old.ipv6Address
  return { header, v4, v6, interfaceType, teidGreKey, ipv4Address, ipv6Address }

def Consistent (v : Fteid) : Prop := v.header.len.toNat = 5 + 4 * v.v4.toNat + 16 * v.v6.toNat

def Same (v w : Fteid) : Prop :=
  w.header = v.header ∧ w.v4 = v.v4 ∧ w.v6 = v.v6 ∧ w.interfaceType = v.interfaceType ∧
    w.teidGreKey = v.teidGreKey ∧ (v.v4 = 1 → w.ipv4Address = v.ipv4Address) ∧
    (v.v6 = 1 → w.ipv6Address = v.ipv6Address)

theorem length_encode (v : Fteid) : v.encode.length = 104 + 128 * v.v6.toNat := by
  rcases bit_cases v.v6 with h | h <;> simp [encode, h]

theorem reads_decode {v old : Fteid} (h : v.v4 = 1) : Reads (decode old) v.encode v.Same := by
  unfold decode encode
  refine (reads_header v.header).next ((reads_take v.v4).next ((reads_take v.v6).next
    ((reads_take v.interfaceType).next ((reads_take v.teidGreKey).next ?_))))
  rw [takeIf, if_pos h]
  refine (reads_take v.ipv4Address).next ((reads_takeIf (reads_take v.ipv6Address)).last ?_)
  exact ⟨rfl, rfl, rfl, rfl, rfl, fun _ => rfl, fun h6 => if_pos h6⟩

theorem roundTrip_iff {v : Fteid} (h : v.Consistent) :
    (∀ old, RoundTrip (some v.encode) (decode old) v.header.len v.Same) ↔ v.v4 = 1 := by
  have hlen := v.length_encode
  have hv6 := v.v6.isLt
  rw [Consistent] at h
  constructor
  · intro hall
    have := (hall v).length_eq
    rcases bit_cases v.v4 with hv4 | hv4
    · rw [hv4] at h
      simp at h
      omega
    · exact hv4
  · intro hv4 old
    rw [hv4] at h
    simp at h
    exact roundTrip_of_reads (reads_decode hv4) (by omega) (by omega)

end Fteid

structure PdnAddrAlloc where
  header : IeHeader
  spare2 : BitVec 5
  pdnType : BitVec 3
  pdnAddrAndPfx : Fin 21 → BitVec 8

namespace PdnAddrAlloc

/-- `encode_gtp_pdn_addr_alloc_ie`. -/
def encode (v : PdnAddrAlloc) : Option (List Bool) :=
  if 1 ≤ v.header.len.toNat ∧ v.header.len.toNat ≤ 22 then
    some (encodeIeHeader v.header ++ (put v.spare2 ++ (put v.pdnType ++
      putArray v.pdnAddrAndPfx (v.header.len.toNat - 1))))
  else none

/-- `decode_gtp_pdn_addr_alloc_ie`. -/
def decode (old : PdnAddrAlloc) : Dec PdnAddrAlloc := do
  let header ← decodeIeHeader
  let spare2 ← take 5
  let pdnType ← take 3
  let pdnAddrAndPfx ← takeArray old.pdnAddrAndPfx (header.len.toNat - 1)
  return { header, spare2, pdnType, pdnAddrAndPfx }

def Consistent (v : PdnAddrAlloc) : Prop := 1 ≤ v.header.len.toNat ∧ v.header.len.toNat ≤ 22

def Same (v w : PdnAddrAlloc) : Prop :=
  w.header = v.header ∧ w.spare2 = v.spare2 ∧ w.pdnType = v.pdnType ∧
    ∀ i : Fin 21, (i : ℕ) < v.header.len.toNat - 1 → w.pdnAddrAndPfx i = v.pdnAddrAndPfx i

theorem roundTrip {v : PdnAddrAlloc} (h : v.Consistent) (old : PdnAddrAlloc) :
    RoundTrip v.encode (decode old) v.header.len v.Same := by
  obtain ⟨hpos, hle⟩ := h
  have hk : v.header.len.toNat - 1 ≤ 21 := by omega
  rw [encode, if_pos ⟨hpos, hle⟩]
  refine roundTrip_of_reads ?_ ?_ ?_
  · refine (reads_header v.header).next ((reads_take v.spare2).next ((reads_take v.pdnType).next
      ((reads_takeArray hk).last ?_)))
    exact ⟨rfl, rfl, rfl, fun i hi => if_pos hi⟩
  all_goals simp [length_putArray _ hk]; omega

end PdnAddrAlloc

abbrev CgiField := Fields [4, 4, 4, 4, 4, 4, 16, 16]
abbrev SaiField := Fields [4, 4, 4, 4, 4, 4, 16, 16]
abbrev RaiField := Fields [4, 4, 4, 4, 4, 4, 16, 16]
abbrev TaiField := Fields [4, 4, 4, 4, 4, 4, 16]
abbrev EcgiField := Fields [4, 4, 4, 4, 4, 4, 4, 28]
abbrev LaiField := Fields [4, 4, 4, 4, 4, 4, 16]
abbrev MacroEnbIdFld := Fields [4, 4, 4, 4, 4, 4, 4, 4, 16]
abbrev ExtndedMacroEnbIdFld := Fields [4, 4, 4, 4, 4, 4, 1, 2, 5, 16]

structure UserLocInfo where
  header : IeHeader
  extndedMacroEnbId : BitVec 1
  macroEnodebId : BitVec 1
  lai : BitVec 1
  ecgi : BitVec 1
  tai : BitVec 1
  rai : BitVec 1
  sai : BitVec 1
  cgi : BitVec 1
  cgi2 : CgiField
  sai2 : SaiField
  rai2 : RaiField
  tai2 : TaiField
  ecgi2 : EcgiField
  lai2 : LaiField
  macroEnodebId2 : MacroEnbIdFld
  extendedMacroEnodebId2 : ExtndedMacroEnbIdFld

namespace UserLocInfo

def putField {ws : List ℕ} (flag : BitVec 1) (f : Fields ws) : List Bool :=
  if flag = 1 then f.put else []

/-- `encode_gtp_user_loc_info_ie`. -/
def encode (v : UserLocInfo) : List Bool :=
  encodeIeHeader v.header ++ (put v.extndedMacroEnbId ++ (put v.macroEnodebId ++ (put v.lai ++
    (put v.ecgi ++ (put v.tai ++ (put v.rai ++ (put v.sai ++ (put v.cgi ++
      (putField v.cgi v.cgi2 ++ (putField v.sai v.sai2 ++ (putField v.rai v.rai2 ++
      (putField v.tai v.tai2 ++ (putField v.ecgi v.ecgi2 ++ (putField v.lai v.lai2 ++
      (putField v.macroEnodebId v.macroEnodebId2 ++
        putField v.extndedMacroEnbId v.extendedMacroEnodebId2)))))))))))))))

/-- `decode_gtp_user_loc_info_ie`. -/
def decode (old : UserLocInfo) : Dec UserLocInfo := do
  let header ← decodeIeHeader
  let extndedMacroEnbId ← take 1
  let macroEnodebId ← take 1
  let lai ← take 1
  let ecgi ← take 1
  let tai ← take 1
  let rai ← take 1
  let sai ← take 1
  let cgi ← take 1
  let cgi2 ← takeIf (cgi = 1) (Fields.take _) old.cgi2
  let sai2 ← takeIf (sai = 1) (Fields.take _) old.sai2
  let rai2 ← takeIf (rai = 1) (Fields.take _) old.rai2
  let tai2 ← takeIf (tai = 1) (Fields.take _) old.tai2
  let ecgi2 ← takeIf (ecgi = 1) (Fields.take _) old.ecgi2
  let lai2 ← takeIf (lai = 1) (Fields.take _) old.lai2
  let macroEnodebId2 ← takeIf (macroEnodebId = 1) (Fields.take _) old.macroEnodebId2
  let extendedMacroEnodebId2 ←
    takeIf (extndedMacroEnbId = 1) (Fields.take _) old.extendedMacroEnodebId2
  return ⟨header, extndedMacroEnbId, macroEnodebId, lai, ecgi, tai, rai, sai, cgi, cgi2, sai2,
    rai2, tai2, ecgi2, lai2, macroEnodebId2, extendedMacroEnodebId2⟩

def Consistent (v : UserLocInfo) : Prop :=
  v.header.len.toNat = 1 + 7 * v.cgi.toNat + 7 * v.sai.toNat + 7 * v.rai.toNat + 5 * v.tai.toNat +
    7 * v.ecgi.toNat + 5 * v.lai.toNat + 6 * v.macroEnodebId.toNat + 6 * v.extndedMacroEnbId.toNat

def Same (v w : UserLocInfo) : Prop :=
  (w.header = v.header ∧ w.extndedMacroEnbId = v.extndedMacroEnbId ∧
    w.macroEnodebId = v.macroEnodebId ∧ w.lai = v.lai ∧ w.ecgi = v.ecgi ∧ w.tai = v.tai ∧
    w.rai = v.rai ∧ w.sai = v.sai ∧ w.cgi = v.cgi) ∧
  (v.cgi = 1 → w.cgi2 = v.cgi2) ∧ (v.sai = 1 → w.sai2 = v.sai2) ∧ (v.rai = 1 → w.rai2 = v.rai2) ∧
  (v.tai = 1 → w.tai2 = v.tai2) ∧ (v.ecgi = 1 → w.ecgi2 = v.ecgi2) ∧
  (v.lai = 1 → w.lai2 = v.lai2) ∧ (v.macroEnodebId = 1 → w.macroEnodebId2 = v.macroEnodebId2) ∧
  (v.extndedMacroEnbId = 1 → w.extendedMacroEnodebId2 = v.extendedMacroEnodebId2)

theorem length_putField {ws : List ℕ} (flag : BitVec 1) (f : Fields ws) :
    (putField flag f).length = ws.sum * flag.toNat := by
  rcases bit_cases flag with h | h <;> simp [putField, h]

theorem reads_field {ws : List ℕ} {flag : BitVec 1} {old : Fields ws} (f : Fields ws) :
    Reads (takeIf (flag = 1) (Fields.take ws) old) (putField flag f)
      (· = if flag = 1 then f else old) :=
  reads_takeIf f.reads_take

theorem reads_decode (v old : UserLocInfo) : Reads (decode old) v.encode v.Same := by
  refine (reads_header v.header).next ((reads_take v.extndedMacroEnbId).next
    ((reads_take v.macroEnodebId).next ((reads_take v.lai).next ((reads_take v.ecgi).next
    ((reads_take v.tai).next ((reads_take v.rai).next ((reads_take v.sai).next
    ((reads_take v.cgi).next ?_))))))))
  refine (reads_field v.cgi2).next ((reads_field v.sai2).next ((reads_field v.rai2).next
    ((reads_field v.tai2).next ((reads_field v.ecgi2).next ((reads_field v.lai2).next
    ((reads_field v.macroEnodebId2).next ((reads_field v.extendedMacroEnodebId2).last ?_)))))))
  exact ⟨⟨rfl, rfl, rfl, rfl, rfl, rfl, rfl, rfl, rfl⟩, fun h => if_pos h, fun h => if_pos h,
    fun h => if_pos h, fun h => if_pos h, fun h => if_pos h, fun h => if_pos h, fun h => if_pos h,
    fun h => if_pos h⟩

theorem roundTrip {v : UserLocInfo} (h : v.Consistent) (old : UserLocInfo) :
    RoundTrip (some v.encode) (decode old) v.header.len v.Same := by
  have hlen : v.encode.length = 8 * (v.header.len.toNat + 4) := by
    rw [h]
    simp [encode, length_putField]
    omega
  refine roundTrip_of_reads (reads_decode v old) hlen ?_
  rw [hlen, h]
  omega

end UserLocInfo

structure Cause where
  header : IeHeader
  causeValue : BitVec 8
  spare2 : BitVec 5
  pce : BitVec 1
  bce : BitVec 1
  cs : BitVec 1
  offendIeType : BitVec 8
  offendIeLen : BitVec 16
  spareinstance : BitVec 8

namespace Cause

/-- `encode_gtp_cause_ie`. -/
def encode (v : Cause) : List Bool :=
  encodeIeHeader v.header ++ (put v.causeValue ++ (put v.spare2 ++ (put v.pce ++ (put v.bce ++
    (put v.cs ++ ((if v.header.len ≠ 2 then put v.offendIeType else []) ++
      ((if v.header.len ≠ 2 then put v.offendIeLen else []) ++
        if v.header.len ≠ 2 then put v.spareinstance else [])))))))

/-- `decode_gtp_cause_ie`. -/
def decode (old : Cause) : Dec Cause := do
  let header ← decodeIeHeader
  let causeValue ← take 8
  let spare2 ← take 5
  let pce ← take 1
  let bce ← take 1
  let cs ← take 1
  let offendIeType ← takeIf (header.len ≠ 2) (take 8) old.offendIeType
  let offendIeLen ← takeIf (header.len ≠ 2) (take 16) old.offendIeLen
  let spareinstance ← takeIf (header.len ≠ 2) (take 8) old.spareinstance
  return { header, causeValue, spare2, pce, bce, cs, offendIeType, offendIeLen, spareinstance }

def Consistent (v : Cause) : Prop := v.header.len = 2 ∨ v.header.len = 6

def Same (v w : Cause) : Prop :=
  w.header = v.header ∧ w.causeValue = v.causeValue ∧ w.spare2 = v.spare2 ∧ w.pce = v.pce ∧
    w.bce = v.bce ∧ w.cs = v.cs ∧ (v.header.len = 6 → w.offendIeType = v.offendIeType ∧
      w.offendIeLen = v.offendIeLen ∧ w.spareinstance = v.spareinstance)

theorem roundTrip {v : Cause} (h : v.Consistent) (old : Cause) :
    RoundTrip (some v.encode) (decode old) v.header.len v.Same := by
  have hread : Reads (decode old) v.encode v.Same := by
    refine (reads_header v.header).next ((reads_take v.causeValue).next ((reads_take v.spare2).next
      ((reads_take v.pce).next ((reads_take v.bce).next ((reads_take v.cs).next ?_)))))
    refine (reads_takeIf (reads_take v.offendIeType)).next
      ((reads_takeIf (reads_take v.offendIeLen)).next
        ((reads_takeIf (reads_take v.spareinstance)).last ?_))
    refine ⟨rfl, rfl, rfl, rfl, rfl, rfl, fun h6 => ?_⟩
    have hne : v.header.len ≠ 2 := by rw [h6]; decide
    exact ⟨if_pos hne, if_pos hne, if_pos hne⟩
  rcases h with h | h
  · exact roundTrip_of_reads hread (by simp [encode, h]) (by simp [encode, h])
  · exact roundTrip_of_reads hread (by simp [encode, h]) (by simp [encode, h])

end Cause

structure Fqcsid where
  header : IeHeader
  nodeIdType : BitVec 4
  numberOfCsids : BitVec 4
  nodeAddress : BitVec 32
  pdnCsid : Fin 8 → BitVec 16

namespace Fqcsid

/-- `encode_gtp_fqcsid_ie`. -/
def encode (v : Fqcsid) : Option (List Bool) :=
  if v.numberOfCsids.toNat ≤ 8 then
    some (encodeIeHeader v.header ++ (put v.nodeIdType ++ (put v.numberOfCsids ++
      (put v.nodeAddress ++ putArray v.pdnCsid v.numberOfCsids.toNat))))
  else none

/-- `decode_gtp_fqcsid_ie`. -/
def decode (old : Fqcsid) : Dec Fqcsid := do
  let header ← decodeIeHeader
  let nodeIdType ← take 4
  let numberOfCsids ← take 4
  let nodeAddress ← take 32
  let pdnCsid ← takeArray old.pdnCsid numberOfCsids.toNat
  return { header, nodeIdType, numberOfCsids, nodeAddress, pdnCsid }

def Consistent (v : Fqcsid) : Prop := v.header.len.toNat = 5 + 2 * v.numberOfCsids.toNat

def Same (v w : Fqcsid) : Prop :=
  w.header = v.header ∧ w.nodeIdType = v.nodeIdType ∧ w.numberOfCsids = v.numberOfCsids ∧
    w.nodeAddress = v.nodeAddress ∧
    ∀ i : Fin 8, (i : ℕ) < v.numberOfCsids.toNat → w.pdnCsid i = v.pdnCsid i

theorem roundTrip_iff {v : Fqcsid} (h : v.Consistent) :
    (∀ old, RoundTrip v.encode (decode old) v.header.len v.Same) ↔ v.numberOfCsids.toNat ≤ 8 := by
  constructor
  · intro hall
    obtain ⟨bits, hbits, -⟩ := hall v
    by_contra hgt
    rw [encode, if_neg hgt] at hbits
    cases hbits
  · intro hle old
    rw [Consistent] at h
    rw [encode, if_pos hle]
    refine roundTrip_of_reads ?_ ?_ ?_
    · refine (reads_header v.header).next ((reads_take v.nodeIdType).next
        ((reads_take v.numberOfCsids).next ((reads_take v.nodeAddress).next
          ((reads_takeArray hle).last ?_))))
      exact ⟨rfl, rfl, rfl, rfl, fun i hi => if_pos hi⟩
    all_goals simp [length_putArray _ hle]; omega

end Fqcsid

structure Indication where
  header : IeHeader
  flags : Fin 56 → BitVec 1

namespace Indication

/-- `encode_gtp_indication_ie`. -/
def encode (v : Indication) : List Bool := encodeIeHeader v.header ++ putArray v.flags 56

/-- The octets that are decoded: `indic_len` is a `uint8_t`, and the last octet is looked at only
if there are exactly 7. -/
def octets (len : BitVec 16) : ℕ :=
  let indicLen := len.toNat % 256
  if indicLen = 7 then 7 else min indicLen 6

/-- `decode_gtp_indication_ie`. -/
def decode (old : Indication) : Dec Indication := do
  let header ← decodeIeHeader
  let flags ← takeArray old.flags (8 * octets header.len)
  return { header, flags }

def Consistent (v : Indication) : Prop := v.header.len.toNat ≤ 7

def Same (v w : Indication) : Prop :=
  w.header = v.header ∧ ∀ i : Fin 56, (i : ℕ) < 8 * v.header.len.toNat → w.flags i = v.flags i

theorem roundTrip_iff (v : Indication) :
    (∀ old, RoundTrip (some v.encode) (decode old) v.header.len v.Same) ↔
      v.header.len.toNat = 7 := by
  have hlen : v.encode.length = 88 := by simp [encode, length_putArray]
  constructor
  · intro hall
    have := (hall v).length_eq
    omega
  · intro h7 old
    have hoctets : octets v.header.len = 7 := by simp [octets, h7]
    refine roundTrip_of_reads ?_ (by omega) (by omega)
    refine (reads_header v.header).next ?_
    rw [hoctets]
    exact (reads_takeArray (Nat.le_refl 56)).last ⟨rfl, fun i _ => if_pos i.isLt⟩

end Indication

inductive GtpIe
  | fteid (v : Fteid)
  | paa (v : PdnAddrAlloc)
  | uli (v : UserLocInfo)
  | cause (v : Cause)
  | fqcsid (v : Fqcsid)
  | indication (v : Indication)

namespace GtpIe

/-- The length in the header is that of the fields the flags announce. -/
def Consistent : GtpIe → Prop
  | .fteid v => v.Consistent
  | .paa v => v.Consistent
  | .uli v => v.Consistent
  | .cause v => v.Consistent
  | .fqcsid v => v.Consistent
  | .indication v => v.Consistent

/-- The element comes back, whatever the decoder finds in its result. -/
def RoundTrips : GtpIe → Prop
  | .fteid v => ∀ old, RoundTrip (some v.encode) (Fteid.decode old) v.header.len v.Same
  | .paa v => ∀ old, RoundTrip v.encode (PdnAddrAlloc.decode old) v.header.len v.Same
  | .uli v => ∀ old, RoundTrip (some v.encode) (UserLocInfo.decode old) v.header.len v.Same
  | .cause v => ∀ old, RoundTrip (some v.encode) (Cause.decode old) v.header.len v.Same
  | .fqcsid v => ∀ old, RoundTrip v.encode (Fqcsid.decode old) v.header.len v.Same
  | .indication v => ∀ old, RoundTrip (some v.encode) (Indication.decode old) v.header.len v.Same

/-- Nothing is left out that the decoder expects. -/
def Complete : GtpIe → Prop
  | .fteid v => v.v4 = 1
  | .fqcsid v => v.numberOfCsids.toNat ≤ 8
  | .indication v => v.header.len.toNat = 7
  | _ => True

/-- **Elements come back exactly if they are complete.** -/
theorem roundTrips_iff_complete (ie : GtpIe) (h : ie.Consistent) : ie.RoundTrips ↔ ie.Complete := by
  cases ie with
  | fteid v => exact v.roundTrip_iff h
  | paa v => exact iff_true_intro (v.roundTrip h)
  | uli v => exact iff_true_intro (v.roundTrip h)
  | cause v => exact iff_true_intro (v.roundTrip h)
  | fqcsid v => exact v.roundTrip_iff h
  | indication v => exact v.roundTrip_iff

def s1uFteid : Fteid := ⟨⟨87, 9, 0⟩, 1, 0, 0, 0x11223344, 0x0a000001, 0⟩

def s1uFteid6 : Fteid := ⟨⟨87, 21, 0⟩, 0, 1, 0, 0x11223344, 0, 0x20010db8000000000000000000000001⟩

theorem roundTrips_s1uFteid : (GtpIe.fteid s1uFteid).RoundTrips :=
  (roundTrips_iff_complete (.fteid s1uFteid) (rfl : s1uFteid.Consistent)).mpr rfl

/-- The encoder puts four octets more than the length in front of the IPv6 address. -/
theorem not_roundTrips_s1uFteid6 :
    (GtpIe.fteid s1uFteid6).Consistent ∧ ¬(GtpIe.fteid s1uFteid6).RoundTrips := by
  refine ⟨(rfl : s1uFteid6.Consistent), fun h => ?_⟩
  have := (h s1uFteid6).length_eq
  rw [Fteid.length_encode] at this
  exact absurd this (by decide)

end GtpIe

end Spgw.Codec
