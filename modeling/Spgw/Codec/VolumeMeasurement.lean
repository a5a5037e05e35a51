/-
# The volume measurement of a usage report

`decode_pfcp_vol_meas_ie_t` of `libpfcp/src/pfcp_ies_decoder.c` with the macros
`DECODE_TOTAL_VOLUME_COND_3`, `DECODE_UPLINK_VOLUME_COND_3` and `DECODE_DOWNLINK_VOLUME_COND_3`.
-/

import Spgw.Codec.PfcpRoundTrip

namespace Spgw.Codec.PfcpIe

open BitFields

structure VolMeas where
  header : IeHeader
  volMeasSpare : BitVec 5
  dlvol : BitVec 1
  ulvol : BitVec 1
  tovol : BitVec 1
  totalVolume : BitVec 64
  uplinkVolume : BitVec 64
  downlinkVolume : BitVec 64

namespace VolMeas

def encode (v : VolMeas) : List Bool :=
  encodeIeHeader v.header ++ (put v.volMeasSpare ++ (put v.dlvol ++ (put v.ulvol ++ (put v.tovol ++
    ((if v.tovol = 1 then put v.totalVolume else []) ++
      ((if v.ulvol = 1 then put v.uplinkVolume else []) ++
        if v.dlvol = 1 then put v.downlinkVolume else []))))))

def takeVolume (flag : BitVec 1) : Dec (BitVec 64) := do
  let volume ← if flag = 1 then Dec.peek 64 else pure 0
  Dec.addDecoded
  return BitVec.ofNat 64 volume

/-- `decode_pfcp_vol_meas_ie_t` into a zeroed structure. -/
def decode : Dec VolMeas := do
  let header ← decodeIeHeader
  let volMeasSpare ← take 5
  let dlvol ← take 1
  let ulvol ← take 1
  let tovol ← take 1
  let totalVolume ← takeVolume tovol
  let uplinkVolume ← takeVolume ulvol
  let downlinkVolume ← takeVolume dlvol
  return ⟨header, volMeasSpare, dlvol, ulvol, tovol, totalVolume, uplinkVolume, downlinkVolume⟩

/-- The flags, and the volumes that they announce. -/
def Same (v w : VolMeas) : Prop :=
  (w.dlvol = v.dlvol ∧ w.ulvol = v.ulvol ∧ w.tovol = v.tovol) ∧
    (v.tovol = 1 → w.totalVolume = v.totalVolume) ∧
    (v.ulvol = 1 → w.uplinkVolume = v.uplinkVolume) ∧
    (v.dlvol = 1 → w.downlinkVolume = v.downlinkVolume)

/-- What is decoded does not depend on what lies behind the element. -/
def Decodes (v : VolMeas) : Prop := ∀ b, Holds b 0 v.encode → v.Same (decode.eval b {}).1

/-- No volume is absent before one that is present. -/
def Leading (v : VolMeas) : Prop := (v.ulvol = 1 → v.tovol = 1) ∧ (v.dlvol = 1 → v.ulvol = 1)

def uplinkAt (v : VolMeas) : ℕ := if v.tovol = 1 then 104 else 41

def downlinkAt (v : VolMeas) : ℕ :=
  if v.ulvol = 1 then v.uplinkAt + 64 else if v.tovol = 1 then 168 else 42

theorem eval_takeVolume (b : Buffer) (c : Cursor) (flag : BitVec 1) : (takeVolume flag).eval b c =
      if flag = 1 then (BitVec.ofNat 64 (b.bits c.total 64), ⟨(c.total + 64) % 65536, 64⟩)
      else (0, ⟨(c.total + c.decoded) % 65536, c.decoded⟩) := by
  unfold takeVolume
  split_ifs <;> rfl

theorem holds_take {w : ℕ} {b : Buffer} {off : ℕ} {v : BitVec w} (h : Holds b off (put v)) :
    BitVec.ofNat w (b.bits off w) = v := by
  rw [bits_of_holds h, Nat.mod_eq_of_lt v.isLt, BitVec.ofNat_toNat, BitVec.setWidth_eq]

theorem eval_decode {v : VolMeas} {b : Buffer} (h : Holds b 0 v.encode) :
    ∃ header spare, (decode.eval b {}).1 = ⟨header, spare, v.dlvol, v.ulvol, v.tovol,
      if v.tovol = 1 then BitVec.ofNat 64 (b.bits 40 64) else 0,
      if v.ulvol = 1 then BitVec.ofNat 64 (b.bits v.uplinkAt 64) else 0,
      if v.dlvol = 1 then BitVec.ofNat 64 (b.bits v.downlinkAt 64) else 0⟩ := by
  obtain ⟨-, h⟩ := holds_append.mp h
  obtain ⟨-, h⟩ := holds_append.mp h
  obtain ⟨hdl, h⟩ := holds_append.mp h
  obtain ⟨hul, h⟩ := holds_append.mp h
  obtain ⟨hto, -⟩ := holds_append.mp h
  simp only [encodeIeHeader, List.length_append, length_put, Nat.zero_add, Nat.reduceAdd]
    at hdl hul hto
  refine ⟨⟨.ofNat 16 (b.bits 0 16), .ofNat 16 (b.bits 16 16)⟩, .ofNat 5 (b.bits 32 5), ?_⟩
  simp only [decode, decodeIeHeader, take, Dec.eval_bind, Dec.eval_bits, Dec.eval_pure,
    Nat.zero_add, Nat.reduceAdd, Nat.reduceMod, holds_take hdl, holds_take hul, holds_take hto,
    eval_takeVolume, uplinkAt, downlinkAt]
  split_ifs <;> simp

theorem holds_volumes {v : VolMeas} {b : Buffer} (h : Holds b 0 v.encode) :
    Holds b 40 ((if v.tovol = 1 then put v.totalVolume else []) ++
      ((if v.ulvol = 1 then put v.uplinkVolume else []) ++
        if v.dlvol = 1 then put v.downlinkVolume else [])) := by
  unfold encode at h
  simp only [holds_append, encodeIeHeader, List.length_append, length_put, Nat.zero_add,
    Nat.reduceAdd] at h ⊢
  exact h.2.2.2.2.2

theorem same_of_leading {v : VolMeas} (hv : v.Leading) {b : Buffer} (h : Holds b 0 v.encode) :
    v.Same (decode.eval b {}).1 := by
  obtain ⟨header, spare, hdec⟩ := eval_decode h
  have hvol := holds_volumes h
  rw [hdec]
  refine ⟨⟨rfl, rfl, rfl⟩, fun hto => ?_, fun hul => ?_, fun hdl => ?_⟩
  · rw [if_pos hto] at hvol
    rw [if_pos hto]
    exact holds_take (holds_append.mp hvol).1
  · have hto := hv.1 hul
    rw [if_pos hto, if_pos hul] at hvol
    simp only [holds_append, length_put, Nat.reduceAdd] at hvol
    simp only [uplinkAt, if_pos hul, if_pos hto]
    exact holds_take hvol.2.1
  · have hul := hv.2 hdl
    have hto := hv.1 hul
    rw [if_pos hto, if_pos hul, if_pos hdl] at hvol
    simp only [holds_append, length_put, Nat.reduceAdd] at hvol
    simp only [downlinkAt, uplinkAt, if_pos hdl, if_pos hul, if_pos hto]
    exact holds_take hvol.2.2

def padded (v : VolMeas) (x : Bool) : Buffer := fun i => v.encode.getD i x

theorem holds_padded (v : VolMeas) (x : Bool) : Holds (v.padded x) 0 v.encode := by
  intro i hi
  simp [padded, hi]

theorem not_read_behind (v : VolMeas) (off : ℕ) (volume : BitVec 64)
    (hoff : v.encode.length ≤ off + 63)
    (h : ∀ x, BitVec.ofNat 64 ((v.padded x).bits off 64) = volume) : False := by
  have hlast : ∀ x : Bool, volume.toNat % 2 = x.toNat := by
    intro x
    have hbit : v.padded x (off + 63) = x := by simp [padded, hoff]
    have hx := Bool.toNat_lt x
    rw [← h x, BitVec.toNat_ofNat, Nat.mod_eq_of_lt ((v.padded x).bits_lt off 64), Buffer.bits, hbit]
    omega
  have hfalse := hlast false
  have htrue := hlast true
  simp only [Bool.toNat_false, Bool.toNat_true] at hfalse htrue
  omega

/-- **The volume measurement is decoded to what was sent exactly if no volume is absent before one
that is present.** -/
theorem decodes_iff_leading (v : VolMeas) : v.Decodes ↔ v.Leading := by
  constructor
  · intro h
    by_contra hbad
    have hlen : v.encode.length = 40 + ((if v.tovol = 1 then 64 else 0) +
        ((if v.ulvol = 1 then 64 else 0) + if v.dlvol = 1 then 64 else 0)) := by
      simp only [encode, encodeIeHeader, List.length_append, length_put]
      split_ifs <;> simp
    have hread : ∀ x, v.Same (decode.eval (v.padded x) {}).1 := fun x => h _ (v.holds_padded x)
    -- The last volume that is present ends behind the element.
    by_cases hdl : v.dlvol = 1
    · refine not_read_behind v v.downlinkAt v.downlinkVolume ?_ fun x => ?_
      · rw [hlen, if_pos hdl, downlinkAt, uplinkAt]
        have : ¬ (v.tovol = 1 ∧ v.ulvol = 1) := fun hall => hbad ⟨fun _ => hall.1, fun _ => hall.2⟩
        split_ifs <;> first | omega | simp_all
      · obtain ⟨header, spare, hdec⟩ := eval_decode (v.holds_padded x)
        have hsame := (hread x).2.2.2 hdl
        rwa [hdec, if_pos hdl] at hsame
    · have hul : v.ulvol = 1 := by
        by_contra hul
        exact hbad ⟨fun h => absurd h hul, fun h => absurd h hdl⟩
      have hto : ¬ v.tovol = 1 := fun hto => hbad ⟨fun _ => hto, fun _ => hul⟩
      refine not_read_behind v v.uplinkAt v.uplinkVolume ?_ fun x => ?_
      · rw [hlen, if_neg hdl, if_pos hul, uplinkAt, if_neg hto, if_neg hto]
      · obtain ⟨header, spare, hdec⟩ := eval_decode (v.holds_padded x)
        have hsame := (hread x).2.2.1 hul
        rwa [hdec, if_pos hul] at hsame
  · exact fun hv b hb => same_of_leading hv hb

/-- An uplink volume of 1 alone, in a zeroed buffer, is read as 2. -/
theorem not_decodes_uplinkOnly : ∃ v : VolMeas, v.ulvol = 1 ∧ v.uplinkVolume = 1 ∧
    (decode.eval (buffer v.encode) {}).1.uplinkVolume = 2 ∧ ¬ v.Decodes := by
  refine ⟨⟨⟨66, 9⟩, 0, 0, 1, 0, 0, 1, 0⟩, rfl, rfl, (fun htwo => ⟨htwo, fun h => ?_⟩) ?_⟩
  · decide +kernel
  · exact absurd (htwo.symm.trans ((h _ (holds_buffer _)).2.2.1 rfl)) (by decide)

end VolMeas

end Spgw.Codec.PfcpIe
