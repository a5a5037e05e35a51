/-
# The message that carries a Re-Auth-Request

`gx_rar_cb` of `cp/gx/gx_app/src/gx_rar.c` sends a parsed request to the control plane, and
`process_gx_msg` of `cp/gx/gx_interface.c` takes it apart.
-/

import Spgw.Gx.Pack

namespace Spgw
namespace Gx

open Octets Record Function

structure GxTransData where
  rarSeqNum : UInt16
  pendingGxTrans : List (UInt64 × UInt16)

/-- What is handed to `send_to_ipc_channel`. -/
structure IpcMessage where
  octets : Memory
  len : ℕ

/-- `e_BUF_HDR`. -/
inductive MsgType
  | rar | raa | ccr | cca

def MsgType.value : MsgType → UInt8
  | .rar => 0
  | .raa => 1
  | .ccr => 2
  | .cca => 3

def rarHeader (seqNum : UInt16) : Memory :=
  write (write (fun _ => 0) 0 [MsgType.rar.value]) 1 (littleEndian 2 seqNum.toNat)

def gxRarCb (d : GxTransData) (rqst : UInt64) (r : GxRar) : GxTransData × IpcMessage :=
  let buflen := gxRarCalcLength r
  let header := rarHeader d.rarSeqNum
  let body := (gxRarPack r (fun j => header (3 + j)) buflen).getD fun j => header (3 + j)
  let sendBuf : Memory := fun j => if j < 3 then header j else body (j - 3)
  ({ d with
      rarSeqNum := d.rarSeqNum + 1
      pendingGxTrans := (rqst, d.rarSeqNum) :: d.pendingGxTrans },
    { octets := write sendBuf (1 + buflen) (littleEndian 8 rqst.toNat)
      len := 1 + buflen + 8 })

/-- What `process_gx_msg` does with a message. -/
inductive GxHandled
  | /-- `handle_rar_msg`, with the sequence number for the answer. -/
    rar (seqNum : ℕ) (r : GxRar)
  | /-- `gx_cca_unpack` and the handlers of answers, which are not followed. -/
    cca
  | discarded

def processGxMsg (rawBuf : Memory) : GxHandled :=
  if rawBuf 0 = MsgType.cca.value then .cca
  else if rawBuf 0 = MsgType.rar.value then
    (gxRarUnpack fun j => rawBuf (3 + j)).elim .discarded (.rar (value (read rawBuf 1 2)))
  else .discarded

/-- A request that comes from `gx_rar_parse`: a Diameter message is shorter than `2 ^ 24`
octets, and its members do not grow much when they are packed. -/
structure ParsedRar where
  rar : GxRar
  short : rar.packedLength < 2 ^ 32

/-- What the buffer says is what the gateway takes up. -/
def Delivered (d : GxTransData) (rqst : UInt64) (r : GxRar) : Prop :=
  ∀ rawBuf : Memory, (∀ j < (gxRarCb d rqst r).2.len, rawBuf j = (gxRarCb d rqst r).2.octets j) →
    processGxMsg rawBuf = .rar d.rarSeqNum.toNat r

def GxRar.endsWith (r : GxRar) (b₀ b₁ : UInt8) : Bool :=
  match (rarItem r).pattern.drop ((rarItem r).size - 2) with
  | [t₀, t₁] => t₀ b₀ && t₁ b₁
  | _ => false

theorem shows_rarItem_iff {r : GxRar} {m : Memory} : Shows m 4 (rarItem r).pattern ↔
    Shows m 4 ((rarItem r).pattern.take ((rarItem r).size - 2)) ∧
      r.endsWith (m (r.packedLength - 2)) (m (r.packedLength - 1)) = true := by
  have hsize := four_le_size r
  have hlen : ((rarItem r).pattern.drop ((rarItem r).size - 2)).length = 2 := by
    rw [List.length_drop]
    change (rarItem r).size - ((rarItem r).size - 2) = 2
    omega
  have htake : ((rarItem r).pattern.take ((rarItem r).size - 2)).length = (rarItem r).size - 2 := by
    rw [List.length_take]
    exact Nat.min_eq_left (Nat.sub_le ..)
  obtain ⟨t₀, t₁, ht⟩ := List.length_eq_two.mp hlen
  have h₀ : 4 + ((rarItem r).size - 2) = r.packedLength - 2 := by
    rw [GxRar.packedLength]
    omega
  have h₁ : r.packedLength - 2 + 1 = r.packedLength - 1 := by
    rw [GxRar.packedLength]
    omega
  conv_lhs => rw [← List.take_append_drop ((rarItem r).size - 2) (rarItem r).pattern]
  rw [shows_append, htake, ht, GxRar.endsWith, ht]
  simp only [Shows, h₀, h₁, Bool.and_eq_true, and_true]

section Arrives

variable {d : GxTransData} {rqst : UInt64} {r : GxRar} (hlen : r.packedLength < 2 ^ 32)

include hlen

theorem gxRarCb_len : (gxRarCb d rqst r).2.len = r.packedLength + 9 := by
  change 1 + gxRarCalcLength r + 8 = _
  rw [gxRarCalcLength_eq, Nat.mod_eq_of_lt hlen]
  omega

theorem gxRarCb_octets : (gxRarCb d rqst r).2.octets =
    write (fun j => if j < 3 then rarHeader d.rarSeqNum j else packed r (fun _ => 0) (j - 3))
      (r.packedLength + 1) (littleEndian 8 rqst.toNat) := by
  have hcalc : gxRarCalcLength r = r.packedLength := by
    rw [gxRarCalcLength_eq, Nat.mod_eq_of_lt hlen]
  have hzero : (fun j => rarHeader d.rarSeqNum (3 + j)) = fun _ => 0 := by
    funext j
    rw [rarHeader, write_of_out _ _ (.inr (by rw [length_littleEndian]; omega)),
      write_of_out _ _ (.inr (by rw [List.length_singleton]; omega))]
  have hpos : 1 + r.packedLength = r.packedLength + 1 := Nat.add_comm ..
  simp only [gxRarCb, hcalc, hzero, gxRarPack_eq, Option.getD_some, hpos]

theorem gxRarCb_octets_of_lt {j : ℕ} (h : j < r.packedLength + 1) : (gxRarCb d rqst r).2.octets j =
      if j < 3 then rarHeader d.rarSeqNum j else packed r (fun _ => 0) (j - 3) := by
  rw [gxRarCb_octets hlen]
  exact write_of_out _ _ (.inl h)

theorem gxRarCb_octets_pointer :
    (gxRarCb d rqst r).2.octets (r.packedLength + 1) = UInt8.ofNat rqst.toNat ∧
      (gxRarCb d rqst r).2.octets (r.packedLength + 2) = UInt8.ofNat (rqst.toNat / 256) := by
  rw [gxRarCb_octets hlen]
  constructor
  · exact update_self ..
  · exact (update_of_ne (Nat.succ_ne_self _) ..).trans (update_self ..)

variable {rawBuf : Memory}
  (hraw : ∀ j < (gxRarCb d rqst r).2.len, rawBuf j = (gxRarCb d rqst r).2.octets j)

include hraw

theorem rawBuf_of_lt {j : ℕ} (h : j < r.packedLength + 1) : rawBuf j =
    if j < 3 then rarHeader d.rarSeqNum j else packed r (fun _ => 0) (j - 3) := by
  rw [hraw j (by rw [gxRarCb_len hlen]; omega), gxRarCb_octets_of_lt hlen h]

theorem rawBuf_body {j : ℕ} (h : j < r.packedLength - 2) :
    rawBuf (3 + j) = packed r (fun _ => 0) j := by
  rw [rawBuf_of_lt hlen hraw (by omega), if_neg (by omega), Nat.add_sub_cancel_left]

theorem rawBuf_pointer : rawBuf (3 + (r.packedLength - 2)) = UInt8.ofNat rqst.toNat ∧
    rawBuf (3 + (r.packedLength - 1)) = UInt8.ofNat (rqst.toNat / 256) := by
  have hsize := four_le_size r
  have h₀ : 3 + (r.packedLength - 2) = r.packedLength + 1 := by
    rw [GxRar.packedLength]
    omega
  have h₁ : 3 + (r.packedLength - 1) = r.packedLength + 2 := by
    rw [GxRar.packedLength]
    omega
  obtain ⟨hfirst, hsecond⟩ := @gxRarCb_octets_pointer d rqst r hlen
  rw [h₀, h₁, hraw _ (by rw [gxRarCb_len hlen]; omega), hraw _ (by rw [gxRarCb_len hlen]; omega)]
  exact ⟨hfirst, hsecond⟩

theorem processGxMsg_eq : processGxMsg rawBuf =
    (gxRarUnpack fun j => rawBuf (3 + j)).elim .discarded (.rar d.rarSeqNum.toNat) := by
  have hsize := four_le_size r
  have hlow : ∀ j < 3, rawBuf j = rarHeader d.rarSeqNum j := fun j hj => by
    rw [rawBuf_of_lt hlen hraw (by rw [GxRar.packedLength]; omega), if_pos hj]
  have htype : rawBuf 0 = MsgType.rar.value := by
    rw [hlow 0 (by decide), rarHeader, write_of_out _ _ (.inl (by decide))]
    rfl
  have hseq : value (read rawBuf 1 2) = d.rarSeqNum.toNat := by
    have hread : read rawBuf 1 2 = read (rarHeader d.rarSeqNum) 1 2 :=
      read_congr fun j _ hlt => hlow j hlt
    have hwritten : read (rarHeader d.rarSeqNum) 1 2 = littleEndian 2 d.rarSeqNum.toNat :=
      read_write _ 1 (littleEndian 2 d.rarSeqNum.toNat)
    rw [hread, hwritten]
    exact value_littleEndian d.rarSeqNum.toNat_lt
  have hcca : MsgType.rar.value ≠ MsgType.cca.value := by decide
  rw [processGxMsg, htype, if_neg hcca, if_pos rfl, hseq]

theorem word_rawBuf : word (fun j => rawBuf (3 + j)) 0 = r.packedLength := by
  have hsize := four_le_size r
  refine (word_congr fun j _ hlt => ?_).trans (word_packed hlen fun _ => 0)
  exact rawBuf_body hlen hraw (by rw [GxRar.packedLength]; omega)

theorem shows_take_rawBuf : Shows (fun j => rawBuf (3 + j)) 4
    ((rarItem r).pattern.take ((rarItem r).size - 2)) := by
  refine shows_congr (fun j _ hlt => ?_) (shows_take _ (shows_packed (.inr fun _ => rfl)))
  rw [List.length_take] at hlt
  have hle : j < 4 + ((rarItem r).size - 2) :=
    Nat.lt_of_lt_of_le hlt (Nat.add_le_add_left (Nat.min_le_left ..) 4)
  have hsize := four_le_size r
  exact rawBuf_body hlen hraw (by rw [GxRar.packedLength]; omega)

theorem shows_rawBuf_iff : Shows (fun j => rawBuf (3 + j)) 4 (rarItem r).pattern ↔
    r.endsWith (UInt8.ofNat rqst.toNat) (UInt8.ofNat (rqst.toNat / 256)) = true := by
  obtain ⟨hfirst, hsecond⟩ := rawBuf_pointer hlen hraw
  rw [shows_rarItem_iff, hfirst, hsecond]
  exact and_iff_right (shows_take_rawBuf hlen hraw)

end Arrives

/-- **A request is delivered only by chance** -/
theorem delivered_iff (p : ParsedRar) (d : GxTransData) (rqst : UInt64) : Delivered d rqst p.rar ↔
      p.rar.endsWith (UInt8.ofNat rqst.toNat) (UInt8.ofNat (rqst.toNat / 256)) = true ∧
        p.rar.endsInEmptyList = false := by
  obtain ⟨r, hlen⟩ := p
  constructor
  · intro h
    let rawBuf := (gxRarCb d rqst r).2.octets
    have hraw : ∀ j < (gxRarCb d rqst r).2.len, rawBuf j = (gxRarCb d rqst r).2.octets j :=
      fun _ _ => rfl
    have hreply := h rawBuf hraw
    rw [processGxMsg_eq hlen hraw] at hreply
    have hunpack : gxRarUnpack (fun j => rawBuf (3 + j)) = some r := by
      cases hres : gxRarUnpack fun j => rawBuf (3 + j) with
      | none => simp [hres] at hreply
      | some r' => simpa [hres] using hreply
    have hshows : Shows (fun j => rawBuf (3 + j)) 4 (rarItem r).pattern := by
      have hreturns := unpack_of_gxRarUnpack hunpack
      rw [word_rawBuf hlen hraw] at hreturns
      exact (describes_rar r).lawful.shows_of_returns hlen (Nat.le_refl _) (Nat.le_refl 2)
        (shows_take_rawBuf hlen hraw) hreturns
    refine ⟨(shows_rawBuf_iff hlen hraw).mp hshows, ?_⟩
    by_contra hopen
    rw [gxRarUnpack_of_shows hlen (word_rawBuf hlen hraw) hshows,
      if_pos (Bool.not_eq_false _ ▸ hopen)] at hunpack
    cases hunpack
  · rintro ⟨hends, hopen⟩ rawBuf hraw
    have hshows := (shows_rawBuf_iff hlen hraw).mpr hends
    rw [processGxMsg_eq hlen hraw, gxRarUnpack_of_shows hlen (word_rawBuf hlen hraw) hshows, hopen]
    rfl

def GxHandled.octet (n : ℕ) : GxHandled → Option UInt8
  | .rar _ r => some (packed r (fun _ => 0) n)
  | _ => none

/-- The control plane is asked to remove a rule whose name is made of two octets of a
pointer.  The name begins at octet 21 of the packed request. -/
theorem not_delivered_removeByName :
    ¬ Delivered ⟨0, []⟩ 0x7f3a5c001230 (removeByName 0x72 0x31) := by
  intro h
  have hreply := h _ fun _ _ => rfl
  have hoctet : (processGxMsg (gxRarCb ⟨0, []⟩ 0x7f3a5c001230
      (removeByName 0x72 0x31)).2.octets).octet 21 = some 0x30 := by decide +kernel
  rw [hreply] at hoctet
  exact absurd hoctet (by decide)

end Gx
end Spgw
