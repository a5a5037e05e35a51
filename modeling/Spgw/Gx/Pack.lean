/-
# Packing a Re-Auth-Request for the IPC channel

`gx_rar_calc_length`, `gx_rar_pack` and `gx_rar_unpack` of `cp/gx/gx_app/src/gx_pack.c`.
-/

import Spgw.Gx.Schema

namespace Spgw
namespace Gx

open Octets Record

/-- The three families of functions of `gx_pack.c`, at `GxRAR`. -/
def rarCodec : Codec GxRar := codec members 5 .rar

def gxRarCalcLength (r : GxRar) : ℕ := (4 + rarCodec.size r) % 2 ^ 32

def gxRarPack (r : GxRar) (buf : Memory) (buflen : ℕ) : Option Memory :=
  (rarCodec.pack r buflen buf 4).bind fun (buf, offset) =>
    if offset = buflen then some (write buf 0 (littleEndian 4 offset)) else none

def gxRarUnpack (buf : Memory) : Option GxRar :=
  let length := word buf 0
  (rarCodec.unpack length buf 4).bind fun (r, offset) =>
    if length = offset then some r else none

def rarItem (r : GxRar) : Item := item members 5 .rar r

def GxRar.packedLength (r : GxRar) : ℕ := 4 + (rarItem r).size

def GxRar.listsNoString (r : GxRar) : Bool := (rarItem r).fixed

def GxRar.endsInEmptyList (r : GxRar) : Bool := (rarItem r).endsOpen

theorem describes_rar (r : GxRar) : Describes (rarItem r) rarCodec r :=
  describes_rec members good_members 5 .rar r

section Packed

variable (r : GxRar)

theorem gxRarCalcLength_eq : gxRarCalcLength r = r.packedLength % 2 ^ 32 := by
  rw [gxRarCalcLength, (describes_rar r).size_eq, GxRar.packedLength]

theorem four_le_size : 4 ≤ (rarItem r).size :=
  le_size_recordItem (fun e : Member × Kind Struct => e.2.item (item members 4)) r

/-- What `gx_rar_pack` makes of a buffer that is long enough. -/
def packed (buf : Memory) : Memory :=
  write ((rarItem r).written buf 4) 0 (littleEndian 4 r.packedLength)

theorem gxRarPack_eq (buf : Memory) : gxRarPack r buf r.packedLength = some (packed r buf) := by
  have hpack : rarCodec.pack r r.packedLength buf 4 =
      some ((rarItem r).written buf 4, r.packedLength) :=
    ((describes_rar r).lawful.pack_eq (Nat.le_add_right ..)).trans (if_pos (Nat.le_refl _))
  rw [gxRarPack, hpack, Option.bind_some]
  exact if_pos rfl

theorem gxRarPack_of_lt (buf : Memory) {buflen : ℕ} (h : buflen < r.packedLength) :
    gxRarPack r buf buflen = none := by
  have hpack : rarCodec.pack r buflen buf 4 = none := by
    by_cases hfour : 4 ≤ buflen
    · exact ((describes_rar r).lawful.pack_eq hfour).trans (if_neg (Nat.not_le_of_lt h))
    · refine if_neg fun hle : 4 + ((members .rar).length + 7) / 8 ≤ buflen => hfour ?_
      omega
  rw [gxRarPack, hpack, Option.bind_none]

variable {r}

theorem word_packed (h : r.packedLength < 2 ^ 32) (buf : Memory) :
    word (packed r buf) 0 = r.packedLength :=
  word_write h

theorem packed_of_ge {buf : Memory} {j : ℕ} (h : 4 ≤ j) :
    packed r buf j = (rarItem r).written buf 4 j :=
  write_of_out _ _ (.inr (by rw [length_littleEndian]; omega))

theorem shows_packed {buf : Memory} (h : r.listsNoString = true ∨ ∀ j, buf j = 0) :
    Shows (packed r buf) 4 (rarItem r).pattern := by
  refine shows_congr (fun j hj _ => packed_of_ge hj) ?_
  exact (describes_rar r).lawful.shows_written (h.imp_right fun hzero j _ _ => hzero j)

/-- **`gx_rar_unpack` of a buffer that shows the packed form** -/
theorem gxRarUnpack_of_shows {buf : Memory} (hlen : r.packedLength < 2 ^ 32)
    (hword : word buf 0 = r.packedLength) (hshows : Shows buf 4 (rarItem r).pattern) :
    gxRarUnpack buf = if r.endsInEmptyList then none else some r := by
  have hlawful := (describes_rar r).lawful
  cases hopen : r.endsInEmptyList with
  | true =>
    have hnone : rarCodec.unpack r.packedLength buf 4 = none := hlawful.fails hlen hshows hopen rfl
    simp [gxRarUnpack, hword, hnone]
  | false =>
    have hopen' : ¬ ((rarItem r).endsOpen = true ∧ 4 + (rarItem r).size = r.packedLength) :=
      fun h => Bool.false_ne_true (hopen.symm.trans h.1)
    have hsome : rarCodec.unpack r.packedLength buf 4 = some (r, r.packedLength) :=
      hlawful.returns hlen (Nat.le_refl _) hshows hopen'
    simp [gxRarUnpack, hword, hsome]

theorem unpack_of_gxRarUnpack {buf : Memory} (h : gxRarUnpack buf = some r) :
    rarCodec.unpack (word buf 0) buf 4 = some (r, word buf 0) := by
  obtain ⟨⟨r', offset⟩, hunpack, hr⟩ := Option.bind_eq_some_iff.mp h
  have hoffset : word buf 0 = offset := by
    by_contra hne
    simp [hne] at hr
  have hr' : r' = r := by simpa [hoffset] using hr
  rw [hunpack, hr', hoffset]

end Packed

/-- Packing fills exactly the octets that were counted, and unpacking gives the message back. -/
def RoundTrips (r : GxRar) : Prop :=
  ∀ buf : Memory, ∃ buf', gxRarPack r buf (gxRarCalcLength r) = some buf' ∧
    (∀ j, gxRarCalcLength r ≤ j → buf' j = buf j) ∧ gxRarUnpack buf' = some r

theorem gxRarUnpack_packed_ne {r : GxRar} (hlen : r.packedLength < 2 ^ 32)
    (hlists : r.listsNoString = false) : gxRarUnpack (packed r fun _ => 255) ≠ some r := by
  intro h
  have hunpack := unpack_of_gxRarUnpack h
  rw [word_packed hlen] at hunpack
  have hnew : ∀ j, 4 ≤ j → j < 4 + (rarItem r).size →
      packed r (fun _ => 255) j = (rarItem r).written (fun _ => 255) 4 j :=
    fun j hj _ => packed_of_ge hj
  have hnot : ¬ (rarCodec.access r).Returns r.packedLength (packed r fun _ => 255) 4
      r.packedLength :=
    (describes_rar r).lawful.not_returns hlen (Nat.le_refl _) hlists (fun _ _ _ => rfl) hnew
  exact hnot hunpack

def removeByName (b₀ b₁ : UInt8) : GxRar :=
  (none, none, none, none, none, none, none, none, none, none, none, none, none,
    some ⟨[(some ⟨[⟨[b₀, b₁], Nat.le_of_ble_eq_true rfl⟩], Nat.le_of_ble_eq_true rfl⟩,
      none, none, none, ())], Nat.le_of_ble_eq_true rfl⟩,
    none, none, none, none, none, none, none, none, none, none, none, none, none, none, none, ())

/-- **The requests that survive packing and unpacking** -/
theorem roundTrips_iff (r : GxRar) : RoundTrips r ↔
    r.packedLength < 2 ^ 32 ∧ r.listsNoString = true ∧ r.endsInEmptyList = false := by
  constructor
  · intro h
    have hlen : r.packedLength < 2 ^ 32 := by
      by_contra hge
      obtain ⟨buf', hpack, -⟩ := h fun _ => 0
      have hlt : gxRarCalcLength r < r.packedLength := by
        rw [gxRarCalcLength_eq]
        have := Nat.mod_lt r.packedLength (show 0 < 2 ^ 32 by decide)
        omega
      rw [gxRarPack_of_lt r _ hlt] at hpack
      cases hpack
    have hcalc : gxRarCalcLength r = r.packedLength := by
      rw [gxRarCalcLength_eq, Nat.mod_eq_of_lt hlen]
    have hunpack : ∀ buf, gxRarUnpack (packed r buf) = some r := by
      intro buf
      obtain ⟨buf', hpack, -, hunpack⟩ := h buf
      rw [hcalc, gxRarPack_eq] at hpack
      cases hpack
      exact hunpack
    refine ⟨hlen, ?_, ?_⟩
    · by_contra hlists
      exact gxRarUnpack_packed_ne hlen (Bool.eq_false_iff.mpr hlists) (hunpack _)
    · by_contra hopen
      have hzero := gxRarUnpack_of_shows hlen (word_packed hlen _)
        (shows_packed (.inr fun _ : ℕ => rfl))
      rw [if_pos (Bool.not_eq_false _ ▸ hopen), hunpack] at hzero
      cases hzero
  · rintro ⟨hlen, hlists, hopen⟩ buf
    have hcalc : gxRarCalcLength r = r.packedLength := by
      rw [gxRarCalcLength_eq, Nat.mod_eq_of_lt hlen]
    rw [hcalc]
    refine ⟨packed r buf, gxRarPack_eq r buf, ?_, ?_⟩
    · intro j hj
      have hfour : 4 ≤ j := (Nat.le_add_right ..).trans hj
      rw [packed_of_ge hfour]
      exact (describes_rar r).lawful.written_of_out (.inr hj)
    · rw [gxRarUnpack_of_shows hlen (word_packed hlen buf) (shows_packed (.inl hlists)), hopen]
      rfl

/-- The length of the name is added to what the buffer held, and unpacking runs past the end
of the message. -/
theorem not_roundTrips_removeByName : ¬ RoundTrips (removeByName 0x72 0x31) := by
  intro h
  obtain ⟨buf', hpack, -, hunpack⟩ := h fun _ => 0x10
  have hnone : (gxRarPack (removeByName 0x72 0x31) (fun _ => 0x10)
      (gxRarCalcLength (removeByName 0x72 0x31))).bind gxRarUnpack = none := by decide +kernel
  rw [hpack, Option.bind_some, hunpack] at hnone
  cases hnone

end Gx
end Spgw
