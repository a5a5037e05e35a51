/-
# The lengths of elements

For each element, the lengths with which it is decoded from its own octets (GTPv2-C) or taken off
with them (PFCP), given the flags and counts in it.
-/

import Spgw.Codec.Gtp
import Spgw.Codec.Pfcp
import Mathlib.Tactic.IntervalCases

namespace Spgw.Codec

open Tlv

namespace Gtp

/-- The elements that are copied by their length. -/
def Ie.copied : Ie → Bool
  | .accPtName | .epsBearerLvlTrafficFlowTmpl | .fullyQualDomainName | .imsi | .msisdn
  | .pdnAddrAlloc => true
  | _ => false

/-- The size of the array that is filled, in octets, identifiers or octets of one option. -/
def Ie.capacity : Ie → ℕ
  | .accPtName => 128
  | .epsBearerLvlTrafficFlowTmpl => 257
  | .fullyQualDomainName => 256
  | .imsi | .msisdn | .fqcsid => 8
  | .pdnAddrAlloc => 21
  | .pco => 20
  | _ => 0

/-- No copy runs over the end of its array. -/
def Ie.Fits (b : Buffer) (i : Ie) : Prop :=
  match i with
  | .accPtName | .epsBearerLvlTrafficFlowTmpl | .fullyQualDomainName | .imsi | .msisdn =>
    b.bits 8 16 ≤ i.capacity
  | .pdnAddrAlloc => lenMinusOne (b.bits 8 16) ≤ i.capacity
  | .fqcsid => b.bits 36 4 ≤ i.capacity
  | .pco => ∀ f ∈ pcoOptions b (b.bits 8 16) 16 5, f.2 ≤ 8 * i.capacity
  | _ => True

/-- The options that `decode_pco_ie_t` reads end within the element and are not longer than their
array. -/
def pcoOk (b : Buffer) (len : ℕ) : ℕ → ℕ → Prop
  | 0, _ => True
  | i + 1, count => count < len →
    count + 3 + b.bits (8 * (count + 2)) 8 ≤ 4 + len ∧ b.bits (8 * (count + 2)) 8 ≤ 20 ∧
      pcoOk b len i (count + 3 + b.bits (8 * (count + 2)) 8)

/-- The lengths with which an element is decoded from all its octets and no others, and no array is
overrun. The last four read on in the octet behind them. -/
def Ie.LengthOk (b : Buffer) (i : Ie) : Prop :=
  let len := b.bits 8 16
  match i with
  | .apnRestriction | .cnOperSelEntity | .delayValue | .epsBearerId | .integerNumber | .ipAddress
  | .localDistgsdName | .msecTimeStmp | .nodeType | .pdnType | .ratType | .recovery | .selectionMode
  | .sgnllngPriorityIndctn | .twanIdntTs | .uliTimestamp | .upFuncSelIndctnFlgs => len = 1
  | .chrgngChar | .fullQualCntnr | .mappedUeUsageType | .portNumber | .ranNasCause | .ueTimeZone =>
    len = 2
  | .privExt | .servingNetwork => len = 3
  | .nodeIdentifier | .srvngPlmnRateCtl => len = 4
  | .counter => len = 5
  | .secdryRatUsageDataRpt => len = 7
  | .aggMaxBitRate | .mblEquipIdnty | .ovrldCtlInfo | .rmtUeCtxt => len = 8
  | .bearerQltyOfSvc => len = 22
  | .trcInfo => len = 31
  | .accPtName => len ≤ 128
  | .epsBearerLvlTrafficFlowTmpl => len ≤ 257
  | .fullyQualDomainName => len ≤ 256
  | .msisdn => len ≤ 8
  | .imsi => 7 ≤ len ∧ len ≤ 8
  | .pdnAddrAlloc => 1 ≤ len ∧ len ≤ 22
  | .cause => len = 2 ∨ len = 6
  | .indication => len ≤ 7
  | .fqcsid => len = 5 + 2 * b.bits 36 4 ∧ b.bits 36 4 ≤ 8
  | .fullyQualTunnEndptIdnt => len = 5 + 4 * b.bits 32 1 + 16 * b.bits 33 1
  | .userLocInfo =>
    len = 1 + 7 * (b.bits 39 1 + b.bits 38 1 + b.bits 37 1 + b.bits 35 1) +
      5 * (b.bits 36 1 + b.bits 34 1) + 6 * (b.bits 33 1 + b.bits 32 1)
  | .addtlProtCfgOpts | .extndedProtCfgOpts | .protCfgOpts => 1 ≤ len
  | .pco => 1 ≤ len ∧ pcoOk b len 16 5
  | .presRptngAreaInfo | .trstdWlanModeIndctn | .twanIdentifier | .userCsgInfo => False

theorem sum_ifSet {v : ℕ} (hv : v < 2) (widths : List ℕ) : (ifSet v widths).sum = v * widths.sum := by
  unfold ifSet
  interval_cases v <;> simp

theorem Ie.rest_eq {i : Ie} (hi : i ≠ .imsi) (vs : List ℕ) : i.rest vs = (i.more vs).map .bits := by
  cases i <;> first | rfl | exact absurd rfl hi

/-- The bits behind the header. -/
def Ie.width (b : Buffer) (i : Ie) : ℕ := i.widths.sum + (i.more (i.layout.values b)).sum

variable {b : Buffer} {i : Ie}

theorem Ie.lenOf_values : lenOf (i.layout.values b) = b.bits 8 16 := rfl

theorem Ie.first_sum : i.layout.first.sum = 32 + i.widths.sum := by
  simp only [layout, ieHeader, List.cons_append, List.nil_append, List.sum_cons]
  omega

theorem Ie.total_eq (hi : i ≠ .imsi) : i.layout.total b = 32 + i.width b := by
  rw [Layout.total, first_sum, width]
  simp only [layout, rest_eq hi, Part.total_bits]
  omega

theorem Ie.within_iff (hi : i ≠ .imsi) {avail : ℕ} :
    Within avail (i.layout.fields b) ↔ 32 + i.width b ≤ avail := by
  have hsplit : Within avail (i.layout.fields b) ↔ Within avail (fieldsAt 0 i.layout.first) ∧
      Within avail (fieldsAt (32 + i.widths.sum) (i.more (i.layout.values b))) := by
    simp only [Layout.fields, first_sum]
    rw [show i.layout.rest = i.rest from rfl, rest_eq hi, Part.fields_bits]
    exact List.forall_mem_append
  rw [hsplit, within_fieldsAt, within_fieldsAt, first_sum, width]
  omega

theorem width_pdnAddrAlloc : Ie.width b .pdnAddrAlloc = 8 + 8 * lenMinusOne (b.bits 8 16) := by
  have hmore : Ie.more .pdnAddrAlloc ((Ie.layout .pdnAddrAlloc).values b) =
    [8 * lenMinusOne (b.bits 8 16)] := rfl
  rw [Ie.width, hmore, List.sum_singleton]
  rfl

/-- **The lengths are those with which the fields fill the element and every copy fits**; and only a
copy can be long. -/
theorem Ie.width_spec (hpco : i ≠ .pco) (himsi : i ≠ .imsi) (hby : i.byLength = false) :
    (i.LengthOk b ↔ i.width b = 8 * b.bits 8 16 ∧ i.Fits b) ∧
      (i.LengthOk b → b.bits 8 16 < 8188) ∧ (i.copied = false → i.width b < 1000) := by
  have hbit (k : ℕ) : b.bits k 1 < 2 := b.bits_lt k 1
  have hn : b.bits 36 4 < 2 ^ 4 := b.bits_lt 36 4
  cases i with
  | pco => exact absurd rfl hpco
  | imsi => exact absurd rfl himsi
  | addtlProtCfgOpts | extndedProtCfgOpts | protCfgOpts => cases hby
  | pdnAddrAlloc =>
    have hminus := lenMinusOne_cases (b.bits_lt 8 16)
    rw [width_pdnAddrAlloc]
    refine ⟨?_, ?_, fun h => nomatch h⟩ <;> simp only [LengthOk, Fits, capacity] <;> omega
  | userLocInfo | fullyQualTunnEndptIdnt =>
    have h32 := hbit 32
    have h33 := hbit 33
    have h34 := hbit 34
    have h35 := hbit 35
    have h36 := hbit 36
    have h37 := hbit 37
    have h38 := hbit 38
    have h39 := hbit 39
    refine ⟨?_, ?_, ?_⟩ <;> simp [LengthOk, Fits, copied, width, more, widths, layout, Layout.values, plmn, valuesOf, fieldsAt, ieHeader,
      sum_ifSet (hbit _)] <;> omega
  | cause =>
    have hmore : more .cause ((layout .cause).values b) =
      if b.bits 8 16 ≠ 2 then [8, 16, 8] else [] := rfl
    simp only [LengthOk, Fits, copied, width, hmore, widths, and_true, true_imp_iff]
    split_ifs <;> simp <;> omega
  | indication =>
    have hmore : more .indication ((layout .indication).values b) = List.replicate
      (8 * (min (b.bits 8 16 % 256) 6 + if b.bits 8 16 % 256 = 7 then 1 else 0)) 1 := rfl
    simp only [LengthOk, Fits, copied, width, hmore, widths, List.sum_replicate_nat, List.sum_nil,
      and_true, true_imp_iff]
    split_ifs <;> omega
  | _ =>
    refine ⟨?_, ?_, ?_⟩ <;> simp [LengthOk, Fits, capacity, copied, width, more, widths, layout, Layout.values, valuesOf, fieldsAt,
      ieHeader, lenOf] <;> omega

/-- The fields of the element lie in its octets, and the copies in their arrays. -/
def Ie.Own (b : Buffer) (i : Ie) : Prop :=
  Within (8 * (4 + b.bits 8 16)) ((format.leaf i).fields b) ∧ i.Fits b

theorem pcoOk_iff {len count : ℕ} (hlen : 4 + len < 65536) (n : ℕ) :
    pcoOk b len n count ↔ Within (8 * (4 + len)) (pcoOptions b len n count) ∧
      ∀ f ∈ pcoOptions b len n count, f.2 ≤ 160 := by
  induction n generalizing count with
  | zero => simp [pcoOk, pcoOptions, Within]
  | succ n ih =>
    by_cases hcount : count < len
    · have hmod : (count + 2) % 65536 = count + 2 ∧ (count + 3) % 65536 = count + 3 := by omega
      simp only [pcoOk, pcoOptions, hcount, if_true, true_imp_iff, hmod]
      generalize b.bits (8 * (count + 2)) 8 = optLen
      by_cases hend : count + 3 + optLen ≤ 4 + len
      · rw [Nat.mod_eq_of_lt (by omega), ih]
        simp only [Within, List.forall_mem_append, List.forall_mem_cons, List.not_mem_nil,
          false_imp_iff, implies_true, and_true]
        grind
      · refine iff_of_false (fun h => hend h.1) fun h => hend ?_
        have hlast := h.1 (8 * (count + 3), 8 * optLen) (by simp)
        dsimp only at hlast
        omega
    · simp [pcoOk, pcoOptions, hcount, Within]

theorem own_pco (hlen : 4 + b.bits 8 16 < 65536) : Ie.Own b .pco ↔ Ie.LengthOk b .pco := by
  have hfirst : Within (8 * (4 + b.bits 8 16)) (fieldsAt 0 (ieHeader ++ [8])) ↔ 1 ≤ b.bits 8 16 := by
    rw [within_fieldsAt]
    simp [ieHeader]
    omega
  simp only [Ie.LengthOk, Ie.Own, Ie.Fits, pcoOk_iff hlen, ← hfirst, ← and_assoc]
  exact and_congr_left fun _ => within_append

theorem own_imsi : Ie.Own b .imsi ↔ Ie.LengthOk b .imsi := by
  have hfields : (format.leaf .imsi).fields b = fieldsAt 0 ieHeader ++
    [(32, 8 * b.bits 8 16), (32, 8 * if b.bits 8 16 = 8 then 8 else 7)] := rfl
  rw [Ie.Own, hfields, within_append, within_fieldsAt]
  simp only [Ie.LengthOk, Ie.Fits, Ie.capacity, Within, List.forall_mem_cons, ieHeader,
    List.sum_cons, List.sum_nil]
  split_ifs <;> simp <;> omega

theorem own_byLength (hi : i.byLength = true) : i.Own b ↔ i.LengthOk b := by
  have hcases : i = .addtlProtCfgOpts ∨ i = .extndedProtCfgOpts ∨ i = .protCfgOpts := by
    cases i <;> simp_all [Ie.byLength]
  rcases hcases with rfl | rfl | rfl <;>
    · rw [Ie.Own, show (format.leaf _).fields b = (Ie.layout _).fields b from rfl,
        Ie.within_iff (by simp)]
      simp [Ie.LengthOk, Ie.Fits, Ie.width, Ie.widths, Ie.more]
      omega

theorem Ie.leaf_eq (hpco : i ≠ .pco) : format.leaf i = i.layout.leaf := by
  cases i <;> first | rfl | exact absurd rfl hpco

/-- **An element is decoded from all its octets and no others, and no array is overrun, exactly with
these lengths; and no element takes more octets than it has without reading beyond them.** -/
theorem Ie.own_size (hlen : 4 + b.bits 8 16 < 65536) :
    (i.LengthOk b ↔ i.Own b ∧ (format.leaf i).size b = 4 + b.bits 8 16) ∧
      (i.Own b → (format.leaf i).size b ≤ 4 + b.bits 8 16) := by
  by_cases hpco : i = .pco
  · subst hpco
    have hsize : (format.leaf .pco).size b = 4 + b.bits 8 16 := rfl
    exact ⟨by rw [← own_pco hlen, hsize, and_iff_left rfl], fun _ => hsize.le⟩
  have hsize : (format.leaf i).size b = i.layout.size b := by rw [leaf_eq hpco]; rfl
  by_cases hby : i.byLength = true
  · have hsize : (format.leaf i).size b = 4 + b.bits 8 16 := hsize.trans (if_pos hby)
    exact ⟨by rw [← own_byLength hby, hsize, and_iff_left rfl], fun _ => hsize.le⟩
  have hsize : (format.leaf i).size b = i.layout.total b % 65536 / 8 := hsize.trans (if_neg hby)
  by_cases himsi : i = .imsi
  · subst himsi
    have htotal : (layout .imsi).total b = 32 + 0 + 8 * b.bits 8 16 := rfl
    have hok : LengthOk b .imsi → (format.leaf .imsi).size b = 4 + b.bits 8 16 := by
      simp only [LengthOk]
      omega
    exact ⟨⟨fun h => ⟨own_imsi.mpr h, hok h⟩, fun h => own_imsi.mp h.1⟩, fun _ => by omega⟩
  rw [total_eq himsi] at hsize
  have hown : i.Own b ↔ 32 + i.width b ≤ 8 * (4 + b.bits 8 16) ∧ i.Fits b := by
    rw [Own, leaf_eq hpco]
    exact and_congr_left fun _ => within_iff himsi
  obtain ⟨hiff, hshort, -⟩ := width_spec hpco himsi (Bool.not_eq_true _ ▸ hby) (b := b)
  refine ⟨⟨fun h => ?_, fun ⟨h, heq⟩ => ?_⟩, fun h => ?_⟩
  · obtain ⟨hwidth, hfits⟩ := hiff.mp h
    have := hshort h
    exact ⟨hown.mpr ⟨by omega, hfits⟩, by omega⟩
  · obtain ⟨hle, hfits⟩ := hown.mp h
    exact hiff.mpr ⟨by omega, hfits⟩
  · have := (hown.mp h).1
    omega

/-- The length of an element that is copied by it is below 8188. -/
def Ie.Short (i : Ie) (b : Buffer) : Prop := i.copied = true → b.bits 8 16 < 8188

theorem Ie.size_pos (h : i.Short b) : 0 < (format.leaf i).size b := by
  by_cases hpco : i = .pco
  · subst hpco
    exact (by omega : 0 < 4 + b.bits 8 16)
  rw [leaf_eq hpco]
  change 0 < i.layout.size b
  by_cases hby : i.byLength = true
  · exact (by omega : 0 < 4 + b.bits 8 16).trans_eq (if_pos hby).symm
  suffices hmod : 8 ≤ i.layout.total b % 65536 by
    rw [Layout.size, if_neg (show ¬i.layout.byLength = true from hby)]
    omega
  by_cases himsi : i = .imsi
  · subst himsi
    have hlen := h rfl
    have htotal : (layout .imsi).total b = 32 + 0 + 8 * b.bits 8 16 := rfl
    omega
  rw [total_eq himsi]
  cases hcopied : i.copied with
  | false =>
    have := (width_spec hpco himsi (Bool.not_eq_true _ ▸ hby) (b := b)).2.2 hcopied
    omega
  | true =>
    have hlen := h hcopied
    cases i with
    | pdnAddrAlloc =>
      have hminus := lenMinusOne_cases (b.bits_lt 8 16)
      rw [width_pdnAddrAlloc]
      omega
    | accPtName | epsBearerLvlTrafficFlowTmpl | fullyQualDomainName | msisdn =>
      simp only [width, widths, more, lenOf_values, List.sum_cons, List.sum_nil]
      omega
    | imsi => exact absurd rfl himsi
    | _ => cases hcopied

end Gtp

namespace Pfcp

/-- The octets that an element is taken off with, behind its header. -/
def Ie.octets (b : Buffer) : Ie → ℕ
  | .appInstId | .cause | .cpFuncFeat | .metric | .ociFlags | .reportType | .timer | .trafficEndptId
  | .usageInfo => 1
  | .addUsageRptsInfo | .offendingIe | .pdrId => 2
  | .dnlnkDataSvcInfo | .usageRptTrig => 3
  | .durMeas | .endTime | .evntTimeStmp | .flowInfo | .queryUrrRef | .rcvryTimeStmp
  | .sequenceNumber | .startTime | .timeOfFrstPckt | .timeOfLstPckt | .urrId | .urseqn => 4
  | .applicationId => 8
  | .macAddrsDetctd | .macAddrsRmvd => 9
  | .ntwkInst => 32
  | .nodeId => 1 + lenMinusOne (b.bits 16 16)
  | .upFuncFeat => 2 + (if 2 < b.bits 16 16 then 2 else 0) + if 4 < b.bits 16 16 then 2 else 0
  | .fqcsid => 5 + 2 * b.bits 36 4
  | .failedRuleId => if b.bits 35 5 = 0 then 3 else if b.bits 35 5 = 4 then 2 else 5
  | .fseid => 9 + 4 * b.bits 38 1 + 16 * b.bits 39 1
  | .fteid => if b.bits 37 1 = 0 then 5 + 4 * b.bits 39 1 + 16 * b.bits 38 1 else 2
  | .ueIpAddress => 1 + 4 * b.bits 38 1 + 16 * b.bits 39 1 + b.bits 36 1
  | .userPlaneIpRsrcInfo =>
    let octets := 1 + (if b.bits 35 3 = 0 then 0 else 1) + 4 * b.bits 39 1 + 16 * b.bits 38 1
    octets + b.bits 34 1 * (1 + b.bits (32 + 8 * octets) 8) + b.bits 33 1
  | .volMeas => if b.bits 39 1 = 1 then 25 else if b.bits 38 1 = 1 then 17
      else if b.bits 37 1 = 1 then 9 else 1

/-- The lengths with which an element is taken off with its own octets. -/
def Ie.Sized (b : Buffer) : Ie → Prop
  | .nodeId => b.bits 16 16 < 8188
  | i => b.bits 16 16 = i.octets b

variable {b : Buffer} {i : Ie}

theorem bit_cases (b : Buffer) (k : ℕ) : b.bits k 1 = 0 ∨ b.bits k 1 = 1 := by
  have := b.bits_lt k 1
  omega
theorem total_nodeId : (Ie.layout .nodeId).total b = 40 + 8 * lenMinusOne (b.bits 16 16) := rfl

theorem Ie.total_spec (hi : i ≠ .nodeId) :
    i.layout.total b / 8 = 4 + i.octets b ∧ i.layout.total b < 65536 := by
  have hvalues : i.layout.values b = valuesOf b (fieldsAt 0 i.layout.first) := rfl
  rw [Layout.total, hvalues]
  cases i with
  | nodeId => exact absurd rfl hi
  | fqcsid =>
    have hn : b.bits 36 4 < 2 ^ 4 := b.bits_lt 36 4
    have htotal : (layout .fqcsid).total b = 72 + (List.replicate (b.bits 36 4) 16).sum :=
      Part.total_bits _
    change (layout .fqcsid).total b / 8 = _ ∧ (layout .fqcsid).total b < _
    simp only [htotal, octets, List.sum_replicate_nat]
    omega
  | userPlaneIpRsrcInfo =>
    have hn (k : ℕ) : b.bits k 8 < 2 ^ 8 := b.bits_lt _ 8
    rcases bit_cases b 33 with h | h <;> rcases bit_cases b 34 with h' | h' <;>
      rcases bit_cases b 38 with h₂ | h₂ <;> rcases bit_cases b 39 with h₃ | h₃ <;>
      by_cases h₄ : b.bits 35 3 = 0 <;>
      simp [octets, layout, ieHeader, widths, rest, valuesOf, fieldsAt, ifSet, Part.total, h, h', h₂, h₃,
        h₄] <;>
      grind
  | fseid | fteid | ueIpAddress | volMeas =>
    rcases bit_cases b 36 with h | h <;> rcases bit_cases b 37 with h' | h' <;>
      rcases bit_cases b 38 with h₂ | h₂ <;> rcases bit_cases b 39 with h₃ | h₃ <;>
      simp [octets, layout, ieHeader, widths, rest, valuesOf, fieldsAt, ifSet, Part.total, h, h', h₂, h₃]
  | _ =>
    simp [octets, layout, ieHeader, widths, rest, valuesOf, fieldsAt, Part.total, lenOf] <;>
      (try split_ifs) <;> simp [Part.total] <;> omega

/-- **An element is taken off with its own octets exactly with these lengths.** -/
theorem Ie.sized_iff : i.Sized b ↔ (format.leaf i).size b = 4 + b.bits 16 16 := by
  have hsize : (format.leaf i).size b = i.layout.total b % 65536 / 8 := rfl
  by_cases hi : i = .nodeId
  · subst hi
    have hminus := lenMinusOne_cases (b.bits_lt 16 16)
    rw [hsize, total_nodeId, Sized]
    omega
  · obtain ⟨htotal, hlt⟩ := total_spec hi (b := b)
    have hsized : i.Sized b ↔ b.bits 16 16 = i.octets b := by
      cases i <;> first | exact Iff.rfl | exact absurd rfl hi
    rw [hsize, Nat.mod_eq_of_lt hlt, htotal, hsized]
    omega

/-- A Node ID, which is copied by its length, has less than 8188 octets. -/
def Ie.Short (i : Ie) (b : Buffer) : Prop := i = .nodeId → b.bits 16 16 < 8188

theorem Ie.size_pos (h : i.Short b) : 0 < (format.leaf i).size b := by
  have hsize : (format.leaf i).size b = i.layout.total b % 65536 / 8 := rfl
  have hle : 32 ≤ i.layout.total b := by
    refine le_trans ?_ (Part.le_total _)
    simp only [layout, ieHeader, List.cons_append, List.nil_append, List.sum_cons]
    omega
  by_cases hi : i = .nodeId
  · have hlen := h hi
    subst hi
    have hminus := lenMinusOne_cases (b.bits_lt 16 16)
    rw [hsize, total_nodeId]
    omega
  · have := (total_spec hi (b := b)).2
    omega

end Pfcp

end Spgw.Codec
