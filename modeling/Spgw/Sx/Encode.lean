/-
# The octets of a Session Establishment Request

`encode_pfcp_sess_estab_req_t` (`libpfcp/src/pfcp_messages_encoder.c`) writes the message that
`fill_pfcp_sess_est_req` has filled into a buffer of 4096 octets (`MAX_PFCP_MSG_SIZE`).
-/

import Spgw.Lib.Emit
import Spgw.Sx.Built

namespace Spgw.Sx

open Emit (Elements packed twoOctets ofTwo)
open Octets (Memory littleEndian)

def Ie.leaf {α : Type} (ie : Ie α) (payload : List UInt8) : Elements :=
  .leaf ie.ieType.value ie.len payload .nil

def Ie.group {α : Type} (ie : Ie α) (inner : Elements) : Elements :=
  .group ie.ieType.value ie.len inner .nil

def flag (b : Bool) : ℕ × ℕ := (1, b.toNat)

def encodeNumberIe (width : ℕ) (ie : Ie ℕ) : Elements := ie.leaf (packed [(width, ie.value)])

def encodePdrIdIe : Ie ℕ → Elements := encodeNumberIe 16

def encodePrecedenceIe : Ie ℕ → Elements := encodeNumberIe 32

def encodeFarIdIe : Ie ℕ → Elements := encodeNumberIe 32

def encodeUrrIdIe : Ie ℕ → Elements := encodeNumberIe 32

def encodeQerIdIe : Ie ℕ → Elements := encodeNumberIe 32

def encodeOuterHdrRemovalIe : Ie ℕ → Elements := encodeNumberIe 8

def encodeSrcIntfcIe (ie : Ie SourceInterface) : Elements :=
  ie.leaf (packed [(4, 0), (4, ie.value.value)])

def encodeDstIntfcIe (ie : Ie ℕ) : Elements := ie.leaf (packed [(4, 0), (4, ie.value)])

def encodePdnTypeIe (ie : Ie ℕ) : Elements := ie.leaf (packed [(5, 0), (3, ie.value)])

def encodeQfiIe (ie : Ie ℕ) : Elements := ie.leaf (packed [(2, 0), (6, ie.value)])

/-- `encode_pfcp_node_id_ie_t` for an IPv4 address. -/
def encodeNodeIdIe (ie : Ie ℕ) : Elements :=
  ie.leaf (packed [(4, 0), (4, 0)] ++ littleEndian 4 ie.value)

/-- `encode_pfcp_fseid_ie_t` with the flag `v4`. -/
def encodeFseidIe (ie : Ie Fseid) : Elements :=
  ie.leaf (packed [(6, 0), flag true, flag false, (64, ie.value.seid)] ++
    littleEndian 4 ie.value.ipv4Address)

def encodeTrcInfoIe (ie : Ie TrcInfo) : Elements :=
  let (mcc1, mcc2, mcc3) := ie.value.mccDigits
  let (mnc1, mnc2, mnc3) := ie.value.mncDigits
  ie.leaf (packed
    [(4, mcc2), (4, mcc1), (4, mnc3), (4, mcc3), (4, mnc2), (4, mnc1), (24, ie.value.traceId),
      (8, ie.value.lenOfTrigrngEvnts), (8, ie.value.trigrngEvnts), (8, ie.value.sessTrcDepth),
      (8, ie.value.lenOfListOfIntfcs), (8, ie.value.listOfIntfcs),
      (8, ie.value.lenOfIpAddrOfTrcCollEnt), (8, ie.value.ipAddrOfTrcCollEnt)])

/-- `encode_pfcp_fteid_ie_t` with the flag `v4`. -/
def encodeFteidIe (ie : Ie Fteid) : Elements :=
  ie.leaf (packed [(4, 0), flag false, flag false, flag false, flag true, (32, ie.value.teid)] ++
    littleEndian 4 ie.value.ipv4Address)

def encodeNtwkInstIe (ie : Ie (List UInt8)) : Elements :=
  ie.leaf ((ie.value ++ List.replicate 32 0).take 32)

def encodeUeIpAddressIe (ie : Ie UeIpAddress) : Elements :=
  ie.leaf (packed ([(3, 0), flag (!ie.value.v4), flag false, flag false, flag ie.value.v4, flag false] ++
    if ie.value.v4 then [(32, ie.value.ipv4Address)] else []))

/-- `encode_pfcp_sdf_filter_ie_t` with the flag `fd`. -/
def encodeSdfFilterIe (ie : Ie (List UInt8)) : Elements :=
  ie.leaf (packed [(3, 0), flag false, flag false, flag false, flag false, flag true, (8, 0),
    (16, ie.value.length)] ++ ie.value)

def encodePdiIe (ie : Ie Pdi) : Elements :=
  ie.group (encodeSrcIntfcIe ie.value.srcIntfc ++ encodeFteidIe ie.value.localFteid ++
    encodeNtwkInstIe ie.value.ntwkInst ++ encodeUeIpAddressIe ie.value.ueIpAddress ++
    .join (ie.value.sdfFilter.map encodeSdfFilterIe))

def encodeCreatePdrIe (ie : Ie CreatePdr) : Elements :=
  ie.group (encodePdrIdIe ie.value.pdrId ++ encodePrecedenceIe ie.value.precedence ++
    encodePdiIe ie.value.pdi ++ encodeOuterHdrRemovalIe ie.value.outerHdrRemoval ++
    encodeFarIdIe ie.value.farId ++ .join (ie.value.urrId.map encodeUrrIdIe) ++
    .join (ie.value.qerId.map encodeQerIdIe))

def encodeApplyActionIe (ie : Ie ApplyAction) : Elements :=
  ie.leaf (packed [(3, 0), flag ie.value.dupl, flag ie.value.nocp, flag ie.value.buff,
    flag ie.value.forw, flag ie.value.drop])

def encodeOuterHdrCreationIe (ie : Ie Fteid) : Elements :=
  ie.leaf (packed [(16, 0x0100), (32, ie.value.teid), (32, ie.value.ipv4Address)])

def encodeFrwdngParmsIe (ie : Ie FrwdngParms) : Elements :=
  ie.group (encodeDstIntfcIe ie.value.dstIntfc ++
    encodeOuterHdrCreationIe ie.value.outerHdrCreation)

def encodeCreateFarIe (ie : Ie CreateFar) : Elements :=
  ie.group (encodeFarIdIe ie.value.farId ++ encodeApplyActionIe ie.value.applyAction ++
    encodeFrwdngParmsIe ie.value.frwdngParms)

def Gate.value : Gate → ℕ
  | .opened => 0
  | .closed => 1

def encodeGateStatusIe (ie : Ie GateStatus) : Elements :=
  ie.leaf (packed [(4, 0), (2, ie.value.ulGate.value), (2, ie.value.dlGate.value)])

/-- `encode_pfcp_mbr_ie_t` and `encode_pfcp_gbr_ie_t`. -/
def encodeBitrateIe (ie : Ie Bitrate) : Elements :=
  ie.leaf (packed [(40, ie.value.ul), (40, ie.value.dl)])

def encodeCreateQerIe (ie : Ie CreateQer) : Elements :=
  ie.group (encodeQerIdIe ie.value.qerId ++ encodeGateStatusIe ie.value.gateStatus ++
    encodeBitrateIe ie.value.maximumBitrate ++ encodeBitrateIe ie.value.guaranteedBitrate ++
    encodeQfiIe ie.value.qosFlowIdent)

def encodeMeasMthdIe (ie : Ie Bool) : Elements :=
  ie.leaf (packed [(5, 0), flag false, flag ie.value, flag false])

def encodeRptngTriggersIe (ie : Ie RptngTriggers) : Elements :=
  ie.leaf (packed [(6, 0), flag ie.value.volth, flag false, (7, 0), flag ie.value.volqu])

/-- `encode_pfcp_vol_thresh_ie_t` and `encode_pfcp_volume_quota_ie_t`. -/
def encodeVolumeIe (ie : Ie Volume) : Elements :=
  ie.leaf (packed ([(5, 0), flag false, flag false, flag ie.value.tovol] ++
    if ie.value.tovol then [(64, ie.value.totalVolume)] else []))

def encodeCreateUrrIe (ie : Ie CreateUrr) : Elements :=
  ie.group (encodeUrrIdIe ie.value.urrId ++ encodeMeasMthdIe ie.value.measMthd ++
    encodeRptngTriggersIe ie.value.rptngTriggers ++ encodeVolumeIe ie.value.volThresh ++
    encodeVolumeIe ie.value.volumeQuota)

/-- `encode_pfcp_header_t` for a request with a SEID, whose length is not known yet. -/
def encodePfcpHeader (req : SessEstabReq) : List UInt8 :=
  packed [(3, 1), (3, 0), flag false, flag true, (8, 50), (16, 0), (64, req.seid), (24, req.seqNo),
    (4, 0), (4, 0)]

def SessEstabReq.elements (req : SessEstabReq) : Elements :=
  encodeNodeIdIe req.nodeId ++ encodeFseidIe req.cpFseid ++ encodePdnTypeIe req.pdnType ++
    encodeTrcInfoIe req.trcInfo ++
    .join ((req.createPdr.take req.createPdrCount).map encodeCreatePdrIe) ++
    .join (req.createFar.map encodeCreateFarIe) ++ .join (req.createUrr.map encodeCreateUrrIe) ++
    .join (req.createQer.map encodeCreateQerIe)

def encodePfcpSessEstabReq (req : SessEstabReq) : Except Fault (Memory × ℕ) :=
  if req.createPdrCount ≤ maxListSize then
    match (do
      let (m, n) ← Elements.put maxPfcpMsgSize (fun _ => 0) 0 (encodePfcpHeader req)
      req.elements.send maxPfcpMsgSize m (n / 8)) with
    | some (m, n) => pure (m, n)
    | none => throw .badPointer
  else
    throw .badPointer

/-- The message as `process_pfcp_sess_est_request` sends it, with its length in the header. -/
def SessEstabReq.message (req : SessEstabReq) : Except Fault (Memory × ℕ) := do
  let (m, n) ← encodePfcpSessEstabReq req
  return (Octets.write m 2 (twoOctets (n - 4)), n)

def isGroup (type : ℕ) : Bool :=
  [IeType.createPdr, .pdi, .createFar, .frwdngParms, .createUrr, .createQer].any
    fun t => t.value == type

def parseMessage (m : Memory) : Option Elements :=
  let length := ofTwo (m 2) (m 3) + 4
  Elements.parse isGroup length (Octets.read m 16 (length - 16))

/-- The message parses back to the request. -/
def SessEstabReq.Faithful (req : SessEstabReq) : Prop :=
  ∃ m n, req.message = .ok (m, n) ∧ Octets.read m 16 (n - 16) = req.elements.octets ∧
    req.elements.WellFormed isGroup ∧ parseMessage m = some req.elements.prune

theorem IeType.value_lt (t : IeType) : t.value < 65536 := by cases t <;> decide

section Lengths

variable {α : Type} {ie : Ie α} {payload : List UInt8} {inner : Elements}

theorem size_leaf : (ie.leaf payload).size = if ie.len = 0 then 0 else ie.size := rfl

theorem size_group : (ie.group inner).size = if ie.len = 0 then 0 else ie.size := rfl

theorem wellFormed_leaf :
    (ie.leaf payload).WellFormed isGroup ↔
      ie.len = 0 ∨ ie.len = payload.length ∧ isGroup ie.ieType.value = false := by
  simp [Ie.leaf, Elements.WellFormed, ie.ieType.value_lt]

theorem wellFormed_group (hlen : ie.len = inner.size) (htype : isGroup ie.ieType.value = true)
    (hinner : inner.WellFormed isGroup) : (ie.group inner).WellFormed isGroup :=
  ⟨.inr ⟨hlen.trans hinner.length_octets.symm, ie.ieType.value_lt, htype, hinner⟩, trivial⟩

theorem wellFormed_join {ies : List (Ie α)} {encode : Ie α → Elements}
    (h : ∀ ie ∈ ies, (encode ie).WellFormed isGroup) :
    (Elements.join (ies.map encode)).WellFormed isGroup := by
  refine Elements.wellFormed_join.2 fun e he => ?_
  obtain ⟨ie, hie, rfl⟩ := List.mem_map.1 he
  exact h ie hie

end Lengths

def IdHeaders (ies : List (Ie ℕ)) : Prop :=
  ∀ ie ∈ ies, ie.len = 0 ∨ ie.len = 4 ∧ isGroup ie.ieType.value = false

section Ids

variable {ies : List (Ie ℕ)}

theorem idHeaders_fillIds {ie : Ie ℕ} (hlen : ie.len = 4) (htype : isGroup ie.ieType.value = false)
    (n : ℕ) (ids : List ℕ) : IdHeaders (fillIds (List.replicate n ie) ids) := by
  intro x hx
  obtain ⟨id, -, rfl⟩ := List.mem_map.1 hx
  by_cases hn : id.2 < n
  · right
    simp [hn, hlen, htype]
  · left
    simp [hn]

theorem IdHeaders.wellFormed (h : IdHeaders ies) :
    (Elements.join (ies.map (encodeNumberIe 32))).WellFormed isGroup := by
  refine wellFormed_join fun ie hie => ?_
  exact wellFormed_leaf.2 ((h ie hie).imp_right fun h => ⟨by simp [h.1], h.2⟩)

theorem IdHeaders.size (h : IdHeaders ies) :
    (Elements.join (ies.map (encodeNumberIe 32))).size = (refs ies).length * 8 := by
  induction ies with
  | nil => rfl
  | cons ie ies ih =>
    have hie := h ie List.mem_cons_self
    rw [List.map_cons, Elements.join, Elements.size_append,
      ih fun x hx => h x (List.mem_cons_of_mem _ hx)]
    unfold refs
    rcases hie with hlen | ⟨hlen, -⟩
    · simp [encodeNumberIe, size_leaf, hlen]
    · simp [encodeNumberIe, size_leaf, hlen, Ie.size, ieHeaderSize]
      omega

end Ids

theorem wellFormed_sdfFilter (flows : List (List UInt8)) :
    (Elements.join ((flows.map sdfFilterOf).map encodeSdfFilterIe)).WellFormed isGroup := by
  refine wellFormed_join fun ie hie => ?_
  obtain ⟨flow, -, rfl⟩ := List.mem_map.1 hie
  refine wellFormed_leaf.2 (.inr ⟨?_, rfl⟩)
  simp [sdfFilterOf, flag]

theorem size_sdfFilter (flows : List (List UInt8)) :
    (Elements.join ((flows.map sdfFilterOf).map encodeSdfFilterIe)).size = sdfSize flows := by
  rw [Elements.size_join, sdfSize, List.map_map, List.map_map]
  refine congrArg List.sum (List.map_congr_left fun flow _ => ?_)
  change (if 2 + 2 + flow.length = 0 then 0 else (sdfFilterOf flow).size) + 0 = _
  rw [if_neg (by omega), Nat.add_zero]

section Pdrs

variable {urr control : Bool} {pdr : Pdr}

theorem pdi_createPdrOf_access (h : pdr.srcIntfc = .access) :
    (createPdrOf urr control pdr).value.pdi =
      { ieType := .pdi
        len := 18 + sdfSize (pdr.dynamicRule.flowsFor .access)
        value :=
          { srcIntfc := { setSourceIntf with value := .access }
            localFteid := { setFteid with value := pdr.localFteid }
            ntwkInst := { setNetworkInstance with len := 0 }
            ueIpAddress := { setUeIp control with len := 0 }
            sdfFilter := (pdr.dynamicRule.flowsFor .access).map sdfFilterOf } } := by
  unfold createPdrOf draftCreatePdr
  rw [h]
  cases control <;> rfl

theorem pdi_createPdrOf_core (h : pdr.srcIntfc = .core) :
    (createPdrOf urr control pdr).value.pdi =
      { ieType := .pdi
        len := 41 + (setUeIp control).size + sdfSize (pdr.dynamicRule.flowsFor .core)
        value :=
          { srcIntfc := { setSourceIntf with value := .core }
            localFteid := { setFteid with len := 0 }
            ntwkInst := { setNetworkInstance with value := pdr.ntwkInst }
            ueIpAddress := { setUeIp control with value.ipv4Address := pdr.ueAddr }
            sdfFilter := (pdr.dynamicRule.flowsFor .core).map sdfFilterOf } } := by
  unfold createPdrOf draftCreatePdr
  rw [h]
  cases control <;> rfl

theorem wellFormed_pdi :
    (encodePdiIe (createPdrOf urr control pdr).value.pdi).WellFormed isGroup := by
  cases h : pdr.srcIntfc with
  | access =>
    rw [pdi_createPdrOf_access h]
    refine wellFormed_group ?_ rfl ?_
    · simp only [Elements.size_append, size_sdfFilter]
      rfl
    · simp only [Elements.wellFormed_append, wellFormed_sdfFilter, and_true]
      refine ⟨⟨⟨?_, ?_⟩, ?_⟩, ?_⟩
      · exact wellFormed_leaf.2 (.inr ⟨by simp [setSourceIntf], rfl⟩)
      · exact wellFormed_leaf.2 (.inr ⟨by simp [setFteid, flag], rfl⟩)
      · exact wellFormed_leaf.2 (.inl rfl)
      · exact wellFormed_leaf.2 (.inl rfl)
  | core =>
    rw [pdi_createPdrOf_core h]
    refine wellFormed_group ?_ rfl ?_
    · simp only [Elements.size_append, size_sdfFilter]
      cases control <;> rfl
    · simp only [Elements.wellFormed_append, wellFormed_sdfFilter, and_true]
      refine ⟨⟨⟨?_, ?_⟩, ?_⟩, ?_⟩
      · exact wellFormed_leaf.2 (.inr ⟨by simp [setSourceIntf], rfl⟩)
      · exact wellFormed_leaf.2 (.inl rfl)
      · exact wellFormed_leaf.2 (.inr ⟨by simp [setNetworkInstance], rfl⟩)
      · cases control
        · exact wellFormed_leaf.2 (.inr ⟨by simp [setUeIp, flag], rfl⟩)
        · exact wellFormed_leaf.2 (.inr ⟨by simp [setUeIp, flag], rfl⟩)

theorem createPdrOf_simple :
    (createPdrOf urr control pdr).ieType = .createPdr ∧
    (createPdrOf urr control pdr).value.pdrId = { setPdrId with value := pdr.ruleId } ∧
    (createPdrOf urr control pdr).value.precedence =
      { setPrecedence with value := pdr.prcdncVal } ∧
    (createPdrOf urr control pdr).value.outerHdrRemoval =
      (match pdr.srcIntfc with
        | .access => setOuterHdrRemoval
        | .core => { value := 0 }) ∧
    (createPdrOf urr control pdr).value.farId =
      { setFarId with value := pdr.far.farIdValue } := by
  unfold createPdrOf draftCreatePdr
  cases pdr.srcIntfc <;> exact ⟨rfl, rfl, rfl, rfl, rfl⟩

theorem len_createPdrOf :
    (createPdrOf urr control pdr).len =
      setPdrId.size + setPrecedence.size + (createPdrOf urr control pdr).value.pdi.size +
        (match pdr.srcIntfc with
          | .access => setOuterHdrRemoval.size
          | .core => 0) +
        setFarId.size + (if urr then 8 else 0) + pdr.qerIds.length * 8 := by
  cases h : pdr.srcIntfc with
  | access =>
    rw [pdi_createPdrOf_access h]
    unfold createPdrOf draftCreatePdr
    rw [h]
    cases control <;> cases urr <;>
      simp only [Ie.withRefs, Ie.withFilters, Ie.asAccess, creatingPdr, setPdi, Ie.size, setUeIp,
        setPdrId, setPrecedence, setSourceIntf, setFteid, setNetworkInstance, setOuterHdrRemoval, setFarId,
        setQerId, setUrrId, ieHeaderSize, if_true, Bool.false_eq_true, if_false] <;> omega
  | core =>
    rw [pdi_createPdrOf_core h]
    unfold createPdrOf draftCreatePdr
    rw [h]
    cases control <;> cases urr <;>
      simp only [Ie.withRefs, Ie.withFilters, Ie.asCore, creatingPdr, setPdi, Ie.size, setUeIp,
        setPdrId, setPrecedence, setSourceIntf, setFteid, setNetworkInstance, setFarId,
        setQerId, setUrrId, ieHeaderSize, if_true, Bool.false_eq_true, if_false] <;> omega

theorem wellFormed_createPdr (hurr : urr = true → pdr.urrIds ≠ []) :
    (encodeCreatePdrIe (createPdrOf urr control pdr)).WellFormed isGroup := by
  have hqer : IdHeaders (createPdrOf urr control pdr).value.qerId := by
    rw [qerId_createPdrOf]
    exact idHeaders_fillIds rfl rfl _ _
  have hurrs : IdHeaders (createPdrOf urr control pdr).value.urrId := by
    rw [urrId_createPdrOf]
    split_ifs
    · exact idHeaders_fillIds rfl rfl _ _
    · exact fun ie hie => absurd hie List.not_mem_nil
  have hcount : (if urr then pdr.urrIds.take 1 else []).length * 8 =
      if urr then 8 else 0 := by
    cases urr with
    | true =>
      have hpos := List.length_pos_of_ne_nil (hurr rfl)
      rw [if_pos rfl, if_pos rfl, List.length_take, Nat.min_eq_left hpos]
    | false => rfl
  obtain ⟨htype, hid, hprecedence, hremoval, hfar⟩ :=
    @createPdrOf_simple urr control pdr
  have hpdi : 0 < (createPdrOf urr control pdr).value.pdi.len := by
    cases h : pdr.srcIntfc with
    | access =>
      rw [pdi_createPdrOf_access h]
      exact Nat.add_pos_left (by decide) _
    | core =>
      rw [pdi_createPdrOf_core h]
      exact Nat.add_pos_left (Nat.add_pos_left (by decide) _) _
  refine wellFormed_group ?_ (by rw [htype]; rfl) ?_
  · have hsizes := hurrs.size
    have hsizes' := hqer.size
    rw [refs_urrId_createPdrOf, hcount] at hsizes
    rw [refs_qerId_createPdrOf] at hsizes'
    unfold encodeUrrIdIe encodeQerIdIe
    simp only [Elements.size_append]
    rw [hsizes, hsizes', len_createPdrOf, hid, hprecedence, hremoval, hfar, encodePdiIe, size_group,
      if_neg hpdi.ne']
    cases pdr.srcIntfc <;> rfl
  · simp only [Elements.wellFormed_append]
    rw [hid, hprecedence, hremoval, hfar]
    refine ⟨⟨⟨⟨⟨⟨?_, ?_⟩, wellFormed_pdi⟩, ?_⟩, ?_⟩, hurrs.wellFormed⟩, hqer.wellFormed⟩
    · exact wellFormed_leaf.2 (.inr ⟨by simp [setPdrId], rfl⟩)
    · exact wellFormed_leaf.2 (.inr ⟨by simp [setPrecedence], rfl⟩)
    · cases pdr.srcIntfc with
      | access => exact wellFormed_leaf.2 (.inr ⟨by simp [setOuterHdrRemoval], rfl⟩)
      | core => exact wellFormed_leaf.2 (.inl rfl)
    · exact wellFormed_leaf.2 (.inr ⟨by simp [setFarId], rfl⟩)

end Pdrs

theorem wellFormed_createFar (pdr : Pdr) :
    (encodeCreateFarIe (fillCreateFar pdr)).WellFormed isGroup := by
  unfold fillCreateFar
  cases pdr.srcIntfc <;>
    · refine wellFormed_group rfl rfl ?_
      simp only [Elements.wellFormed_append]
      refine ⟨⟨?_, ?_⟩, wellFormed_group rfl rfl ?_⟩ <;>
        simp [Elements.wellFormed_append, encodeFarIdIe, encodeNumberIe, encodeApplyActionIe,
          encodeDstIntfcIe, encodeOuterHdrCreationIe, wellFormed_leaf, creatingFar, setFarId,
          setApplyAction, setForwardingParam, setDestinationInterface, setOuterHeaderCreation,
          flag] <;> decide

theorem wellFormed_createQer (rule : DynamicRule) (id : ℕ) (qer : Qer) :
    (encodeCreateQerIe (fillCreateQer rule id qer)).WellFormed isGroup := by
  refine wellFormed_group rfl rfl ?_
  simp [Elements.wellFormed_append, wellFormed_leaf, fillCreateQer, creatingQer, encodeQerIdIe,
    encodeNumberIe, encodeGateStatusIe, encodeBitrateIe, encodeQfiIe, setQerId, setGateStatus, setMbr,
    setGbr, setQfi]
  decide

theorem wellFormed_createUrr (id : ℕ) :
    (encodeCreateUrrIe (fillCreateUrr id)).WellFormed isGroup := by
  refine wellFormed_group rfl rfl ?_
  simp [Elements.wellFormed_append, wellFormed_leaf, fillCreateUrr, creatingUrr, encodeUrrIdIe,
    encodeNumberIe, encodeMeasMthdIe, encodeRptngTriggersIe, encodeVolumeIe, setUrrId,
    setMeasurementMethod, setReportingTriggers, setVolumeThreshold, setVolumeQuota, flag]
  decide

theorem not_wellFormed_trcInfo : ¬ (encodeTrcInfoIe setTraceInfo).WellFormed isGroup := by
  rw [encodeTrcInfoIe, wellFormed_leaf]
  rintro (hzero | ⟨hlen, -⟩)
  · exact absurd hzero (by decide)
  · rw [Emit.length_packed] at hlen
    exact absurd hlen (by decide)

theorem Attach.urrIds_ne_nil {a : Attach} (hurr : a.cfg.urrEnable = true) {teid : ℕ}
    {entries : List HeldRule} {qers urrs : List ℕ} :
    ∀ pdr ∈ a.pdrsFrom teid qers urrs entries, pdr.urrIds ≠ [] := by
  have hone : ∀ qers urrs iface ids rule,
      (a.pdrOf teid qers urrs iface ids rule).urrIds ≠ [] := by
    intro qers urrs iface ids rule
    simp [Attach.pdrOf, fillPdrEntry, hurr]
  induction entries generalizing qers urrs with
  | nil => exact fun pdr hpdr => absurd hpdr List.not_mem_nil
  | cons e entries ih =>
    intro pdr hpdr
    rw [Attach.pdrsFrom, List.mem_cons, List.mem_cons] at hpdr
    rcases hpdr with rfl | rfl | hpdr
    · exact hone _ _ _ _ _
    · exact hone _ _ _ _ _
    · exact ih pdr hpdr

section Message

variable {a : Attach} {f : Fill} {s : Spread} {req : SessEstabReq}

theorem Finished.urrIds_ne_nil (h : Finished a f s) (hurr : a.cfg.urrEnable = true) :
    ∀ pdr ∈ f.placed.map Prod.snd, pdr.urrIds ≠ [] := by
  intro pdr hpdr
  obtain ⟨i, teid, pdr, hfrom, rfl⟩ := h.exists_of_mem_placed hpdr
  rw [urrIds_fix]
  exact Attach.urrIds_ne_nil hurr pdr hfrom

/-- The elements in front of the PDRs. -/
theorem first_eq (hmade : a.Builds f req) :
    req.nodeId = setNodeId a.cfg.pfcpIp ∧ req.cpFseid = setFseid a.pdn.seids.seid a.cfg.pfcpIp ∧
      req.pdnType = setPdnType a.pdn.pdnTypeIpv4 ∧
      req.trcInfo = if a.upf.upTrace then setTraceInfo else { value := {} } :=
  ⟨congrArg SessEstabReq.nodeId hmade.header, congrArg SessEstabReq.cpFseid hmade.header,
    congrArg SessEstabReq.pdnType hmade.header, congrArg SessEstabReq.trcInfo hmade.header⟩

/-- **The lengths in the message are those of its octets, unless there is trace information.** -/
theorem wellFormed_elements (h : Finished a f s)
    (hmade : a.Builds f req) :
    req.elements.WellFormed isGroup ↔ a.upf.upTrace = false := by
  obtain ⟨hnodeId, hcpFseid, hpdnType, htrcInfo⟩ := first_eq hmade
  have hnode : (encodeNodeIdIe req.nodeId).WellFormed isGroup := by
    rw [hnodeId]
    exact wellFormed_leaf.2 (.inr ⟨by simp [setNodeId], rfl⟩)
  have hseid : (encodeFseidIe req.cpFseid).WellFormed isGroup := by
    rw [hcpFseid]
    exact wellFormed_leaf.2 (.inr ⟨by simp [setFseid, flag], rfl⟩)
  have htype : (encodePdnTypeIe req.pdnType).WellFormed isGroup := by
    rw [hpdnType]
    exact wellFormed_leaf.2 (.inr ⟨by simp [setPdnType], rfl⟩)
  have htrace : (encodeTrcInfoIe req.trcInfo).WellFormed isGroup ↔ a.upf.upTrace = false := by
    rw [htrcInfo]
    cases a.upf.upTrace with
    | true => exact iff_of_false not_wellFormed_trcInfo (by simp)
    | false => exact iff_of_true (wellFormed_leaf.2 (.inl rfl)) rfl
  have hpdr : (Elements.join ((req.createPdr.take req.createPdrCount).map encodeCreatePdrIe)).WellFormed
      isGroup := by
    refine wellFormed_join fun ie hie => ?_
    have hmem := List.mem_of_mem_take hie
    rw [hmade.createPdr] at hmem
    obtain ⟨pdr, hpdr, rfl⟩ := List.mem_map.1 hmem
    exact wellFormed_createPdr fun hurr => h.urrIds_ne_nil hurr pdr hpdr
  have hfar : (Elements.join (req.createFar.map encodeCreateFarIe)).WellFormed isGroup := by
    refine wellFormed_join fun ie hie => ?_
    rw [hmade.createFar] at hie
    obtain ⟨pdr, -, rfl⟩ := List.mem_map.1 hie
    exact wellFormed_createFar pdr
  have hurr : (Elements.join (req.createUrr.map encodeCreateUrrIe)).WellFormed isGroup := by
    refine wellFormed_join fun ie hie => ?_
    rw [hmade.createUrr] at hie
    split_ifs at hie
    · obtain ⟨id, -, rfl⟩ := List.mem_map.1 hie
      exact wellFormed_createUrr id
    · exact absurd hie List.not_mem_nil
  have hqer : (Elements.join (req.createQer.map encodeCreateQerIe)).WellFormed isGroup := by
    refine wellFormed_join fun ie hie => ?_
    obtain ⟨rule, id, qer, rfl⟩ := hmade.filled_qer ie hie
    exact wellFormed_createQer rule id qer
  unfold SessEstabReq.elements
  simp only [Elements.wellFormed_append, hnode, hseid, htype, htrace, hpdr, hfar, hurr, hqer, true_and,
    and_true]

def SessEstabReq.written (req : SessEstabReq) : Memory :=
  Octets.write (Octets.write (fun _ => 0) 0 (encodePfcpHeader req)) 16 req.elements.octets

theorem message_eq_ok {m : Memory} {n : ℕ} :
    req.message = .ok (m, n) ↔
      (req.createPdrCount ≤ maxListSize ∧ 16 + req.elements.octets.length ≤ maxPfcpMsgSize) ∧
        n = 16 + req.elements.octets.length ∧
        m = Octets.write req.written 2 (twoOctets (n - 4)) := by
  have hlength : (encodePfcpHeader req).length = 16 := by simp [encodePfcpHeader, flag]
  have hheader : Elements.put maxPfcpMsgSize (fun _ => 0) 0 (encodePfcpHeader req) =
      some (Octets.write (fun _ => 0) 0 (encodePfcpHeader req), 128) := by
    rw [Elements.put, hlength, if_pos (by decide)]
  have hsend : req.elements.send maxPfcpMsgSize
      (Octets.write (fun _ => 0) 0 (encodePfcpHeader req)) (128 / 8) =
        if 16 + req.elements.octets.length ≤ maxPfcpMsgSize then
          some (req.written, 16 + req.elements.octets.length)
        else none :=
    Elements.send_eq (by decide) req.elements _ 16 (by decide)
  unfold SessEstabReq.message encodePfcpSessEstabReq
  rw [hheader, Option.bind_eq_bind, Option.bind_some]
  dsimp only
  rw [hsend]
  by_cases hcount : req.createPdrCount ≤ maxListSize
  · rw [if_pos hcount]
    by_cases hroom : 16 + req.elements.octets.length ≤ maxPfcpMsgSize
    · rw [if_pos hroom, and_iff_right ⟨hcount, hroom⟩]
      constructor
      · intro h
        cases Except.ok.inj h
        exact ⟨rfl, rfl⟩
      · rintro ⟨rfl, rfl⟩
        rfl
    · rw [if_neg hroom]
      constructor
      · intro h
        cases h
      · exact fun h => absurd h.1.2 hroom
  · rw [if_neg hcount]
    constructor
    · intro h
      cases h
    · exact fun h => absurd h.1.1 hcount

theorem read_written (bs : List UInt8) (h : bs.length = 2) :
    Octets.read (Octets.write req.written 2 bs) 16 req.elements.octets.length =
      req.elements.octets := by
  have hsame : Octets.read (Octets.write req.written 2 bs) 16 req.elements.octets.length =
      Octets.read req.written 16 req.elements.octets.length :=
    Octets.read_congr fun j hj _ => Octets.write_of_out req.written bs (.inr (by omega))
  rw [hsame]
  exact Octets.read_write _ 16 _

/-- **A message is sent as it should be if its lengths are right and there is room for it.** -/
theorem faithful_iff_wellFormed :
    req.Faithful ↔ req.elements.WellFormed isGroup ∧ req.createPdrCount ≤ maxListSize ∧
      16 + req.elements.size ≤ maxPfcpMsgSize := by
  constructor
  · rintro ⟨m, n, hmessage, -, hwf, -⟩
    obtain ⟨⟨hcount, hroom⟩, -⟩ := message_eq_ok.1 hmessage
    rw [hwf.length_octets] at hroom
    exact ⟨hwf, hcount, hroom⟩
  · rintro ⟨hwf, hcount, hroom⟩
    rw [← hwf.length_octets] at hroom
    have hsmall : 16 + req.elements.octets.length < 65536 := lt_of_le_of_lt hroom (by decide)
    refine ⟨_, _, message_eq_ok.2 ⟨⟨hcount, hroom⟩, rfl, rfl⟩, ?_, hwf, ?_⟩
    · rw [Nat.add_sub_cancel_left]
      exact read_written _ rfl
    · -- The reader finds the length where it has been written.
      unfold parseMessage
      have hlength : ofTwo
          (Octets.write req.written 2 (twoOctets (16 + req.elements.octets.length - 4)) 2)
          (Octets.write req.written 2 (twoOctets (16 + req.elements.octets.length - 4)) 3) + 4 =
            16 + req.elements.octets.length := by
        have hread := Octets.read_write req.written 2
          (twoOctets (16 + req.elements.octets.length - 4))
        obtain ⟨htwo, hthree⟩ := List.cons_eq_cons.1 hread
        rw [htwo, List.head_eq_of_cons_eq hthree, Emit.ofTwo_ofNat (by omega)]
        omega
      dsimp only
      rw [hlength, Nat.add_sub_cancel_left, read_written _ rfl]
      exact Elements.parse_octets hwf (by omega) (by omega)

end Message

end Spgw.Sx
