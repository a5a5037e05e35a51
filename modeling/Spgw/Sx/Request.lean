/-
# The IEs of a PFCP Session Establishment Request

`fill_pfcp_sess_est_req` fills a Create PDR and a Create FAR for every PDR of the bearers, and the
Create QERs and Create URRs these refer to.
-/

import Spgw.Sx.Modify

namespace Spgw.Sx

open Session (deref)

/-- The types of the IEs; `unset` is the type of a header that is still zero. -/
inductive IeType
  | unset
  | createPdr
  | pdi
  | createFar
  | frwdngParms
  | createUrr
  | createQer
  | srcIntfc
  | fteid
  | ntwkInst
  | sdfFilter
  | gateStatus
  | mbr
  | gbr
  | precedence
  | volThresh
  | rptngTriggers
  | destIntrface
  | applyAction
  | pdrId
  | fseid
  | nodeId
  | measMthd
  | volumeQuota
  | urrId
  | outerHdrCreation
  | ueIpAddress
  | outerHdrRemoval
  | farId
  | qerId
  | pdnType
  | qfi
  | trcInfo

/-- `PFCP_IE_CREATE_PDR` … `PFCP_IE_TRC_INFO`. -/
def IeType.value : IeType → ℕ
  | .unset => 0
  | .createPdr => 1
  | .pdi => 2
  | .createFar => 3
  | .frwdngParms => 4
  | .createUrr => 6
  | .createQer => 7
  | .srcIntfc => 20
  | .fteid => 21
  | .ntwkInst => 22
  | .sdfFilter => 23
  | .gateStatus => 25
  | .mbr => 26
  | .gbr => 27
  | .precedence => 29
  | .volThresh => 31
  | .rptngTriggers => 37
  | .destIntrface => 42
  | .applyAction => 44
  | .pdrId => 56
  | .fseid => 57
  | .nodeId => 60
  | .measMthd => 62
  | .volumeQuota => 73
  | .urrId => 81
  | .outerHdrCreation => 84
  | .ueIpAddress => 93
  | .outerHdrRemoval => 95
  | .farId => 108
  | .qerId => 109
  | .pdnType => 113
  | .qfi => 124
  | .trcInfo => 152

/-- An IE: `pfcp_ie_header_t` and the value. -/
structure Ie (α : Type) where
  ieType : IeType := .unset
  len : ℕ := 0
  value : α

/-- `sizeof(pfcp_ie_header_t)`. -/
def ieHeaderSize : ℕ := 4

def Ie.size {α : Type} (ie : Ie α) : ℕ := ie.len + ieHeaderSize

structure UeIpAddress where
  v4 : Bool := false
  ipv4Address : ℕ := 0

structure Pdi where
  srcIntfc : Ie SourceInterface
  localFteid : Ie Fteid
  ntwkInst : Ie (List UInt8)
  ueIpAddress : Ie UeIpAddress
  sdfFilter : List (Ie (List UInt8)) := []

structure CreatePdr where
  pdrId : Ie ℕ
  precedence : Ie ℕ
  pdi : Ie Pdi
  outerHdrRemoval : Ie ℕ
  farId : Ie ℕ
  urrId : List (Ie ℕ)
  qerId : List (Ie ℕ)

structure FrwdngParms where
  dstIntfc : Ie ℕ
  outerHdrCreation : Ie Fteid := { value := {} }

structure CreateFar where
  farId : Ie ℕ
  applyAction : Ie ApplyAction
  frwdngParms : Ie FrwdngParms := { value := { dstIntfc := { value := 0 } } }

/-- `UL_GATE_OPEN`. -/
inductive Gate
  | opened
  | closed

structure GateStatus where
  ulGate : Gate := .opened
  dlGate : Gate := .opened

/-- A bit rate for each direction: `pfcp_mbr_ie_t`, `pfcp_gbr_ie_t`. -/
structure Bitrate where
  ul : ℕ
  dl : ℕ

structure CreateQer where
  qerId : Ie ℕ
  gateStatus : Ie GateStatus
  maximumBitrate : Ie Bitrate
  guaranteedBitrate : Ie Bitrate
  qosFlowIdent : Ie ℕ

structure RptngTriggers where
  volth : Bool := false
  volqu : Bool := false

/-- `pfcp_vol_thresh_ie_t` and `pfcp_volume_quota_ie_t`. -/
structure Volume where
  tovol : Bool := false
  totalVolume : ℕ := 0

structure CreateUrr where
  urrId : Ie ℕ
  measMthd : Ie Bool
  rptngTriggers : Ie RptngTriggers
  volThresh : Ie Volume
  volumeQuota : Ie Volume

def setPdrId : Ie ℕ := { ieType := .pdrId, len := 2, value := 0 }

def setPrecedence : Ie ℕ := { ieType := .precedence, len := 4, value := 0 }

def setFarId : Ie ℕ := { ieType := .farId, len := 4, value := 0 }

def setQerId : Ie ℕ := { ieType := .qerId, len := 4, value := 0 }

def setUrrId : Ie ℕ := { ieType := .urrId, len := 4, value := 0 }

def setSourceIntf : Ie SourceInterface := { ieType := .srcIntfc, len := 1, value := .access }

/-- The address that `set_fteid` and `set_ue_ip` begin with. -/
def placeholderIp : ℕ := (htonl 3232236600).toNat

def setFteid : Ie Fteid := { ieType := .fteid, len := 9, value := ⟨1231, placeholderIp⟩ }

def setNetworkInstance : Ie (List UInt8) :=
  { ieType := .ntwkInst, len := 32, value := List.replicate 32 0 }

def setUeIp (control : Bool) : Ie UeIpAddress :=
  if control then { ieType := .ueIpAddress, len := 5, value := ⟨true, placeholderIp⟩ }
  else { ieType := .ueIpAddress, len := 1, value := ⟨false, 0⟩ }

def setPdi (control : Bool) : Ie Pdi where
  ieType := .pdi
  len := setSourceIntf.size + setFteid.size + setNetworkInstance.size + (setUeIp control).size
  value :=
    { srcIntfc := setSourceIntf
      localFteid := setFteid
      ntwkInst := setNetworkInstance
      ueIpAddress := setUeIp control }

def setOuterHdrRemoval : Ie ℕ := { ieType := .outerHdrRemoval, len := 1, value := 0 }

def creatingPdr (iface : SourceInterface) (control : Bool) (qerIdCount urrIdCount : ℕ) :
    Ie CreatePdr where
  ieType := .createPdr
  len := setPdrId.size + setPrecedence.size + (setPdi control).size + (match iface with
      | .access => setOuterHdrRemoval.size
      | .core => 0) +
    setFarId.size + qerIdCount * setQerId.size + urrIdCount * setUrrId.size
  value :=
    { pdrId := setPdrId
      precedence := setPrecedence
      pdi := setPdi control
      outerHdrRemoval := match iface with
        | .access => setOuterHdrRemoval
        | .core => { value := 0 }
      farId := setFarId
      qerId := List.replicate qerIdCount setQerId
      urrId := List.replicate urrIdCount setUrrId }

def setApplyAction : Ie ApplyAction := { ieType := .applyAction, len := 1, value := {} }

def creatingFar : Ie CreateFar where
  ieType := .createFar
  len := setFarId.size + setApplyAction.len + 4
  value := { farId := setFarId, applyAction := setApplyAction }

def setDestinationInterface : Ie ℕ := { ieType := .destIntrface, len := 1, value := 5 }

def setOuterHeaderCreation : Ie Fteid :=
  { ieType := .outerHdrCreation, len := 2 + 4 + 4, value := {} }

def setForwardingParam : Ie FrwdngParms where
  ieType := .frwdngParms
  len := setDestinationInterface.len + setOuterHeaderCreation.len + 8
  value :=
    { dstIntfc := setDestinationInterface
      outerHdrCreation := setOuterHeaderCreation }

def setGateStatus : Ie GateStatus := { ieType := .gateStatus, len := 1, value := {} }

def setMbr : Ie Bitrate := { ieType := .mbr, len := 10, value := ⟨1, 1⟩ }

def setGbr : Ie Bitrate := { ieType := .gbr, len := 10, value := ⟨1, 1⟩ }

def setQfi : Ie ℕ := { ieType := .qfi, len := 1, value := 3 }

def creatingQer : Ie CreateQer where
  ieType := .createQer
  len := setQerId.size + setGateStatus.size + setMbr.size + setGbr.size + setQfi.size
  value :=
    { qerId := setQerId
      gateStatus := setGateStatus
      maximumBitrate := setMbr
      guaranteedBitrate := setGbr
      qosFlowIdent := setQfi }

def setMeasurementMethod : Ie Bool := { ieType := .measMthd, len := 1, value := false }

def setReportingTriggers : Ie RptngTriggers := { ieType := .rptngTriggers, len := 2, value := {} }

def setVolumeThreshold : Ie Volume := { ieType := .volThresh, len := 9, value := {} }

def setVolumeQuota : Ie Volume := { ieType := .volumeQuota, len := 9, value := {} }

def creatingUrr : Ie CreateUrr where
  ieType := .createUrr
  len := setUrrId.size + setMeasurementMethod.size + setReportingTriggers.size +
    setVolumeThreshold.size + setVolumeQuota.size
  value :=
    { urrId := setUrrId
      measMthd := setMeasurementMethod
      rptngTriggers := setReportingTriggers
      volThresh := setVolumeThreshold
      volumeQuota := setVolumeQuota }

def inBounds (n : ℕ) : Except Fault Unit :=
  if n < maxListSize then pure () else throw .badPointer

theorem inBounds_of_lt {n : ℕ} (h : n < maxListSize) : inBounds n = .ok () := if_pos h

theorem inBounds_bind_eq_ok {α : Type} {n : ℕ} {f : Unit → Except Fault α} {a : α} :
    (inBounds n >>= f) = .ok a ↔ n < maxListSize ∧ f () = .ok a := by
  unfold inBounds
  split_ifs with h
  · exact (and_iff_right h).symm
  · constructor
    · intro heq
      cases heq
    · exact fun hf => absurd hf.1 h

def TftDirection.covers : TftDirection → SourceInterface → Bool
  | .uplinkOnly, .access => true
  | .downlinkOnly, .core => true
  | .bidirectional, _ => true
  | _, _ => false

def DynamicRule.flowsFor (rule : DynamicRule) (iface : SourceInterface) : List (List UInt8) :=
  (rule.flowDesc.filter fun flow => flow.direction.covers iface).map FlowDesc.sdfFlowDescription

/-- The characters of `flow_desc`, with the one that ends it. -/
def flowDescSize : ℕ := 255

def sdfFilterOf (flow : List UInt8) : Ie (List UInt8) :=
  { ieType := .sdfFilter, len := 2 + 2 + flow.length, value := flow }

def sdfPktFilterAdd (ie : Ie CreatePdr) (flow : List UInt8) : Except Fault (Ie CreatePdr) :=
  if ie.value.pdi.value.sdfFilter.length < maxListSize ∧ flow.length < flowDescSize then
    pure { ie with
      len := ie.len + (sdfFilterOf flow).size
      value.pdi.len := ie.value.pdi.len + (sdfFilterOf flow).size
      value.pdi.value.sdfFilter := ie.value.pdi.value.sdfFilter ++ [sdfFilterOf flow] }
  else
    throw .badPointer

def fillSdfRules (ie : Ie CreatePdr) (rule : DynamicRule) (iface : SourceInterface) :
    Except Fault (Ie CreatePdr) :=
  (rule.flowsFor iface).foldlM sdfPktFilterAdd ie

def Ie.asCore (ie : Ie CreatePdr) (pdr : Pdr) : Ie CreatePdr :=
  let sizeTeid := ie.value.pdi.value.localFteid.len + ieHeaderSize
  { ie with
    len := ie.len - sizeTeid
    value.pdi.len := ie.value.pdi.len - sizeTeid
    value.pdi.value.localFteid.len := 0
    value.pdi.value.ueIpAddress.value.ipv4Address := pdr.ueAddr
    value.pdi.value.ntwkInst.value := pdr.ntwkInst }

def Ie.asAccess (ie : Ie CreatePdr) (pdr : Pdr) : Ie CreatePdr :=
  let sizeIe := ie.value.pdi.value.ueIpAddress.len + ieHeaderSize +
    (ie.value.pdi.value.ntwkInst.len + ieHeaderSize)
  { ie with
    len := ie.len - sizeIe
    value.pdi.len := ie.value.pdi.len - sizeIe
    value.pdi.value.localFteid.value := pdr.localFteid
    value.pdi.value.ueIpAddress.len := 0
    value.pdi.value.ntwkInst.len := 0 }

def fillIds (ies : List (Ie ℕ)) (ids : List ℕ) : List (Ie ℕ) :=
  ids.zipIdx.map fun id => { (ies[id.2]?.getD { value := 0 }) with value := id.1 }

def draftCreatePdr (urrEnable control : Bool) (pdr : Pdr) : Ie CreatePdr :=
  let ie := creatingPdr pdr.srcIntfc control pdr.qerIds.length (if urrEnable then 1 else 0)
  let ie := { ie with
    value.pdrId.value := pdr.ruleId
    value.precedence.value := pdr.prcdncVal }
  let ie := match pdr.srcIntfc with
    | .core => ie.asCore pdr
    | .access => ie.asAccess pdr
  { ie with
    value.pdi.value.srcIntfc.value := pdr.srcIntfc
    value.farId.value := pdr.far.farIdValue }

def Ie.withRefs (ie : Ie CreatePdr) (urrEnable : Bool) (pdr : Pdr) : Ie CreatePdr :=
  { ie with
    value.qerId := fillIds ie.value.qerId pdr.qerIds
    value.urrId := if urrEnable then fillIds ie.value.urrId pdr.urrIds else ie.value.urrId }

def fillCreatePdr (urrEnable control : Bool) (pdr : Pdr) : Except Fault (Ie CreatePdr) := do
  let ie ← fillSdfRules (draftCreatePdr urrEnable control pdr) pdr.dynamicRule pdr.srcIntfc
  return ie.withRefs urrEnable pdr

def fillCreateFar (pdr : Pdr) : Ie CreateFar :=
  let ie := creatingFar
  let ie := { ie with value.farId.value := pdr.far.farIdValue }
  match pdr.srcIntfc with
  | .access =>
    let dstIntfc := { setDestinationInterface with value := pdr.far.dstIntfc }
    { ie with
      len := ie.len + (setDestinationInterface.size + updParamHeaderSize)
      value.applyAction.value.forw := true
      value.frwdngParms :=
        { ieType := .frwdngParms, len := setDestinationInterface.size, value := { dstIntfc } } }
  | .core =>
    let parms := setForwardingParam
    { ie with
      len := ie.len + (parms.len + updParamHeaderSize)
      value.applyAction.value.drop := true
      value.frwdngParms := { parms with
        value.outerHdrCreation.value := pdr.far.outerHdrCreation
        value.dstIntfc.value := pdr.far.dstIntfc } }

/-- `isCommonQER` and `isCommonURR`. -/
def isCommon (id : ℕ) : Bool := id &&& 0x30000000 == 0x30000000

structure Qer where
  qerId : ℕ
  qci : ℕ := 0
  maxBitrate : Bitrate
  guaranteedBitrate : Bitrate := ⟨0, 0⟩

theorem no_qers_filed : ∀ e ∈ ([] : List (ℕ × Qer)), e.2.qerId = e.1 := List.forall_mem_nil _

/-- `qerid_qerctxt_hash`. -/
structure QerTable where
  entries : List (ℕ × Qer) := []
  filed : ∀ e ∈ entries, e.2.qerId = e.1 := by first | exact Spgw.Sx.no_qers_filed | decide

namespace QerTable

def getQerEntry (table : QerTable) (id : ℕ) : Option Qer := table.entries.lookup id

def addQerEntry (table : QerTable) (qer : Qer) : QerTable :=
  if (table.getQerEntry qer.qerId).isSome then table
  else
    { entries := (qer.qerId, qer) :: table.entries
      filed := by
        intro e he
        rcases List.mem_cons.1 he with rfl | he
        · rfl
        · exact table.filed e he }

theorem qerId_of_getQerEntry {table : QerTable} {id : ℕ} {qer : Qer}
    (h : table.getQerEntry id = some qer) : qer.qerId = id := by
  obtain ⟨l₁, l₂, heq, -⟩ := List.lookup_eq_some_iff.1 h
  exact table.filed (id, qer) (by simp [heq])

theorem getQerEntry_addQerEntry_self (table : QerTable) (qer : Qer) :
    ((table.addQerEntry qer).getQerEntry qer.qerId).isSome := by
  unfold addQerEntry
  split_ifs with h
  · exact h
  · simp [getQerEntry]

theorem isSome_getQerEntry_addQerEntry {table : QerTable} {id : ℕ} (qer : Qer)
    (h : (table.getQerEntry id).isSome) : ((table.addQerEntry qer).getQerEntry id).isSome := by
  unfold addQerEntry
  split_ifs with hq
  · exact h
  · by_cases hid : id = qer.qerId
    · simp [getQerEntry, hid]
    · simpa [getQerEntry, List.lookup_cons, beq_false_of_ne hid] using h

end QerTable

def fillGateStatus (gates : GateStatus) : ℕ → GateStatus
  | 0 => ⟨.opened, .closed⟩
  | 1 => ⟨.closed, .opened⟩
  | 2 => ⟨.opened, .opened⟩
  | 3 => ⟨.closed, .closed⟩
  | _ => gates

def fillCreateQer (rule : DynamicRule) (id : ℕ) (qer : Qer) : Ie CreateQer :=
  let ie := creatingQer
  let flowStatus := if isCommon qer.qerId then 2 else rule.flowStatus
  { ie with
    value.qerId.value := id
    value.gateStatus.value := fillGateStatus ie.value.gateStatus.value flowStatus
    value.maximumBitrate.value := qer.maxBitrate
    value.guaranteedBitrate.value := qer.guaranteedBitrate
    value.qosFlowIdent.value := qer.qci }

def addCreateQer (table : QerTable) (rule : DynamicRule) (created : List (Ie CreateQer))
    (id : ℕ) : Except Fault (List (Ie CreateQer)) := do
  let qer ← deref (table.getQerEntry id)
  if created.any fun ie => ie.value.qerId.value == qer.qerId then
    return created
  else
    inBounds created.length
    return created ++ [fillCreateQer rule id qer]

def fillCreateUrr (id : ℕ) : Ie CreateUrr :=
  { creatingUrr with
    value.urrId.value := id
    value.measMthd.value := true
    value.rptngTriggers.value := { volth := true, volqu := true }
    value.volThresh.value := { tovol := true, totalVolume := 1000000 }
    value.volumeQuota.value := { tovol := true, totalVolume := 1000000000 } }

def addCreateUrr (created : List (Ie CreateUrr)) (id : ℕ) : Except Fault (List (Ie CreateUrr)) := do
  inBounds created.length
  return created ++ [fillCreateUrr id]

def addCreateUrrs (urrEnable : Bool) (created : List (Ie CreateUrr)) (pdr : Pdr) :
    Except Fault (List (Ie CreateUrr)) :=
  if urrEnable then pdr.urrIds.foldlM addCreateUrr created else pure created

structure TrcInfo where
  mccDigits : ℕ × ℕ × ℕ := (1, 2, 3)
  mncDigits : ℕ × ℕ × ℕ := (4, 5, 6)
  traceId : ℕ := 11231
  lenOfTrigrngEvnts : ℕ := 1
  trigrngEvnts : ℕ := 1
  sessTrcDepth : ℕ := 1
  lenOfListOfIntfcs : ℕ := 1
  listOfIntfcs : ℕ := 1
  lenOfIpAddrOfTrcCollEnt : ℕ := 1
  ipAddrOfTrcCollEnt : ℕ := (htonl 32).toNat % 2 ^ 8

def setTraceInfo : Ie TrcInfo :=
  let info : TrcInfo := {}
  let length := info.lenOfListOfIntfcs + info.lenOfIpAddrOfTrcCollEnt + 14
  { ieType := .trcInfo, len := length, value := { info with lenOfTrigrngEvnts := length } }

def setNodeId (value : ℕ) : Ie ℕ := { ieType := .nodeId, len := 5, value }

/-- The value of `pfcp_fseid_ie_t`. -/
structure Fseid where
  seid : ℕ := 0
  ipv4Address : ℕ := 0

def setFseid (seid value : ℕ) : Ie Fseid := { ieType := .fseid, len := 13, value := ⟨seid, value⟩ }

def setPdnType (ipv4 : Bool) : Ie ℕ :=
  { ieType := .pdnType, len := 1, value := if ipv4 then 1 else 0 }

structure SessEstabReq where
  seid : ℕ := 0
  seqNo : ℕ := 0
  nodeId : Ie ℕ := { value := 0 }
  cpFseid : Ie Fseid := { value := {} }
  pdnType : Ie ℕ := { value := 0 }
  trcInfo : Ie TrcInfo := { value := {} }
  createPdrCount : ℕ := 0
  createPdr : List (Ie CreatePdr) := []
  createFar : List (Ie CreateFar) := []
  createUrr : List (Ie CreateUrr) := []
  createQer : List (Ie CreateQer) := []

def SessEstabReq.addPdr (urrEnable control : Bool) (table : QerTable) (req : SessEstabReq)
    (pdr : Pdr) : Except Fault SessEstabReq := do
  inBounds req.createPdr.length
  let createPdr ← fillCreatePdr urrEnable control pdr
  let createQer ← pdr.qerIds.foldlM (addCreateQer table pdr.dynamicRule) req.createQer
  let createUrr ← addCreateUrrs urrEnable req.createUrr pdr
  return { req with
    createPdr := req.createPdr ++ [createPdr]
    createFar := req.createFar ++ [fillCreateFar pdr]
    createUrr
    createQer }

end Spgw.Sx
