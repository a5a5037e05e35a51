/-
# Filling a PFCP Session Establishment Request

`process_pfcp_sess_est_request` gives the default bearer of a new PDN connection its end of the S1-U
tunnel and calls `fill_pfcp_sess_est_req` (`cp/pfcp/common/pfcp_cp_session.c`).
-/

import Spgw.Sx.Request

namespace Spgw.Sx

open Function

open Session (deref)
open Rar (BearerQos RuleTable maxBearers ruleKey)
open Bearer (Slots)

structure Config where
  gxEnabled : Bool := false
  urrEnable : Bool := false
  pfcpIp : ℕ := 0

structure UpfContext where
  s1uIp : Ipv4 := 0
  upTrace : Bool := false

structure PdnConnection where
  seids : Seids := {}
  callId : ℕ := 0
  defaultBearer : Fin maxBearers
  defaultBearerQos : BearerQos := {}
  apnAmbr : Bitrate := ⟨0, 0⟩
  ipv4 : ℕ := 0
  pdnTypeIpv4 : Bool := true
  addrAllocControl : Bool := true
  ntwkInst : List UInt8 := List.replicate 32 0

/-- `pdr_rule_id_offset` and the counters for FARs, QERs and URRs. -/
structure RuleIds where
  pdr : ℕ := 0
  far : ℕ := 0
  qer : ℕ := 0
  urr : ℕ := 0

def SourceInterface.mark : SourceInterface → ℕ
  | .access => 0x20000000
  | .core => 0x40000000

def commonMark : ℕ := 0x30000000

namespace RuleIds

def generatePdrId (ids : RuleIds) : ℕ := (ids.pdr + 1) % 2 ^ 16

def generateFarId (ids : RuleIds) : ℕ := (ids.far + 1) % 2 ^ 32

def generateQerId (ids : RuleIds) (mark : ℕ) : ℕ := (ids.qer + 1) % 2 ^ 32 ||| mark

def generateUrrId (ids : RuleIds) (mark : ℕ) : ℕ := (ids.urr + 1) % 2 ^ 32 ||| mark

def next (ids : RuleIds) : RuleIds :=
  { pdr := ids.pdr + 1, far := ids.far + 1, qer := ids.qer + 1, urr := ids.urr + 1 }

end RuleIds

/-- The globals behind the TEIDs, and the `teid_bitmap` of the context. -/
structure TeidPool where
  teidRange : ℕ := 0xf0
  sgwGtpcBaseTeid : ℕ := 0xC0FFEE
  sgwGtpcTeidOffset : ℕ := 0
  teidBitmap : ℕ := 0

namespace TeidPool

/-- `__builtin_ffs(~teid_bitmap) - 1`. -/
def index (teids : TeidPool) : ℕ :=
  ((List.range 16).find? fun i => !teids.teidBitmap.testBit i).getD 16

def takeIndex (teids : TeidPool) : TeidPool :=
  { teids with teidBitmap := (teids.teidBitmap ||| 1 <<< teids.index) % 2 ^ 16 }

/-- The identifier that `set_s1u_sgw_gtpu_teid` gives. -/
def s1uSgwGtpuTeid (teids : TeidPool) : ℕ :=
  (teids.sgwGtpcBaseTeid + teids.sgwGtpcTeidOffset) % 2 ^ 24 +
    (teids.teidRange + teids.index) % 2 ^ 8 * 2 ^ 24

/-- The pool after `set_s1u_sgw_gtpu_teid`. -/
def setS1uSgwGtpuTeid (teids : TeidPool) : TeidPool :=
  { teids.takeIndex with sgwGtpcTeidOffset := teids.sgwGtpcTeidOffset + 1 }

end TeidPool

/-- `fill_qer_entry` for a rule. -/
def fillQerEntry (bearer : EpsBearer) (qerId : ℕ) (rule : DynamicRule) : Qer :=
  { qerId
    qci := bearer.qos.qci
    maxBitrate := ⟨rule.ulMbr, rule.dlMbr⟩
    guaranteedBitrate := ⟨rule.ulGbr, rule.dlGbr⟩ }

/-- `fill_qer_entry` for the APN-AMBR. -/
def fillAmbrQerEntry (pdn : PdnConnection) (bearer : EpsBearer) (qerId : ℕ) : Qer :=
  { qerId, qci := bearer.qos.qci, maxBitrate := pdn.apnAmbr }

def fillPdrEntry (cfg : Config) (pdn : PdnConnection) (bearer : EpsBearer)
    (iface : SourceInterface) (ids : RuleIds) (rule : DynamicRule) : Pdr where
  ruleId := ids.generatePdrId
  prcdncVal := rule.precedence
  srcIntfc := iface
  localFteid := match iface with
    | .access => ⟨bearer.s1uSgw.teid, 0⟩
    | .core => {}
  ueAddr := pdn.ipv4
  ntwkInst := pdn.ntwkInst
  far :=
    { farIdValue := ids.generateFarId
      dstIntfc := match iface with
        | .access => SourceInterface.core.value
        | .core => SourceInterface.access.value }
  qerIds := ids.generateQerId iface.mark :: bearer.qerIds.filter isCommon
  urrIds := if cfg.urrEnable then ids.generateUrrId iface.mark :: bearer.urrIds.filter isCommon
    else []
  dynamicRule := rule

def EpsBearer.pushPdr (cfg : Config) (pdn : PdnConnection) (bearer : EpsBearer)
    (iface : SourceInterface) (ids : RuleIds) (rule : DynamicRule)
    (h : bearer.pdrs.length < maxListSize) : EpsBearer :=
  { bearer with
    urrIds := bearer.urrIds ++ [ids.generateUrrId iface.mark]
    qerIds := bearer.qerIds ++ [ids.generateQerId iface.mark]
    pdrs := bearer.pdrs ++ [fillPdrEntry cfg pdn bearer iface ids rule]
    pdrs_le := by
      rw [List.length_append]
      exact h }

/-- A PDR of the rule, in the next place of the array. -/
def EpsBearer.addPdr (cfg : Config) (pdn : PdnConnection) (bearer : EpsBearer)
    (iface : SourceInterface) (ids : RuleIds) (rule : DynamicRule) : Except Fault EpsBearer :=
  if h : bearer.pdrs.length < maxListSize then do
    inBounds bearer.urrIds.length
    inBounds bearer.qerIds.length
    return bearer.pushPdr cfg pdn iface ids rule h
  else
    throw .badPointer

def EpsBearer.addRule (cfg : Config) (pdn : PdnConnection) (bearer : EpsBearer) (ids : RuleIds)
    (rule : DynamicRule) : Except Fault EpsBearer := do
  let bearer ← bearer.addPdr cfg pdn .access ids rule
  let bearer ← bearer.addPdr cfg pdn .core ids.next rule
  return { bearer with numDynamicFilters := bearer.numDynamicFilters + 1 }

/-- The turn of one PDR in `update_pdr_teid`: the F-TEID of a PDR for uplink packets is set. -/
def Pdr.updateTeid (teid : ℕ) (ip : Ipv4) (pdr : Pdr) : Pdr :=
  match pdr.srcIntfc with
  | .access => { pdr with localFteid := ⟨teid, (htonl ip).toNat⟩ }
  | .core => pdr

/-- `update_pdr_teid` for the PDRs for uplink packets. -/
def EpsBearer.updatePdrTeid (bearer : EpsBearer) (teid : ℕ) (ip : Ipv4) : EpsBearer :=
  { bearer with
    pdrs := bearer.pdrs.map (Pdr.updateTeid teid ip)
    pdrs_le := by
      rw [List.length_map]
      exact bearer.pdrs_le }

/-- The variables of `fill_pfcp_sess_est_req`; `bearer` is the slot of the bearer that the last
rule went to. -/
structure Fill where
  epsBearers : Slots EpsBearer
  numBearer : ℕ
  ids : RuleIds
  teids : TeidPool
  qers : QerTable
  rules : RuleTable
  createPdrCount : ℕ := 0
  bearer : Option (Fin maxBearers) := none

def getBearer (bearers : Slots EpsBearer) (qos : BearerQos) : Option (Fin maxBearers) :=
  (List.finRange maxBearers).find? fun i => ((bearers i).map EpsBearer.qos) == some qos

namespace Fill

/-- A dedicated bearer for the QoS in the slot, with `fill_dedicated_bearer_info`. -/
def putBearer (upf : UpfContext) (pdn : PdnConnection) (f : Fill) (slot : Fin maxBearers)
    (qos : BearerQos) : Fill :=
  -- `set_s5s8_pgw_gtpu_teid_using_pdn` comes first and takes an index of its own.
  let teids := f.teids.takeIndex
  let bearer : EpsBearer :=
    { pdn := pdn.seids
      qos
      s1uSgw := ⟨teids.s1uSgwGtpuTeid, upf.s1uIp.toNat⟩ }
  { f with
    epsBearers := update f.epsBearers slot (some bearer)
    numBearer := f.numBearer + 1
    teids := teids.setS1uSgwGtpuTeid }

/-- A dedicated bearer is made in the slot `num_bearer`. -/
def createBearer (cfg : Config) (upf : UpfContext) (pdn : PdnConnection) (f : Fill)
    (qos : BearerQos) : Except Fault (Fill × Fin maxBearers) :=
  if h : f.numBearer < maxBearers ∧ cfg.gxEnabled = false then
    pure (f.putBearer upf pdn ⟨f.numBearer, h.1⟩ qos, ⟨f.numBearer, h.1⟩)
  else
    throw .badPointer

def findBearer (cfg : Config) (upf : UpfContext) (pdn : PdnConnection) (f : Fill)
    (qos : BearerQos) : Except Fault (Fill × Fin maxBearers) :=
  if pdn.defaultBearerQos = qos then
    pure (f, pdn.defaultBearer)
  else
    match getBearer f.epsBearers qos with
    | some slot => pure (f, slot)
    | none => f.createBearer cfg upf pdn qos

def addAmbrQer (cfg : Config) (pdn : PdnConnection) (f : Fill) : Except Fault Fill :=
  if cfg.gxEnabled then do
    let bearer ← deref (f.epsBearers pdn.defaultBearer)
    if bearer.ambrQerFlag then
      return f
    else
      inBounds bearer.qerIds.length
      let qerId := f.ids.generateQerId commonMark
      return { f with
        ids.qer := f.ids.qer + 1
        qers := f.qers.addQerEntry (fillAmbrQerEntry pdn bearer qerId)
        epsBearers := update f.epsBearers pdn.defaultBearer
          (some { bearer with qerIds := bearer.qerIds ++ [qerId], ambrQerFlag := true }) }
  else
    pure f

def install (cfg : Config) (pdn : PdnConnection) (f : Fill) (slot : Fin maxBearers)
    (rule : DynamicRule) : Except Fault Fill := do
  let bearer ← deref (f.epsBearers slot)
  let bearer' ← bearer.addRule cfg pdn f.ids rule
  return { f with
    epsBearers := update f.epsBearers slot (some bearer')
    ids := f.ids.next.next
    qers := (f.qers.addQerEntry
      (fillQerEntry bearer (f.ids.generateQerId SourceInterface.access.mark) rule)).addQerEntry
        (fillQerEntry bearer (f.ids.next.generateQerId SourceInterface.core.mark) rule)
    rules := f.rules.addRuleNameEntry (ruleKey pdn.callId rule.ruleName) bearer.epsBearerId
    createPdrCount := f.createPdrCount + 2
    bearer := some slot }

def addRule (cfg : Config) (upf : UpfContext) (pdn : PdnConnection) (f : Fill)
    (rule : DynamicRule) : Except Fault Fill := do
  let (f, slot) ← f.findBearer cfg upf pdn rule.qos
  let bearer ← deref (f.epsBearers slot)
  -- `dynamic_rules[num_dynamic_filters]`
  inBounds bearer.numDynamicFilters
  let f ← f.addAmbrQer cfg pdn
  f.install cfg pdn slot rule

def pdrsAt (f : Fill) (i : Fin maxBearers) : List Pdr := (f.epsBearers i).elim [] EpsBearer.pdrs

def placed (f : Fill) : List (Fin maxBearers × Pdr) :=
  (List.finRange maxBearers).flatMap fun i => (f.pdrsAt i).map fun pdr => (i, pdr)

/-- `update_pdr_teid` for the bearer of the last rule; without a rule it is `NULL`. -/
def updateLast (upf : UpfContext) (f : Fill) : Except Fault Fill := do
  let slot ← deref f.bearer
  let bearer ← deref (f.epsBearers slot)
  return { f with
    epsBearers := update f.epsBearers slot
      (some (bearer.updatePdrTeid bearer.s1uSgw.teid upf.s1uIp)) }

end Fill

def SessEstabReq.initial (cfg : Config) (upf : UpfContext) (pdn : PdnConnection) (seqNo : ℕ)
    (f : Fill) : SessEstabReq where
  seid := pdn.seids.dpSeid
  seqNo
  nodeId := setNodeId cfg.pfcpIp
  cpFseid := setFseid pdn.seids.seid cfg.pfcpIp
  pdnType := setPdnType pdn.pdnTypeIpv4
  trcInfo := if upf.upTrace then setTraceInfo else { value := {} }
  createPdrCount := f.createPdrCount

def fillPfcpSessEstReq (cfg : Config) (upf : Option UpfContext) (pdn : PdnConnection) (seqNo : ℕ)
    (rules : List DynamicRule) (f : Fill) : Except Fault (Option SessEstabReq × Fill) :=
  match upf with
  | none => pure (none, f)
  | some upf => do
    let f ← rules.foldlM (Fill.addRule cfg upf pdn) f
    let f ← f.updateLast upf
    let req ← (f.placed.map Prod.snd).foldlM
      (SessEstabReq.addPdr cfg.urrEnable pdn.addrAllocControl f.qers)
      (SessEstabReq.initial cfg upf pdn seqNo f)
    return (some req, f)

/-- A PDN connection that `create_ue_context` has made, with its default bearer and the rules of its
policy: everything `process_pfcp_sess_est_request` depends on. -/
structure Attach where
  cfg : Config := {}
  upf : UpfContext := {}
  found : Bool := true
  pdn : PdnConnection
  qos : BearerQos := {}
  pending : List DynamicRule := []
  ids : RuleIds := {}
  teids : TeidPool := {}
  qers : QerTable := {}
  rules : RuleTable := []
  seqNo : ℕ := 0

namespace Attach

/-- The default bearer with its end of the S1-U tunnel, as `process_pfcp_sess_est_request` leaves
it; it has no PDRs that `update_pdr_teid` could change. -/
def defaultBearer (a : Attach) : EpsBearer :=
  { epsBearerId := a.pdn.defaultBearer + 5
    pdn := a.pdn.seids
    qos := a.qos
    s1uSgw := ⟨a.teids.s1uSgwGtpuTeid, (htonl a.upf.s1uIp).toNat⟩ }

/-- The state in which `fill_pfcp_sess_est_req` is called. -/
def start (a : Attach) : Fill where
  epsBearers := update (fun _ => none) a.pdn.defaultBearer (some a.defaultBearer)
  numBearer := 1
  ids := a.ids
  teids := a.teids.setS1uSgwGtpuTeid
  qers := a.qers
  rules := a.rules

def processPfcpSessEstRequest (a : Attach) : Except Fault (Option SessEstabReq × Fill) :=
  fillPfcpSessEstReq a.cfg (if a.found then some a.upf else none) a.pdn a.seqNo a.pending a.start

end Attach

end Spgw.Sx
