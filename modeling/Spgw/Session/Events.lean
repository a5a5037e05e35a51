/-
# Events and runs

One `Event` is one message, timer expiry or queued stack event; `step` is the handler that takes it.
-/

import Spgw.Session.Attach

namespace Spgw.Session

/-- `handle_cca_initial_msg` and `cca_msg_handler`. -/
def handleCcaInitialMsg (s : State) (p : ProcId) (accepted : Bool) (dns : Ipv4) : Result := do
  let proc ← deref (s.procs.get p)
  if proc.gxTrans = false then
    pure s
  else
    let s := s.setProc p { proc with gxTrans := false }
    if accepted then
      let s ← setProcMsg s p { msgType := .gxCca, pdnContext := proc.pdnContext }
      initiateUpfSession s p dns
    else
      let s ← setProcMsg s p { msgType := .gxCcaiFailed }
      procInitialAttachFailure s p causeInvalidReplyFromRemotePeer

def processGxCcriTimeout (s : State) (p : ProcId) : Result := do
  let proc ← deref (s.procs.get p)
  if proc.gxTrans = false then
    pure s
  else
    let s ← setProcMsg s p { msgType := .reserved }
    procInitialAttachFailure s p causeInvalidReplyFromRemotePeer

/-- What is read of a PFCP session establishment response: the cause, whether a refusal says that
there is no association, the SEID, and the UE address of the created PDR as it is stored. -/
structure SessEstabRsp where
  accepted : Bool
  noAssociation : Bool := false
  seid : ℕ := 0
  ueIpAddress : Option Ipv4 := none

def setUpfAddress (pdn : Pdn) (rsp : SessEstabRsp) : Pdn :=
  match rsp.ueIpAddress with
  | some a => { pdn with ipv4 := ntohl a }
  | none => pdn

def processPfcpSessEstResp (s : State) (proc : Procedure) (rsp : SessEstabRsp) :
    Except Fault (State × ℕ) :=
  match s.ueByTeid (ueSessId rsp.seid) with
  | none => .ok (s, causeContextNotFound)
  | some u => do
    let context ← deref (s.ues.get u)
    let p ← assertSome proc.pdnContext
    let pdn ← deref (s.pdns.get p)
    assert (rsp.seid = pdn.seid)
    let q ← assertSome context.pdn
    assert (p = q)
    return (s.setPdn p (setUpfAddress pdn rsp), 0)

def forgetAssociation (s : State) (service : Service) : State :=
  match s.upfs service with
  | some upf => s.setUpf service { upf with state := .idle }
  | none => s

/-- `handle_pfcp_session_est_response` and `process_sess_est_resp_handler`. -/
def handlePfcpSessionEstResponse (s : State) (p : ProcId) (rsp : SessEstabRsp) : Result := do
  let proc ← deref (s.procs.get p)
  if proc.pfcpTrans = none then
    pure s
  else
    let proc := { proc with
      pfcpTrans := none
      msgInfo := { msgType := .pfcpSessionEstablishmentResponse } }
    let s := s.setProc p proc
    assert (proc.procType = .initialPdnAttach)
    if rsp.accepted = false then
      let u ← deref proc.ueContext
      let context ← deref (s.ues.get u)
      let service ← deref context.upfContext
      let s ← procInitialAttachFailure s p causeRequestRejected
      pure (if rsp.noAssociation then forgetAssociation s service else s)
    else
      let (s, cause) ← processPfcpSessEstResp s proc rsp
      if cause ≠ 0 then
        procInitialAttachFailure s p cause
      else
        let trans ← deref proc.gtpcTrans
        let rsp : CsRsp :=
          { proc := some p, peer := trans.peer, seq := trans.seq, cause := causeRequestAccepted }
        endAttachSuccess { s with csRsps := s.csRsps ++ [rsp] } p

def dsreqProc (key : TransKey) (dsr : DelSessReq) (u : UePtr) (pdn : PdnPtr) : Procedure :=
  { procType := if dsr.indicationSi then .sgwRelocationDetach else .detach
    request := key
    ueContext := some u
    pdnContext := some pdn
    gtpcTrans := some key
    msgInfo := { msgType := .deleteSessionReq, peerAddr := key.peer, rxMsg := .dsr dsr } }

def handleDeleteSessionRequest (s : State) (peer : Peer) (dsr : DelSessReq) : Result := do
  let key : TransKey := ⟨peer, dsr.seq⟩
  if (s.gtpTrans key).isSome then
    pure s
  else
    match s.ueByTeid dsr.teid with
    | none => pure s
    | some u =>
      let context ← deref (s.ues.get u)
      match context.pdn with
      | none => pure s
      | some pdnPtr =>
        let pdn ← deref (s.pdns.get pdnPtr)
        if pdn.defaultBearerId ≠ dsr.lbi then
          pure s
        else
          let p := s.procs.next
          let s := { s with
            procs := s.procs.alloc (dsreqProc key dsr u pdnPtr)
            gtpTrans := s.gtpTrans.insert key p }
          let s := s.setUe u { context with pendingSubProcs := context.pendingSubProcs ++ [p] }
          if context.pendingSubProcs.isEmpty then startProcedureDirect s p else pure s

/-- `handle_pfcp_session_delete_response` and `process_pfcp_sess_del_resp_handler`. -/
def handlePfcpSessionDeleteResponse (s : State) (p : ProcId) (sent : Bool) : Result := do
  let proc ← deref (s.procs.get p)
  if proc.pfcpTrans = none then
    pure s
  else
    let proc := { proc with
      pfcpTrans := none
      msgInfo := { msgType := .pfcpSessionDeletionResponse } }
    let s := s.setProc p proc
    assert (proc.procType = .detach)
    if sent then endDetach s p else pure s

/-- The expiry of a PFCP timer: the request is sent again `requestTries` times in
all, then the procedure fails (`process_sess_est_resp_timeout_handler`,
`process_pfcp_sess_del_request_timeout`). -/
def pfcpTimeout (cfg : Config) (s : State) (p : ProcId) : Result := do
  let proc ← deref (s.procs.get p)
  match proc.pfcpTrans with
  | none => pure s
  | some itrCnt =>
    if proc.procType = .initialPdnAttach then
      let s ← setProcMsg s p { msgType := .reserved }
      if itrCnt + 1 < cfg.requestTries then
        let proc ← deref (s.procs.get p)
        pure (s.setProc p { proc with pfcpTrans := some (itrCnt + 1) })
      else
        procInitialAttachFailure s p causeRemotePeerNotResponding
    else
      assert (proc.gtpcTrans ≠ none)
      if itrCnt + 1 < cfg.requestTries then
        pure (s.setProc p { proc with pfcpTrans := some (itrCnt + 1) })
      else
        endDetach s p

def popPending (s : State) (service : Service) (rest : List ProcId) : State :=
  match s.upfs service with
  | some upf => s.setUpf service { upf with pendingSubProcs := rest }
  | none => s

def retypeMsg (s : State) (p : ProcId) (msgType : MsgType) : Result := do
  let proc ← deref (s.procs.get p)
  return s.setProc p { proc with msgInfo := { proc.msgInfo with msgType } }

/-- The loop of `upf_pfcp_setup_failure`: every buffered attach is rejected. -/
def rejectPending (service : Service) : List ProcId → State → Result
  | [], s => pure s
  | p :: rest, s => do
    let s ← retypeMsg (popPending s service rest) p .pfcpAssocSetupFailed
    let s ← procInitialAttachFailure s p causeRemotePeerNotResponding
    rejectPending service rest s

/-- The loop of `upf_pfcp_setup_success`: every buffered attach goes on. -/
def resumePending (service : Service) : List ProcId → State → Result
  | [], s => pure s
  | p :: rest, s => do
    let s ← retypeMsg (popPending s service rest) p .pfcpAssocSetupSuccess
    let s ← initiateUpfSession s p 0
    resumePending service rest s

def upfPfcpSetupFailure (s : State) (service : Service) : Result := do
  let upf ← deref (s.upfs service)
  let s ← rejectPending service upf.pendingSubProcs s
  let upf ← deref (s.upfs service)
  pure (if upf.proc then s.setUpf service { upf with state := .idle, addr := 0, proc := false } else s)

def upfPfcpSetupSuccess (s : State) (service : Service) : Result := do
  let upf ← deref (s.upfs service)
  if upf.state ≠ .assocRespRcvd ∧ upf.pendingSubProcs ≠ [] then
    throw .endless
  let s ← resumePending service upf.pendingSubProcs s
  let upf ← deref (s.upfs service)
  if upf.proc then pure (s.setUpf service { upf with proc := false }) else throw .badPointer

def handlePfcpAssociationSetupResponse (s : State) (service : Service) (accepted ueip : Bool) :
    State :=
  match s.upfs service with
  | some upf => s.setUpf service
      (if accepted then { upf with state := .assocRespRcvd, ueip } else { upf with state := .idle })
  | none => s

def upfDownEvent (s : State) (service : Service) : State :=
  match s.upfs service with
  | some upf => s.setUpf service { upf with state := .idle, addr := 0 }
  | none => s

def initiatePfcpAssociation (s : State) (service : Service) (dns : Ipv4) : Result :=
  match s.upfs service with
  | some upf => if upf.state = .idle then associationSetup s service dns else pure s
  | none => pure s

/-- The messages and timeouts that change the sessions; `initiate_all_pfcp_association` is `discover`
and `assocTimer` for each service. -/
inductive Event
  | createSessionRequest (env : Env) (peer : Peer) (csr : CreateSessReq)
  | ccaInitial (p : ProcId) (accepted : Bool) (dns : Ipv4)
  | gxTimeout (p : ProcId)
  | sessionEstResponse (p : ProcId) (rsp : SessEstabRsp)
  | deleteSessionRequest (peer : Peer) (dsr : DelSessReq)
  | sessionDeleteResponse (p : ProcId) (sent : Bool)
  | pfcpTimeout (p : ProcId)
  | nwInitDetachEnd (u : UePtr)
  | assocSetupResponse (service : Service) (accepted ueip : Bool)
  | assocSetupSuccess (service : Service)
  | assocSetupFailure (service : Service)
  | discover (service : Service) (globalAddress : Bool) (dns : Ipv4)
  | assocTimer (service : Service) (dns : Ipv4)
  | upfDown (service : Service)

/-- `end_procedure` of a network-initiated detach, which runs while no procedure of
the queue does. -/
def nwInitDetachEnd (s : State) (u : UePtr) : Result := do
  let context ← deref (s.ues.get u)
  let p ← deref context.pdn
  if context.pendingSubProcs.any fun q => (s.procs.get q).any (·.running) then
    pure s
  else
    releaseSession s u p

def step (cfg : Config) (s : State) : Event → Result
  | .createSessionRequest env peer csr => handleCreateSessionRequest cfg env s peer csr
  | .ccaInitial p accepted dns => handleCcaInitialMsg s p accepted dns
  | .gxTimeout p => processGxCcriTimeout s p
  | .sessionEstResponse p rsp => handlePfcpSessionEstResponse s p rsp
  | .deleteSessionRequest peer dsr => handleDeleteSessionRequest s peer dsr
  | .sessionDeleteResponse p sent => handlePfcpSessionDeleteResponse s p sent
  | .pfcpTimeout p => pfcpTimeout cfg s p
  | .nwInitDetachEnd u => nwInitDetachEnd s u
  | .assocSetupResponse service accepted ueip =>
    .ok (handlePfcpAssociationSetupResponse s service accepted ueip)
  | .assocSetupSuccess service => upfPfcpSetupSuccess s service
  | .assocSetupFailure service => upfPfcpSetupFailure s service
  | .discover service glob dns => .ok (getUpfContext s service glob dns).1
  | .assocTimer service dns => initiatePfcpAssociation s service dns
  | .upfDown service => .ok (upfDownEvent s service)

def initial (dynamicPool : List Ipv4) (staticPool : StaticPool) : State :=
  { dynamicPool, staticPool }

/-! ### Sample inputs

A configuration, a request and a peer, for the runs that the theorems are tried on. -/

namespace Demo

def upfAddresses : Config where
  gxEnabled := true
  requestTries := 3
  matchApnProfile _ := true
  matchSubSelection _ := some { userPlaneService := 1, globalAddress := false }

def controlAddresses : Config :=
  { upfAddresses with matchSubSelection _ := some { userPlaneService := 1, globalAddress := true } }

/-- A valid request with a given sequence number, an IMSI of fifteen digits or, in seven
bytes, of fourteen, and a static address (`0` for none). -/
def request (seq imsiLen : ℕ) (paaAddr : Ipv4) : CreateSessReq where
  seq
  imsiDigits := 0x43210987654321 % 256 ^ imsiLen + (if imsiLen = 8 then 0xF5 * 256 ^ 7 else 0)
  imsiLen
  imsi64 := 12345678901234
  apn := []
  plmn := 0
  tac := 1
  paaPdnType := 1
  paaAddr
  ebi := 5
  indicationUimsi := false
  indicationOi := false
  bearerContextLen := 1
  senderFteidLen := 1
  apnAmbrLen := 1
  pdnTypeLen := 1
  pdnType := 1
  bearerQosLen := 1
  ratTypeLen := 1

def mme : Peer := ⟨0x0A000001, 2123⟩

def env : Env := { dns := 0x0A000002, assocDns := 0x0A000002 }

/-- `10.1.0.0/30`. -/
def pool : List Ipv4 := [0x0A010002, 0x0A010001]

end Demo

end Spgw.Session
