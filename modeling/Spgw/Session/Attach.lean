/-
# The initial attach, event by event

The handlers of `cp/procedures/proc_initial_attach.c`, the entry points that call them, and the UPF
association events of `cp/procedures/proc_pfcp_assoc_setup.c` that wake buffered attaches.
-/

import Spgw.Session.Release

namespace Spgw.Session

def getErrorCsrspInfo (s : State) (proc : Procedure) : Except Fault (Peer × ℕ) :=
  match proc.msgInfo.msgType with
  | .createSessionReq =>
    match proc.msgInfo.rxMsg with
    | .csr csr => .ok (proc.msgInfo.peerAddr, csr.seq)
    | _ => .error .badPointer
  | .gxCca => .ok (proc.msgInfo.peerAddr, 0)
  | .pfcpSessionEstablishmentResponse => do
    let p ← deref proc.pdnContext
    let pdn ← deref (s.pdns.get p)
    let u ← deref pdn.context
    let _ ← deref (s.ues.get u)
    let trans ← deref proc.gtpcTrans
    return (trans.peer, trans.seq)
  | _ => do
    let u ← deref proc.ueContext
    let _ ← deref (s.ues.get u)
    let p ← deref proc.pdnContext
    let _ ← deref (s.pdns.get p)
    let trans ← deref proc.gtpcTrans
    return (trans.peer, trans.seq)

/-- `cs_error_response` for a message that belongs to a procedure. -/
def csErrorResponse (s : State) (p : ProcId) (proc : Procedure) (cause : ℕ) : Result := do
  let (peer, seq) ← getErrorCsrspInfo s proc
  assert (peer.port ≠ 0)
  let s := { s with csRsps := s.csRsps ++ [{ proc := some p, peer, seq, cause }] }
  match s.gtpTrans ⟨peer, seq⟩ with
  | none => pure s
  | some q =>
    assert (q = p)
    let s := { s with gtpTrans := s.gtpTrans.erase ⟨peer, seq⟩ }
    return s.setProc p { proc with gtpcTrans := none }

/-- `cs_error_response` for a request that fails its validation: it has no
procedure yet, and the transaction its key finds is somebody else's. -/
def csErrorResponseEarly (s : State) (peer : Peer) (csr : CreateSessReq) (cause : ℕ) : Result := do
  assert (peer.port ≠ 0)
  return { s with
    csRsps := s.csRsps ++ [{ proc := none, peer, seq := csr.seq, cause }]
    gtpTrans := s.gtpTrans.erase ⟨peer, csr.seq⟩ }

def procInitialAttachFailure (s : State) (p : ProcId) (cause : ℕ) : Result := do
  let proc ← deref (s.procs.get p)
  let s ← csErrorResponse s p proc cause
  endAttachFailure s p

def setProcMsg (s : State) (p : ProcId) (msg : MsgInfo) : Result := do
  let proc ← deref (s.procs.get p)
  return s.setProc p { proc with msgInfo := msg }

def bufferCsrRequest (s : State) (service : Service) (upf : Upf) (p : ProcId) : State :=
  s.setUpf service { upf with pendingSubProcs := p :: upf.pendingSubProcs }

/-- `alloc_pfcp_association_setup_proc` and `association_setup_handler`. -/
def associationSetup (s : State) (service : Service) (dns : Ipv4) : Result := do
  let upf ← deref (s.upfs service)
  assert (upf.state ≠ .assocRespRcvd)
  let state := if dns = 0 then .idle else .assocReqSnt
  return s.setUpf service { upf with addr := dns, proc := true, state }

def handOverAddress (s : State) (p : PdnPtr) (pdn : Pdn) : State :=
  if pdn.allocControl then
    { s with dynamicPool := releaseIp s.dynamicPool pdn.ipv4 }.setPdn p
      { pdn with ipv4 := 0, allocControl := false, allocUpf := true }
  else s

def initiateUpfSession (s : State) (p : ProcId) (dns : Ipv4) : Result := do
  let proc ← deref (s.procs.get p)
  let u ← deref proc.ueContext
  let context ← deref (s.ues.get u)
  let service ← deref context.upfContext
  let upf ← deref (s.upfs service)
  match upf.state with
  | .assocReqSnt => pure (bufferCsrRequest s service upf p)
  | .assocRespRcvd =>
    let pdnPtr ← deref proc.msgInfo.pdnContext
    let pdn ← deref (s.pdns.get pdnPtr)
    if upf.ueip = false ∧ pdn.allocUpf then
      procInitialAttachFailure s p causeRequestRejected
    else
      let s := if upf.ueip then handOverAddress s pdnPtr pdn else s
      pure (s.setProc p { proc with pfcpTrans := some 0 })
  | .idle => associationSetup (bufferCsrRequest s service upf p) service dns

def upfOf (s : State) (proc : Procedure) : Option Upf :=
  proc.ueContext.bind fun u => (s.ues.get u).bind fun context => context.upfContext.bind s.upfs

theorem upfOf_eq_some {s : State} {proc : Procedure} {upf : Upf} :
    upfOf s proc = some upf ↔ ∃ u context service, proc.ueContext = some u ∧
      s.ues.get u = some context ∧ context.upfContext = some service ∧
      s.upfs service = some upf := by
  simp only [upfOf, Option.bind_eq_some_iff]
  constructor
  · rintro ⟨u, hu, context, hctx, service, hservice, hupf⟩
    exact ⟨u, context, service, hu, hctx, hservice, hupf⟩
  · rintro ⟨u, context, service, hu, hctx, hservice, hupf⟩
    exact ⟨u, hu, context, hctx, service, hservice, hupf⟩

def handleCsreqMsg (cfg : Config) (env : Env) (s : State) (p : ProcId) (csr : CreateSessReq) :
    Result := do
  match ← processCreateSessReq cfg env s csr with
  | (s, .rejected cause) => procInitialAttachFailure s p cause
  | (s, .created u pdn) =>
    let proc ← deref (s.procs.get p)
    let context ← deref (s.ues.get u)
    let proc := { proc with
      ueContext := some u
      pdnContext := some pdn
      msgInfo := { proc.msgInfo with pdnContext := some pdn } }
    let s := s.setUe u { context with pendingSubProcs := context.pendingSubProcs ++ [p] }
    if cfg.gxEnabled then
      -- A CCR-I that cannot be built leaves the procedure as it is.
      pure (s.setProc p { proc with gxTrans := env.ccrBuilt })
    else
      initiateUpfSession (s.setProc p proc) p env.assocDns

def forgetPending (s : State) (service : Option Service) (queue : List ProcId) : State :=
  match service with
  | none => s
  | some service => match s.upfs service with
    | none => s
    | some upf => s.setUpf service
        { upf with pendingSubProcs := upf.pendingSubProcs.filter (· ∉ queue) }

def getPdn (s : State) (context : UeContext) (ebi : ℕ) : Except Fault PdnPtr := do
  let p ← deref context.pdn
  let pdn ← deref (s.pdns.get p)
  if pdn.defaultBearerId = ebi then .ok p else .error .badPointer

/-- Context replacement (`process_error_occured_handler_new`): the PDN found under
the new request's EBI, and then the old UE context, found again by its TEID, with
its procedures. -/
def replaceContext (s : State) (u : UePtr) (csr : CreateSessReq) : Result := do
  let context ← deref (s.ues.get u)
  let _ ← getPdn s context csr.ebi
  match s.ueByTeid context.s11SgwGtpcTeid with
  | none => pure s
  | some u =>
    let context ← deref (s.ues.get u)
    let p ← getPdn s context csr.ebi
    let s := forgetPending s context.upfContext context.pendingSubProcs
    releaseSession s u p

/-- The part of `handle_create_session_request` that finds a UE context with the IMSI
of the request. -/
def replaceOldContext (s : State) (csr : CreateSessReq) : Result :=
  match s.ueByImsi csr.imsiDigits with
  | some u => replaceContext s u csr
  | none => pure s

def csreqProc (key : TransKey) (csr : CreateSessReq) : Procedure :=
  { procType := if csr.indicationOi then .sgwRelocation else .initialPdnAttach
    request := key
    running := true
    gtpcTrans := some key
    msgInfo := { msgType := .createSessionReq, peerAddr := key.peer, rxMsg := .csr csr } }

/-- The part of `handle_create_session_request` that allocates the procedure and starts it. -/
def startAttach (cfg : Config) (env : Env) (s : State) (key : TransKey) (csr : CreateSessReq) :
    Result :=
  let p := s.procs.next
  let s := { s with
    procs := s.procs.alloc (csreqProc key csr)
    gtpTrans := s.gtpTrans.insert key p }
  if csr.indicationOi then pure s else handleCsreqMsg cfg env s p csr

def handleCreateSessionRequest (cfg : Config) (env : Env) (s : State) (peer : Peer)
    (csr : CreateSessReq) : Result := do
  if validateCsreqMsg csr ≠ 0 then
    csErrorResponseEarly s peer csr (validateCsreqMsg csr)
  else if (s.gtpTrans ⟨peer, csr.seq⟩).isSome then
    pure s
  else
    let s ← replaceOldContext s csr
    startAttach cfg env s ⟨peer, csr.seq⟩ csr

end Spgw.Session
