/-
# User plane functions: contexts, associations and supervision

The gateway keeps a context for each UPF (`upf_context_t`). Two tables find it, by the name of its
service and by its address (`cpplib/upf_tables.h`); neither overwrites an entry it has.
-/

import Spgw.Session.State

namespace Spgw.Upf

open Session (Table Service UpfState deref assert)

abbrev UpfPtr := ℕ
abbrev AssocPtr := ℕ

structure UpfContext where
  addr : Ipv4
  fqdn : Option Service := none
  globalAddress : Bool := false
  state : UpfState := .idle
  proc : Option AssocPtr := none
  pendingSubProcs : List ProcId := []

/-- `proc_context_t` of a `PFCP_ASSOC_SETUP_PROC`. -/
structure Assoc where
  upfContext : UpfPtr
  pfcpTrans : Bool := false

inductive StackEvent
  | setupSuccess (u : UpfPtr)
  | setupFailed (u : UpfPtr)
  deriving DecidableEq

inductive Outcome
  | resumed
  | rejected

/-- The UPF contexts with their tables, the association procedures, the supervised peers with their
recovery times, the stack events, and the attaches buffered and taken up again so far. -/
structure State where
  upfs : Heap UpfContext := {}
  byService : Table (Option Service) UpfPtr := fun _ => none
  byAddr : Table Ipv4 UpfPtr := fun _ => none
  assocs : Heap Assoc := {}
  peers : Table Ipv4 ℕ := fun _ => none
  stack : List StackEvent := []
  buffered : List (UpfPtr × ProcId) := []
  drained : List ((UpfPtr × ProcId) × Outcome) := []

abbrev Result := Except Fault State

def State.setUpf (s : State) (u : UpfPtr) (upf : UpfContext) : State :=
  { s with upfs := s.upfs.set u upf }

/-- `upf_context_entry_add`. -/
def enterAddr (byAddr : Table Ipv4 UpfPtr) (a : Ipv4) (u : UpfPtr) : Table Ipv4 UpfPtr :=
  if a ≠ 0 then byAddr.insert a u else byAddr

def createUpfContext (s : State) (addr : Ipv4) (service : Option Service) (globalAddress : Bool) :
    State :=
  { s with
    upfs := s.upfs.alloc { addr, fqdn := service, globalAddress }
    byAddr := enterAddr s.byAddr addr s.upfs.next
    byService := s.byService.insert service s.upfs.next }

def getUpfContext (s : State) (service : Option Service) (globalAddress : Bool) (dns : Ipv4) :
    Except Fault (State × UpfPtr) :=
  match s.byService service with
  | none => .ok (createUpfContext s dns service globalAddress, s.upfs.next)
  | some u => do
    let upf ← deref (s.upfs.get u)
    if upf.addr = 0 then
      return ({ s.setUpf u { upf with globalAddress, addr := dns } with
        byAddr := enterAddr s.byAddr dns u }, u)
    else
      return (s, u)

def addIpToHeartbeatHash (peers : Table Ipv4 ℕ) (a : Ipv4) (recovTime : ℕ) : Table Ipv4 ℕ :=
  if (peers a).isSome then Function.update peers a (some recovTime) else peers

def addNodeConnEntry (peers : Table Ipv4 ℕ) (a : Ipv4) : Table Ipv4 ℕ := peers.insert a 0

def supervise (peers : Table Ipv4 ℕ) (a : Ipv4) (recovTime : ℕ) : Table Ipv4 ℕ :=
  addNodeConnEntry (addIpToHeartbeatHash peers a recovTime) a

def upfDownEvent (s : State) (a : Ipv4) : Result := do
  let peers := addIpToHeartbeatHash s.peers a 0
  match s.byAddr a with
  | none => return { s with peers }
  | some u =>
    let upf ← deref (s.upfs.get u)
    return { s.setUpf u { upf with state := .idle, addr := 0 } with peers }

def heartbeatFails (pfcpHbTsFail : Bool) (peers : Table Ipv4 ℕ) (a : Ipv4) (recovTime : ℕ) : Bool :=
  (peers a).any fun old => old ≠ 0 && recovTime ≠ old && pfcpHbTsFail

def processHeartbeatResponse (pfcpHbTsFail : Bool) (s : State) (a : Ipv4) (recovTime : ℕ) : Result :=
  let t := { s with peers := addIpToHeartbeatHash s.peers a recovTime }
  if heartbeatFails pfcpHbTsFail s.peers a recovTime then upfDownEvent t a else .ok t

/-- `handle_timeout_event` for a UPF that has not answered its heartbeats. -/
def peerTimeout (s : State) (a : Ipv4) : Result :=
  if (s.peers a).isSome then do
    let s ← upfDownEvent s a
    return { s with peers := s.peers.erase a }
  else .ok s

def configDisableUpf (s : State) (service : Service) : Result :=
  match s.byService (some service) with
  | none => .ok s
  | some u => do
    let upf ← deref (s.upfs.get u)
    return { s.setUpf u { upf with state := .idle } with
      peers := s.peers.erase upf.addr
      byAddr := s.byAddr.erase upf.addr }

/-- `assoication_setup_request`. -/
def associationSetupRequest (s : State) (id : AssocPtr) : Result := do
  let proc ← deref (s.assocs.get id)
  let upf ← deref (s.upfs.get proc.upfContext)
  return { s.setUpf proc.upfContext { upf with proc := some id, state := .assocReqSnt } with
    assocs := s.assocs.set id { proc with pfcpTrans := true } }

def associationSetupHandler (s : State) (id : AssocPtr) (dns : Ipv4) : Result := do
  let proc ← deref (s.assocs.get id)
  let upf ← deref (s.upfs.get proc.upfContext)
  assert (upf.state ≠ .assocRespRcvd)
  let s := s.setUpf proc.upfContext { upf with addr := 0 }
  let (s, w) ← getUpfContext s upf.fqdn upf.globalAddress dns
  let found ← deref (s.upfs.get w)
  if found.addr = 0 then
    return { s.setUpf w { found with state := .idle } with stack := s.stack ++ [.setupFailed w] }
  else
    associationSetupRequest s id

/-- `alloc_pfcp_association_setup_proc` and `start_upf_procedure`. -/
def startAssociation (s : State) (u : UpfPtr) (dns : Ipv4) : Result := do
  let upf ← deref (s.upfs.get u)
  let id := s.assocs.next
  associationSetupHandler { s.setUpf u { upf with proc := some id } with
    assocs := s.assocs.alloc { upfContext := u } } id dns

def initiatePfcpAssociation (s : State) (u : UpfPtr) (dns : Ipv4) : Result := do
  let upf ← deref (s.upfs.get u)
  if upf.state = .idle then startAssociation s u dns else pure s

def bufferCsrRequest (s : State) (u : UpfPtr) (upf : UpfContext) (p : ProcId) : State :=
  { s.setUpf u { upf with pendingSubProcs := p :: upf.pendingSubProcs } with
    buffered := s.buffered ++ [(u, p)] }

/-- `initiate_upf_session` for an attach on the UPF. -/
def initiateUpfSession (s : State) (u : UpfPtr) (p : ProcId) (dns : Ipv4) : Result := do
  let upf ← deref (s.upfs.get u)
  match upf.state with
  | .assocReqSnt => pure (bufferCsrRequest s u upf p)
  | .assocRespRcvd => pure s
  | .idle => startAssociation (bufferCsrRequest s u upf p) u dns

def handlePfcpAssociationSetupResponse (s : State) (id : AssocPtr) (accepted : Bool) (peer : Ipv4)
    (recovTime : ℕ) : Result :=
  match s.assocs.get id with
  | none => .ok s
  | some proc =>
    if proc.pfcpTrans = false then .ok s
    else do
      let upf ← deref (s.upfs.get proc.upfContext)
      let s := { s with assocs := s.assocs.set id { proc with pfcpTrans := false } }
      if accepted then
        return { s.setUpf proc.upfContext { upf with state := .assocRespRcvd } with
          peers := supervise s.peers peer recovTime
          stack := s.stack ++ [.setupSuccess proc.upfContext] }
      else
        return { s.setUpf proc.upfContext { upf with state := .idle } with
          stack := s.stack ++ [.setupFailed proc.upfContext] }

/-- `handle_pfcp_association_setup_request_msg`. -/
def handlePfcpAssociationSetupRequest (s : State) (peer : Ipv4) (recovTime : ℕ) : Result := do
  let (s, u) := match s.byAddr peer with
    | some u => (s, u)
    | none => (createUpfContext s peer none false, s.upfs.next)
  let upf ← deref (s.upfs.get u)
  return { s.setUpf u { upf with state := .assocRespRcvd } with
    peers := supervise s.peers peer recovTime }

def endUpfProcedure (s : State) (id : AssocPtr) : Result := do
  let proc ← deref (s.assocs.get id)
  let upf ← deref (s.upfs.get proc.upfContext)
  return { s.setUpf proc.upfContext { upf with proc := none } with assocs := s.assocs.free id }

def procPfcpAssocSetupFailure (s : State) (id : AssocPtr) : Result := do
  let proc ← deref (s.assocs.get id)
  let upf ← deref (s.upfs.get proc.upfContext)
  endUpfProcedure { s.setUpf proc.upfContext { upf with state := .idle, addr := 0 } with
    byAddr := s.byAddr.erase upf.addr } id

/-- `LIST_REMOVE` of the first buffered attach, whose handler is called next. -/
def popPending (s : State) (u : UpfPtr) (upf : UpfContext) (p : ProcId) (rest : List ProcId)
    (outcome : Outcome) : State :=
  { s.setUpf u { upf with pendingSubProcs := rest } with drained := s.drained ++ [((u, p), outcome)] }

/-- The loop of `upf_pfcp_setup_failure`: every buffered attach is rejected, and no attach is
buffered meanwhile. -/
def rejectPending (u : UpfPtr) (upf : UpfContext) : List ProcId → State → State
  | [], s => s
  | p :: rest, s => rejectPending u upf rest (popPending s u upf p rest .rejected)

def upfPfcpSetupFailure (s : State) (u : UpfPtr) : Result := do
  let upf ← deref (s.upfs.get u)
  let s := rejectPending u upf upf.pendingSubProcs s
  match upf.proc with
  | none => return s
  | some id => procPfcpAssocSetupFailure s id

/-- The loop of `upf_pfcp_setup_success`, for a number of turns: the first buffered attach goes on,
which may buffer it again. -/
def wakePending (u : UpfPtr) (dns : ℕ → Ipv4) : ℕ → State → Result
  | 0, _ => throw .endless
  | n + 1, s => do
    let upf ← deref (s.upfs.get u)
    match upf.pendingSubProcs with
    | [] => pure s
    | p :: rest =>
      let s ← initiateUpfSession (popPending s u upf p rest .resumed) u p (dns n)
      wakePending u dns n s

def upfPfcpSetupSuccess (s : State) (u : UpfPtr) (dns : ℕ → Ipv4) : Result := do
  let upf ← deref (s.upfs.get u)
  let s ← wakePending u dns (upf.pendingSubProcs.length + 1) s
  let upf ← deref (s.upfs.get u)
  let id ← deref upf.proc
  endUpfProcedure s id

def processAssocRespTimeoutHandler (s : State) (id : AssocPtr) : Result :=
  match s.assocs.get id with
  | none => .ok s
  | some proc => if proc.pfcpTrans then upfPfcpSetupFailure s proc.upfContext else .ok s

def unwind (s : State) (dns : ℕ → Ipv4) : Result :=
  match s.stack with
  | [] => .ok s
  | .setupFailed u :: stack => upfPfcpSetupFailure { s with stack } u
  | .setupSuccess u :: stack => upfPfcpSetupSuccess { s with stack } u dns

/-- A UE context on the UPF is replaced (`process_error_occured_handler_new`): a buffered
procedure of its is taken from the list, and its handler is not called. -/
def forgetProc (s : State) (u : UpfPtr) (p : ProcId) : Result := do
  let upf ← deref (s.upfs.get u)
  return s.setUpf u { upf with pendingSubProcs := upf.pendingSubProcs.erase p }

/-- The selection for an attach, timers, PFCP messages, and the stack events. -/
inductive Event
  | discover (service : Service) (globalAddress : Bool) (dns : Ipv4)
  | attach (u : UpfPtr) (p : ProcId) (dns : Ipv4)
  | replaced (u : UpfPtr) (p : ProcId)
  | assocTimer (u : UpfPtr) (dns : Ipv4)
  | assocResponse (id : AssocPtr) (accepted : Bool) (peer : Ipv4) (recovTime : ℕ)
  | assocTimeout (id : AssocPtr)
  | assocRequest (peer : Ipv4) (recovTime : ℕ)
  | heartbeatResponse (peer : Ipv4) (recovTime : ℕ)
  | peerTimeout (peer : Ipv4)
  | disable (service : Service)
  | unwind (dns : ℕ → Ipv4)

def step (pfcpHbTsFail : Bool) (s : State) : Event → Result
  | .discover service globalAddress dns =>
    (getUpfContext s (some service) globalAddress dns).map Prod.fst
  | .attach u p dns => if (s.upfs.get u).isSome then initiateUpfSession s u p dns else .ok s
  | .replaced u p => if (s.upfs.get u).isSome then forgetProc s u p else .ok s
  | .assocTimer u dns => if (s.upfs.get u).isSome then initiatePfcpAssociation s u dns else .ok s
  | .assocResponse id accepted peer recovTime =>
    handlePfcpAssociationSetupResponse s id accepted peer recovTime
  | .assocTimeout id => processAssocRespTimeoutHandler s id
  | .assocRequest peer recovTime => handlePfcpAssociationSetupRequest s peer recovTime
  | .heartbeatResponse peer recovTime => processHeartbeatResponse pfcpHbTsFail s peer recovTime
  | .peerTimeout peer => peerTimeout s peer
  | .disable service => configDisableUpf s service
  | .unwind dns => unwind s dns

def next (pfcpHbTsFail : Bool) (s : State) (e : Event) : Option State :=
  (step pfcpHbTsFail s e).toOption

end Spgw.Upf
