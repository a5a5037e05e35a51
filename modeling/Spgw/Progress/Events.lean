/-
# The events that move procedures

One `Event` is one message, timer expiry or queued stack event of the control plane; `step` is the
handler that takes it.
-/

import Spgw.Progress.Machine

namespace Spgw.Progress

open Session (UePtr Service UpfState deref assert)

/-- An entry of `pending_sub_procs` of a UPF: the procedure, and its UE context. -/
abbrev PendingKey := UePtr × ProcId

/-- `upf_context_t`. -/
structure Assoc where
  state : UpfState := .idle
  proc : Option ProcId := none
  armed : List ProcId := []
  expired : List ProcId := []
  events : List Bool := []
  pending : List PendingKey := []

namespace Assoc

def InProgress (a : Assoc) : Prop := a.armed ≠ [] ∨ a.events ≠ []

instance (a : Assoc) : Decidable a.InProgress := inferInstanceAs (Decidable (_ ∨ _))

/-- `buffer_csr_request`. -/
def buffer (a : Assoc) (key : PendingKey) : Assoc := { a with pending := key :: a.pending }

/-- `alloc_pfcp_association_setup_proc` and `association_setup_handler`. -/
def associationSetup (a : Assoc) (proc : ProcId) (resolved : Bool) : Assoc :=
  if resolved then
    { a with proc := some proc, armed := proc :: a.armed, state := .assocReqSnt }
  else
    { a with proc := some proc, events := a.events ++ [false], state := .idle }

/-- `handle_pfcp_association_setup_response_msg`. -/
def setupResponse (a : Assoc) (proc : ProcId) (accepted : Bool) : Assoc :=
  if proc ∈ a.armed ∨ proc ∈ a.expired then
    { a with
      armed := a.armed.erase proc
      expired := a.expired.erase proc
      events := a.events ++ [accepted]
      state := if accepted then .assocRespRcvd else .idle }
  else a

def endUpfProcedure (a : Assoc) (proc : ProcId) : Assoc :=
  { a with proc := none, armed := a.armed.erase proc, expired := a.expired.erase proc }

/-- The end of `upf_pfcp_setup_failure`. -/
def setupFailed (a : Assoc) : Assoc :=
  match a.proc with
  | some proc => { a.endUpfProcedure proc with state := .idle }
  | none => a

end Assoc

/-- The part of `ue_context_t` that is used here. -/
structure Ue where
  service : Service
  queue : List Procedure

/-- `relocations` are the procedures of Create Session Requests with the OI flag: they
belong to no UE context. -/
structure State where
  ues : Heap Ue := {}
  upfs : Service → Assoc := fun _ => {}
  relocations : List Procedure := []
  nextProc : ProcId := 0

abbrev Result := Except Fault State

namespace State

def setUpf (s : State) (service : Service) (a : Assoc) : State :=
  { s with upfs := Function.update s.upfs service a }

@[simp] theorem upfs_setUpf (s : State) (service : Service) (a : Assoc) :
    (s.setUpf service a).upfs service = a := Function.update_self ..

@[simp] theorem setUpf_setUpf (s : State) (service : Service) (a a' : Assoc) :
    (s.setUpf service a).setUpf service a' = s.setUpf service a' := by
  simp [setUpf]

def setQueue (s : State) (u : UePtr) (ue : Ue) : Option (List Procedure) → State
  | some queue => { s with ues := s.ues.set u { ue with queue } }
  | none => { s with ues := s.ues.free u }

def allocProc (s : State) : State := { s with nextProc := s.nextProc + 3 }

end State

/-- The configuration: `request_tries` and `gx_enabled`. -/
structure Config where
  requestTries : ℕ
  gxEnabled : Bool

def findProcedure (s : State) (u : UePtr) (p : ProcId) : Option Procedure := do
  let ue ← s.ues.get u
  let (_, t, _) ← focus ue.queue p
  return t

abbrev Handler := List Procedure → Procedure → List Procedure → Outcome

def onProcedure (s : State) (u : UePtr) (p : ProcId) (handler : Handler) : Result :=
  match s.ues.get u with
  | none => pure s
  | some ue => match focus ue.queue p with
    | none => pure s
    | some (before, t, after) => do
      let queue ← handler before t after
      return s.setQueue u ue queue

def initiateUpfSession (a : Assoc) (u : UePtr) (t : Procedure) (assocProc : ProcId)
    (refused resolved : Bool) : Assoc × Option Procedure :=
  match a.state with
  | .assocReqSnt => (a.buffer (u, t.id), some t)
  | .assocRespRcvd =>
    if refused then (a, none)
    else (a, some { t with pfcpTrans := some { timeout := .processPfcpSessEstRequestTimeout } })
  | .idle => ((a.buffer (u, t.id)).associationSetup assocProc resolved, some t)

def continueAttach (before : List Procedure) (t : Procedure) (after : List Procedure) :
    Option Procedure → Outcome
  | some t => pure (some (before ++ t :: after))
  | none => failProcedure before t after

/-- What a Create Session Request meets: an old context of the subscriber, the OI flag,
a refusal by `process_create_sess_req`, a CCR-I that can be built, and the outcomes of
`initiate_upf_session`. -/
structure CsReq where
  service : Service
  replaces : Option UePtr := none
  indicationOi : Bool := false
  rejected : Bool := false
  ccrBuilt : Bool := true
  refused : Bool := false
  resolved : Bool := true

/-- The context replacement of `handle_create_session_request`: the UE context and its
procedures are freed, and their UPF forgets them. -/
def replaceContext (s : State) (old : Option UePtr) : State :=
  match old with
  | none => s
  | some u => match s.ues.get u with
    | none => s
    | some ue =>
      let a := s.upfs ue.service
      { s.setUpf ue.service { a with pending := a.pending.filter (·.1 ≠ u) } with
        ues := s.ues.free u }

def attachProc (s : State) : Procedure :=
  { id := s.nextProc, procType := .initialPdnAttach, running := true }

/-- `handle_csreq_msg` once `process_create_sess_req` has created the contexts. -/
def startAttach (cfg : Config) (s : State) (req : CsReq) : Result :=
  let u := s.ues.next
  let t := attachProc s
  if cfg.gxEnabled then
    -- A CCR-I that cannot be built leaves the procedure as it is.
    let gxTrans : Option TransData := if req.ccrBuilt then some { timeout := .processGxCcriTimeout } else none
    pure { s with ues := s.ues.alloc { service := req.service, queue := [{ t with gxTrans }] } }
  else
    match initiateUpfSession (s.upfs req.service) u t (t.id + 1) req.refused req.resolved with
    | (a, some t) => pure { s.setUpf req.service a with
          ues := s.ues.alloc { service := req.service, queue := [t] } }
    | (a, none) => pure (s.setUpf req.service a)

def handleCreateSessionRequest (cfg : Config) (s : State) (req : CsReq) : Result := do
  let s := replaceContext s req.replaces
  if req.indicationOi then
    -- `start_procedure_direct` marks a relocation as running and calls no handler.
    let t : Procedure := { id := s.nextProc, procType := .sgwRelocation, running := true }
    return { s with relocations := t :: s.relocations }.allocProc
  else if req.rejected then
    return s.allocProc
  else
    return (← startAttach cfg s req).allocProc

def handleCcaInitialMsg (s : State) (u : UePtr) (accepted refused resolved : Bool) : Result :=
  match s.ues.get u with
  | none => pure s
  | some ue => match ue.queue with
    | [] => throw .badPointer
    | t :: after =>
      if t.gxTrans = none then pure s
      else
        let t := { t with gxTrans := none }
        if t.procType ≠ .initialPdnAttach then throw .assertion
        else if accepted then do
          let (a, t') := initiateUpfSession (s.upfs ue.service) u t s.nextProc refused resolved
          let queue ← continueAttach [] t after t'
          return ((s.setUpf ue.service a).setQueue u ue queue).allocProc
        else do
          let queue ← failProcedure [] t after
          return s.setQueue u ue queue

inductive Request
  | releaseAccessBearers (bearers : ℕ) (bearer : Bool)
  | modifyBearer
  | deleteSession (contextDeleted : Bool)
  /-- A Delete Session Request with the SI flag. -/
  | deleteSessionSi
  | usageReport
  | downlinkDataReport (bearer : Bool)
  | reAuth (work : RarWork)

def Request.procedure (id : ProcId) : Request → Procedure
  | .releaseAccessBearers bearers bearer =>
    { id, procType := .s1Release, found := { bearers, bearer } }
  | .modifyBearer => { id, procType := .serviceRequest }
  | .deleteSession contextDeleted => { id, procType := .detach, found := { contextDeleted } }
  | .deleteSessionSi => { id, procType := .sgwRelocationDetach }
  | .usageReport => { id, procType := .usageReport }
  | .downlinkDataReport bearer => { id, procType := .paging, found := { bearer } }
  | .reAuth work => { id, procType := .rar, found := { rar := work } }

def handleRequest (s : State) (u : UePtr) (request : Request) : Result :=
  match s.ues.get u with
  | none => pure s
  | some ue => do
    let queue ← startProcedure ue.queue (request.procedure s.nextProc)
    return (s.setQueue u ue queue).allocProc

/-- PFCP session responses: whether they are accepted and processed, whether a refusal says that
there is no association, and whether the CCR-T after a deletion is packed. -/
inductive PfcpRsp
  | establishment (accepted noAssociation : Bool)
  | modification (accepted : Bool)
  | deletion (ccrPacked : Bool)

/-- The procedure's handler for a PFCP response, whose transaction it has given up. -/
def handlePfcpRsp (rsp : PfcpRsp) : Handler := fun before t after =>
  match rsp, t.procType with
  | .establishment accepted _, .initialPdnAttach =>
    if accepted then endProcedure before t.succeeded after
    else failProcedure before t after
  | .modification _, .s1Release => endProcedure before t after
  | .modification _, .serviceRequest => endProcedure before t after
  | .modification accepted, .dedBerActivation =>
    if t.preCbr then
      if accepted then
        pure (some (before ++ { t with
          gtpcTrans := some { timeout := .processCbrTimeout }
          preCbr := false } :: after))
      else failProcedure before t after
    else endProcedure before t after
  | .deletion ccrPacked, .detach =>
    if ccrPacked then endProcedure before t after
    else pure (some (before ++ t :: after))
  | .deletion _, .nwInitDetach =>
    pure (some (before ++ { t with
      gtpcTrans := some { timeout := .nwInitDbreqTimeout } } :: after))
  | _, _ => throw .assertion

/-- `handle_pfcp_session_*_response`. -/
def onPfcpRsp (rsp : PfcpRsp) : Handler := fun before t after =>
  if t.pfcpTrans = none then pure (some (before ++ t :: after))
  else handlePfcpRsp rsp before { t with pfcpTrans := none } after

def afterPfcpRsp (s : State) (u : UePtr) (p : ProcId) (rsp : PfcpRsp) (s' : State) : State :=
  match rsp, s.ues.get u with
  | .establishment false true, some ue =>
    if (findProcedure s u p).any (·.pfcpTrans ≠ none) then
      s'.setUpf ue.service { s'.upfs ue.service with state := .idle }
    else s'
  | _, _ => s'

inductive GtpRsp
  | createBearer (accepted bearer : Bool)
  | deleteBearer
  | ddnAck
  deriving DecidableEq

def handleGtpRsp (rsp : GtpRsp) : Handler := fun before t after =>
  match rsp, t.procType with
  | .createBearer accepted bearer, .dedBerActivation =>
    if ¬ accepted then failProcedure before t after
    else if bearer then
      pure (some (before ++ { t with
        pfcpTrans := some { timeout := .processSgwcPfcpModPostCbrspTimeout } } :: after))
    else pure (some (before ++ t :: after))
  | .deleteBearer, .nwInitDetach => endProcedure before t after
  | .ddnAck, .paging => endProcedure before t after
  | _, _ => throw .assertion

def onGtpRsp (rsp : GtpRsp) : Handler := fun before t after =>
  match t.gtpcTrans with
  | some data =>
    if data.listed then
      handleGtpRsp rsp before
        { t with gtpcTrans := some { data with armed := false, listed := false } } after
    else pure (some (before ++ t :: after))
  | none => pure (some (before ++ t :: after))

/-- `handle_create_bearer_response_msg` asserts that it finds the transaction. -/
def gtpRspFound (s : State) (u : UePtr) (p : ProcId) : Bool :=
  (findProcedure s u p).any fun t => t.gtpcTrans.any (·.listed)

def onCallback (cfg : Config) (slot : Slot) (callback : Callback) : Handler :=
  fun before t after =>
    match t.slot slot with
    | none => throw .badPointer
    | some data =>
      match callback.expiry cfg.requestTries data.itrCnt with
      | .resent => pure (some (before ++ t.setSlot (some { data with
          itrCnt := (data.itrCnt + 1) % 256, armed := true }) slot :: after))
      | .ended =>
        if t.procType = .initialPdnAttach then failProcedure before t after
        else endProcedure before t after
      | .ignored => pure (some (before ++ t :: after))
      | .aborts => throw .assertion
      | .wildPointer => throw .badPointer

/-- `transaction_retry_callback`. -/
def onExpiry (cfg : Config) (slot : Slot) : Handler := fun before t after =>
  match t.slot slot with
  | none => pure (some (before ++ t :: after))
  | some data =>
    if data.armed then
      onCallback cfg slot data.timeout before
        (t.setSlot (some { data with armed := false }) slot) after
    else pure (some (before ++ t :: after))

def onStrayExpiry (cfg : Config) : Handler := fun before t after =>
  if 0 < t.strays then
    onCallback cfg .pfcp .processReleaseAccessBearerRequestPfcpTimeout before
      { t with strays := t.strays - 1 } after
  else pure (some (before ++ t :: after))

def onStrayRsp (accepted : Bool) : Handler := fun before t after =>
  if 0 < t.strays then
    handlePfcpRsp (.modification accepted) before
      { t with strays := t.strays - 1, pfcpTrans := none } after
  else pure (some (before ++ t :: after))

/-- The loops of `upf_pfcp_setup_failure` and `upf_pfcp_setup_success`: each key is taken off the
list and the handler of its procedure is called. -/
def wakeAll (handler : UePtr → Handler) : State → List PendingKey → Result
  | s, [] => pure s
  | s, (u, p) :: keys => do
    let ue ← deref (s.ues.get u)
    let (before, t, after) ← deref (focus ue.queue p)
    assert (t.procType = .initialPdnAttach)
    let queue ← handler u before t after
    wakeAll handler (s.setQueue u ue queue) keys

def upfPfcpSetupFailure (s : State) (service : Service) : Result := do
  let a := s.upfs service
  let s ← wakeAll (fun _ => failProcedure) (s.setUpf service { a with pending := [] }) a.pending
  return s.setUpf service (s.upfs service).setupFailed

def upfPfcpSetupSuccess (s : State) (service : Service) (refused : UePtr → Bool) : Result := do
  let a := s.upfs service
  if a.pending ≠ [] ∧ a.state ≠ .assocRespRcvd then
    throw .endless
  let s ← wakeAll (fun u before t after => continueAttach before t after
      (initiateUpfSession a u t s.nextProc (refused u) true).2)
    (s.setUpf service { a with pending := [] }) a.pending
  let proc ← deref (s.upfs service).proc
  return s.setUpf service ((s.upfs service).endUpfProcedure proc)

def unwind (s : State) (service : Service) (refused : UePtr → Bool) : Result :=
  let a := s.upfs service
  match a.events with
  | [] => pure s
  | true :: events => upfPfcpSetupSuccess (s.setUpf service { a with events }) service refused
  | false :: events => upfPfcpSetupFailure (s.setUpf service { a with events }) service

/-- `process_assoc_resp_timeout_handler`. -/
def assocExpired (s : State) (service : Service) (proc : ProcId) : Result :=
  let a := s.upfs service
  if proc ∈ a.armed then
    upfPfcpSetupFailure (s.setUpf service
      { a with armed := a.armed.erase proc, expired := proc :: a.expired }) service
  else pure s

inductive Event
  | createSession (req : CsReq)
  | cca (u : UePtr) (accepted refused resolved : Bool)
  | request (u : UePtr) (request : Request)
  | pfcpRsp (u : UePtr) (p : ProcId) (rsp : PfcpRsp)
  | gtpRsp (u : UePtr) (p : ProcId) (rsp : GtpRsp)
  | expired (u : UePtr) (p : ProcId) (slot : Slot)
  | strayExpired (u : UePtr) (p : ProcId)
  | strayRsp (u : UePtr) (p : ProcId) (accepted : Bool)
  | assocRsp (service : Service) (proc : ProcId) (accepted : Bool)
  | assocExpired (service : Service) (proc : ProcId)
  | unwind (service : Service) (refused : UePtr → Bool)
  /-- `upf_down_event`. -/
  | upfDown (service : Service)
  /-- `initiate_pfcp_association`, when the timer of the UPF has run out. -/
  | initiateAssociation (service : Service) (resolved : Bool)

def step (cfg : Config) (s : State) : Event → Result
  | .createSession req => handleCreateSessionRequest cfg s req
  | .cca u accepted refused resolved => handleCcaInitialMsg s u accepted refused resolved
  | .request u request => handleRequest s u request
  | .pfcpRsp u p rsp => do
    return afterPfcpRsp s u p rsp (← onProcedure s u p (onPfcpRsp rsp))
  | .gtpRsp u p rsp =>
    match rsp, gtpRspFound s u p with
    | .createBearer _ _, false => throw .assertion
    | _, _ => onProcedure s u p (onGtpRsp rsp)
  | .expired u p slot => onProcedure s u p (onExpiry cfg slot)
  | .strayExpired u p => onProcedure s u p (onStrayExpiry cfg)
  | .strayRsp u p accepted => onProcedure s u p (onStrayRsp accepted)
  | .assocRsp service proc accepted =>
    pure (s.setUpf service ((s.upfs service).setupResponse proc accepted))
  | .assocExpired service proc => assocExpired s service proc
  | .unwind service refused => unwind s service refused
  | .upfDown service => pure (s.setUpf service { s.upfs service with state := .idle })
  | .initiateAssociation service resolved =>
    if (s.upfs service).state = .idle then
      pure (s.setUpf service ((s.upfs service).associationSetup s.nextProc resolved)).allocProc
    else pure s

end Spgw.Progress
