/-
# What happens to bearers

The events that create, fill and release bearers. A Create Session Request replaces an old UE
context and creates a new one with a default bearer (`create_ue_context`, `cp/ue.c`;
`cp/procedures/proc_initial_attach.c`).
-/

import Spgw.Bearer.Release

namespace Spgw.Bearer

open Function

open Session (UePtr PdnPtr Service CreateSessReq deref imsiKey sessId)
open Rar (BearerQos RuleName DynamicRule PccRule maxBearers ruleKey)
open Spgw.Trans (Kind TransKey)

/-- What a Create Session Request finds: whether the APN, the subscriber, the UPF and an address are
there and the allocations succeed, the UPF, the QoS of the bearer context, the time stamp of the Gx
session, and whether the CCR-I can be built. -/
structure Env where
  selected : Bool := true
  upf : Service
  qos : BearerQos := {}
  contextAlloc : Bool := true
  bearerAlloc : Bool := true
  pdnAlloc : Bool := true
  timestamp : List Char := []
  ccrBuilt : Bool := true

/-- `s11_sgw_gtpc_base_teid + s11_sgw_gtpc_teid_offset`. -/
def State.nextTeid (s : State) : ℕ := (0xC0FFEE + s.teidOffset) % 2 ^ 32

/-- A UE context with its PDN connection and its default bearer, as `create_ue_context` and
`process_create_sess_req` leave them. -/
def newContext (imsi teid ebi : ℕ) (i : Fin maxBearers) (upf : Service) (qos : BearerQos) :
    UeContext where
  imsi
  s11SgwGtpcTeid := teid
  epsBearers := update (fun _ => none) i (some 0)
  pdns := update (fun _ => none) i (some 0)
  numPdns := 1
  bearerBitmap := 0 ||| (1#16 <<< (i : ℕ))
  upfContext := some upf
  pdnHeap := ({} : Heap Pdn).alloc
    { defaultBearerId := ebi
      numBearer := 1
      epsBearers := update (fun _ => none) i (some 0)
      seid := sessId teid ebi }
  bearerHeap := ({} : Heap EpsBearer).alloc { epsBearerId := ebi, qos, pdn := 0 }

def State.addUe (s : State) (c : UeContext) : State :=
  { s with
    ues := s.ues.alloc c
    ueByImsi := s.ueByImsi.insert c.imsi s.ues.next
    ueByTeid := s.ueByTeid.insert c.s11SgwGtpcTeid s.ues.next
    teidOffset := s.teidOffset + 1 }

def State.openContext (s : State) (env : Env) (imsi ebi : ℕ) (i : Fin maxBearers) : State :=
  let s' := s.addUe (newContext imsi s.nextTeid ebi i env.upf env.qos)
  { s' with pdnByTeid := s'.pdnByTeid.insert s.nextTeid (s.ues.next, 0) }

def processCreateSessReq (env : Env) (s : State) (csr : CreateSessReq) :
    Except Fault (State × Option UePtr) := do
  if env.selected = false then
    return (s, none)
  let imsi ← imsiKey csr
  if (s.ueByImsi imsi).isSome ∨ env.contextAlloc = false then
    return (s, none)
  let i ← slotIndex csr.ebi
  if env.bearerAlloc = false ∨ env.pdnAlloc = false then
    return (s.addUe { imsi, s11SgwGtpcTeid := s.nextTeid }, none)
  return (s.openContext env imsi csr.ebi i, some s.ues.next)

def genCcrRequest (env : Env) (s : State) (u : UePtr) (c : UeContext) (pdn : Pdn) : State :=
  let callId := (s.callIdOffset + 1) % 2 ^ 32
  let gxSessId := env.timestamp ++ Nat.toDigits 10 callId
  let s := { s.setUe u { c with pdnHeap := c.pdnHeap.set 0 { pdn with callId, gxSessId } } with
    callIdOffset := callId
    pdnByCallId := s.pdnByCallId.insert callId (u, 0) }
  if env.ccrBuilt then { s with ueByGxSessId := s.ueByGxSessId.insert gxSessId u } else s

/-- `handle_csreq_msg` asks the PCRF for the policy, if Gx is on. -/
def startGx (env : Env) (s : State) (u : UePtr) : Result := do
  if s.gxEnabled = false then
    return s
  let c ← deref (s.ues.get u)
  let pdn ← deref (c.pdnHeap.get 0)
  return genCcrRequest env s u c pdn

/-- The part of `handle_create_session_request` behind the replacement: the procedure and its
transaction, and `handle_csreq_msg`. -/
def startAttach (env : Env) (s : State) (key : TransKey) (csr : CreateSessReq) : Result := do
  let q := s.procedures.procs.next
  let w := s.procedures
  let opened : Procedures :=
    { w with
      procs := w.procs.alloc { trans := update (fun _ => none) .gtp (some key) }
      trans := update w.trans .gtp ((w.trans .gtp).insert key q) }
  if csr.indicationOi then
    return { s with procedures := opened }
  match ← processCreateSessReq env s csr with
  | (s, none) =>
    -- `cs_error_response` and `end_procedure` take both away again.
    return { s with procedures :=
      { opened with
        procs := opened.procs.free q
        trans := update opened.trans .gtp ((opened.trans .gtp).erase key) } }
  | (s, some u) =>
    let c ← deref (s.ues.get u)
    startGx env { s.setUe u { c with pendingSubProcs := [q] } with procedures := opened } u

def handleCreateSessionRequest (env : Env) (s : State) (key : TransKey) (csr : CreateSessReq) :
    Result := do
  let s ← replaceOldContext s csr
  startAttach env s key csr

/-- The limits of `pdrs`, `qer_id` and `dynamic_rules` of a bearer. -/
def maxRules : ℕ := 16

def UeContext.addBearer (c : UeContext) (p : PdnPtr) (pdn : Pdn) (slot : Fin maxBearers)
    (qos : BearerQos) : UeContext :=
  { c with
    epsBearers := update c.epsBearers slot (some c.bearerHeap.next)
    pdnHeap := c.pdnHeap.set p
      { pdn with
        epsBearers := update pdn.epsBearers slot (some c.bearerHeap.next)
        numBearer := (pdn.numBearer + 1) % 256 }
    bearerHeap := c.bearerHeap.alloc { qos, pdn := p }
    overwritten := c.overwritten ++ (c.epsBearers slot).toList }

/-- A dedicated bearer. -/
def createBearer (gxEnabled : Bool) (c : UeContext) (p : PdnPtr) (qos : BearerQos) :
    Except Fault (UeContext × BearerPtr) := do
  let pdn ← deref (c.pdnHeap.get p)
  if h : pdn.numBearer < maxBearers then
    let b := c.bearerHeap.next
    let c := c.addBearer p pdn ⟨pdn.numBearer, h⟩ qos
    let i ← slotIndex pdn.defaultBearerId
    let _ ← deref (c.epsBearers i)
    -- With Gx, `fill_qer_entry` reads the bit rates of a rule that is `NULL`.
    if gxEnabled then
      throw .badPointer
    return (c, b)
  else
    throw .badPointer

def addAmbrQer (gxEnabled : Bool) (u : UePtr) (pdn : Pdn) (rc : Rules × UeContext) :
    Except Fault (Rules × UeContext) := do
  if gxEnabled = false then
    return rc
  let i ← slotIndex pdn.defaultBearerId
  let b ← deref (pdn.epsBearers i)
  let bearer ← deref (rc.2.bearerHeap.get b)
  if bearer.ambrQer then
    return rc
  if maxRules ≤ bearer.qerIds.length then
    throw .badPointer
  let (r, qer) := rc.1.addQer (u, b) .unknown
  return (r,
    { rc.2 with
      bearerHeap := rc.2.bearerHeap.set b
        { bearer with qerIds := bearer.qerIds ++ [qer], ambrQer := true } })

theorem EpsBearer.rules_le_concat (bearer : EpsBearer) (rule : DynamicRule) :
    2 * (bearer.dynamicRules ++ [rule]).length ≤ bearer.pdrCount + 2 := by
  have := bearer.rules_le
  simp only [List.length_append, List.length_singleton]
  omega

def installRule (gxEnabled : Bool) (u : UePtr) (pdn : Pdn) (rc : Rules × UeContext)
    (b : BearerPtr) (rule : DynamicRule) : Except Fault (Rules × UeContext) := do
  let (r, c) ← addAmbrQer gxEnabled u pdn rc
  let bearer ← deref (c.bearerHeap.get b)
  if maxRules ≤ bearer.dynamicRules.length ∨ maxRules < bearer.pdrCount + 2 ∨
      maxRules < bearer.qerIds.length + 2 then
    throw .badPointer
  let (r, qer₀) := r.addQer (u, b) .access
  let (r, pdr₀) := r.addPdr (u, b)
  let (r, qer₁) := r.addQer (u, b) .core
  let (r, pdr₁) := r.addPdr (u, b)
  return (r.addRuleName (ruleKey pdn.callId rule.ruleName) bearer.epsBearerId,
    { c with
      bearerHeap := c.bearerHeap.set b
        { bearer with
          pdrCount := bearer.pdrCount + 2
          dynamicRules := bearer.dynamicRules ++ [rule]
          rules_le := bearer.rules_le_concat rule
          pdrIds := bearer.pdrIds ++ [pdr₀, pdr₁]
          qerIds := bearer.qerIds ++ [qer₀, qer₁] } })

/-- One turn of the loop of `fill_pfcp_sess_est_req`. -/
def establishRule (gxEnabled : Bool) (u : UePtr) (p : PdnPtr) (rc : Rules × UeContext)
    (rule : PccRule) : Except Fault (Rules × UeContext) := do
  let pdn ← deref (rc.2.pdnHeap.get p)
  if pdn.defaultBearerQos = rule.dynRule.qos then
    let i ← slotIndex pdn.defaultBearerId
    let b ← deref (pdn.epsBearers i)
    installRule gxEnabled u pdn rc b rule.dynRule
  else
    match rc.2.getBearer pdn rule.dynRule.qos with
    | some b => installRule gxEnabled u pdn rc b rule.dynRule
    | none =>
      let (c, b) ← createBearer gxEnabled rc.2 p rule.dynRule.qos
      let pdn ← deref (c.pdnHeap.get p)
      installRule gxEnabled u pdn (rc.1, c) b rule.dynRule

def UeContext.setPending (c : UeContext) (p : PdnPtr) (pdn : Pdn) (rules : List PccRule) :
    UeContext :=
  { c with pdnHeap := c.pdnHeap.set p { pdn with pendingPccRules := rules } }

def fillPfcpSessEstReq (gxEnabled upfFound : Bool) (u : UePtr) (p : PdnPtr)
    (rc : Rules × UeContext) : Except Fault (Rules × UeContext) := do
  if upfFound = false then
    return rc
  let pdn ← deref (rc.2.pdnHeap.get p)
  if pdn.pendingPccRules = [] then
    throw .badPointer
  pdn.pendingPccRules.foldlM (establishRule gxEnabled u p) (rc.1, rc.2.setPending p pdn [])

def processPfcpSessEstRequest (s : State) (u : UePtr) (p : PdnPtr) (upfFound : Bool) : Result := do
  let c ← deref (s.ues.get u)
  let pdn ← deref (c.pdnHeap.get p)
  let i ← slotIndex pdn.defaultBearerId
  let _ ← deref (pdn.epsBearers i)
  let (r, c) ← fillPfcpSessEstReq s.gxEnabled upfFound u p (s.rules, c)
  return { s.setUe u c with rules := r, ueBySeid := s.ueBySeid.insert pdn.seid u }

/-- A rule of a bearer activation is attached to its bearer. -/
def attachRule (u : UePtr) (pdn : Pdn) (rc : Rules × UeContext) (b : BearerPtr)
    (bearerId : ℕ) (rule : DynamicRule) : Except Fault (Rules × UeContext) := do
  let bearer ← deref (rc.2.bearerHeap.get b)
  let attached ← bearer.toEpsBearer.attach rule
  let (r, pdr₀) := rc.1.addPdr (u, b)
  let r := r.addQerIntoHash (u, b) (bearer.qerIds.getD 0 0)
  let (r, pdr₁) := r.addPdr (u, b)
  let r := r.addQerIntoHash (u, b) (bearer.qerIds.getD 1 0)
  return (r.addRuleName (ruleKey pdn.callId rule.ruleName) bearerId,
    { rc.2 with
      bearerHeap := rc.2.bearerHeap.set b
        { bearer with toEpsBearer := attached, pdrIds := bearer.pdrIds ++ [pdr₀, pdr₁] } })

/-- The variables of `fill_pfcp_gx_sess_mod_req`. -/
structure Fill where
  rules : Rules
  context : UeContext
  bearerId : ℕ := 0
  newBearer : Bool := false

/-- The loop of `fill_pfcp_gx_sess_mod_req`, with the rules it leaves on the list. -/
def Fill.takeRules (gxEnabled : Bool) (u : UePtr) (p : PdnPtr) :
    Fill → List PccRule → Except Fault (Fill × List PccRule)
  | f, [] => pure (f, [])
  | f, rule :: rules => do
    let pdn ← deref (f.context.pdnHeap.get p)
    match rule.action with
    | .add =>
      match f.context.getBearer pdn rule.dynRule.qos with
      | some b =>
        let (r, c) ← attachRule u pdn (f.rules, f.context) b f.bearerId rule.dynRule
        takeRules gxEnabled u p { f with rules := r, context := c } rules
      | none =>
        if f.newBearer then
          throw .assertion
        let (c, b) ← createBearer gxEnabled f.context p rule.dynRule.qos
        let (r, c) ← attachRule u pdn (f.rules, c) b pdn.numBearer rule.dynRule
        takeRules gxEnabled u p
          { rules := r, context := c, bearerId := pdn.numBearer, newBearer := true } rules
    | .modify =>
      if (f.context.getBearer pdn rule.dynRule.qos).isSome then
        takeRules gxEnabled u p f rules
      else
        pure (f, rule :: rules)
    | .delete => takeRules gxEnabled u p f rules

def fillPfcpGxSessModReq (gxEnabled : Bool) (u : UePtr) (p : PdnPtr) (rc : Rules × UeContext) :
    Except Fault (Rules × UeContext) := do
  let pdn ← deref (rc.2.pdnHeap.get p)
  let (f, left) ← Fill.takeRules gxEnabled u p { rules := rc.1, context := rc.2 } pdn.pendingPccRules
  let pdn ← deref (f.context.pdnHeap.get p)
  return (f.rules, f.context.setPending p pdn left)

/-- The loop of `process_rar_request_handler` over the rules to add; `admitted` says that a bearer
activation runs at once. -/
def activateBearers (gxEnabled admitted : Bool) (u : UePtr) (p : PdnPtr) (rc : Rules × UeContext) :
    Except Fault (Rules × UeContext) := do
  let pdn ← deref (rc.2.pdnHeap.get p)
  if (rc.2.policy pdn).needsBearer = false then
    return rc
  if admitted = false then
    throw .badPointer
  let (r, c) ← fillPfcpGxSessModReq gxEnabled u p rc
  let pdn ← deref (c.pdnHeap.get p)
  if (c.policy pdn).needsBearer then
    throw .badPointer
  return (r, c)

def processRarRequestHandler (s : State) (u : UePtr) (p : PdnPtr) (release admitted : Bool)
    (rules : List PccRule) : Result := do
  let c ← deref (s.ues.get u)
  let pdn ← deref (c.pdnHeap.get p)
  let c := c.setPending p pdn (pdn.pendingPccRules ++ rules)
  if release then
    return s.setUe u c
  let (r, c) ← activateBearers s.gxEnabled admitted u p (s.rules, c)
  let pdn ← deref (c.pdnHeap.get p)
  match ← (c.policy pdn).ruleToDelete r.ruleNames with
  | true => return { s.setUe u c with rules := r }
  | false => throw .endless

/-- `process_sgwc_create_bearer_rsp`. -/
def processCreateBearerRsp (s : State) (u : UePtr) (ebi : ℕ) : Result := do
  let c ← deref (s.ues.get u)
  let i ← slotIndex ebi
  match c.epsBearers i with
  | none => pure s
  | some b =>
    let bearer ← deref (c.bearerHeap.get b)
    return s.setUe u { c with
      bearerHeap := c.bearerHeap.set b { bearer with epsBearerId := ebi } }

/-- What a Gx answer or the default rule writes: the QoS of the default bearer and of the policy, new
rules, and the rule that `check_for_rules_on_default_bearer` enters in the table of names. -/
structure PolicyUpdate where
  bearerQos : Option BearerQos := none
  policyQos : Option BearerQos := none
  rules : List PccRule := []
  named : Option RuleName := none

def storePolicy (s : State) (u : UePtr) (p : PdnPtr) (update : PolicyUpdate) : Result := do
  let c ← deref (s.ues.get u)
  let pdn ← deref (c.pdnHeap.get p)
  let i ← slotIndex pdn.defaultBearerId
  let b ← deref (pdn.epsBearers i)
  let bearer ← deref (c.bearerHeap.get b)
  let rules := match update.named with
    | none => s.rules
    | some name => s.rules.addRuleName (ruleKey pdn.callId name) (pdn.defaultBearerId - 5)
  return { s.setUe u { c with
      bearerHeap := c.bearerHeap.set b { bearer with qos := update.bearerQos.getD bearer.qos }
      pdnHeap := c.pdnHeap.set p { pdn with
        defaultBearerQos := update.policyQos.getD pdn.defaultBearerQos
        pendingPccRules := pdn.pendingPccRules ++ update.rules } } with rules }

inductive Event
  | config (gxEnabled : Bool)
  | procedures (procedures : Procedures)
  | queue (u : UePtr) (queue : List ProcId)
  | createSessionRequest (env : Env) (key : TransKey) (csr : CreateSessReq)
  | policy (u : UePtr) (p : PdnPtr) (update : PolicyUpdate)
  | sessionEstablishment (u : UePtr) (p : PdnPtr) (upfFound : Bool)
  | reAuthRequest (u : UePtr) (p : PdnPtr) (release admitted : Bool) (rules : List PccRule)
  | createBearerResponse (u : UePtr) (ebi : ℕ)
  | release (u : UePtr) (p : PdnPtr)

def step (s : State) : Event → Result
  | .config gxEnabled => pure { s with gxEnabled }
  | .procedures procedures => pure { s with procedures }
  | .queue u queue => do
    let c ← deref (s.ues.get u)
    return s.setUe u { c with pendingSubProcs := queue }
  | .createSessionRequest env key csr => handleCreateSessionRequest env s key csr
  | .policy u p update => storePolicy s u p update
  | .sessionEstablishment u p upfFound => processPfcpSessEstRequest s u p upfFound
  | .reAuthRequest u p release admitted rules => processRarRequestHandler s u p release admitted rules
  | .createBearerResponse u ebi => processCreateBearerRsp s u ebi
  | .release u p => releaseSession s u p

/-- A step of a run; `none` is the end of the process. -/
def next (s : State) (e : Event) : Option State := (step s e).toOption

def initial (gxEnabled : Bool) : State := { gxEnabled }

end Spgw.Bearer
