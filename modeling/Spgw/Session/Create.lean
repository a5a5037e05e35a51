/-
# Creating a session

`process_create_sess_req` (`cp/procedures/proc_initial_attach.c`) selects a UPF, takes a UE address
and creates the UE context (`create_ue_context`, `cp/ue.c`).
-/

import Spgw.Session.State

namespace Spgw.Session

def causeRequestAccepted : ℕ := 16
def causeContextNotFound : ℕ := 64
def causeInvalidMessageFormat : ℕ := 65
def causeMandatoryIeMissing : ℕ := 70
def causeSystemFailure : ℕ := 72
def causeMissingUnknownApn : ℕ := 78
def causePreferredPdnTypeUnsupported : ℕ := 83
def causeAllDynamicAddressesOccupied : ℕ := 84
def causeRequestRejected : ℕ := 94
def causeImsiNotKnown : ℕ := 96
def causeRemotePeerNotResponding : ℕ := 100
def causeInvalidReplyFromRemotePeer : ℕ := 107

def pdnIpTypeIpv4 : ℕ := 1
def pdnIpTypeIpv6 : ℕ := 2
def pdnIpTypeIpv4v6 : ℕ := 3

def validateCsreqMsg (csr : CreateSessReq) : ℕ :=
  if csr.indicationUimsi then causeImsiNotKnown
  else if csr.bearerContextLen = 0 ∨ csr.senderFteidLen = 0 ∨ csr.imsiLen = 0 ∨
      csr.apnAmbrLen = 0 ∨ csr.pdnTypeLen = 0 ∨ csr.bearerQosLen = 0 ∨ csr.ratTypeLen = 0 ∨
      csr.pdnType ≠ pdnIpTypeIpv4 then causeMandatoryIeMissing
  else if csr.pdnType = pdnIpTypeIpv6 ∨ csr.pdnType = pdnIpTypeIpv4v6 then
    causePreferredPdnTypeUnsupported
  else 0

/-- What a Create Session Request finds: the answers of the resolver to the UPF selection and to a new
association, whether the allocations of `create_ue_context` succeed and the CCR-I can be built. -/
structure Env where
  dns : Ipv4 := 0
  assocDns : Ipv4 := 0
  contextAlloc : Bool := true
  bearerAlloc : Bool := true
  pdnAlloc : Bool := true
  ccrBuilt : Bool := true

/-- The key of the IMSI table: the IMSI bytes are copied over `UINT64_MAX`. -/
def imsiKey (csr : CreateSessReq) : Except Fault ℕ :=
  if csr.imsiLen ≤ 8 then
    .ok (csr.imsiDigits % 256 ^ csr.imsiLen + (256 ^ 8 - 256 ^ csr.imsiLen))
  else
    .error .badPointer

def getUpfContext (s : State) (service : Service) (globalAddress : Bool) (dns : Ipv4) :
    State × Upf :=
  match s.upfs service with
  | none =>
    let upf : Upf := { addr := dns, globalAddress }
    (s.setUpf service upf, upf)
  | some upf =>
    if upf.addr = 0 then
      let upf := { upf with globalAddress, addr := dns }
      (s.setUpf service upf, upf)
    else
      (s, upf)

def sessId (teid ebi : ℕ) : ℕ := teid * 16 % 2 ^ 64 + ebi % 16

def ueSessId (seid : ℕ) : ℕ := seid % 2 ^ 32 / 16

/-- `s11_sgw_gtpc_base_teid + s11_sgw_gtpc_teid_offset`. -/
def State.nextTeid (s : State) : ℕ := (0xC0FFEE + s.teidOffset) % 2 ^ 32

/-- The outcome of `create_ue_context` and `process_create_sess_req`: a cause, or
the new contexts. -/
inductive Created
  | rejected (cause : ℕ)
  | created (ue : UePtr) (pdn : PdnPtr)
  deriving DecidableEq

/-- The UE context as `create_ue_context` first enters it in the tables. -/
def addUeContext (s : State) (imsi : ℕ) : State :=
  { s with
    ues := s.ues.alloc { imsi, s11SgwGtpcTeid := s.nextTeid }
    ueByImsi := s.ueByImsi.insert imsi s.ues.next
    ueByTeid := s.ueByTeid.insert s.nextTeid s.ues.next
    teidOffset := s.teidOffset + 1 }

def createUeContext (env : Env) (s : State) (csr : CreateSessReq) :
    Except Fault (State × Created) := do
  let imsi ← imsiKey csr
  match s.ueByImsi imsi with
  | some _ => .ok (s, .rejected causeRequestRejected)
  | none =>
    if env.contextAlloc = false then
      return (s, .rejected causeSystemFailure)
    let ue := s.ues.next
    let teid := s.nextTeid
    let s := addUeContext s imsi
    if csr.ebi < 5 then
      throw .badPointer
    if env.bearerAlloc = false ∨ env.pdnAlloc = false then
      return (s, .rejected causeSystemFailure)
    let pdn := s.pdns.next
    let context ← deref (s.ues.get ue)
    let s := { s with
      pdns := s.pdns.alloc { defaultBearerId := csr.ebi }
      pdnByTeid := s.pdnByTeid.insert teid pdn }
    return (s.setUe ue { context with pdn := some pdn }, .created ue pdn)

structure AddrChoice where
  ueIp : Ipv4 := 0
  staticAddrPdn : Bool := false
  upfAlloc : Bool := false

/-- The address step of `process_create_sess_req`: none is a cause to reject. -/
def chooseAddress (s : State) (csr : CreateSessReq) (upf : Upf) : State × (ℕ ⊕ AddrChoice) :=
  if csr.paaPdnType = pdnIpTypeIpv4 ∧ csr.paaAddr ≠ 0 then
    match s.staticPool.reserveIpNode (ntohl csr.paaAddr) with
    | (false, _) => (s, .inl causeRequestRejected)
    | (true, pool) =>
      ({ s with staticPool := pool }, .inr { ueIp := csr.paaAddr, staticAddrPdn := true })
  else if upf.ueip then
    (s, .inr { upfAlloc := true })
  else if upf.globalAddress then
    match acquireIp s.dynamicPool with
    | (none, pool) => ({ s with dynamicPool := pool }, .inl causeAllDynamicAddressesOccupied)
    | (some ueIp, pool) => ({ s with dynamicPool := pool }, .inr { ueIp })
  else
    (s, .inr { upfAlloc := true })

/-- The address is given back when `create_ue_context` has failed, unless it is
static. -/
def giveBack (s : State) (addr : AddrChoice) : State :=
  if addr.staticAddrPdn then s
  else { s with dynamicPool := releaseIp s.dynamicPool (ntohl addr.ueIp) }

def processCreateSessReq (cfg : Config) (env : Env) (s : State) (csr : CreateSessReq) :
    Except Fault (State × Created) := do
  if cfg.matchApnProfile csr.apn = false then
    return (s, .rejected causeMissingUnknownApn)
  match cfg.matchSubSelection csr with
  | none => .ok (s, .rejected causeRequestRejected)
  | some sub =>
    let (s, upf) := getUpfContext s sub.userPlaneService sub.globalAddress env.dns
    if upf.addr = 0 then
      return (s, .rejected causeRequestRejected)
    match chooseAddress s csr upf with
    | (s, .inl cause) => .ok (s, .rejected cause)
    | (s, .inr addr) =>
      match ← createUeContext env s csr with
      | (s, .rejected cause) => .ok (giveBack s addr, .rejected cause)
      | (s, .created ue pdn) =>
        let context ← deref (s.ues.get ue)
        let s := s.setPdn pdn
          { context := some ue
            defaultBearerId := csr.ebi
            seid := sessId context.s11SgwGtpcTeid csr.ebi
            ipv4 := ntohl addr.ueIp
            staticAddr := addr.staticAddrPdn
            allocControl := !addr.upfAlloc
            allocUpf := addr.upfAlloc }
        let s := s.setUe ue { context with upfContext := some sub.userPlaneService }
        return (s, .created ue pdn)

open Machine

inductive AddrKind
  | static
  | upf
  | dynamic
  deriving DecidableEq

def addrKind (csr : CreateSessReq) (upf : Upf) : AddrKind :=
  if csr.paaPdnType = pdnIpTypeIpv4 ∧ csr.paaAddr ≠ 0 then .static
  else if upf.ueip then .upf
  else if upf.globalAddress then .dynamic
  else .upf

theorem chooseAddress_cases (s : State) (csr : CreateSessReq) (upf : Upf) :
    (addrKind csr upf = .static ∧ s.staticPool.used? (ntohl csr.paaAddr) ≠ some false ∧
      chooseAddress s csr upf = (s, .inl causeRequestRejected)) ∨
    (addrKind csr upf = .static ∧ s.staticPool.used? (ntohl csr.paaAddr) = some false ∧
      chooseAddress s csr upf =
        ({ s with staticPool := s.staticPool.setUsed (ntohl csr.paaAddr) true },
          .inr { ueIp := csr.paaAddr, staticAddrPdn := true })) ∨
    (addrKind csr upf = .upf ∧ chooseAddress s csr upf = (s, .inr { upfAlloc := true })) ∨
    (addrKind csr upf = .dynamic ∧ s.dynamicPool.head?.getD 0 = 0 ∧ chooseAddress s csr upf =
      ({ s with dynamicPool := s.dynamicPool.tail }, .inl causeAllDynamicAddressesOccupied)) ∨
    (addrKind csr upf = .dynamic ∧ ∃ a rest, a ≠ 0 ∧ s.dynamicPool = a :: rest ∧
      chooseAddress s csr upf = ({ s with dynamicPool := rest }, .inr { ueIp := htonl a })) := by
  unfold chooseAddress addrKind
  split_ifs with hstatic hueip hglobal
  · unfold StaticPool.reserveIpNode
    cases hused : s.staticPool.used? (ntohl csr.paaAddr) with
    | none => exact Or.inl ⟨rfl, by simp, rfl⟩
    | some used =>
      cases used with
      | true => exact Or.inl ⟨rfl, by simp, rfl⟩
      | false => exact Or.inr (Or.inl ⟨rfl, rfl, rfl⟩)
  · exact Or.inr (Or.inr (Or.inl ⟨rfl, rfl⟩))
  · refine Or.inr (Or.inr (Or.inr ?_))
    rcases acquireIp_cases s.dynamicPool with ⟨hpool, hacq⟩ | ⟨rest, hpool, hacq⟩ |
      ⟨a, rest, ha, hpool, hacq⟩
    · exact Or.inl ⟨rfl, by rw [hpool]; rfl, by rw [hacq, hpool]; rfl⟩
    · exact Or.inl ⟨rfl, by rw [hpool]; rfl, by rw [hacq, hpool]; rfl⟩
    · exact Or.inr ⟨rfl, a, rest, ha, hpool, by rw [hacq]⟩
  · exact Or.inr (Or.inr (Or.inl ⟨rfl, rfl⟩))

theorem exists_getUpfContext_eq (s : State) (service : Service) (glob : Bool)
    (dns : Ipv4) : ∃ upfs, (getUpfContext s service glob dns).1 = { s with upfs } := by
  unfold getUpfContext
  split
  · exact ⟨_, rfl⟩
  · split_ifs
    · exact ⟨_, rfl⟩
    · exact ⟨s.upfs, rfl⟩

theorem exists_chooseAddress_eq (s : State) (csr : CreateSessReq) (upf : Upf) :
    ∃ dynamicPool staticPool, (chooseAddress s csr upf).1 = { s with dynamicPool, staticPool } := by
  rcases chooseAddress_cases s csr upf with ⟨-, -, heq⟩ | ⟨-, -, heq⟩ | ⟨-, heq⟩ |
    ⟨-, -, heq⟩ | ⟨-, a, rest, -, -, heq⟩ <;> rw [heq] <;> exact ⟨_, _, rfl⟩

theorem exists_giveBack_eq (s : State) (addr : AddrChoice) :
    ∃ dynamicPool, giveBack s addr = { s with dynamicPool } := by
  unfold giveBack
  split_ifs
  · exact ⟨s.dynamicPool, rfl⟩
  · exact ⟨_, rfl⟩

theorem imsiKey_eq_error {csr : CreateSessReq} {f : Fault} (h : imsiKey csr = .error f) :
    f = .badPointer := by
  unfold imsiKey at h
  split_ifs at h
  exact (Except.error.inj h).symm

/-- An allocation of `create_ue_context` fails, or the IMSI is in its table. -/
def createFails (env : Env) (ueByImsi : Table ℕ UePtr) (csr : CreateSessReq) : Bool :=
  !env.contextAlloc || !env.bearerAlloc || !env.pdnAlloc ||
    match imsiKey csr with
    | .ok imsi => (ueByImsi imsi).isSome
    | .error _ => false

/-- The state after a successful `create_ue_context`. -/
def openContext (s : State) (imsi ebi : ℕ) : State :=
  { s with
    ues := s.ues.alloc { imsi, s11SgwGtpcTeid := s.nextTeid, pdn := some s.pdns.next }
    pdns := s.pdns.alloc { defaultBearerId := ebi }
    ueByImsi := s.ueByImsi.insert imsi s.ues.next
    ueByTeid := s.ueByTeid.insert s.nextTeid s.ues.next
    pdnByTeid := s.pdnByTeid.insert s.nextTeid s.pdns.next
    teidOffset := s.teidOffset + 1 }

/-- **The three ways through `create_ue_context`** -/
theorem createUeContext_spec {E : Fault → Prop} (hbad : E .badPointer) (env : Env) (s : State)
    (csr : CreateSessReq) :
    Sat (createUeContext env s csr) (fun r =>
      (createFails env s.ueByImsi csr = true ∧ (∃ cause, r = (s, .rejected cause)) ∧
        (env.contextAlloc = false ∨ ∃ imsi, imsiKey csr = .ok imsi ∧ s.ueByImsi imsi ≠ none)) ∨
      (createFails env s.ueByImsi csr = true ∧ ∃ imsi, imsiKey csr = .ok imsi ∧
        s.ueByImsi imsi = none ∧ env.contextAlloc = true ∧
        r = (addUeContext s imsi, .rejected causeSystemFailure)) ∨
      (createFails env s.ueByImsi csr = false ∧ ∃ imsi, imsiKey csr = .ok imsi ∧
        s.ueByImsi imsi = none ∧
        r = (openContext s imsi csr.ebi, .created s.ues.next s.pdns.next))) E := by
  unfold createUeContext createFails
  cases himsi : imsiKey csr with
  | error f =>
    obtain rfl := imsiKey_eq_error himsi
    exact hbad
  | ok imsi =>
    dsimp only [bind, Except.bind]
    cases hknown : s.ueByImsi imsi with
    | some u => exact Or.inl ⟨by simp, ⟨_, rfl⟩, Or.inr ⟨imsi, rfl, by simp [hknown]⟩⟩
    | none =>
      dsimp only
      by_cases hctx : env.contextAlloc = false
      · rw [if_pos hctx]
        exact Or.inl ⟨by simp [hctx], ⟨_, rfl⟩, Or.inl hctx⟩
      rw [if_neg hctx]
      by_cases hebi : csr.ebi < 5
      · rw [if_pos hebi]
        exact hbad
      rw [if_neg hebi]
      by_cases hrecords : env.bearerAlloc = false ∨ env.pdnAlloc = false
      · rw [if_pos hrecords]
        refine Or.inr (Or.inl ⟨?_, imsi, rfl, hknown, by simpa using hctx, rfl⟩)
        rcases hrecords with h | h <;> simp [h]
      · rw [if_neg hrecords]
        have hget : (addUeContext s imsi).ues.get s.ues.next =
            some { imsi, s11SgwGtpcTeid := s.nextTeid } := by
          simp [addUeContext, Heap.get_alloc]
        rw [hget]
        refine Or.inr (Or.inr ⟨?_, imsi, rfl, hknown, ?_⟩)
        · simp only [not_or, Bool.not_eq_false] at hctx hrecords
          simp [hctx, hrecords]
        · simp [openContext, addUeContext, State.setUe, Heap.set_alloc]

def newPdn (s : State) (csr : CreateSessReq) (addr : AddrChoice) : Pdn :=
  { context := some s.ues.next
    defaultBearerId := csr.ebi
    seid := sessId s.nextTeid csr.ebi
    ipv4 := ntohl addr.ueIp
    staticAddr := addr.staticAddrPdn
    allocControl := !addr.upfAlloc
    allocUpf := addr.upfAlloc }

def openSession (s : State) (imsi : ℕ) (csr : CreateSessReq) (addr : AddrChoice)
    (service : Service) : State :=
  { openContext s imsi csr.ebi with
    ues := s.ues.alloc
      { imsi, s11SgwGtpcTeid := s.nextTeid, pdn := some s.pdns.next, upfContext := some service }
    pdns := s.pdns.alloc (newPdn s csr addr) }

/-- The ways through `process_create_sess_req` once the UPF is selected. -/
inductive ProcessOutcome (env : Env) (s : State) (upf : Upf) (csr : CreateSessReq)
    (service : Service) : State × Created → Prop
  | unresolved (hupf : upf.addr = 0) :
      ProcessOutcome env s upf csr service (s, .rejected causeRequestRejected)
  | noAddress {t : State} {cause : ℕ} (hupf : upf.addr ≠ 0)
      (haddr : chooseAddress s csr upf = (t, .inl cause)) :
      ProcessOutcome env s upf csr service (t, .rejected cause)
  | refused {t : State} {addr : AddrChoice} {cause : ℕ} (hupf : upf.addr ≠ 0)
      (haddr : chooseAddress s csr upf = (t, .inr addr))
      (hfails : createFails env t.ueByImsi csr = true)
      (hwhy : env.contextAlloc = false ∨ ∃ imsi, imsiKey csr = .ok imsi ∧ t.ueByImsi imsi ≠ none) :
      ProcessOutcome env s upf csr service (giveBack t addr, .rejected cause)
  | halfway {t : State} {addr : AddrChoice} {imsi : ℕ} (hupf : upf.addr ≠ 0)
      (haddr : chooseAddress s csr upf = (t, .inr addr))
      (hfails : createFails env t.ueByImsi csr = true) (himsi : imsiKey csr = .ok imsi)
      (hnew : t.ueByImsi imsi = none) (hctx : env.contextAlloc = true) :
      ProcessOutcome env s upf csr service
        (giveBack (addUeContext t imsi) addr, .rejected causeSystemFailure)
  | opened {t : State} {addr : AddrChoice} {imsi : ℕ} (hupf : upf.addr ≠ 0)
      (haddr : chooseAddress s csr upf = (t, .inr addr))
      (hcreates : createFails env t.ueByImsi csr = false) (himsi : imsiKey csr = .ok imsi)
      (hnew : t.ueByImsi imsi = none) :
      ProcessOutcome env s upf csr service
        (openSession t imsi csr addr service, .created t.ues.next t.pdns.next)

/-- **The ways through `process_create_sess_req`.** -/
theorem processCreateSessReq_spec {E : Fault → Prop} (hbad : E .badPointer) (cfg : Config)
    (env : Env) (s : State) (csr : CreateSessReq) :
    Sat (processCreateSessReq cfg env s csr) (fun r =>
      ((cfg.matchApnProfile csr.apn = false ∨ cfg.matchSubSelection csr = none) ∧
        ∃ cause, r = (s, .rejected cause)) ∨
      cfg.matchApnProfile csr.apn = true ∧ ∃ sub, cfg.matchSubSelection csr = some sub ∧
        ProcessOutcome env
          (getUpfContext s sub.userPlaneService sub.globalAddress env.dns).1
          (getUpfContext s sub.userPlaneService sub.globalAddress env.dns).2
          csr sub.userPlaneService r) E := by
  unfold processCreateSessReq
  by_cases hapn : cfg.matchApnProfile csr.apn = false
  · rw [if_pos hapn]
    exact Or.inl ⟨Or.inl hapn, _, rfl⟩
  rw [if_neg hapn]
  rw [Bool.not_eq_false] at hapn
  cases hsub : cfg.matchSubSelection csr with
  | none => exact Or.inl ⟨Or.inr rfl, _, rfl⟩
  | some sub =>
    rcases hupf : getUpfContext s sub.userPlaneService sub.globalAddress env.dns with ⟨t, upf⟩
    dsimp only
    rw [hupf]
    dsimp only
    by_cases haddr : upf.addr = 0
    · rw [if_pos haddr]
      exact Or.inr ⟨hapn, sub, rfl, by rw [hupf]; exact .unresolved haddr⟩
    rw [if_neg haddr]
    rcases hchoice : chooseAddress t csr upf with ⟨u, cause | addr⟩
    · exact Or.inr ⟨hapn, sub, rfl, by rw [hupf]; exact .noAddress haddr hchoice⟩
    dsimp only
    refine (createUeContext_spec hbad env u csr).bind fun r hr => ?_
    rcases hr with ⟨hfails, ⟨cause, rfl⟩, hwhy⟩ | ⟨hfails, imsi, himsi, hnew, hctx, rfl⟩ |
      ⟨hcreates, imsi, himsi, hnew, rfl⟩
    · exact Or.inr ⟨hapn, sub, rfl, by rw [hupf]; exact .refused haddr hchoice hfails hwhy⟩
    · refine Or.inr ⟨hapn, sub, rfl, ?_⟩
      rw [hupf]
      exact .halfway haddr hchoice hfails himsi hnew hctx
    · dsimp only
      have hget : (openContext u imsi csr.ebi).ues.get u.ues.next =
          some { imsi, s11SgwGtpcTeid := u.nextTeid, pdn := some u.pdns.next } := by
        simp [openContext, Heap.get_alloc]
      rw [hget]
      refine Or.inr ⟨hapn, sub, rfl, ?_⟩
      have hopen : ((openContext u imsi csr.ebi).setPdn u.pdns.next (newPdn u csr addr)).setUe
          u.ues.next
          { imsi
            s11SgwGtpcTeid := u.nextTeid
            pdn := some u.pdns.next
            upfContext := some sub.userPlaneService } =
          openSession u imsi csr addr sub.userPlaneService := by
        simp [openSession, openContext, State.setUe, State.setPdn, Heap.set_alloc]
      have hout : ProcessOutcome env t upf csr sub.userPlaneService
          (openSession u imsi csr addr sub.userPlaneService, .created u.ues.next u.pdns.next) :=
        .opened haddr hchoice hcreates himsi hnew
      rw [← hopen] at hout
      rw [hupf]
      exact hout

end Spgw.Session
