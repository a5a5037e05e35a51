/-
# What the handlers of an attach keep

The handlers of an attach write a UPF, the attach, and an address that is handed over; they add UE
contexts and PDNs, and make attaches fail.
-/

import Spgw.Session.Endings
import Spgw.Session.Frame

namespace Spgw.Session

open Machine

/-- `initiate_upf_session` rejects the attach: the UPF is associated and allocates no
addresses, but is to choose the one of the PDN. -/
def upfRejects (s : State) (proc : Procedure) (q : Option PdnPtr) : Bool :=
  (upfOf s proc).any fun upf => upf.state = .assocRespRcvd && !upf.ueip &&
    (q.bind s.pdns.get).any (·.allocUpf)

def linkedSession (s : State) (p : ProcId) (proc : Procedure) (context : UeContext) (imsi : ℕ)
    (csr : CreateSessReq) (addr : AddrChoice) (service : Service) : State :=
  ((openSession s imsi csr addr service).setUe s.ues.next
    { context with pendingSubProcs := context.pendingSubProcs ++ [p] }).setProc p proc

/-- The predicate `I` survives what the handlers of an attach do. -/
structure Kept (E : Fault → Prop) (Slot : Procedure → Prop) (Room : ℕ → Prop)
    (I : State → Prop) : Prop where
  pointer : E .badPointer
  endless : E .endless
  slot : ∀ {proc : Procedure}, proc.msgInfo.msgType ≠ .createSessionReq →
    proc.msgInfo.msgType ≠ .gxCca → Slot proc
  gx : ∀ {s p proc}, I s → s.procs.get p = some proc → proc.gxTrans = true →
    proc.procType = .initialPdnAttach
  pending : ∀ {s service upf}, I s → s.upfs service = some upf →
    ∀ p ∈ upf.pendingSubProcs, Attach s.procs p
  setUpf : ∀ {s service upf}, I s → (∀ p ∈ upf.pendingSubProcs, Attach s.procs p) →
    I (s.setUpf service upf)
  setProc : ∀ {s p proc} {msgInfo gxTrans pfcpTrans}, I s → s.procs.get p = some proc →
    proc.procType = .initialPdnAttach → (gxTrans = true → proc.gxTrans = true) →
    (proc.ueContext = none → pfcpTrans = proc.pfcpTrans) →
    I (s.setProc p { proc with msgInfo, gxTrans, pfcpTrans })
  pools : ∀ {s dynamicPool staticPool}, I s → I { s with dynamicPool, staticPool }
  setPdn : ∀ {s q pdn} {b : Pdn}, I s → s.pdns.get q = some pdn → b.context = pdn.context →
    b.seid = pdn.seid → b.defaultBearerId = pdn.defaultBearerId → I (s.setPdn q b)
  fail : ∀ {s p proc} cause, I s → s.procs.get p = some proc →
    proc.procType = .initialPdnAttach → Slot proc → Sat (procInitialAttachFailure s p cause) I E
  addUe : ∀ {s} imsi, I s → Room s.teidOffset → I (addUeContext s imsi)
  link : ∀ {s p key csr imsi addr service context} gxTrans, I s → Room s.teidOffset →
    s.procs.get p = some (csreqProc key csr) → csr.indicationOi = false →
    (openSession s imsi csr addr service).ues.get s.ues.next = some context →
    I (linkedSession s p { csreqProc key csr with
        ueContext := some s.ues.next
        pdnContext := some s.pdns.next
        msgInfo := { (csreqProc key csr).msgInfo with pdnContext := some s.pdns.next }
        gxTrans } context imsi csr addr service)

theorem get_setProc {s : State} {p : ProcId} {proc : Procedure} (hp : s.procs.get p = some proc)
    (b : Procedure) : (s.setProc p b).procs.get p = some b :=
  (Heap.get_set hp).trans (if_pos rfl)

theorem Attach.of_get {procs : Heap Procedure} {p : ProcId} {proc : Procedure}
    (hp : procs.get p = some proc) (htype : proc.procType = .initialPdnAttach) :
    Attach procs p := by
  refine ⟨Heap.lt_next_of_get hp, fun b hb => ?_⟩
  cases hp.symm.trans hb
  exact htype

theorem Attach.keeps {s t : State} {p : ProcId} (h : Attach s.procs p) (hkeeps : Keeps s t) :
    Attach t.procs p := by
  refine ⟨hkeeps.next ▸ h.1, fun proc hproc => ?_⟩
  obtain ⟨proc₀, hproc₀, hsame⟩ := hkeeps.procs p proc hproc
  exact hsame.procType.trans (h.2 proc₀ hproc₀)

theorem exists_forgetPending_eq (s : State) (service : Option Service) (queue : List ProcId) :
    ∃ upfs, forgetPending s service queue = { s with upfs } := by
  unfold forgetPending
  split
  · exact ⟨s.upfs, rfl⟩
  · split
    · exact ⟨s.upfs, rfl⟩
    · exact ⟨_, rfl⟩

theorem procs_popPending (s : State) (service : Service) (rest : List ProcId) :
    (popPending s service rest).procs = s.procs := by
  unfold popPending
  split <;> rfl

namespace Kept

variable {E : Fault → Prop} {Slot : Procedure → Prop} {Room : ℕ → Prop} {I : State → Prop}
  {s : State} {p : ProcId} {proc : Procedure}

theorem deref_bind (hI : Kept E Slot Room I) {α β : Type} {o : Option α} {f : α → Except Fault β}
    {Q : β → Prop} (h : ∀ a, o = some a → Sat (f a) Q E) : Sat (deref o >>= f) Q E :=
  (sat_deref fun _ => hI.pointer).bind h

theorem giveBack (hI : Kept E Slot Room I) (h : I s) (addr : AddrChoice) :
    I (Session.giveBack s addr) ∧ (Session.giveBack s addr).procs = s.procs := by
  obtain ⟨dynamicPool, heq⟩ := exists_giveBack_eq s addr
  rw [heq]
  exact ⟨hI.pools h, rfl⟩

theorem writeUpf (hI : Kept E Slot Room I) (h : I s) {service : Service} {a b : Upf}
    (ha : s.upfs service = some a) (hb : b.pendingSubProcs = a.pendingSubProcs) :
    I (s.setUpf service b) := by
  refine hI.setUpf h ?_
  rw [hb]
  exact hI.pending h ha

theorem associationSetup (hI : Kept E Slot Room I) (h : I s) {service : Service} (dns : Ipv4)
    (hstate : ∀ upf, s.upfs service = some upf → upf.state ≠ .assocRespRcvd) :
    Sat (associationSetup s service dns) I E := by
  unfold Session.associationSetup
  refine hI.deref_bind fun upf hupf => ?_
  refine (sat_assert fun hne => absurd (hstate upf hupf) hne).bind fun _ _ => sat_pure ?_
  exact hI.writeUpf h hupf rfl

theorem bufferCsrRequest (hI : Kept E Slot Room I) (h : I s) {service : Service} {upf : Upf}
    (hupf : s.upfs service = some upf) (hp : s.procs.get p = some proc)
    (htype : proc.procType = .initialPdnAttach) : I (bufferCsrRequest s service upf p) := by
  refine hI.setUpf h fun q hq => ?_
  rcases List.mem_cons.mp hq with rfl | hq
  · exact .of_get hp htype
  · exact hI.pending h hupf q hq

theorem handOverAddress (hI : Kept E Slot Room I) (h : I s) {q : PdnPtr} {pdn : Pdn}
    (hq : s.pdns.get q = some pdn) : I (handOverAddress s q pdn) := by
  unfold Session.handOverAddress
  split_ifs
  · exact hI.setPdn (hI.pools h) hq rfl rfl rfl
  · exact h

/-- **An attach goes on with its user plane session, or is rejected.** -/
theorem initiateUpfSession (hI : Kept E Slot Room I) (h : I s) (dns : Ipv4)
    (hp : s.procs.get p = some proc) (htype : proc.procType = .initialPdnAttach)
    (hslot : upfRejects s proc proc.msgInfo.pdnContext = true → Slot proc) :
    Sat (initiateUpfSession s p dns) I E := by
  unfold Session.initiateUpfSession
  refine hI.deref_bind fun proc' hp' => ?_
  cases hp.symm.trans hp'
  refine hI.deref_bind fun u hu => ?_
  refine hI.deref_bind fun context hctx => ?_
  refine hI.deref_bind fun service hservice => ?_
  refine hI.deref_bind fun upf hupf => ?_
  have hpfcp {t : State} (ht : I t) (hprocs : t.procs = s.procs) :
      I (t.setProc p { proc with pfcpTrans := some 0 }) :=
    hI.setProc ht (hprocs ▸ hp) htype id fun hnone => by simp [hu] at hnone
  have hbuffer := hI.bufferCsrRequest h hupf hp htype
  split
  · exact sat_pure hbuffer
  · next hstate =>
    refine hI.deref_bind fun q hq => ?_
    refine hI.deref_bind fun pdn hpdn => ?_
    by_cases hreject : upf.ueip = false ∧ pdn.allocUpf = true
    · rw [if_pos hreject]
      refine hI.fail _ h hp htype (hslot ?_)
      have hof : upfOf s proc = some upf :=
        upfOf_eq_some.mpr ⟨u, context, service, hu, hctx, hservice, hupf⟩
      simp [upfRejects, hof, hstate, hreject, hq, hpdn]
    · rw [if_neg hreject]
      refine sat_pure ?_
      split_ifs
      · exact hpfcp (hI.handOverAddress h hpdn) (procs_handOverAddress s q pdn)
      · exact hpfcp h rfl
  · next hstate =>
    refine hI.associationSetup hbuffer dns fun upf' hupf' => ?_
    obtain rfl : { upf with pendingSubProcs := p :: upf.pendingSubProcs } = upf' := by
      simpa [Session.bufferCsrRequest, State.setUpf] using hupf'
    simp [hstate]

theorem handleCcaInitialMsg (hI : Kept E Slot Room I) (h : I s) {accepted : Bool} (dns : Ipv4)
    (hok : accepted = true → ∀ proc ∈ s.procs.get p, proc.gxTrans = true →
      upfRejects s proc proc.pdnContext = true → ∀ b, Slot b) :
    Sat (handleCcaInitialMsg s p accepted dns) I E := by
  unfold Session.handleCcaInitialMsg
  refine hI.deref_bind fun proc hp => ?_
  split_ifs with hgx hacc
  · exact sat_pure h
  all_goals
    have hgx' : proc.gxTrans = true := by simpa using hgx
    have htype := hI.gx h hp hgx'
    have hset : I (s.setProc p { proc with gxTrans := false }) :=
      hI.setProc h hp htype (fun h => by cases h) fun _ => rfl
    have hget := get_setProc hp { proc with gxTrans := false }
    unfold setProcMsg
    dsimp only
    rw [hget]
  · -- Accepted: the answer stays in the slot while the user plane session starts.
    refine hI.initiateUpfSession (hI.setProc hset hget htype id fun _ => rfl) dns
      (get_setProc hget _) htype fun hreject => ?_
    exact hok hacc proc hp hgx' hreject _
  · refine hI.fail _ (hI.setProc hset hget htype id fun _ => rfl) (get_setProc hget _) htype ?_
    exact hI.slot (by simp) (by simp)

theorem processGxCcriTimeout (hI : Kept E Slot Room I) (h : I s) (p : ProcId) :
    Sat (processGxCcriTimeout s p) I E := by
  unfold Session.processGxCcriTimeout
  refine hI.deref_bind fun proc hp => ?_
  split_ifs with hgx
  · exact sat_pure h
  · have htype := hI.gx h hp (by simpa using hgx)
    unfold setProcMsg
    rw [hp]
    refine hI.fail _ (hI.setProc h hp htype id fun _ => rfl) (get_setProc hp _) htype ?_
    exact hI.slot (by simp) (by simp)

theorem forgetAssociation (hI : Kept E Slot Room I) (h : I s) (service : Service) :
    I (forgetAssociation s service) := by
  unfold Session.forgetAssociation
  split
  · next upf hupf => exact hI.writeUpf h hupf rfl
  · exact h

theorem wake (hI : Kept E Slot Room I) (h : I s) {service : Service} {rest : List ProcId}
    (hqueue : ∀ q ∈ p :: rest, Attach s.procs q) (msgType : MsgType) :
    Sat (retypeMsg (popPending s service rest) p msgType) (fun t => I t ∧
      ∃ proc, t.procs.get p = some proc ∧ proc.procType = .initialPdnAttach ∧
        proc.msgInfo.msgType = msgType) E := by
  have hpop : I (popPending s service rest) := by
    unfold popPending
    split
    · exact hI.setUpf h fun q hq => hqueue q (List.mem_cons_of_mem p hq)
    · exact h
  unfold retypeMsg
  refine hI.deref_bind fun proc hp => ?_
  have htype := (hqueue p List.mem_cons_self).2 proc (procs_popPending s service rest ▸ hp)
  exact sat_pure ⟨hI.setProc hpop hp htype id fun _ => rfl, _, get_setProc hp _, htype, rfl⟩

theorem rejectPending (hI : Kept E Slot Room I) (h : I s) (service : Service)
    (queue : List ProcId) (hqueue : ∀ p ∈ queue, Attach s.procs p) :
    Sat (rejectPending service queue s) I E := by
  induction queue generalizing s with
  | nil => exact sat_pure h
  | cons p rest ih =>
    unfold Session.rejectPending
    refine ((hI.wake h hqueue _).and (wake_keeps s service rest p _)).bind ?_
    rintro t ⟨⟨ht, proc, hp, htype, hmsg⟩, hkeeps⟩
    refine ((hI.fail _ ht hp htype (hI.slot (by simp [hmsg]) (by simp [hmsg]))).and
      (procInitialAttachFailure_keeps t p _)).bind ?_
    rintro u ⟨hu, hkeeps'⟩
    exact ih hu fun q hq => (hqueue q (List.mem_cons_of_mem p hq)).keeps (hkeeps.trans hkeeps')

theorem resumePending (hI : Kept E Slot Room I) (h : I s) (service : Service)
    (queue : List ProcId) (hqueue : ∀ p ∈ queue, Attach s.procs p) :
    Sat (resumePending service queue s) I E := by
  induction queue generalizing s with
  | nil => exact sat_pure h
  | cons p rest ih =>
    unfold Session.resumePending
    refine ((hI.wake h hqueue _).and (wake_keeps s service rest p _)).bind ?_
    rintro t ⟨⟨ht, proc, hp, htype, hmsg⟩, hkeeps⟩
    refine ((hI.initiateUpfSession ht 0 hp htype fun _ => hI.slot (by simp [hmsg])
      (by simp [hmsg])).and (initiateUpfSession_keeps t p 0)).bind ?_
    rintro u ⟨hu, hkeeps'⟩
    exact ih hu fun q hq => (hqueue q (List.mem_cons_of_mem p hq)).keeps (hkeeps.trans hkeeps')

theorem upfPfcpSetupFailure (hI : Kept E Slot Room I) (h : I s) (service : Service) :
    Sat (upfPfcpSetupFailure s service) I E := by
  unfold Session.upfPfcpSetupFailure
  refine hI.deref_bind fun upf hupf => ?_
  refine (hI.rejectPending h service _ (hI.pending h hupf)).bind fun t ht => ?_
  refine hI.deref_bind fun upf' hupf' => sat_pure ?_
  split_ifs
  · exact hI.writeUpf ht hupf' rfl
  · exact ht

theorem upfPfcpSetupSuccess (hI : Kept E Slot Room I) (h : I s) (service : Service) :
    Sat (upfPfcpSetupSuccess s service) I E := by
  unfold Session.upfPfcpSetupSuccess
  refine hI.deref_bind fun upf hupf => ?_
  split_ifs with hloop
  · exact sat_throw hI.endless
  · refine (hI.resumePending h service _ (hI.pending h hupf)).bind fun t ht => ?_
    refine hI.deref_bind fun upf' hupf' => ?_
    split_ifs
    · exact sat_pure (hI.writeUpf ht hupf' rfl)
    · exact sat_throw hI.pointer

theorem handlePfcpAssociationSetupResponse (hI : Kept E Slot Room I) (h : I s)
    (service : Service) (accepted ueip : Bool) :
    I (handlePfcpAssociationSetupResponse s service accepted ueip) := by
  unfold Session.handlePfcpAssociationSetupResponse
  split
  · next upf hupf =>
    refine hI.writeUpf h hupf ?_
    split_ifs <;> rfl
  · exact h

theorem upfDownEvent (hI : Kept E Slot Room I) (h : I s) (service : Service) :
    I (upfDownEvent s service) := by
  unfold Session.upfDownEvent
  split
  · next upf hupf => exact hI.writeUpf h hupf rfl
  · exact h

theorem initiatePfcpAssociation (hI : Kept E Slot Room I) (h : I s) (service : Service)
    (dns : Ipv4) : Sat (initiatePfcpAssociation s service dns) I E := by
  unfold Session.initiatePfcpAssociation
  split
  · next upf hupf =>
    split_ifs with hidle
    · refine hI.associationSetup h dns fun upf' hupf' => ?_
      cases hupf.symm.trans hupf'
      simp [hidle]
    · exact sat_pure h
  · exact sat_pure h

theorem forgetPending (hI : Kept E Slot Room I) (h : I s) (service : Option Service)
    (queue : List ProcId) : I (forgetPending s service queue) := by
  unfold Session.forgetPending
  split
  · exact h
  · next service =>
    split
    · exact h
    · next upf hupf =>
      refine hI.setUpf h fun p hp => ?_
      exact hI.pending h hupf p (List.mem_filter.mp hp).1

theorem getUpfContext (hI : Kept E Slot Room I) (h : I s) (service : Service)
    (glob : Bool) (dns : Ipv4) : I (getUpfContext s service glob dns).1 := by
  unfold Session.getUpfContext
  split
  · exact hI.setUpf h fun p hp => by simp at hp
  · next upf hupf =>
    split_ifs
    · exact hI.writeUpf h hupf rfl
    · exact h

/-- **The request of a new attach is rejected and answered, or its session opens.** -/
theorem handleCsreqMsg (hI : Kept E Slot Room I) (h : I s) (cfg : Config) (env : Env)
    {key : TransKey} {csr : CreateSessReq} (hp : s.procs.get p = some (csreqProc key csr))
    (hoi : csr.indicationOi = false) (hroom : Room s.teidOffset)
    (hslot : ∀ b : Procedure, b.request = key → b.msgInfo.msgType = .createSessionReq →
      b.msgInfo.peerAddr = key.peer → b.msgInfo.rxMsg = .csr csr → Slot b) :
    Sat (handleCsreqMsg cfg env s p csr) I E := by
  have htype : (csreqProc key csr).procType = .initialPdnAttach := by simp [csreqProc, hoi]
  -- Every rejection leaves the procedure as it was allocated.
  have hfail {t : State} (cause : ℕ) (ht : I t) (hsame : t.procs = s.procs) :
      Sat (procInitialAttachFailure t p cause) I E :=
    hI.fail cause ht (hsame ▸ hp) htype (hslot _ rfl rfl rfl rfl)
  unfold Session.handleCsreqMsg
  refine (processCreateSessReq_spec hI.pointer cfg env s csr).bind fun r hr => ?_
  rcases hr with ⟨-, cause, rfl⟩ | ⟨-, sub, -, hout⟩
  · exact hfail cause h rfl
  have hupf := hI.getUpfContext h sub.userPlaneService sub.globalAddress env.dns
  obtain ⟨upfs, hupfs⟩ := exists_getUpfContext_eq s sub.userPlaneService sub.globalAddress env.dns
  generalize (Session.getUpfContext s sub.userPlaneService sub.globalAddress env.dns).2 = upf at *
  rw [hupfs] at hout hupf
  have hpools {t : State} {outcome : ℕ ⊕ AddrChoice}
      (haddr : chooseAddress { s with upfs } csr upf = (t, outcome)) :
      I t ∧ t.procs = s.procs ∧ t.teidOffset = s.teidOffset := by
    obtain ⟨dynamicPool, staticPool, heq⟩ := exists_chooseAddress_eq { s with upfs } csr upf
    rw [haddr] at heq
    obtain rfl : t = _ := heq
    exact ⟨hI.pools hupf, rfl, rfl⟩
  cases hout with
  | unresolved => exact hfail _ hupf rfl
  | noAddress _ haddr =>
    obtain ⟨ht, hprocs, -⟩ := hpools haddr
    exact hfail _ ht hprocs
  | @refused t addr _ _ haddr =>
    obtain ⟨ht, hprocs, -⟩ := hpools haddr
    obtain ⟨hback, hsame⟩ := hI.giveBack ht addr
    exact hfail _ hback (hsame.trans hprocs)
  | @halfway t addr imsi _ haddr =>
    obtain ⟨ht, hprocs, hoffset⟩ := hpools haddr
    obtain ⟨hback, hsame⟩ := hI.giveBack (hI.addUe imsi ht (hoffset ▸ hroom)) addr
    exact hfail _ hback (hsame.trans hprocs)
  | @opened t addr imsi _ haddr =>
    obtain ⟨ht, hprocs, hoffset⟩ := hpools haddr
    have hpt : t.procs.get p = some (csreqProc key csr) := hprocs ▸ hp
    refine hI.deref_bind fun proc hproc => ?_
    cases hpt.symm.trans hproc
    refine hI.deref_bind fun context hctx => ?_
    dsimp only
    split_ifs
    · exact sat_pure (hI.link env.ccrBuilt ht (hoffset ▸ hroom) hpt hoi hctx)
    · refine hI.initiateUpfSession (hI.link false ht (hoffset ▸ hroom) hpt hoi hctx) _
        (get_setProc hpt _) htype fun _ => ?_
      exact hslot _ rfl rfl rfl rfl

end Kept

end Spgw.Session
