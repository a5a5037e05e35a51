/-
# Every attach is answered once

A Create Session Response is built from the message that last reached the procedure
(`get_error_csrsp_info`): the request, or another one, with peer and number of the transaction.
-/

import Spgw.Session.Kept

namespace Spgw.Session

open Machine

section SetProc

variable {s : State} {p : ProcId} {proc : Procedure}

theorem consistent_setMsg (h : Consistent s.core) (hp : s.procs.get p = some proc)
    (hrunning : proc.running = true) (msg : MsgInfo) :
    Consistent (s.setProc p { proc with msgInfo := msg }).core := by
  obtain ⟨htrans, hattach, hpfcp, hgx⟩ := (h.proc p proc hp).sound
  refine h.setProc hp ⟨htrans, hattach, hpfcp, hgx⟩ rfl rfl rfl rfl (fun _ => rfl) fun hrun => ?_
  exact absurd (hrunning.symm.trans hrun) (by simp)

theorem consistent_setPfcp (h : Consistent s.core) (hp : s.procs.get p = some proc)
    (hue : proc.ueContext ≠ none) (hrunning : proc.running = true)
    (htype : proc.procType = .initialPdnAttach ∨ proc.procType = .detach) (n : ℕ) :
    Consistent (s.setProc p { proc with pfcpTrans := some n }).core := by
  obtain ⟨htrans, hattach, -, hgx⟩ := (h.proc p proc hp).sound
  refine h.setProc hp ⟨htrans, hattach, fun _ => ⟨hrunning, htype⟩, hgx⟩ rfl rfl rfl rfl
    (fun hnone => absurd hnone hue) fun hrun => ?_
  exact absurd (hrunning.symm.trans hrun) (by simp)

theorem consistent_pfcpAnswer (h : Consistent s.core) (hp : s.procs.get p = some proc)
    (hpfcp : proc.pfcpTrans ≠ none) (msg : MsgInfo) :
    Consistent (s.setProc p { proc with pfcpTrans := none, msgInfo := msg }).core := by
  have hproc := h.proc p proc hp
  have hrunning : proc.running = true := (hproc.sound.pfcp hpfcp).1
  refine h.setProc hp ⟨hproc.sound.trans, hproc.sound.attach, fun hne => absurd rfl hne,
    hproc.sound.gx⟩ rfl rfl rfl rfl (fun hnone => ?_) fun hrun => ?_
  · rcases hproc.linked with ⟨-, -, hidle⟩ | ⟨u, _, _, hu, -⟩
    · exact hidle.symm
    · rw [hu] at hnone
      cases hnone
  · exact absurd (hrunning.symm.trans hrun) (by simp)

theorem ueContext_of_pfcp (h : Consistent s.core) (hp : s.procs.get p = some proc)
    (hpfcp : proc.pfcpTrans ≠ none) : proc.ueContext ≠ none := by
  rcases (h.proc p proc hp).linked with ⟨-, -, hidle⟩ | ⟨u, _, _, hu, -⟩
  · exact absurd hidle hpfcp
  · simp [hu]

end SetProc

theorem slotOk_of_ne {proc : Procedure} (hcsr : proc.msgInfo.msgType ≠ .createSessionReq)
    (hgx : proc.msgInfo.msgType ≠ .gxCca) : SlotOk proc :=
  ⟨hgx, fun h => absurd h hcsr⟩

theorem nextTeid_eq {s : State} (hsmall : 0xC0FFEE + s.teidOffset < 2 ^ 28) :
    s.nextTeid = 0xC0FFEE + s.teidOffset := by
  unfold State.nextTeid
  omega

theorem addUeContext_consistent {s : State} (h : Consistent s.core)
    (hsmall : 0xC0FFEE + s.teidOffset < 2 ^ 28) (imsi : ℕ) :
    Consistent (addUeContext s imsi).core := by
  refine h.addUe (nextTeid_eq hsmall) hsmall rfl (fun _ _ hq => hq) fun q hq => ?_
  simp at hq

theorem openSession_consistent {s : State} (h : Consistent s.core)
    (hsmall : 0xC0FFEE + s.teidOffset < 2 ^ 28) (imsi : ℕ) (csr : CreateSessReq)
    (addr : AddrChoice) (service : Service) :
    Consistent (openSession s imsi csr addr service).core := by
  refine h.addUe (nextTeid_eq hsmall) hsmall rfl (fun q pdn hq => ?_) fun q hq => ?_
  · exact Heap.get_alloc.trans ((if_neg (Nat.ne_of_lt (Heap.lt_next_of_get hq))).trans hq)
  · cases hq
    exact ⟨newPdn s csr addr, Heap.get_alloc.trans (if_pos rfl), rfl, rfl⟩

theorem slotOk_of_csr {b : Procedure} {peer : Peer} {csr : CreateSessReq}
    (hrequest : b.request = ⟨peer, csr.seq⟩) (hmsg : b.msgInfo.msgType = .createSessionReq)
    (hpeer : b.msgInfo.peerAddr = peer) (hrx : b.msgInfo.rxMsg = .csr csr) : SlotOk b := by
  refine ⟨by simp [hmsg], fun _ => ⟨hpeer.trans (by rw [hrequest]), fun csr' hcsr' => ?_⟩⟩
  rw [hrequest, ← RxMsg.csr.inj (hrx.symm.trans hcsr')]

theorem consistent_linkedSession {s : State} (h : Consistent s.core) {p : ProcId}
    {key : TransKey} {imsi : ℕ} {csr : CreateSessReq} {addr : AddrChoice} {service : Service}
    {context : UeContext} (gxTrans : Bool) (hsmall : 0xC0FFEE + s.teidOffset < 2 ^ 28)
    (hp : s.procs.get p = some (csreqProc key csr)) (hoi : csr.indicationOi = false)
    (hctx : (openSession s imsi csr addr service).ues.get s.ues.next = some context) :
    Consistent (linkedSession s p { csreqProc key csr with
        ueContext := some s.ues.next
        pdnContext := some s.pdns.next
        msgInfo := { (csreqProc key csr).msgInfo with pdnContext := some s.pdns.next }
        gxTrans } context imsi csr addr service).core := by
  have hsound := (h.proc p _ hp).sound
  have hopen := openSession_consistent h hsmall imsi csr addr service
  have hq : context.pdn = some s.pdns.next := by
    have hget := (Heap.get_alloc.trans (if_pos rfl)).symm.trans hctx
    rw [← Option.some.inj hget]
  refine hopen.link hp rfl hctx hq ?_ rfl rfl rfl rfl fun hrun => ?_
  · exact ⟨hsound.trans, hsound.attach, fun hne => absurd rfl hne,
      fun _ => by simp [csreqProc, hoi]⟩
  · simp [csreqProc] at hrun

abbrev TeidLeft (offset : ℕ) : Prop := 0xC0FFEE + offset < 2 ^ 28

/-- **The handlers of an attach keep the state consistent.** -/
theorem kept_consistent : Kept NoAssert SlotOk TeidLeft fun s => Consistent s.core where
  pointer := noAssert_badPointer
  endless := by decide
  slot := slotOk_of_ne
  gx h hp := (h.proc _ _ hp).sound.gx
  pending h hupf := h.pending _ _ hupf
  setUpf h hpending := h.setUpf hpending
  setProc {s p proc} _ _ _ h hp htype hgx hpfcp := by
    obtain ⟨htrans, hattach, hsend, hflag⟩ := (h.proc p proc hp).sound
    have hrunning : proc.running = true := (hattach htype).1
    refine h.setProc hp ⟨htrans, hattach, fun _ => ⟨hrunning, Or.inl htype⟩, fun h => hflag (hgx h)⟩
      rfl rfl rfl rfl hpfcp fun hrun => ?_
    exact absurd (hrunning.symm.trans hrun) (by simp)
  pools h := h
  setPdn h hq hctx hseid hebi := h.setPdn hq hctx hseid hebi
  fail cause h hp htype hslot := procInitialAttachFailure_consistent h cause hp htype hslot
  addUe imsi h hroom := addUeContext_consistent h hroom imsi
  link gxTrans h hroom hp hoi hctx := consistent_linkedSession h gxTrans hroom hp hoi hctx

theorem processPfcpSessEstResp_consistent {s : State} (h : Consistent s.core) {p : ProcId}
    {proc : Procedure} {rsp : SessEstabRsp} (hp : s.procs.get p = some proc)
    (hue : proc.ueContext ≠ none)
    (hseid : s.ueByTeid (ueSessId rsp.seid) = none ∨
      ∀ pdn ∈ proc.pdnContext.bind s.pdns.get, pdn.seid = rsp.seid) :
    Sat (processPfcpSessEstResp s proc rsp) (fun r => Consistent r.1.core ∧
      r.1.procs = s.procs ∧ r.1.csRsps = s.csRsps) NoAssert := by
  obtain ⟨u, context, q, hu, hctx, hmem, hq, hcq⟩ := (h.proc p proc hp).linked_of_ne hue
  obtain ⟨pdn, hpdn, hback, hid⟩ := (h.ue u context hctx).pdn q hcq
  unfold processPfcpSessEstResp
  split
  · exact ⟨h, rfl, rfl⟩
  · next v hv =>
    have hown : pdn.seid = rsp.seid := by
      refine hseid.resolve_left (by simp [hv]) pdn ?_
      exact Option.bind_eq_some_iff.mpr ⟨q, hq, hpdn⟩
    -- The TEID inside the SEID is that of the attach's own UE context.
    obtain rfl : u = v := by
      have hteid : ueSessId rsp.seid = context.s11SgwGtpcTeid := by
        rw [← hown, hid, ueSessId_sessId (h.ue u context hctx).small]
      rw [hteid] at hv
      exact Option.some.inj ((h.ue u context hctx).listed.symm.trans hv)
    refine noAssert_deref_bind fun context' hctx' => ?_
    cases hctx.symm.trans hctx'
    rw [hq, hcq]
    refine noAssert_deref_bind fun pdn' hpdn' => ?_
    cases hpdn.symm.trans hpdn'
    refine (sat_assert fun hne => absurd hown.symm hne).bind fun _ _ => ?_
    refine (sat_assert fun hne => absurd rfl hne).bind fun _ _ => sat_pure ⟨?_, rfl, rfl⟩
    refine h.setPdn hpdn ?_ ?_ ?_ <;> unfold setUpfAddress <;> split <;> rfl

theorem handlePfcpSessionEstResponse_consistent {s : State} (h : Consistent s.core) {p : ProcId}
    {rsp : SessEstabRsp}
    (hok : ∀ proc ∈ s.procs.get p, proc.pfcpTrans ≠ none → proc.procType = .initialPdnAttach ∧
      (rsp.accepted = true → s.ueByTeid (ueSessId rsp.seid) = none ∨
        ∀ pdn ∈ proc.pdnContext.bind s.pdns.get, pdn.seid = rsp.seid)) :
    Sat (handlePfcpSessionEstResponse s p rsp) (fun t => Consistent t.core) NoAssert := by
  unfold handlePfcpSessionEstResponse
  refine noAssert_deref_bind fun proc hp => ?_
  by_cases hpfcp : proc.pfcpTrans = none
  · rw [if_pos hpfcp]
    exact sat_pure h
  rw [if_neg hpfcp]
  obtain ⟨htype, hseid⟩ := hok proc hp hpfcp
  have hset := consistent_pfcpAnswer h hp hpfcp { msgType := .pfcpSessionEstablishmentResponse }
  have hget := get_setProc hp
    { proc with pfcpTrans := none, msgInfo := { msgType := .pfcpSessionEstablishmentResponse } }
  have hue := ueContext_of_pfcp h hp hpfcp
  refine (sat_assert fun hne => absurd htype hne).bind fun _ _ => ?_
  by_cases hacc : rsp.accepted = false
  · rw [if_pos hacc]
    refine noAssert_deref_bind fun u _ => ?_
    refine noAssert_deref_bind fun context _ => ?_
    refine noAssert_deref_bind fun service _ => ?_
    refine (procInitialAttachFailure_consistent hset _ hget htype
      (slotOk_of_ne (by simp) (by simp))).bind fun t ht => sat_pure ?_
    split_ifs
    · exact kept_consistent.forgetAssociation ht service
    · exact ht
  · rw [if_neg hacc]
    refine (processPfcpSessEstResp_consistent hset hget hue (hseid (by simpa using hacc))).bind
      fun r hr => ?_
    obtain ⟨t, cause⟩ := r
    obtain ⟨ht, hprocs, hrsps⟩ := hr
    have hget' : t.procs.get p = some _ := hprocs ▸ hget
    dsimp only
    split_ifs
    · exact procInitialAttachFailure_consistent ht _ hget' htype (slotOk_of_ne (by simp) (by simp))
    · have htrans : proc.gtpcTrans = some proc.request := (h.proc p proc hp).sound.trans
      rw [htrans]
      have hend := endAttachSuccess_consistent ht hget'
      exact hend

theorem handlePfcpSessionDeleteResponse_consistent {s : State} (h : Consistent s.core) {p : ProcId}
    {sent : Bool} (hok : ∀ proc ∈ s.procs.get p, proc.pfcpTrans ≠ none → proc.procType = .detach) :
    Sat (handlePfcpSessionDeleteResponse s p sent) (fun t => Consistent t.core) NoAssert := by
  unfold handlePfcpSessionDeleteResponse
  refine noAssert_deref_bind fun proc hp => ?_
  by_cases hpfcp : proc.pfcpTrans = none
  · rw [if_pos hpfcp]
    exact sat_pure h
  rw [if_neg hpfcp]
  have hset := consistent_pfcpAnswer h hp hpfcp { msgType := .pfcpSessionDeletionResponse }
  have hue := ueContext_of_pfcp h hp hpfcp
  refine (sat_assert fun hne => absurd (hok proc hp hpfcp) hne).bind fun _ _ => ?_
  split_ifs
  · exact endDetach_consistent hset (get_setProc hp _) hue
  · exact sat_pure hset

theorem pfcpTimeout_consistent {s : State} (h : Consistent s.core) (cfg : Config) (p : ProcId) :
    Sat (pfcpTimeout cfg s p) (fun t => Consistent t.core) NoAssert := by
  unfold pfcpTimeout
  refine noAssert_deref_bind fun proc hp => ?_
  split
  · exact sat_pure h
  · next itrCnt hpfcp =>
    have hne : proc.pfcpTrans ≠ none := by simp [hpfcp]
    have hue := ueContext_of_pfcp h hp hne
    have hproc := h.proc p proc hp
    obtain ⟨hrunning, htypes⟩ := hproc.sound.pfcp hne
    by_cases htype : proc.procType = .initialPdnAttach
    · rw [if_pos htype]
      have hmsg := consistent_setMsg h hp hrunning { msgType := .reserved }
      have hget := get_setProc hp { proc with msgInfo := { msgType := .reserved } }
      unfold setProcMsg
      rw [hp]
      dsimp only [deref, bind, Except.bind, pure, Except.pure]
      split_ifs
      · rw [hget]
        exact consistent_setPfcp hmsg hget hue hrunning (Or.inl htype) (itrCnt + 1)
      · exact procInitialAttachFailure_consistent hmsg _ hget htype
          (slotOk_of_ne (by simp) (by simp))
    · rw [if_neg htype]
      refine (sat_assert fun hnone => ?_).bind fun _ _ => ?_
      · exact absurd hproc.sound.trans (by rw [not_not.mp hnone]; simp)
      split_ifs
      · exact sat_pure (consistent_setPfcp h hp hue hrunning htypes (itrCnt + 1))
      · exact endDetach_consistent h hp hue

def Shrinks (s t : State) : Prop :=
  t.teidOffset = s.teidOffset ∧ ∀ key, s.gtpTrans key = none → t.gtpTrans key = none

theorem releaseSession_shrinks (s : State) (u : UePtr) (q : PdnPtr) :
    Sat (releaseSession s u q) (Shrinks s) AnyFault := by
  unfold releaseSession
  refine (cleanupPdnContext_spec trivial (Or.inr trivial)).bind ?_
  rintro t ⟨pdn, v, context, -, -, -, rfl⟩
  refine (cleanupUeContext_spec trivial (Or.inr trivial)).mono ?_
  rintro t ⟨context', procs, gtpTrans, -, hdropped, rfl⟩
  obtain ⟨dynamicPool, staticPool, heq⟩ := exists_releaseAddress_eq s pdn
  rw [heq] at hdropped ⊢
  refine ⟨rfl, fun key hkey => ?_⟩
  rcases hdropped.trans key with hsame | ⟨hnone, -⟩
  · exact hsame.trans hkey
  · exact hnone

theorem getPdn_spec (s : State) (context : UeContext) (ebi : ℕ) :
    Sat (getPdn s context ebi) (fun q => context.pdn = some q) NoAssert := by
  unfold getPdn
  refine noAssert_deref_bind fun q hq => ?_
  refine noAssert_deref_bind fun pdn _ => ?_
  split_ifs
  · exact hq
  · exact noAssert_badPointer

theorem replaceOldContext_consistent {s : State} (h : Consistent s.core) (csr : CreateSessReq) :
    Sat (replaceOldContext s csr) (fun t => Consistent t.core ∧ Shrinks s t) NoAssert := by
  unfold replaceOldContext
  split
  · next u _ =>
    unfold replaceContext
    refine noAssert_deref_bind fun context _ => ?_
    refine (getPdn_spec s context csr.ebi).bind fun _ _ => ?_
    split
    · exact sat_pure ⟨h, rfl, fun _ => id⟩
    · next v _ =>
      refine noAssert_deref_bind fun context' hctx' => ?_
      refine (getPdn_spec s context' csr.ebi).bind fun q hq => ?_
      have hforget := kept_consistent.forgetPending h context'.upfContext context'.pendingSubProcs
      obtain ⟨upfs, heq⟩ := exists_forgetPending_eq s context'.upfContext context'.pendingSubProcs
      rw [heq] at hforget ⊢
      exact (releaseSession_consistent hforget hctx' hq).and (releaseSession_shrinks _ v q)
  · exact sat_pure ⟨h, rfl, fun _ => id⟩

/-- What a Create Session Request must not do: come from port `0`, be malformed under
the key of a transaction of another request, or need a TEID of more than 28 bits. -/
def RequestOk (s : State) (peer : Peer) (csr : CreateSessReq) : Prop :=
  peer.port ≠ 0 ∧ (validateCsreqMsg csr ≠ 0 → s.gtpTrans ⟨peer, csr.seq⟩ = none) ∧
    0xC0FFEE + s.teidOffset < 2 ^ 28

instance (s : State) (peer : Peer) (csr : CreateSessReq) : Decidable (RequestOk s peer csr) :=
  inferInstanceAs (Decidable (_ ∧ _ ∧ _))

theorem handleCreateSessionRequest_consistent {s : State} (h : Consistent s.core) (cfg : Config)
    (env : Env) {peer : Peer} {csr : CreateSessReq} (hok : RequestOk s peer csr) :
    Sat (handleCreateSessionRequest cfg env s peer csr) (fun t => Consistent t.core) NoAssert := by
  obtain ⟨hport, hinvalid, hsmall⟩ := hok
  unfold handleCreateSessionRequest
  by_cases hvalid : validateCsreqMsg csr ≠ 0
  · rw [if_pos hvalid]
    refine (sat_assert fun hne => absurd hport hne).bind fun _ _ => sat_pure ?_
    have herase : s.gtpTrans.erase ⟨peer, csr.seq⟩ = s.gtpTrans := by
      rw [Table.erase, ← hinvalid hvalid, Function.update_eq_self]
    rw [herase]
    exact h.answerEarly rfl
  rw [if_neg hvalid]
  by_cases hknown : (s.gtpTrans ⟨peer, csr.seq⟩).isSome
  · rw [if_pos hknown]
    exact sat_pure h
  rw [if_neg hknown]
  refine (replaceOldContext_consistent h csr).bind ?_
  rintro t ⟨ht, hoffset, htrans⟩
  have hfree : t.gtpTrans ⟨peer, csr.seq⟩ = none := htrans _ (by simpa using hknown)
  have hsound : (csreqProc ⟨peer, csr.seq⟩ csr).Sound :=
    ⟨rfl, fun _ => ⟨rfl, hport⟩, fun hne => absurd rfl hne, fun hgx => by cases hgx⟩
  have hadd := ht.addProc hsound hfree rfl rfl rfl fun hrun => by cases hrun
  unfold startAttach
  dsimp only
  split_ifs with hoi
  · exact sat_pure hadd
  · refine kept_consistent.handleCsreqMsg hadd cfg env (Heap.get_alloc.trans (if_pos rfl))
      (by simpa using hoi) ?_ fun b hrequest hmsg hpeer hrx => ?_
    · rwa [← hoffset] at hsmall
    · exact slotOk_of_csr hrequest hmsg hpeer hrx

theorem dsreqProc_sound (key : TransKey) (dsr : DelSessReq) (u : UePtr) (q : PdnPtr) :
    (dsreqProc key dsr u q).Sound where
  trans := rfl
  attach htype := by
    unfold dsreqProc at htype
    split_ifs at htype
  pfcp hne := absurd rfl hne
  gx hgx := by cases hgx

theorem handleDeleteSessionRequest_consistent {s : State} (h : Consistent s.core) (peer : Peer)
    (dsr : DelSessReq) :
    Sat (handleDeleteSessionRequest s peer dsr) (fun t => Consistent t.core) NoAssert := by
  unfold handleDeleteSessionRequest
  dsimp only
  by_cases hknown : (s.gtpTrans ⟨peer, dsr.seq⟩).isSome
  · rw [if_pos hknown]
    exact sat_pure h
  rw [if_neg hknown]
  split
  · exact sat_pure h
  next u hu =>
  refine noAssert_deref_bind fun context hctx => ?_
  split
  · exact sat_pure h
  next q hq =>
  refine noAssert_deref_bind fun pdn _ => ?_
  by_cases hebi : pdn.defaultBearerId ≠ dsr.lbi
  · rw [if_pos hebi]
    exact sat_pure h
  rw [if_neg hebi]
  have hfree : s.gtpTrans ⟨peer, dsr.seq⟩ = none := by simpa using hknown
  have hlink := h.addLinked (dsreqProc_sound ⟨peer, dsr.seq⟩ dsr u q) hfree hctx hq rfl rfl rfl
    fun _ => ⟨dsr, rfl, hu⟩
  split_ifs
  · refine startProcedureDirect_consistent ?_ (Heap.get_alloc.trans (if_pos rfl)) rfl
      (by simp [dsreqProc])
    exact hlink
  · exact sat_pure hlink

theorem nwInitDetachEnd_consistent {s : State} (h : Consistent s.core) (u : UePtr) :
    Sat (nwInitDetachEnd s u) (fun t => Consistent t.core) NoAssert := by
  unfold nwInitDetachEnd
  refine noAssert_deref_bind fun context hctx => ?_
  refine noAssert_deref_bind fun q hq => ?_
  split_ifs
  · exact sat_pure h
  · exact releaseSession_consistent h hctx hq

/-- The UPF does not reject the attach. -/
def CcaOk (s : State) (p : ProcId) (accepted : Bool) : Prop :=
  accepted = true → ∀ proc ∈ s.procs.get p, proc.gxTrans = true →
    upfRejects s proc proc.pdnContext = false

instance (s : State) (p : ProcId) (accepted : Bool) : Decidable (CcaOk s p accepted) :=
  inferInstanceAs (Decidable (_ → _))

/-- The response is to an attach, and names its session or none. -/
def EstRspOk (s : State) (p : ProcId) (rsp : SessEstabRsp) : Prop :=
  ∀ proc ∈ s.procs.get p, proc.pfcpTrans ≠ none → proc.procType = .initialPdnAttach ∧
    (rsp.accepted = true → s.ueByTeid (ueSessId rsp.seid) = none ∨
      ∀ pdn ∈ proc.pdnContext.bind s.pdns.get, pdn.seid = rsp.seid)

instance (s : State) (p : ProcId) (rsp : SessEstabRsp) : Decidable (EstRspOk s p rsp) :=
  inferInstanceAs (Decidable (∀ proc ∈ s.procs.get p, _))

/-- The response is to a detach. -/
def DelRspOk (s : State) (p : ProcId) : Prop :=
  ∀ proc ∈ s.procs.get p, proc.pfcpTrans ≠ none → proc.procType = .detach

instance (s : State) (p : ProcId) : Decidable (DelRspOk s p) :=
  inferInstanceAs (Decidable (∀ proc ∈ s.procs.get p, _))

/-- The event finds what its handler takes for granted. -/
def ResponseOk (s : State) : Event → Prop
  | .createSessionRequest _ peer csr => RequestOk s peer csr
  | .ccaInitial p accepted _ => CcaOk s p accepted
  | .sessionEstResponse p rsp => EstRspOk s p rsp
  | .sessionDeleteResponse p _ => DelRspOk s p
  | _ => True

instance (s : State) (e : Event) : Decidable (ResponseOk s e) :=
  match e with
  | .createSessionRequest _ peer csr => inferInstanceAs (Decidable (RequestOk s peer csr))
  | .ccaInitial p accepted _ => inferInstanceAs (Decidable (CcaOk s p accepted))
  | .sessionEstResponse p rsp => inferInstanceAs (Decidable (EstRspOk s p rsp))
  | .sessionDeleteResponse p _ => inferInstanceAs (Decidable (DelRspOk s p))
  | .gxTimeout _ | .deleteSessionRequest _ _ | .pfcpTimeout _ | .nwInitDetachEnd _
  | .assocSetupResponse _ _ _ | .assocSetupSuccess _ | .assocSetupFailure _ | .discover _ _ _
  | .assocTimer _ _ | .upfDown _ => isTrue trivial

theorem step_consistent (cfg : Config) {s : State} {e : Event} (h : Consistent s.core)
    (hok : ResponseOk s e) : Sat (step cfg s e) (fun t => Consistent t.core) NoAssert := by
  cases e with
  | createSessionRequest env peer csr => exact handleCreateSessionRequest_consistent h cfg env hok
  | ccaInitial p accepted dns =>
    refine kept_consistent.handleCcaInitialMsg h dns fun hacc proc hp hgx hreject => ?_
    rw [hok hacc proc hp hgx] at hreject
    cases hreject
  | gxTimeout p => exact kept_consistent.processGxCcriTimeout h p
  | sessionEstResponse p rsp => exact handlePfcpSessionEstResponse_consistent h hok
  | deleteSessionRequest peer dsr => exact handleDeleteSessionRequest_consistent h peer dsr
  | sessionDeleteResponse p sent => exact handlePfcpSessionDeleteResponse_consistent h hok
  | pfcpTimeout p => exact pfcpTimeout_consistent h cfg p
  | nwInitDetachEnd u => exact nwInitDetachEnd_consistent h u
  | assocSetupResponse service accepted ueip =>
    exact kept_consistent.handlePfcpAssociationSetupResponse h service accepted ueip
  | assocSetupSuccess service => exact kept_consistent.upfPfcpSetupSuccess h service
  | assocSetupFailure service => exact kept_consistent.upfPfcpSetupFailure h service
  | discover service glob dns => exact kept_consistent.getUpfContext h service glob dns
  | assocTimer service dns => exact kept_consistent.initiatePfcpAssociation h service dns
  | upfDown service => exact kept_consistent.upfDownEvent h service

theorem initial_consistent (dynamicPool : List Ipv4) (staticPool : StaticPool) :
    Consistent (initial dynamicPool staticPool).core where
  ue u context hu := by simp [initial, State.core, Heap.get] at hu
  teid t u ht := by cases ht
  proc p proc hp := by simp [initial, State.core, Heap.get] at hp
  pending service upf hupf := by cases hupf
  rsps r hr := by cases hr
  ended e he := by cases he

/-- Every attach that has ended has been answered once. -/
def AttachesAnswered (s : State) : Prop := ∀ e ∈ s.ended, Answered s.csRsps e

instance (s : State) : Decidable (AttachesAnswered s) :=
  inferInstanceAs (Decidable (∀ e ∈ s.ended, answersOf s.csRsps e.1 = [(e.2.peer, e.2.seq)]))

/-- **Every attach is answered once, and no assertion fails** -/
theorem attachesAnswered_of_eventsOk (cfg : Config) (dynamicPool : List Ipv4)
    (staticPool : StaticPool) {es : List Event}
    (hok : Guarded (failStep (step cfg)) (failGuard ResponseOk)
      (.ok (initial dynamicPool staticPool)) es) :
    ∀ w ∈ trace (failStep (step cfg)) (.ok (initial dynamicPool staticPool)) es,
      Sat w AttachesAnswered (· ≠ .assertion) := by
  intro w hw
  have hinv := failTrace_invariant (fun s e h he => step_consistent cfg h he)
    (initial_consistent dynamicPool staticPool) hok w hw
  exact hinv.mono fun s hs e he => (hs.ended e he).2.2

/-! ### A run that fails an assertion

The UPF is associated before the PCRF answers, and does not allocate addresses; the
attach was told that it does. -/

def Demo.rejectedByUpf : List Event :=
  [.createSessionRequest Demo.env Demo.mme (Demo.request 1 8 0),
    .assocTimer 1 0x0A000002, .assocSetupResponse 1 true false, .ccaInitial 0 true 0x0A000002]

theorem not_attachesAnswered_rejectedByUpf :
    ¬ ∀ w ∈ trace (failStep (step Demo.upfAddresses)) (.ok (initial Demo.pool {}))
        Demo.rejectedByUpf, Sat w AttachesAnswered (· ≠ .assertion) := by
  decide

def Demo.accepted : List Event :=
  Demo.rejectedByUpf ++ [.sessionEstResponse 0 { accepted := true, seid := sessId 0xC0FFEE 5 }]

theorem attachesAnswered_accepted :
    Guarded (failStep (step Demo.controlAddresses)) (failGuard ResponseOk)
      (.ok (initial Demo.pool {})) Demo.accepted ∧
      ∀ w ∈ trace (failStep (step Demo.controlAddresses)) (.ok (initial Demo.pool {})) Demo.accepted,
        Sat w AttachesAnswered (· ≠ .assertion) :=
  ⟨by decide, attachesAnswered_of_eventsOk Demo.controlAddresses Demo.pool {} (by decide)⟩

end Spgw.Session
