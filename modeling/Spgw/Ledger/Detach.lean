/-
# The ledger, detaches and the other events

`delete_context` releases a static address when the detach starts: at the Delete Session Request, or
later, when the attach that the detach waits for has succeeded.
-/

import Spgw.Ledger.Request

namespace Spgw.Session

open Machine

def uePdn (ues : Heap UeContext) (u : UePtr) : Option PdnPtr := (ues.get u).bind (·.pdn)

def Pdn.bearerKind (pdn : Pdn) : ℕ × Bool := (pdn.defaultBearerId, pdn.staticAddr)

/-- The PDN whose static address `delete_context` releases for a request. -/
def earlyPdn (s : State) (dsr : DelSessReq) : Option PdnPtr :=
  ((s.ueByTeid dsr.teid).bind (uePdn s.ues)).filter fun q =>
    dsr.lbiLen ≠ 0 ∧ (s.pdns.get q).map Pdn.bearerKind = some (dsr.lbi, true)

def earlyOf (s : State) (p : ProcId) : Option PdnPtr :=
  (s.procs.get p).bind fun proc =>
    match proc.procType, proc.msgInfo.rxMsg with
    | .detach, .dsr dsr => earlyPdn s dsr
    | _, _ => none

def waitingEarly (s : State) (queue : List ProcId) : Option PdnPtr :=
  (queue.find? fun p => (s.procs.get p).any fun proc => !proc.running).bind (earlyOf s)

/-- Clean-ups, and early releases of the PDNs in `E`. -/
def Detaches (E : PdnPtr → Prop) (l : Ledger) (a : Act) : Prop :=
  Cleans l a ∨ ∃ q, a = .earlyRelease q ∧ E q

theorem Cleans.detaches {E : PdnPtr → Prop} {l : Ledger} {a : Act} (h : Cleans l a) :
    Detaches E l a := Or.inl h

theorem Detaches.mono {E E' : PdnPtr → Prop} {l : Ledger} {a : Act} (h : Detaches E l a)
    (hE : ∀ q, E q → E' q) : Detaches E' l a :=
  h.imp_right fun ⟨q, ha, hq⟩ => ⟨q, ha, hE q hq⟩

theorem deleteContext_ledger (s : State) (dsr : DelSessReq) :
    Sat (deleteContext s dsr) (fun r => r.1.ledger = s.ledger ∨ ∃ q, earlyPdn s dsr = some q ∧
      r.1.ledger = s.ledger.act (.earlyRelease q)) AnyFault := by
  unfold deleteContext
  split
  · exact Or.inl rfl
  · next u hu =>
    refine sat_deref_bind fun context hctx => ?_
    split_ifs with hlbi
    · exact Or.inl rfl
    split
    · exact Or.inl rfl
    · next q hq =>
      refine sat_deref_bind fun pdn hpdn => ?_
      dsimp only
      split_ifs with hebi hstatic
      · exact Or.inl rfl
      · refine sat_pure (Or.inr ⟨q, ?_, ?_⟩)
        · simp only [ne_eq, not_not] at hebi
          simp [earlyPdn, hu, uePdn, hctx, hq, hpdn, hlbi, Pdn.bearerKind, hebi, hstatic]
        · have hget : s.ledger.pdns.get q = some pdn := hpdn
          simp only [Ledger.act, hget]
          rfl
      · exact Or.inl rfl

theorem startDetach_detaches {s : State} {p : ProcId} {proc : Procedure}
    (hproc : s.procs.get p = some proc) (htype : proc.procType = .detach) :
    Sat (startDetach s p) (Performs (Detaches fun q => earlyOf s p = some q) s.ledger) AnyFault := by
  unfold startDetach
  refine sat_deref_bind fun proc' hproc' => ?_
  cases hproc.symm.trans hproc'
  split
  · next dsr hdsr =>
    have hearly : earlyOf s p = earlyPdn s dsr := by
      simp [earlyOf, hproc, htype, hdsr]
    refine (deleteContext_ledger s dsr).bind fun r hr => ?_
    have hpath : Performs (Detaches fun q => earlyOf s p = some q) s.ledger r.1 := by
      rcases hr with heq | ⟨q, hq, heq⟩
      · rw [Performs, heq]
        exact .refl
      · rw [Performs, heq]
        exact .single (Or.inr ⟨q, rfl, hearly.trans hq⟩)
    split
    · exact (endDetach_cleans _ p).mono fun u hu => hpath.trans (hu.mono fun _ _ h => h.detaches)
    · refine sat_assert_bind ?_
      exact sat_assert_bind (sat_pure hpath)
  · exact sat_throw trivial

theorem startProcedureDirect_detaches (s : State) (p : ProcId) :
    Sat (startProcedureDirect s p) (Performs (Detaches fun q => earlyOf s p = some q) s.ledger)
      AnyFault := by
  unfold startProcedureDirect
  refine sat_deref_bind fun proc hproc => ?_
  dsimp only
  split_ifs with htype
  · have hget : (s.setProc p { proc with running := true }).procs.get p =
        some { proc with running := true } := by
      simp [State.setProc, Heap.get_set hproc]
    have hearly : earlyOf (s.setProc p { proc with running := true }) p = earlyOf s p := by
      simp only [earlyOf, hget, hproc, Option.bind_some]
      rfl
    refine (startDetach_detaches hget htype).mono fun u hu => ?_
    rwa [hearly] at hu
  · exact sat_pure .refl

theorem startWaiting_detaches (s : State) (queue : List ProcId) : Sat (startWaiting s queue)
      (Performs (Detaches fun q => waitingEarly s queue = some q) s.ledger) AnyFault := by
  induction queue with
  | nil => exact sat_pure .refl
  | cons p queue ih =>
    unfold startWaiting
    refine sat_deref_bind fun proc hproc => ?_
    split_ifs with hrunning
    · have hskip : waitingEarly s (p :: queue) = waitingEarly s queue := by
        simp [waitingEarly, hproc, hrunning]
      rwa [hskip]
    · have hfirst : waitingEarly s (p :: queue) = earlyOf s p := by
        simp [waitingEarly, hproc, hrunning]
      rw [hfirst]
      exact startProcedureDirect_detaches s p

theorem earlyPdn_congr {s t : State} (hteid : t.ueByTeid = s.ueByTeid) (hues : uePdn t.ues = uePdn s.ues)
    (hpdns : ∀ q, (t.pdns.get q).map Pdn.bearerKind = (s.pdns.get q).map Pdn.bearerKind) :
    earlyPdn t = earlyPdn s := by
  funext dsr
  simp only [earlyPdn, hteid, hues, hpdns]

theorem waitingEarly_congr {s t : State} {queue : List ProcId} (hpdn : earlyPdn t = earlyPdn s)
    (hprocs : ∀ r ∈ queue, t.procs.get r = s.procs.get r) :
    waitingEarly t queue = waitingEarly s queue := by
  induction queue with
  | nil => rfl
  | cons r queue ih =>
    have hr := hprocs r List.mem_cons_self
    have hrest := ih fun q hq => hprocs q (List.mem_cons_of_mem r hq)
    have hearly : earlyOf t r = earlyOf s r := by simp only [earlyOf, hr, hpdn]
    unfold waitingEarly at hrest ⊢
    rw [List.find?_cons, List.find?_cons, hr]
    split
    · exact hearly
    · exact hrest

theorem waitingEarly_erase {s : State} {p : ProcId} (hp : s.procs.get p = none)
    (queue : List ProcId) :
    waitingEarly s (queue.erase p) = waitingEarly s (queue.filter (· ≠ p)) := by
  have hskip (l : List ProcId) : waitingEarly s (l.filter (· ≠ p)) = waitingEarly s l := by
    simp only [waitingEarly, List.find?_filter]
    congr 2
    funext r
    by_cases hr : r = p
    · simp [hr, hp]
    · simp [hr]
  rw [hskip]
  induction queue with
  | nil => rfl
  | cons r queue ih =>
    rw [List.erase_cons]
    split_ifs with hr
    · rw [beq_iff_eq.mp hr]
      simp [waitingEarly, hp]
    · unfold waitingEarly at ih ⊢
      rw [List.find?_cons, List.find?_cons]
      split
      · rfl
      · exact ih

/-- The procedures behind `p` in the queue of its UE context. -/
def queueBehind (s : State) (p : ProcId) (proc : Procedure) : List ProcId :=
  ((proc.ueContext.bind s.ues.get).elim [] (·.pendingSubProcs)).filter (· ≠ p)

theorem uePdn_set {ues : Heap UeContext} {u : UePtr} {a b : UeContext} (hu : ues.get u = some a)
    (hab : b.pdn = a.pdn) : uePdn (ues.set u b) = uePdn ues := by
  funext v
  simp only [uePdn, Heap.get_set hu]
  split_ifs with hv
  · simp [hv, hu, hab]
  · rfl

theorem endAttachSuccess_detaches {s : State} {p : ProcId} {proc : Procedure}
    (hproc : s.procs.get p = some proc) :
    Sat (endAttachSuccess s p)
      (Performs (Detaches fun q => waitingEarly s (queueBehind s p proc) = some q) s.ledger)
      AnyFault := by
  unfold endAttachSuccess
  refine sat_deref_bind fun proc' hproc' => ?_
  cases hproc.symm.trans hproc'
  refine sat_deref_bind fun u hu => ?_
  refine (unlinkProc_spec trivial (Or.inr trivial)).bind ?_
  rintro t (⟨hnone, -⟩ | ⟨u', context, hu', hctx, rfl⟩)
  · rw [hu] at hnone
    cases hnone
  cases hu.symm.trans hu'
  refine sat_deref_bind fun context' hctx' => ?_
  simp only [Heap.get_set hctx, if_true, Option.some.injEq] at hctx'
  subst hctx'
  dsimp only
  refine (startWaiting_detaches _ _).mono fun v hv => hv.mono fun _ _ h => h.mono fun q hq => ?_
  rw [waitingEarly_erase (by simp [Heap.get_free])] at hq
  have hqueue : queueBehind s p proc = context.pendingSubProcs.filter (· ≠ p) := by
    simp [queueBehind, hu, hctx]
  rw [hqueue, ← hq]
  symm
  refine waitingEarly_congr (earlyPdn_congr rfl (uePdn_set hctx rfl) fun _ => rfl) ?_
  intro r hr
  simp only [Heap.get_free]
  rw [if_neg (by simpa using (List.mem_filter.mp hr).2)]

def nameAddress (l : Ledger) (q : PdnPtr) (rsp : SessEstabRsp) : Ledger :=
  rsp.ueIpAddress.elim l fun a => l.act (.upfAddress q (ntohl a))

theorem ledger_setUpfAddress {s : State} {q : PdnPtr} {pdn : Pdn} (rsp : SessEstabRsp)
    (hq : s.pdns.get q = some pdn) :
    (s.setPdn q (setUpfAddress pdn rsp)).ledger = nameAddress s.ledger q rsp := by
  have hget : s.ledger.pdns.get q = some pdn := hq
  unfold setUpfAddress nameAddress
  cases rsp.ueIpAddress with
  | none => simp only [State.setPdn, State.ledger, Heap.set_self hq, Option.elim]
  | some a =>
    simp only [Option.elim, Ledger.act, hget]
    rfl

theorem processPfcpSessEstResp_spec (s : State) (proc : Procedure) (rsp : SessEstabRsp) :
    Sat (processPfcpSessEstResp s proc rsp) (fun r =>
      (s.ueByTeid (ueSessId rsp.seid) = none ∧ r = (s, causeContextNotFound)) ∨
      (s.ueByTeid (ueSessId rsp.seid) ≠ none ∧ ∃ q pdn, proc.pdnContext = some q ∧
        s.pdns.get q = some pdn ∧ r = (s.setPdn q (setUpfAddress pdn rsp), 0))) AnyFault := by
  unfold processPfcpSessEstResp
  cases s.ueByTeid (ueSessId rsp.seid) with
  | none => exact Or.inl ⟨rfl, rfl⟩
  | some u =>
    dsimp only
    refine sat_deref_bind fun context _ => ?_
    refine (sat_assertSome fun _ => trivial).bind fun q hq => ?_
    refine sat_deref_bind fun pdn hpdn => ?_
    refine sat_assert_bind ?_
    refine (sat_assertSome fun _ => trivial).bind fun _ _ => ?_
    refine sat_assert_bind ?_
    exact sat_pure (Or.inr ⟨by simp, q, pdn, hq, hpdn, rfl⟩)

theorem exists_setUpfAddress_eq (pdn : Pdn) (rsp : SessEstabRsp) :
    ∃ a, setUpfAddress pdn rsp = { pdn with ipv4 := a } := by
  unfold setUpfAddress
  cases rsp.ueIpAddress with
  | none => exact ⟨pdn.ipv4, rfl⟩
  | some a => exact ⟨ntohl a, rfl⟩

theorem bearerKind_setUpfAddress (pdn : Pdn) (rsp : SessEstabRsp) :
    (setUpfAddress pdn rsp).bearerKind = pdn.bearerKind := by
  obtain ⟨a, heq⟩ := exists_setUpfAddress_eq pdn rsp
  rw [heq]
  rfl

theorem map_bearerKind_setPdn {pdns : Heap Pdn} {q : PdnPtr} {pdn : Pdn}
    (hq : pdns.get q = some pdn) (rsp : SessEstabRsp) (r : PdnPtr) :
    ((pdns.set q (setUpfAddress pdn rsp)).get r).map Pdn.bearerKind =
      (pdns.get r).map Pdn.bearerKind := by
  rw [Heap.get_set hq]
  split_ifs with hr
  · rw [hr, hq, Option.map_some, Option.map_some, bearerKind_setUpfAddress]
  · rfl

theorem handlePfcpSessionEstResponse_performs (s : State) (p : ProcId) (rsp : SessEstabRsp) :
    Sat (handlePfcpSessionEstResponse s p rsp) (fun t => Performs Cleans s.ledger t ∨
      ∃ proc q, rsp.accepted = true ∧ s.procs.get p = some proc ∧ proc.pfcpTrans ≠ none ∧
        proc.pdnContext = some q ∧ Performs (Detaches fun q => waitingEarly s (queueBehind s p proc) = some q)
          (nameAddress s.ledger q rsp) t) AnyFault := by
  unfold handlePfcpSessionEstResponse
  refine sat_deref_bind fun proc hproc => ?_
  by_cases htrans : proc.pfcpTrans = none
  · rw [if_pos htrans]
    exact sat_pure (Or.inl .refl)
  rw [if_neg htrans]
  refine sat_assert_bind ?_
  by_cases hacc : rsp.accepted = false
  · rw [if_pos hacc]
    refine sat_deref_bind fun u _ => ?_
    refine sat_deref_bind fun context _ => ?_
    refine sat_deref_bind fun service _ => ?_
    refine (procInitialAttachFailure_cleans _ p _).bind fun t ht => sat_pure (Or.inl ?_)
    have hforget : (forgetAssociation t service).ledger = t.ledger := by
      unfold forgetAssociation
      split <;> rfl
    split_ifs
    · rw [Performs, hforget]
      exact ht
    · exact ht
  · rw [if_neg hacc]
    refine (processPfcpSessEstResp_spec _ _ rsp).bind ?_
    rintro ⟨t, cause⟩ (⟨-, hr⟩ | ⟨-, q, pdn, hq, hpdn, hr⟩)
    · cases hr
      dsimp only
      rw [if_pos (by decide : causeContextNotFound ≠ 0)]
      exact (procInitialAttachFailure_cleans _ p _).mono fun u hu => Or.inl hu
    · cases hr
      dsimp only
      rw [if_neg (by decide : ¬(0 ≠ 0))]
      refine sat_deref_bind fun trans _ => ?_
      have hget := Heap.get_set (q := p) (b := { proc with
        pfcpTrans := none, msgInfo := { msgType := .pfcpSessionEstablishmentResponse } }) hproc
      rw [if_pos rfl] at hget
      refine (endAttachSuccess_detaches hget).mono fun u hu => Or.inr ⟨proc, q, by simpa using hacc, hproc, htrans, hq, ?_⟩
      have hnamed := ledger_setUpfAddress rsp hpdn
      refine Path.mono (hnamed ▸ hu) fun _ _ h => h.mono fun r hr => ?_
      rw [← hr]
      symm
      refine waitingEarly_congr (earlyPdn_congr rfl rfl (map_bearerKind_setPdn hpdn rsp)) ?_
      intro r hr
      refine (Heap.get_set hproc).trans (if_neg ?_)
      simpa using (List.mem_filter.mp hr).2

/-- The PDN whose static address a Delete Session Request releases at once: the
detach is started if nothing is in the queue, and `SGW_RELOCATION_DETACH_PROC` does
nothing. -/
def requestEarly (s : State) (dsr : DelSessReq) : Option PdnPtr :=
  (earlyPdn s dsr).filter fun _ =>
    dsr.indicationSi = false ∧ ((s.ueByTeid dsr.teid).bind s.ues.get).any (·.pendingSubProcs.isEmpty)

theorem handleDeleteSessionRequest_detaches (s : State) (peer : Peer) (dsr : DelSessReq) :
    Sat (handleDeleteSessionRequest s peer dsr)
      (Performs (Detaches fun q => requestEarly s dsr = some q) s.ledger) AnyFault := by
  unfold handleDeleteSessionRequest
  dsimp only
  by_cases hdup : (s.gtpTrans ⟨peer, dsr.seq⟩).isSome
  · rw [if_pos hdup]
    exact sat_pure .refl
  rw [if_neg hdup]
  cases hu : s.ueByTeid dsr.teid with
  | none => exact sat_pure .refl
  | some u =>
    refine sat_deref_bind fun context hctx => ?_
    cases hpdnPtr : context.pdn with
    | none => exact sat_pure .refl
    | some pdnPtr =>
      refine sat_deref_bind fun pdn _ => ?_
      by_cases hlbi : pdn.defaultBearerId ≠ dsr.lbi
      · rw [if_pos hlbi]
        exact sat_pure .refl
      rw [if_neg hlbi]
      by_cases hqueue : context.pendingSubProcs.isEmpty
      · rw [if_pos hqueue]
        refine (startProcedureDirect_detaches _ _).mono fun t ht =>
          ht.mono fun _ _ h => h.mono fun q hq => ?_
        simp only [earlyOf, dsreqProc, State.setUe, Heap.get_alloc, if_true, Option.bind_some] at hq
        by_cases hsi : dsr.indicationSi = true
        · rw [if_pos hsi] at hq
          cases hq
        · rw [if_neg hsi] at hq
          have hsame : earlyPdn s dsr = some q := by
            refine Eq.trans (Eq.symm (congrFun (earlyPdn_congr ?_ ?_ ?_) dsr)) hq
            · rfl
            · exact uePdn_set hctx hpdnPtr.symm
            · exact fun _ => rfl
          simp [requestEarly, hsame, hsi, hu, hctx, hqueue]
      · rw [if_neg hqueue]
        exact sat_pure .refl

theorem handlePfcpSessionDeleteResponse_cleans (s : State) (p : ProcId) (sent : Bool) :
    Sat (handlePfcpSessionDeleteResponse s p sent) (Performs Cleans s.ledger) AnyFault := by
  unfold handlePfcpSessionDeleteResponse
  refine sat_deref_bind fun proc _ => ?_
  by_cases htrans : proc.pfcpTrans = none
  · rw [if_pos htrans]
    exact sat_pure .refl
  rw [if_neg htrans]
  refine sat_assert_bind ?_
  split_ifs
  · exact endDetach_cleans _ p
  · exact sat_pure .refl

theorem pfcpTimeout_cleans (cfg : Config) (s : State) (p : ProcId) :
    Sat (pfcpTimeout cfg s p) (Performs Cleans s.ledger) AnyFault := by
  unfold pfcpTimeout
  refine sat_deref_bind fun proc _ => ?_
  split
  · exact sat_pure .refl
  next itrCnt _ =>
  by_cases htype : proc.procType = .initialPdnAttach
  · rw [if_pos htype]
    refine (setProcMsg_spec s p _).bind ?_
    rintro t ⟨proc', -, rfl⟩
    split_ifs
    · exact sat_deref_bind fun _ _ => sat_pure .refl
    · exact procInitialAttachFailure_cleans _ p _
  · rw [if_neg htype]
    refine sat_assert_bind ?_
    split_ifs
    · exact sat_pure .refl
    · exact endDetach_cleans s p

theorem nwInitDetachEnd_cleans (s : State) (u : UePtr) :
    Sat (nwInitDetachEnd s u) (Performs Cleans s.ledger) AnyFault := by
  unfold nwInitDetachEnd
  refine sat_deref_bind fun context _ => ?_
  refine sat_deref_bind fun p _ => ?_
  split_ifs
  · exact sat_pure .refl
  · exact releaseSession_cleans s u p

theorem initiatePfcpAssociation_ledger (s : State) (service : Service) (dns : Ipv4) :
    Sat (initiatePfcpAssociation s service dns) (·.ledger = s.ledger) AnyFault := by
  unfold initiatePfcpAssociation
  split
  · split_ifs
    · exact associationSetup_ledger s service dns
    · exact sat_pure rfl
  · exact sat_pure rfl

theorem ledger_handlePfcpAssociationSetupResponse (s : State) (service : Service)
    (accepted ueip : Bool) :
    (handlePfcpAssociationSetupResponse s service accepted ueip).ledger = s.ledger := by
  unfold handlePfcpAssociationSetupResponse
  split <;> rfl

theorem ledger_upfDownEvent (s : State) (service : Service) :
    (upfDownEvent s service).ledger = s.ledger := by
  unfold upfDownEvent
  split <;> rfl

/-- The acts that an event may perform besides clean-ups and handing dynamic addresses
over are in `A`, and no static address is handed over. -/
def EventOk (A : Ledger → Act → Prop) (cfg : Config) (s : State) : Event → Prop
  | .createSessionRequest env peer csr => Processed cfg s peer csr → DirectOk cfg env s csr ∧
      ∀ l a, Attaches csr (requestKind cfg env s csr) (createFails env (imsiTable s csr) csr) l a →
        A l a
  | .ccaInitial p accepted _ => accepted = true → ∀ proc ∈ s.procs.get p, proc.gxTrans = true →
      HandOverOk s proc proc.pdnContext
  | .sessionEstResponse p rsp => rsp.accepted = true → ∀ proc ∈ s.procs.get p,
      proc.pfcpTrans ≠ none →
        (∀ r ∈ waitingEarly s (queueBehind s p proc), ∀ l, A l (.earlyRelease r)) ∧
        ∀ q ∈ proc.pdnContext, ∀ a ∈ rsp.ueIpAddress, A s.ledger (.upfAddress q (ntohl a))
  | .deleteSessionRequest _ dsr => ∀ r ∈ requestEarly s dsr, ∀ l, A l (.earlyRelease r)
  | .assocSetupSuccess service =>
    ∀ upf ∈ s.upfs service, ∀ p ∈ upf.pendingSubProcs, ResumeOk s p
  | _ => True

theorem performs_of_ledger_eq {A : Ledger → Act → Prop} {l : Ledger} {t : State}
    (h : t.ledger = l) : Performs A l t := by
  rw [Performs, h]
  exact .refl

theorem Detaches.of_early {A : Ledger → Act → Prop} {o : Option PdnPtr} {l : Ledger} {a : Act}
    (h : Detaches (fun q => o = some q) l a) (hclean : ∀ l a, Cleans l a → A l a)
    (hearly : ∀ r ∈ o, ∀ l, A l (.earlyRelease r)) : A l a := by
  rcases h with h | ⟨q, rfl, hq⟩
  · exact hclean l a h
  · exact hearly q hq l

theorem step_performs {A : Ledger → Act → Prop} (hA : ∀ l a, Settles l a → A l a) {cfg : Config}
    {s : State} {e : Event} (hok : EventOk A cfg s e) :
    Sat (step cfg s e) (Performs A s.ledger) AnyFault := by
  have hcleans (l : Ledger) (a : Act) (h : Cleans l a) : A l a := hA l a h.settles
  have hclean {t : State} (h : Performs Cleans s.ledger t) : Performs A s.ledger t := h.mono hcleans
  have hsettle {t : State} (h : Performs Settles s.ledger t) : Performs A s.ledger t := h.mono hA
  cases e with
  | createSessionRequest env peer csr =>
    by_cases hproc : Processed cfg s peer csr
    · obtain ⟨hdirect, hattach⟩ := hok hproc
      exact (handleCreateSessionRequest_attaches hdirect).mono fun t ht => ht.mono hattach
    · exact (handleCreateSessionRequest_cleans hproc).mono fun t => hclean
  | ccaInitial p accepted dns =>
    exact (handleCcaInitialMsg_settles dns hok).mono fun t => hsettle
  | gxTimeout p => exact (processGxCcriTimeout_cleans s p).mono fun t => hclean
  | sessionEstResponse p rsp =>
    refine (handlePfcpSessionEstResponse_performs s p rsp).mono ?_
    rintro t (h | ⟨proc, q, hacc, hproc, htrans, hq, h⟩)
    · exact hclean h
    · obtain ⟨hearly, haddr⟩ := hok hacc proc hproc htrans
      have hname : Path Ledger.act A s.ledger (nameAddress s.ledger q rsp) := by
        unfold nameAddress
        cases hrsp : rsp.ueIpAddress with
        | none => exact .refl
        | some a => exact .single (haddr q hq a hrsp)
      exact hname.trans (h.mono fun _ _ h => h.of_early hcleans hearly)
  | deleteSessionRequest peer dsr =>
    exact (handleDeleteSessionRequest_detaches s peer dsr).mono fun t ht =>
      ht.mono fun _ _ h => h.of_early hcleans hok
  | sessionDeleteResponse p sent =>
    exact (handlePfcpSessionDeleteResponse_cleans s p sent).mono fun t => hclean
  | pfcpTimeout p => exact (pfcpTimeout_cleans cfg s p).mono fun t => hclean
  | nwInitDetachEnd u => exact (nwInitDetachEnd_cleans s u).mono fun t => hclean
  | assocSetupResponse service accepted ueip =>
    exact performs_of_ledger_eq (ledger_handlePfcpAssociationSetupResponse s service accepted ueip)
  | assocSetupSuccess service => exact (upfPfcpSetupSuccess_settles s service hok).mono fun t => hsettle
  | assocSetupFailure service => exact (upfPfcpSetupFailure_cleans s service).mono fun t => hclean
  | discover service glob dns =>
    exact performs_of_ledger_eq (ledger_getUpfContext s service glob dns)
  | assocTimer service dns =>
    exact (initiatePfcpAssociation_ledger s service dns).mono fun t => performs_of_ledger_eq
  | upfDown service => exact performs_of_ledger_eq (ledger_upfDownEvent s service)

end Spgw.Session
