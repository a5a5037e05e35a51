/-
# The ledger and a Create Session Request

A request first replaces the context it finds under its IMSI, and then takes an address of one of
the three kinds.
-/

import Spgw.Ledger.UserPlane

namespace Spgw.Session

open Machine

def selectedUpf (cfg : Config) (env : Env) (s : State) (csr : CreateSessReq) : Option Upf :=
  (cfg.matchSubSelection csr).map fun sub =>
    (getUpfContext s sub.userPlaneService sub.globalAddress env.dns).2

def requestKind (cfg : Config) (env : Env) (s : State) (csr : CreateSessReq) : Option AddrKind :=
  (selectedUpf cfg env s csr).map (addrKind csr)

/-- Without Gx, no static address goes to a UPF that allocates itself. -/
def DirectOk (cfg : Config) (env : Env) (s : State) (csr : CreateSessReq) : Prop :=
  cfg.gxEnabled = false → requestKind cfg env s csr = some .static →
    ∀ upf ∈ selectedUpf cfg env s csr, ¬(upf.state = .assocRespRcvd ∧ upf.ueip = true)

instance (cfg : Config) (env : Env) (s : State) (csr : CreateSessReq) :
    Decidable (DirectOk cfg env s csr) :=
  inferInstanceAs (Decidable (_ → _ → _))

/-- What an attach does that fails in `create_ue_context`. -/
def failAct (csr : CreateSessReq) : AddrKind → Act
  | .static => .failStatic (ntohl csr.paaAddr)
  | .upf => .failUpf
  | .dynamic => .failDynamic

def openAct (pdn : Pdn) : AddrKind → Act
  | .static => .openStatic pdn
  | .upf => .openUpf pdn
  | .dynamic => .openDynamic pdn

def Attaches (csr : CreateSessReq) (kind : Option AddrKind) (fails : Bool) (l : Ledger) (a : Act) :
    Prop :=
  Settles l a ∨ l.Valid a ∧ ∃ k ∈ kind,
    (a = .depleted ∨ (fails = true ∧ a = failAct csr k) ∨ ∃ pdn, a = openAct pdn k)

theorem Settles.attaches {csr : CreateSessReq} {kind : Option AddrKind} {fails : Bool} {l : Ledger}
    {a : Act} (h : Settles l a) : Attaches csr kind fails l a := Or.inl h

theorem ledger_getUpfContext (s : State) (service : Service) (glob : Bool) (dns : Ipv4) :
    (getUpfContext s service glob dns).1.ledger = s.ledger := by
  obtain ⟨upfs, heq⟩ := exists_getUpfContext_eq s service glob dns
  rw [heq]
  rfl

theorem ledger_giveBack {s t : State} {csr : CreateSessReq} {upf : Upf} {addr : AddrChoice}
    (h : chooseAddress s csr upf = (t, .inr addr)) :
    (giveBack t addr).ledger = s.ledger.act (failAct csr (addrKind csr upf)) ∧
      s.ledger.Valid (failAct csr (addrKind csr upf)) := by
  rcases chooseAddress_cases s csr upf with ⟨-, -, heq⟩ | ⟨hkind, hfree, heq⟩ | ⟨hkind, heq⟩ |
    ⟨-, -, heq⟩ | ⟨hkind, a, rest, -, hpool, heq⟩
  all_goals
    rw [heq] at h
    cases h
  · rw [hkind]
    exact ⟨rfl, hfree⟩
  · rw [hkind]
    refine ⟨?_, trivial⟩
    simp only [giveBack, releaseIp_eq, htonl_zero]
    rfl
  · rw [hkind]
    refine ⟨?_, trivial⟩
    simp only [giveBack, releaseIp_eq, htonl_htonl]
    simp [State.ledger, Ledger.act, failAct, hpool]

theorem ledger_openSession {s t : State} {csr : CreateSessReq} {upf : Upf} {addr : AddrChoice}
    (imsi : ℕ) (service : Service) (h : chooseAddress s csr upf = (t, .inr addr)) :
    (openSession t imsi csr addr service).ledger =
        s.ledger.act (openAct (newPdn t csr addr) (addrKind csr upf)) ∧
      s.ledger.Valid (openAct (newPdn t csr addr) (addrKind csr upf)) ∧
      (addr.staticAddrPdn = true → addrKind csr upf = .static) := by
  rcases chooseAddress_cases s csr upf with ⟨-, -, heq⟩ | ⟨hkind, hfree, heq⟩ | ⟨hkind, heq⟩ |
    ⟨-, -, heq⟩ | ⟨hkind, a, rest, ha, hpool, heq⟩
  all_goals
    rw [heq] at h
    cases h
  · rw [hkind]
    exact ⟨rfl, ⟨hfree, rfl⟩, fun _ => rfl⟩
  · rw [hkind]
    exact ⟨rfl, ⟨rfl, rfl⟩, fun h => by cases h⟩
  · rw [hkind]
    refine ⟨?_, ⟨?_, ?_, rfl, rfl⟩, fun h => ?_⟩
    · simp [openSession, openContext, State.ledger, Ledger.act, openAct, hpool]
    · simp [State.ledger, newPdn, hpool]
    · simpa [newPdn] using ha
    · cases h

theorem noAddress_performs {s t : State} {csr : CreateSessReq} {upf : Upf} {cause : ℕ}
    {fails : Bool} (h : chooseAddress s csr upf = (t, .inl cause)) :
    Performs (Attaches csr (some (addrKind csr upf)) fails) s.ledger t := by
  rcases chooseAddress_cases s csr upf with ⟨-, -, heq⟩ | ⟨-, -, heq⟩ | ⟨-, heq⟩ |
    ⟨-, hpool, heq⟩ | ⟨-, a, rest, -, -, heq⟩
  all_goals
    rw [heq] at h
    cases h
  · exact .refl
  · have hact : Attaches csr (some (addrKind csr upf)) fails s.ledger .depleted :=
      Or.inr ⟨hpool, _, rfl, Or.inl rfl⟩
    exact .single hact

theorem upfs_getUpfContext (s : State) (service : Service) (glob : Bool) (dns : Ipv4) :
    (getUpfContext s service glob dns).1.upfs service =
      some (getUpfContext s service glob dns).2 := by
  unfold getUpfContext
  split
  · simp [State.setUpf]
  · next upf hupf =>
    split_ifs
    · simp [State.setUpf]
    · exact hupf

theorem upfs_chooseAddress (s : State) (csr : CreateSessReq) (upf : Upf) :
    (chooseAddress s csr upf).1.upfs = s.upfs ∧
      (chooseAddress s csr upf).1.ueByImsi = s.ueByImsi := by
  obtain ⟨dynamicPool, staticPool, heq⟩ := exists_chooseAddress_eq s csr upf
  rw [heq]
  exact ⟨rfl, rfl⟩

theorem ueByImsi_getUpfContext (s : State) (service : Service) (glob : Bool) (dns : Ipv4) :
    (getUpfContext s service glob dns).1.ueByImsi = s.ueByImsi := by
  obtain ⟨upfs, heq⟩ := exists_getUpfContext_eq s service glob dns
  rw [heq]

theorem resumeOk_openSession {t s₂ : State} {imsi : ℕ} {csr : CreateSessReq} {addr : AddrChoice}
    {service : Service} {p : ProcId} {proc : Procedure} {context : UeContext} {upf : Upf}
    (hupf : t.upfs service = some upf)
    (hues : (openSession t imsi csr addr service).ues.get t.ues.next = some context)
    (hprocs : (openSession t imsi csr addr service).procs.get p = some proc)
    (hs₂ : s₂ = ((openSession t imsi csr addr service).setUe t.ues.next
      { context with pendingSubProcs := context.pendingSubProcs ++ [p] }).setProc p
      { proc with
        ueContext := some t.ues.next
        pdnContext := some t.pdns.next
        msgInfo := { proc.msgInfo with pdnContext := some t.pdns.next } })
    (hstatic : addr.staticAddrPdn = true → ¬(upf.state = .assocRespRcvd ∧ upf.ueip = true)) :
    ResumeOk s₂ p := by
  subst hs₂
  have hctx : context.upfContext = some service := by
    simp only [openSession, Heap.get_alloc, if_true, Option.some.injEq] at hues
    rw [← hues]
  intro proc' hproc' hover pdn hpdn _
  simp only [State.setProc, State.setUe, Heap.get_set hprocs, if_true, Option.mem_def,
    Option.some.injEq] at hproc'
  subst hproc'
  obtain ⟨upf', hupf', hready⟩ := handsOver_iff.mp hover
  obtain ⟨u, context', service', hu, hctx', hservice', hupf'⟩ := upfOf_eq_some.mp hupf'
  cases hu
  simp only [State.setProc, State.setUe, Heap.get_set hues, if_true, Option.some.injEq] at hctx'
  subst hctx'
  cases hctx.symm.trans hservice'
  cases hupf.symm.trans hupf'
  have hpdn' : newPdn t csr addr = pdn := by
    simpa [State.setProc, State.setUe, openSession, Heap.get_alloc] using hpdn
  rw [← hpdn']
  exact Bool.eq_false_iff.mpr fun h => hstatic h hready

/-- **What `handle_csreq_msg` does to the ledger.** -/
theorem handleCsreqMsg_attaches {cfg : Config} {env : Env} {s : State} {csr : CreateSessReq}
    (p : ProcId) (hok : DirectOk cfg env s csr) :
    Sat (handleCsreqMsg cfg env s p csr)
      (Performs (Attaches csr (requestKind cfg env s csr) (createFails env s.ueByImsi csr)) s.ledger)
      AnyFault := by
  unfold handleCsreqMsg
  refine (processCreateSessReq_spec trivial cfg env s csr).bind fun r hr => ?_
  have hfail (t : State) (cause : ℕ) : Sat (procInitialAttachFailure t p cause)
      (Performs (Attaches csr (requestKind cfg env s csr) (createFails env s.ueByImsi csr)) t.ledger)
      AnyFault :=
    (procInitialAttachFailure_cleans t p cause).mono fun u hu => hu.mono fun _ _ h =>
      h.settles.attaches
  rcases hr with ⟨-, cause, rfl⟩ | ⟨-, sub, hsub, hout⟩
  · exact hfail s cause
  have hupf : selectedUpf cfg env s csr =
      some (getUpfContext s sub.userPlaneService sub.globalAddress env.dns).2 := by
    rw [selectedUpf, hsub, Option.map_some]
  have hledger := ledger_getUpfContext s sub.userPlaneService sub.globalAddress env.dns
  have hstored := upfs_getUpfContext s sub.userPlaneService sub.globalAddress env.dns
  have htable := ueByImsi_getUpfContext s sub.userPlaneService sub.globalAddress env.dns
  generalize (getUpfContext s sub.userPlaneService sub.globalAddress env.dns).1 = s₁ at *
  generalize (getUpfContext s sub.userPlaneService sub.globalAddress env.dns).2 = upf at *
  have hkind : requestKind cfg env s csr = some (addrKind csr upf) := by
    rw [requestKind, hupf, Option.map_some]
  have hfails {t : State} {addr : AddrChoice} (haddr : chooseAddress s₁ csr upf = (t, .inr addr))
      (hcreate : createFails env t.ueByImsi csr = true) :
      Performs (Attaches csr (requestKind cfg env s csr) (createFails env s.ueByImsi csr)) s.ledger
        (giveBack t addr) := by
    obtain ⟨hact, hvalid⟩ := ledger_giveBack haddr
    have htable' := (upfs_chooseAddress s₁ csr upf).2
    rw [haddr] at htable'
    rw [Performs, hact, ← hledger]
    refine .single (Or.inr ⟨hvalid, _, hkind, Or.inr (Or.inl ⟨?_, rfl⟩)⟩)
    rw [← htable, ← htable']
    exact hcreate
  cases hout with
  | unresolved _ =>
    rw [← hledger]
    exact hfail s₁ _
  | noAddress _ haddr =>
    have hpath : Performs (Attaches csr (some (addrKind csr upf)) (createFails env s.ueByImsi csr))
        s₁.ledger _ := noAddress_performs haddr
    rw [← hledger]
    exact (hfail _ _).mono fun u hu => (hkind ▸ hpath).trans hu
  | refused _ haddr hcreate _ => exact (hfail _ _).mono fun u hu => (hfails haddr hcreate).trans hu
  | @halfway t addr imsi _ haddr hcreate _ _ _ =>
    -- The context in the tables is not part of the ledger.
    have hback : (giveBack (addUeContext t imsi) addr).ledger = (giveBack t addr).ledger := by
      unfold giveBack
      split_ifs <;> rfl
    refine (hfail _ _).mono fun u hu => (hfails haddr hcreate).trans ?_
    rwa [← hback]
  | @opened t addr imsi _ haddr _ _ _ =>
    obtain ⟨hact, hvalid, hstatic⟩ := ledger_openSession imsi sub.userPlaneService haddr
    have hopen : Performs (Attaches csr (requestKind cfg env s csr)
        (createFails env s.ueByImsi csr)) s.ledger
        (openSession t imsi csr addr sub.userPlaneService) := by
      rw [Performs, hact, ← hledger]
      exact .single (Or.inr ⟨hvalid, _, hkind, Or.inr (Or.inr ⟨_, rfl⟩)⟩)
    refine sat_deref_bind fun proc hproc => ?_
    refine sat_deref_bind fun context hctx => ?_
    dsimp only
    split_ifs with hgx
    · exact sat_pure hopen
    · have hsame := (upfs_chooseAddress s₁ csr upf).1
      rw [haddr] at hsame
      have hresume := resumeOk_openSession (hsame ▸ hstored) hctx hproc rfl fun h =>
        hok (by simpa using hgx) (by rw [hkind, hstatic h]) upf hupf
      refine (initiateUpfSession_settles env.assocDns hresume).mono fun u hu => hopen.trans ?_
      exact hu.mono fun _ _ h => h.attaches

def replacedImsi (s : State) (csr : CreateSessReq) : Option ℕ :=
  (s.ueByImsi csr.imsiDigits).bind fun u => (s.ues.get u).bind fun context =>
    (s.ueByTeid context.s11SgwGtpcTeid).bind fun u => (s.ues.get u).map (·.imsi)

/-- The IMSI table as `create_ue_context` finds it. -/
def imsiTable (s : State) (csr : CreateSessReq) : Table ℕ UePtr :=
  (replacedImsi s csr).elim s.ueByImsi s.ueByImsi.erase

def Upf.profile (upf : Upf) : Upf := { upf with pendingSubProcs := [] }

def SameProfiles (s t : State) : Prop :=
  ∀ service, (t.upfs service).map Upf.profile = (s.upfs service).map Upf.profile

theorem sameProfiles_forgetPending (s : State) (service : Option Service) (queue : List ProcId) :
    SameProfiles s (forgetPending s service queue) := by
  intro other
  unfold forgetPending
  split
  · rfl
  · next service =>
    split
    · rfl
    · next upf hupf =>
      by_cases heq : other = service
      · simp [State.setUpf, heq, hupf, Upf.profile]
      · simp [State.setUpf, Function.update_of_ne heq]

theorem releaseSession_imsi {s : State} {u : UePtr} (p : PdnPtr) {context : UeContext}
    (hu : s.ues.get u = some context) : Sat (releaseSession s u p)
      (fun t => t.ueByImsi = s.ueByImsi.erase context.imsi ∧ t.upfs = s.upfs) AnyFault := by
  unfold releaseSession
  refine (cleanupPdnContext_spec trivial (Or.inr trivial)).bind ?_
  rintro t ⟨pdn, ue, context₁, -, -, hctx₁, rfl⟩
  refine (cleanupUeContext_spec trivial (Or.inr trivial)).mono ?_
  rintro t ⟨context₂, procs, gtpTrans, hctx₂, -, rfl⟩
  obtain ⟨dynamicPool, staticPool, heq⟩ := exists_releaseAddress_eq s pdn
  have himsi : context₂.imsi = context.imsi := by
    simp only [Heap.get_set hctx₁] at hctx₂
    split_ifs at hctx₂ with hue
    · obtain rfl : context₁ = context := Option.some.inj (hctx₁.symm.trans (hue ▸ hu))
      rw [← Option.some.inj hctx₂]
    · rw [Option.some.inj (hctx₂.symm.trans hu)]
  rw [heq, himsi]
  exact ⟨rfl, rfl⟩

theorem ledger_forgetPending (s : State) (service : Option Service) (queue : List ProcId) :
    (forgetPending s service queue).ledger = s.ledger ∧
      (forgetPending s service queue).ueByImsi = s.ueByImsi ∧
      (forgetPending s service queue).ues = s.ues := by
  unfold forgetPending
  split
  · exact ⟨rfl, rfl, rfl⟩
  · split <;> exact ⟨rfl, rfl, rfl⟩

theorem replaceOldContext_cleans (s : State) (csr : CreateSessReq) :
    Sat (replaceOldContext s csr) (fun t =>
      Performs Cleans s.ledger t ∧ t.ueByImsi = imsiTable s csr ∧ SameProfiles s t) AnyFault := by
  unfold replaceOldContext
  cases hu : s.ueByImsi csr.imsiDigits with
  | none => exact sat_pure ⟨.refl, by simp [imsiTable, replacedImsi, hu], fun _ => rfl⟩
  | some u =>
    dsimp only
    unfold replaceContext
    refine sat_deref_bind fun context hctx => ?_
    refine (sat_true (getPdn s context csr.ebi)).bind fun _ _ => ?_
    split
    · next hteid =>
      refine sat_pure ⟨.refl, ?_, fun _ => rfl⟩
      simp [imsiTable, replacedImsi, hu, hctx, hteid]
    · next u' hteid =>
      refine sat_deref_bind fun context' hctx' => ?_
      refine (sat_true (getPdn s context' csr.ebi)).bind fun p _ => ?_
      obtain ⟨hledger, himsi, hues⟩ :=
        ledger_forgetPending s context'.upfContext context'.pendingSubProcs
      have hprofiles := sameProfiles_forgetPending s context'.upfContext context'.pendingSubProcs
      refine (Sat.and (releaseSession_cleans _ u' p)
        (releaseSession_imsi p (hues ▸ hctx'))).mono ?_
      rintro t ⟨hpath, htable, hupfs⟩
      refine ⟨hledger ▸ hpath, ?_, fun service => ?_⟩
      · rw [htable, himsi]
        simp [imsiTable, replacedImsi, hu, hctx, hteid, hctx']
      · rw [hupfs]
        exact hprofiles service

theorem profile_getUpfContext {s t : State} (h : SameProfiles s t) (service : Service)
    (glob : Bool) (dns : Ipv4) :
    (getUpfContext t service glob dns).2.profile =
      (getUpfContext s service glob dns).2.profile := by
  have hs := h service
  unfold getUpfContext
  cases ht : t.upfs service with
  | none =>
    rw [ht, Option.map_none, eq_comm, Option.map_eq_none_iff] at hs
    simp [hs]
  | some upf =>
    rw [ht, Option.map_some, eq_comm, Option.map_eq_some_iff] at hs
    obtain ⟨upf₀, hupf₀, hprofile⟩ := hs
    have haddr : upf.addr = upf₀.addr := (congrArg Upf.addr hprofile).symm
    rw [hupf₀]
    dsimp only
    rw [haddr]
    split_ifs
    · simp only [Upf.profile, Upf.mk.injEq] at hprofile ⊢
      simp [hprofile]
    · exact hprofile.symm

theorem profile_selectedUpf {s t : State} (h : SameProfiles s t) (cfg : Config) (env : Env)
    (csr : CreateSessReq) :
    (selectedUpf cfg env t csr).map Upf.profile = (selectedUpf cfg env s csr).map Upf.profile := by
  simp only [selectedUpf, Option.map_map]
  congr 1
  funext sub
  exact profile_getUpfContext h sub.userPlaneService sub.globalAddress env.dns

theorem requestKind_congr {s t : State} (h : SameProfiles s t) (cfg : Config) (env : Env)
    (csr : CreateSessReq) : requestKind cfg env t csr = requestKind cfg env s csr := by
  have hprofile := congrArg (Option.map (addrKind csr)) (profile_selectedUpf h cfg env csr)
  rwa [Option.map_map, Option.map_map] at hprofile

theorem DirectOk.congr {s t : State} {cfg : Config} {env : Env} {csr : CreateSessReq}
    (h : SameProfiles s t) (hok : DirectOk cfg env s csr) : DirectOk cfg env t csr := by
  intro hgx hkind upf hupf hready
  rw [requestKind_congr h] at hkind
  have hprofile := profile_selectedUpf h cfg env csr
  rw [Option.mem_def.mp hupf, Option.map_some, eq_comm, Option.map_eq_some_iff] at hprofile
  obtain ⟨upf₀, hupf₀, heq⟩ := hprofile
  have hstate : upf₀.profile.state = upf.profile.state := congrArg Upf.state heq
  have hueip : upf₀.profile.ueip = upf.profile.ueip := congrArg Upf.ueip heq
  exact hok hgx hkind upf₀ hupf₀ ⟨hstate.trans hready.1, hueip.trans hready.2⟩

/-- The request is neither rejected in validation, nor repeated, nor a handover. -/
def Processed (cfg : Config) (s : State) (peer : Peer) (csr : CreateSessReq) : Prop :=
  validateCsreqMsg csr = 0 ∧ s.gtpTrans ⟨peer, csr.seq⟩ = none ∧ csr.indicationOi = false ∧
    cfg.matchApnProfile csr.apn = true

instance (cfg : Config) (s : State) (peer : Peer) (csr : CreateSessReq) :
    Decidable (Processed cfg s peer csr) :=
  inferInstanceAs (Decidable (_ ∧ _))

theorem handleCreateSessionRequest_attaches {cfg : Config} {env : Env} {s : State} {peer : Peer}
    {csr : CreateSessReq} (hok : DirectOk cfg env s csr) :
    Sat (handleCreateSessionRequest cfg env s peer csr)
      (Performs (Attaches csr (requestKind cfg env s csr) (createFails env (imsiTable s csr) csr))
        s.ledger) AnyFault := by
  unfold handleCreateSessionRequest
  split_ifs with hinvalid hdup
  · exact sat_assert_bind (sat_pure .refl)
  · exact sat_pure .refl
  · refine (replaceOldContext_cleans s csr).bind fun t ⟨hclean, htable, hprofiles⟩ => ?_
    have hpath : Performs (Attaches csr (requestKind cfg env s csr)
        (createFails env (imsiTable s csr) csr)) s.ledger t :=
      hclean.mono fun _ _ h => h.settles.attaches
    unfold startAttach
    dsimp only
    split_ifs
    · exact sat_pure hpath
    · generalize hs₁ : ({ t with
          procs := t.procs.alloc (csreqProc ⟨peer, csr.seq⟩ csr)
          gtpTrans := t.gtpTrans.insert ⟨peer, csr.seq⟩ t.procs.next } : State) = s₁
      have hsame : SameProfiles s s₁ := hs₁ ▸ hprofiles
      have himsi : s₁.ueByImsi = imsiTable s csr := hs₁ ▸ htable
      have hledger : s₁.ledger = t.ledger := hs₁ ▸ rfl
      have hattach := handleCsreqMsg_attaches t.procs.next (hok.congr hsame)
      rw [requestKind_congr hsame, himsi, hledger] at hattach
      exact hattach.mono fun u hu => hpath.trans hu

theorem handleCreateSessionRequest_cleans {cfg : Config} {env : Env} {s : State} {peer : Peer}
    {csr : CreateSessReq} (hnot : ¬Processed cfg s peer csr) :
    Sat (handleCreateSessionRequest cfg env s peer csr) (Performs Cleans s.ledger) AnyFault := by
  unfold handleCreateSessionRequest
  split_ifs with hinvalid hdup
  · exact sat_assert_bind (sat_pure .refl)
  · exact sat_pure .refl
  · refine (replaceOldContext_cleans s csr).bind fun t ⟨hclean, _, _⟩ => ?_
    unfold startAttach
    by_cases hoi : csr.indicationOi = true
    · rw [if_pos hoi]
      exact sat_pure hclean
    · have hapn : cfg.matchApnProfile csr.apn = false := by
        by_contra hapn
        simp only [ne_eq, not_not] at hinvalid
        simp only [Bool.not_eq_true, Option.isSome_eq_false_iff, Option.isNone_iff_eq_none] at hdup
        simp only [Bool.not_eq_true, Bool.not_eq_false] at hoi hapn
        exact hnot ⟨hinvalid, hdup, hoi, hapn⟩
      rw [if_neg hoi, handleCsreqMsg, processCreateSessReq, if_pos hapn]
      exact (procInitialAttachFailure_cleans _ _ _).mono fun u hu => hclean.trans hu

theorem setProcMsg_spec (s : State) (p : ProcId) (msg : MsgInfo) :
    Sat (setProcMsg s p msg) (fun t => ∃ proc, s.procs.get p = some proc ∧
      t = s.setProc p { proc with msgInfo := msg }) AnyFault :=
  sat_deref_bind fun proc hproc => sat_pure ⟨proc, hproc, rfl⟩

theorem processGxCcriTimeout_cleans (s : State) (p : ProcId) :
    Sat (processGxCcriTimeout s p) (Performs Cleans s.ledger) AnyFault := by
  unfold processGxCcriTimeout
  refine sat_deref_bind fun proc _ => ?_
  split_ifs
  · exact sat_pure .refl
  · refine (setProcMsg_spec s p _).bind ?_
    rintro t ⟨proc', -, rfl⟩
    exact procInitialAttachFailure_cleans _ p _

theorem handleCcaInitialMsg_settles {s : State} {p : ProcId} {accepted : Bool} (dns : Ipv4)
    (hok : accepted = true → ∀ proc ∈ s.procs.get p, proc.gxTrans = true →
      HandOverOk s proc proc.pdnContext) :
    Sat (handleCcaInitialMsg s p accepted dns) (Performs Settles s.ledger) AnyFault := by
  unfold handleCcaInitialMsg
  refine sat_deref_bind fun proc hproc => ?_
  split_ifs with hgx hacc
  · exact sat_pure .refl
  · refine (setProcMsg_spec _ p _).bind ?_
    rintro t ⟨proc', hproc', rfl⟩
    have hue : proc'.ueContext = proc.ueContext := by
      simp only [State.setProc, Heap.get_set hproc, if_true, Option.some.injEq] at hproc'
      rw [← hproc']
    refine initiateUpfSession_settles dns ?_
    intro proc'' hproc'' hover pdn hpdn
    have hmsg : { proc' with msgInfo := { msgType := .gxCca, pdnContext := proc.pdnContext } } =
        proc'' := by
      simpa [State.setProc, Heap.get_set (h := (s.procs.set p _)) hproc'] using hproc''
    subst hmsg
    refine hok hacc proc hproc (by simpa using hgx) ?_ pdn hpdn
    obtain ⟨upf, hupf, hready⟩ := handsOver_iff.mp hover
    refine handsOver_iff.mpr ⟨upf, ?_, hready⟩
    rw [← hupf, upfOf, ← hue]
    rfl
  · refine (setProcMsg_spec _ p _).bind ?_
    rintro t ⟨proc', -, rfl⟩
    exact (procInitialAttachFailure_cleans _ p _).mono fun u hu => hu.mono fun _ _ h => h.settles

end Spgw.Session
