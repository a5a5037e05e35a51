/-
# What a rejected request leaves behind

When `process_create_sess_req` rejects a request, `handle_csreq_msg` answers it and ends the
procedure, which has no contexts yet, so `end_procedure` cleans nothing up.
-/

import Spgw.Ledger.Static

namespace Spgw.Session

open Machine

/-- The tables and the free addresses are as before. -/
structure Restored (s t : State) : Prop where
  imsi : t.ueByImsi = s.ueByImsi
  teid : t.ueByTeid = s.ueByTeid
  pdn : t.pdnByTeid = s.pdnByTeid
  dynamic : ∀ a, a ∈ t.dynamicPool ↔ a ∈ s.dynamicPool
  static : ∀ a, t.staticPool.used? a = some false ↔ s.staticPool.used? a = some false

structure SameTables (s t : State) : Prop where
  imsi : t.ueByImsi = s.ueByImsi
  teid : t.ueByTeid = s.ueByTeid
  pdn : t.pdnByTeid = s.pdnByTeid
  dynamic : t.dynamicPool = s.dynamicPool
  static : t.staticPool = s.staticPool

theorem SameTables.restored_iff {s t u : State} (h : SameTables t u) :
    Restored s u ↔ Restored s t := by
  constructor
  · rintro ⟨himsi, hteid, hpdn, hdynamic, hstatic⟩
    exact ⟨h.imsi ▸ himsi, h.teid ▸ hteid, h.pdn ▸ hpdn, h.dynamic ▸ hdynamic, h.static ▸ hstatic⟩
  · rintro ⟨himsi, hteid, hpdn, hdynamic, hstatic⟩
    refine ⟨h.imsi.trans himsi, h.teid.trans hteid, h.pdn.trans hpdn, ?_, ?_⟩
    · rw [h.dynamic]
      exact hdynamic
    · rw [h.static]
      exact hstatic

theorem SameTables.restored_iff_left {s t u : State} (h : SameTables s t) :
    Restored t u ↔ Restored s u := by
  constructor
  · rintro ⟨himsi, hteid, hpdn, hdynamic, hstatic⟩
    exact ⟨himsi.trans h.imsi, hteid.trans h.teid, hpdn.trans h.pdn, h.dynamic ▸ hdynamic,
      h.static ▸ hstatic⟩
  · rintro ⟨himsi, hteid, hpdn, hdynamic, hstatic⟩
    refine ⟨himsi.trans h.imsi.symm, hteid.trans h.teid.symm, hpdn.trans h.pdn.symm, ?_, ?_⟩
    · rw [h.dynamic]
      exact hdynamic
    · rw [h.static]
      exact hstatic

theorem SameTables.restored {s t : State} (h : SameTables s t) : Restored s t :=
  ⟨h.imsi, h.teid, h.pdn, fun _ => by rw [h.dynamic], fun _ => by rw [h.static]⟩

theorem csErrorResponse_tables {s : State} {p : ProcId} {proc : Procedure} (cause : ℕ)
    (hp : s.procs.get p = some proc) : Sat (csErrorResponse s p proc cause)
      (fun t => SameTables s t ∧ ∃ proc', t.procs.get p = some proc' ∧
        proc'.ueContext = proc.ueContext ∧ proc'.pdnContext = proc.pdnContext) AnyFault := by
  unfold csErrorResponse
  refine (sat_true (getErrorCsrspInfo s proc)).bind fun ⟨peer, seq⟩ _ => ?_
  refine sat_assert_bind ?_
  dsimp only
  split
  · exact sat_pure ⟨⟨rfl, rfl, rfl, rfl, rfl⟩, proc, hp, rfl, rfl⟩
  · refine (sat_assert fun _ => trivial).bind fun _ _ => sat_pure ⟨⟨rfl, rfl, rfl, rfl, rfl⟩, ?_⟩
    refine ⟨{ proc with gtpcTrans := none }, ?_, rfl, rfl⟩
    simp [State.setProc, Heap.get_set hp]

theorem procInitialAttachFailure_tables {s : State} {p : ProcId} {proc : Procedure} (cause : ℕ)
    (hp : s.procs.get p = some proc) (hue : proc.ueContext = none) :
    Sat (procInitialAttachFailure s p cause) (SameTables s) AnyFault := by
  unfold procInitialAttachFailure
  refine sat_deref_bind fun proc₁ hproc₁ => ?_
  cases hp.symm.trans hproc₁
  refine (csErrorResponse_tables cause hp).bind fun t ⟨hsame, proc', hproc', hue', _⟩ => ?_
  unfold endAttachFailure
  refine sat_deref_bind fun proc₂ hproc₂ => ?_
  cases hproc'.symm.trans hproc₂
  have hnone : proc'.ueContext = none := hue'.trans hue
  refine (unlinkProc_spec trivial (Or.inr trivial)).bind ?_
  rintro u (⟨-, rfl⟩ | ⟨v, context, hv, -, -⟩)
  · rw [hnone]
    exact sat_pure ⟨hsame.imsi, hsame.teid, hsame.pdn, hsame.dynamic, hsame.static⟩
  · rw [hnone] at hv
    cases hv

theorem sameTables_getUpfContext (s : State) (service : Service) (glob : Bool)
    (dns : Ipv4) : SameTables s (getUpfContext s service glob dns).1 := by
  obtain ⟨upfs, heq⟩ := exists_getUpfContext_eq s service glob dns
  rw [heq]
  exact ⟨rfl, rfl, rfl, rfl, rfl⟩

/-- `create_ue_context` gets past the IMSI table and the allocation of the context. -/
def entersContext (env : Env) (ueByImsi : Table ℕ UePtr) (csr : CreateSessReq) : Bool :=
  env.contextAlloc && match imsiKey csr with
    | .ok imsi => (ueByImsi imsi).isNone
    | .error _ => false

/-- The rejection leaves no trace in the pool or in the tables. -/
def AddressClean (env : Env) (s : State) (csr : CreateSessReq) : AddrKind → Prop
  | .static => s.staticPool.used? (ntohl csr.paaAddr) ≠ some false
  | .upf => 0 ∈ s.dynamicPool ∧ entersContext env s.ueByImsi csr = false
  | .dynamic =>
    if s.dynamicPool.head?.getD 0 = 0 then s.dynamicPool = [] ∨ 0 ∈ s.dynamicPool.tail
    else entersContext env s.ueByImsi csr = false

/-- The request is rejected before it gets an address, or its kind of address is
`AddressClean`. -/
def RejectionClean (cfg : Config) (env : Env) (s : State) (csr : CreateSessReq) : Prop :=
  cfg.matchApnProfile csr.apn = true → ∀ upf ∈ selectedUpf cfg env s csr, upf.addr ≠ 0 →
    AddressClean env s csr (addrKind csr upf)

instance (env : Env) (s : State) (csr : CreateSessReq) : ∀ k, Decidable (AddressClean env s csr k)
  | .static => inferInstanceAs (Decidable (_ ≠ _))
  | .upf => inferInstanceAs (Decidable (_ ∧ _))
  | .dynamic => inferInstanceAs (Decidable (if s.dynamicPool.head?.getD 0 = 0 then
      s.dynamicPool = [] ∨ 0 ∈ s.dynamicPool.tail else entersContext env s.ueByImsi csr = false))

instance (cfg : Config) (env : Env) (s : State) (csr : CreateSessReq) :
    Decidable (RejectionClean cfg env s csr) :=
  inferInstanceAs (Decidable (_ → ∀ upf ∈ selectedUpf cfg env s csr, _))

theorem restored_noAddress_iff {env : Env} {s t : State} {csr : CreateSessReq} {upf : Upf}
    {cause : ℕ} (haddr : chooseAddress s csr upf = (t, .inl cause)) :
    Restored s t ↔ AddressClean env s csr (addrKind csr upf) := by
  rcases chooseAddress_cases s csr upf with ⟨hkind, hused, heq⟩ | ⟨-, -, heq⟩ | ⟨-, heq⟩ |
    ⟨hkind, hpool, heq⟩ | ⟨-, a, rest, -, -, heq⟩
  all_goals
    rw [heq] at haddr
    cases haddr
  · rw [hkind]
    exact iff_of_true ⟨rfl, rfl, rfl, fun _ => .rfl, fun _ => .rfl⟩ hused
  · rw [hkind, AddressClean, if_pos hpool]
    constructor
    · intro h
      cases hq : s.dynamicPool with
      | nil => exact Or.inl rfl
      | cons b rest =>
        have hb : b = 0 := by simpa [hq] using hpool
        have hmem := (h.dynamic 0).mpr (by rw [hq, hb]; exact List.mem_cons_self)
        rw [hq] at hmem
        exact Or.inr hmem
    · intro h
      refine ⟨rfl, rfl, rfl, fun a => ?_, fun _ => .rfl⟩
      cases hq : s.dynamicPool with
      | nil => simp
      | cons b rest =>
        have hb : b = 0 := by simpa [hq] using hpool
        have hmem : 0 ∈ rest := by simpa [hq] using h
        rw [List.tail_cons, List.mem_cons, hb]
        exact ⟨Or.inr, fun h => h.elim (fun h => h ▸ hmem) id⟩

theorem restored_refused_iff {env : Env} {s t : State} {csr : CreateSessReq} {upf : Upf}
    {addr : AddrChoice} (haddr : chooseAddress s csr upf = (t, .inr addr))
    (henters : entersContext env s.ueByImsi csr = false) :
    Restored s (giveBack t addr) ↔ AddressClean env s csr (addrKind csr upf) := by
  rcases chooseAddress_cases s csr upf with ⟨-, -, heq⟩ | ⟨hkind, hfree, heq⟩ | ⟨hkind, heq⟩ |
    ⟨-, -, heq⟩ | ⟨hkind, a, rest, ha, hpool, heq⟩
  all_goals
    rw [heq] at haddr
    cases haddr
  · -- A static address stays used.
    rw [hkind]
    refine iff_of_false (fun h => ?_) fun h => h hfree
    have hused := (h.static (ntohl csr.paaAddr)).mpr hfree
    simp [giveBack, StaticPool.used?_setUsed, hfree] at hused
  · -- The UPF was to choose the address, and `0` is released.
    rw [hkind]
    simp only [giveBack, releaseIp_eq, htonl_zero]
    constructor
    · intro h
      exact ⟨(h.dynamic 0).mp (List.mem_append_right _ List.mem_cons_self), henters⟩
    · rintro ⟨hmem, -⟩
      refine ⟨rfl, rfl, rfl, fun a => ?_, fun _ => .rfl⟩
      rw [if_neg Bool.false_ne_true, List.mem_append, List.mem_singleton]
      exact ⟨fun h => h.elim id fun h => h ▸ hmem, Or.inl⟩
  · -- A dynamic address goes to the back of its queue.
    rw [hkind, AddressClean, if_neg (by simpa [hpool] using ha)]
    simp only [giveBack, releaseIp_eq, htonl_htonl]
    refine iff_of_true ⟨rfl, rfl, rfl, fun b => ?_, fun _ => .rfl⟩ henters
    rw [if_neg Bool.false_ne_true, hpool, List.mem_append, List.mem_singleton, List.mem_cons]
    exact or_comm

theorem ueByImsi_giveBack (s : State) (addr : AddrChoice) :
    (giveBack s addr).ueByImsi = s.ueByImsi := by
  obtain ⟨dynamicPool, heq⟩ := exists_giveBack_eq s addr
  rw [heq]

theorem restored_halfway_iff {env : Env} {s t : State} {csr : CreateSessReq} {upf : Upf}
    {addr : AddrChoice} {imsi : ℕ} (haddr : chooseAddress s csr upf = (t, .inr addr))
    (hnew : t.ueByImsi imsi = none) (henters : entersContext env s.ueByImsi csr = true) :
    Restored s (giveBack (addUeContext t imsi) addr) ↔
      AddressClean env s csr (addrKind csr upf) := by
  have htable : t.ueByImsi = s.ueByImsi := by
    have h := (upfs_chooseAddress s csr upf).2
    rwa [haddr] at h
  refine iff_of_false (fun h => ?_) ?_
  · have himsi := congrFun h.imsi imsi
    rw [ueByImsi_giveBack, ← htable, hnew] at himsi
    simp [addUeContext, Table.insert, hnew] at himsi
  · rcases chooseAddress_cases s csr upf with ⟨-, -, heq⟩ | ⟨hkind, hfree, -⟩ | ⟨hkind, -⟩ |
      ⟨-, -, heq⟩ | ⟨hkind, a, rest, ha, hpool, -⟩
    · rw [heq] at haddr
      cases haddr
    · rw [hkind]
      exact fun h => h hfree
    · rw [hkind]
      simp [AddressClean, henters]
    · rw [heq] at haddr
      cases haddr
    · rw [hkind, AddressClean, if_neg (by simpa [hpool] using ha), henters]
      simp

theorem procs_giveBack (s : State) (addr : AddrChoice) : (giveBack s addr).procs = s.procs := by
  obtain ⟨dynamicPool, heq⟩ := exists_giveBack_eq s addr
  rw [heq]

theorem procs_chooseAddress {s t : State} {csr : CreateSessReq} {upf : Upf} {r : ℕ ⊕ AddrChoice}
    (haddr : chooseAddress s csr upf = (t, r)) : t.procs = s.procs := by
  obtain ⟨dynamicPool, staticPool, heq⟩ := exists_chooseAddress_eq s csr upf
  rw [haddr] at heq
  obtain rfl : t = _ := heq
  rfl

theorem procs_getUpfContext (s : State) (service : Service) (glob : Bool) (dns : Ipv4) :
    (getUpfContext s service glob dns).1.procs = s.procs := by
  obtain ⟨upfs, heq⟩ := exists_getUpfContext_eq s service glob dns
  rw [heq]

theorem entersContext_eq_false {env : Env} {ueByImsi : Table ℕ UePtr} {csr : CreateSessReq}
    (h : env.contextAlloc = false ∨ ∃ imsi, imsiKey csr = .ok imsi ∧ ueByImsi imsi ≠ none) :
    entersContext env ueByImsi csr = false := by
  unfold entersContext
  rcases h with h | ⟨imsi, himsi, hknown⟩
  · simp [h]
  · simp only [himsi, Bool.and_eq_false_iff]
    exact Or.inr (by simpa [Option.isSome_iff_ne_none] using hknown)

theorem processCreateSessReq_restored (cfg : Config) (env : Env) (s : State) (csr : CreateSessReq) :
    Sat (processCreateSessReq cfg env s csr) (fun r => ∀ cause, r.2 = .rejected cause →
      r.1.procs = s.procs ∧ (Restored s r.1 ↔ RejectionClean cfg env s csr)) AnyFault := by
  refine (processCreateSessReq_spec trivial cfg env s csr).mono fun r hr cause hcause => ?_
  rcases hr with ⟨hnone, cause, rfl⟩ | ⟨hapn, sub, hsub, hout⟩
  · refine ⟨rfl, iff_of_true ⟨rfl, rfl, rfl, fun _ => .rfl, fun _ => .rfl⟩ ?_⟩
    intro hapn upf hupf
    rcases hnone with h | h
    · rw [hapn] at h
      cases h
    · simp [selectedUpf, h] at hupf
  have hupf : selectedUpf cfg env s csr =
      some (getUpfContext s sub.userPlaneService sub.globalAddress env.dns).2 := by
    rw [selectedUpf, hsub, Option.map_some]
  have hsame := sameTables_getUpfContext s sub.userPlaneService sub.globalAddress env.dns
  have hprocs := procs_getUpfContext s sub.userPlaneService sub.globalAddress env.dns
  generalize (getUpfContext s sub.userPlaneService sub.globalAddress env.dns).1 = s₁ at *
  generalize (getUpfContext s sub.userPlaneService sub.globalAddress env.dns).2 = upf at *
  -- The tables and pools are the same before and after the selection of the UPF.
  have hclean (hresolved : upf.addr ≠ 0) :
      RejectionClean cfg env s csr ↔ AddressClean env s₁ csr (addrKind csr upf) := by
    have hkind (k : AddrKind) : AddressClean env s₁ csr k ↔ AddressClean env s csr k := by
      cases k <;> simp only [AddressClean, hsame.static, hsame.dynamic, hsame.imsi]
    rw [hkind]
    constructor
    · exact fun h => h hapn upf hupf hresolved
    · intro h _ upf' hupf' _
      cases hupf.symm.trans hupf'
      exact h
  cases hout with
  | unresolved hzero =>
    refine ⟨hprocs, iff_of_true hsame.restored fun _ upf' hupf' hne => absurd hzero ?_⟩
    cases hupf.symm.trans hupf'
    exact hne
  | noAddress hresolved haddr =>
    refine ⟨(procs_chooseAddress haddr).trans hprocs, ?_⟩
    rw [← hsame.restored_iff_left, hclean hresolved]
    exact restored_noAddress_iff haddr
  | @refused t addr _ hresolved haddr _ hwhy =>
    refine ⟨(procs_giveBack t addr).trans ((procs_chooseAddress haddr).trans hprocs), ?_⟩
    rw [← hsame.restored_iff_left, hclean hresolved]
    have htable := (upfs_chooseAddress s₁ csr upf).2
    rw [haddr] at htable
    exact restored_refused_iff haddr (htable ▸ entersContext_eq_false hwhy)
  | @halfway t addr imsi hresolved haddr _ himsi hnew hctx =>
    refine ⟨(procs_giveBack _ addr).trans ((procs_chooseAddress haddr).trans hprocs), ?_⟩
    rw [← hsame.restored_iff_left, hclean hresolved]
    have htable := (upfs_chooseAddress s₁ csr upf).2
    rw [haddr] at htable
    refine restored_halfway_iff haddr hnew ?_
    simp [entersContext, hctx, himsi, ← htable, hnew]
  | opened => cases hcause

/-- **A rejected Create Session Request leaves tables and pools as they were exactly if it is
`RejectionClean`.** -/
theorem restored_iff_rejectionClean {cfg : Config} {env : Env} {s t u : State} {p : ProcId}
    {proc : Procedure} {csr : CreateSessReq} {cause : ℕ} (hp : s.procs.get p = some proc)
    (hue : proc.ueContext = none)
    (hrejected : processCreateSessReq cfg env s csr = .ok (t, .rejected cause))
    (hended : procInitialAttachFailure t p cause = .ok u) :
    Restored s u ↔ RejectionClean cfg env s csr := by
  have hspec := (sat_iff.mp (processCreateSessReq_restored cfg env s csr)).1 _ hrejected
  obtain ⟨hprocs, hiff⟩ := hspec cause rfl
  have hget : t.procs.get p = some proc := by
    rw [show t.procs = s.procs from hprocs]
    exact hp
  have hsame := (sat_iff.mp (procInitialAttachFailure_tables cause hget hue)).1 u hended
  rw [hsame.restored_iff]
  exact hiff

/-- A session with an IMSI of fourteen digits exists, and another request with that IMSI
and the static address `paaAddr` has got its procedure. -/
def Demo.secondRequest (paaAddr : Ipv4) : State :=
  let s := openSession (initial Demo.pool Demo.staticPool) (0xFF * 256 ^ 7 + 0x43210987654321)
    (Demo.request 1 7 0) { upfAlloc := true } 1
  { s with
    procs := s.procs.alloc (csreqProc ⟨Demo.mme, 2⟩ (Demo.request 2 7 paaAddr))
    gtpTrans := s.gtpTrans.insert ⟨Demo.mme, 2⟩ s.procs.next }

/-- The static address of the rejected request stays used. -/
theorem not_restored_secondRequest :
    ¬ ∀ t u cause, processCreateSessReq Demo.controlAddresses Demo.env
        (Demo.secondRequest (htonl 0x0A020001)) (Demo.request 2 7 (htonl 0x0A020001)) =
          .ok (t, .rejected cause) →
        procInitialAttachFailure t 0 cause = .ok u →
        Restored (Demo.secondRequest (htonl 0x0A020001)) u := by
  intro h
  have hrun : Sat (processCreateSessReq Demo.controlAddresses Demo.env
      (Demo.secondRequest (htonl 0x0A020001)) (Demo.request 2 7 (htonl 0x0A020001)))
      (fun r => r.2 = .rejected causeRequestRejected ∧
        Sat (procInitialAttachFailure r.1 0 causeRequestRejected)
          (fun u => u.staticPool.used? 0x0A020001 = some true) (fun _ => False))
      (fun _ => False) := by
    decide
  obtain ⟨⟨t, r⟩, hprocess, hrejected, hend⟩ := hrun.exists_ok
  obtain ⟨u, hended, hused⟩ := hend.exists_ok
  obtain rfl : r = .rejected causeRequestRejected := hrejected
  have hfree : (Demo.secondRequest (htonl 0x0A020001)).staticPool.used? 0x0A020001 =
      some false := by
    decide
  have hstill := ((h t u causeRequestRejected hprocess hended).static 0x0A020001).mpr hfree
  rw [hused] at hstill
  cases hstill

/-- The same request without a static address gets a dynamic one and gives it back. -/
theorem restored_secondRequest :
    ∃ t u, processCreateSessReq Demo.controlAddresses Demo.env (Demo.secondRequest 0)
        (Demo.request 2 7 0) = .ok (t, .rejected causeRequestRejected) ∧
      procInitialAttachFailure t 0 causeRequestRejected = .ok u ∧
      Restored (Demo.secondRequest 0) u := by
  have hrun : Sat (processCreateSessReq Demo.controlAddresses Demo.env (Demo.secondRequest 0)
      (Demo.request 2 7 0)) (fun r => r.2 = .rejected causeRequestRejected ∧
        Sat (procInitialAttachFailure r.1 0 causeRequestRejected) (fun _ => True)
          (fun _ => False)) (fun _ => False) := by
    decide
  obtain ⟨⟨t, r⟩, hprocess, hrejected, hend⟩ := hrun.exists_ok
  obtain ⟨u, hended, -⟩ := hend.exists_ok
  obtain rfl : r = .rejected causeRequestRejected := hrejected
  have hclean : RejectionClean Demo.controlAddresses Demo.env (Demo.secondRequest 0)
      (Demo.request 2 7 0) := by
    decide
  exact ⟨t, u, hprocess, hended, (restored_iff_rejectionClean (by rfl) (by rfl) hprocess hended).mpr hclean⟩

end Spgw.Session
