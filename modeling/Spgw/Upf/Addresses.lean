/-
# The addresses of the UPFs

A UPF context has an address, and the address table finds the context.
-/

import Spgw.Upf.Waiting
import Spgw.Lib.Directory

namespace Spgw.Upf

open Function

open Session (Service sat_deref_bind sat_assert_bind deref_some)
open Machine
open Directory (Act)

variable {s t : State} {u v w : UpfPtr} {c c' upf : UpfContext} {p : ProcId} {a dns : Ipv4}
  {fail : Bool}

def State.directory (s : State) : Directory UpfPtr Ipv4 where
  addr u := (s.upfs.get u).map UpfContext.addr
  owner := s.byAddr

/-- The address table finds exactly the contexts with an address. -/
structure State.Addressed (s : State) : Prop where
  entry : ∀ a u, s.byAddr a = some u → (s.upfs.get u).map UpfContext.addr = some a
  found : ∀ u upf, s.upfs.get u = some upf → upf.addr ≠ 0 → s.byAddr upf.addr = some u
  apart : ∀ u w upf upf', s.upfs.get u = some upf → s.upfs.get w = some upf' →
    upf.addr = upf'.addr → upf.addr ≠ 0 → u = w

theorem addressed_iff_exact (hzero : s.byAddr 0 = none) : s.Addressed ↔ s.directory.Exact 0 := by
  constructor
  · intro h a u
    constructor
    · intro hentry
      refine ⟨h.entry a u hentry, ?_⟩
      rintro rfl
      rw [show s.byAddr 0 = some u from hentry] at hzero
      cases hzero
    · rintro ⟨haddr, ha⟩
      obtain ⟨upf, hupf, rfl⟩ := Option.map_eq_some_iff.mp haddr
      exact h.found u upf hupf ha
  · intro h
    have hfound (u : UpfPtr) (upf : UpfContext) (hupf : s.upfs.get u = some upf)
        (ha : upf.addr ≠ 0) : s.byAddr upf.addr = some u :=
      (h upf.addr u).mpr ⟨Option.map_eq_some_iff.mpr ⟨upf, hupf, rfl⟩, ha⟩
    refine ⟨fun a u hentry => ((h a u).mp hentry).1, hfound, ?_⟩
    intro u w upf upf' hupf hupf' heq ha
    have hu := hfound u upf hupf ha
    have hw := hfound w upf' hupf' (heq ▸ ha)
    rw [heq, hw] at hu
    exact (Option.some.inj hu).symm

/-- `get_upf_context`. -/
def resolve (s : State) (service : Option Service) (dns : Ipv4) : Act UpfPtr Ipv4 :=
  match s.byService service with
  | none => .assign s.upfs.next dns
  | some u => if s.directory.addr u = some 0 then .assign u dns else .stay

/-- `association_setup_handler`. -/
def resolveAnew (s : State) (u : UpfPtr) (dns : Ipv4) : Act UpfPtr Ipv4 :=
  match s.upfs.get u with
  | none => .stay
  | some upf =>
    match s.byService upf.fqdn with
    | none => .transfer u s.upfs.next dns
    | some w => if w = u ∨ s.directory.addr w = some 0 then .transfer u w dns else .clear u

/-- `initiate_upf_session` and `initiate_pfcp_association`. -/
def associate (s : State) (u : UpfPtr) (dns : Ipv4) : Act UpfPtr Ipv4 :=
  if (s.upfs.get u).map UpfContext.state = some .idle then resolveAnew s u dns else .stay

/-- `upf_down_event`. -/
def goDown (s : State) (a : Ipv4) : Act UpfPtr Ipv4 :=
  match s.byAddr a with
  | none => .stay
  | some u => .clear u

/-- `upf_pfcp_setup_failure`. -/
def giveUp (s : State) (u : UpfPtr) : Act UpfPtr Ipv4 :=
  match (s.upfs.get u).bind UpfContext.proc with
  | none => .stay
  | some id =>
    match s.assocs.get id with
    | none => .stay
    | some proc => .release proc.upfContext

def effect (fail : Bool) (s : State) : Event → Act UpfPtr Ipv4
  | .discover service _ dns => resolve s (some service) dns
  | .attach u _ dns => associate s u dns
  | .assocTimer u dns => associate s u dns
  | .assocTimeout id =>
    match s.assocs.get id with
    | none => .stay
    | some proc => if proc.pfcpTrans then giveUp s proc.upfContext else .stay
  | .assocRequest peer _ =>
    match s.byAddr peer with
    | none => .assign s.upfs.next peer
    | some _ => .stay
  | .heartbeatResponse peer recovTime =>
    if heartbeatFails fail s.peers peer recovTime then goDown s peer else .stay
  | .peerTimeout peer => if (s.peers peer).isSome then goDown s peer else .stay
  | .disable service =>
    match s.byService (some service) with
    | none => .stay
    | some u => .strike u
  | .unwind _ =>
    match s.stack with
    | .setupFailed u :: _ => giveUp s u
    | _ => .stay
  | .replaced _ _ | .assocResponse _ _ _ _ => .stay

theorem directory_of_set {d : Directory UpfPtr Ipv4} (h : s.upfs.get u = some c)
    (hupfs : t.upfs = s.upfs.set u c')
    (hd : ⟨update s.directory.addr u (some c'.addr), t.byAddr⟩ = d) : t.directory = d := by
  rw [← hd]
  unfold State.directory
  congr 1
  funext v
  rw [hupfs, Heap.get_set h]
  by_cases hv : v = u
  · rw [if_pos hv, hv, update_self]
    rfl
  · rw [if_neg hv, update_of_ne hv]

theorem directory_of_same {d : Directory UpfPtr Ipv4} (h : s.upfs.get u = some c)
    (hupfs : t.upfs = s.upfs.set u c') (haddr : c'.addr = c.addr) (hbyAddr : t.byAddr = s.byAddr)
    (hd : s.directory = d) : t.directory = d := by
  have hold : s.directory.addr u = some c.addr := by simp only [State.directory, h, Option.map_some]
  refine directory_of_set h hupfs (Eq.trans ?_ hd)
  rw [haddr, ← hold, update_eq_self, hbyAddr]
  rfl

theorem directory_createUpfContext {service : Option Service} {glob : Bool} :
    (createUpfContext s a service glob).directory =
      s.directory.act 0 (.assign s.upfs.next a) := by
  unfold State.directory
  simp only [Directory.act]
  congr 1
  funext v
  refine (congrArg _ Heap.get_alloc).trans ?_
  by_cases hv : v = s.upfs.next
  · rw [if_pos hv, hv, update_self]
    rfl
  · rw [if_neg hv, update_of_ne hv]

theorem getUpfContext_directory (service : Option Service) (glob : Bool) :
    Sat (getUpfContext s service glob dns)
      (fun q => q.1.directory = s.directory.act 0 (resolve s service dns)) AnyFault := by
  unfold getUpfContext resolve
  cases hu : s.byService service with
  | none => exact directory_createUpfContext
  | some u =>
    refine sat_deref_bind fun upf hupf => ?_
    have haddr : s.directory.addr u = some upf.addr := by
      simp only [State.directory, hupf, Option.map_some]
    by_cases hzero : upf.addr = 0
    · simp only [if_pos hzero, if_pos (haddr.trans (congrArg some hzero))]
      exact sat_pure (directory_of_set hupf rfl rfl)
    · simp only [if_neg hzero, if_neg fun h => hzero (Option.some.inj (haddr.symm.trans h))]
      exact sat_pure rfl

theorem associationSetupRequest_directory (id : AssocPtr) :
    Sat (associationSetupRequest s id) (fun t => t.directory = s.directory) AnyFault := by
  unfold associationSetupRequest
  refine sat_deref_bind fun proc _ => ?_
  refine sat_deref_bind fun upf hupf => ?_
  exact sat_pure (directory_of_same hupf rfl rfl rfl rfl)

theorem act_resolve_cleared (hupf : s.upfs.get u = some upf) :
    (s.setUpf u { upf with addr := 0 }).directory.act 0
        (resolve (s.setUpf u { upf with addr := 0 }) upf.fqdn dns) =
      s.directory.act 0 (resolveAnew s u dns) := by
  have hclear : (s.setUpf u { upf with addr := 0 }).directory = s.directory.act 0 (.clear u) :=
    directory_of_set hupf rfl rfl
  have hnext : (s.setUpf u { upf with addr := 0 }).upfs.next = s.upfs.next := Heap.next_set
  unfold resolve resolveAnew
  rw [hclear, hnext]
  simp only [hupf]
  change _ = _
  cases hw : s.byService upf.fqdn with
  | none =>
    have hw' : (s.setUpf u { upf with addr := 0 }).byService upf.fqdn = none := hw
    rw [hw']
    rfl
  | some w =>
    have hw' : (s.setUpf u { upf with addr := 0 }).byService upf.fqdn = some w := hw
    have hcleared : (s.directory.act 0 (.clear u)).addr w = some 0 ↔
        w = u ∨ s.directory.addr w = some 0 := by
      change update s.directory.addr u (some 0) w = some 0 ↔ _
      by_cases hwu : w = u
      · rw [hwu, update_self]
        exact ⟨fun _ => Or.inl rfl, fun _ => rfl⟩
      · rw [update_of_ne hwu]
        exact ⟨Or.inr, fun h => h.resolve_left hwu⟩
    rw [hw']
    simp only [hcleared]
    split_ifs with hassign
    · rfl
    · rfl

theorem associationSetupHandler_directory {id : AssocPtr} {proc : Assoc}
    (hid : s.assocs.get id = some proc) :
    Sat (associationSetupHandler s id dns)
      (fun t => t.directory = s.directory.act 0 (resolveAnew s proc.upfContext dns)) AnyFault := by
  unfold associationSetupHandler
  rw [hid, deref_some, pure_bind]
  refine sat_deref_bind fun upf hupf => ?_
  refine sat_assert_bind ?_
  refine (getUpfContext_directory _ _).bind fun q hq => ?_
  rw [act_resolve_cleared hupf] at hq
  refine sat_deref_bind fun found hfound => ?_
  split_ifs with haddr
  · exact sat_pure (directory_of_same hfound rfl rfl rfl hq)
  · exact (associationSetupRequest_directory id).mono fun t ht => ht.trans hq

theorem resolveAnew_congr (hs : s.upfs.get u = some c) (ht : t.upfs.get u = some c')
    (hfqdn : c'.fqdn = c.fqdn) (hdirectory : t.directory = s.directory)
    (hnext : t.upfs.next = s.upfs.next) (hbyService : t.byService = s.byService) :
    resolveAnew t u dns = resolveAnew s u dns := by
  unfold resolveAnew
  rw [hdirectory, hnext, hbyService]
  simp only [hs, ht, hfqdn]

theorem startAssociation_directory : Sat (startAssociation s u dns)
      (fun t => t.directory = s.directory.act 0 (resolveAnew s u dns)) AnyFault := by
  unfold startAssociation
  refine sat_deref_bind fun upf hupf => ?_
  have hid : (s.assocs.alloc { upfContext := u }).get s.assocs.next = some { upfContext := u } :=
    Heap.get_alloc.trans (if_pos rfl)
  refine (associationSetupHandler_directory hid).mono fun t ht => ht.trans ?_
  have hget : (s.upfs.set u { upf with proc := some s.assocs.next }).get u =
      some { upf with proc := some s.assocs.next } := (Heap.get_set hupf).trans (if_pos rfl)
  refine congr (congrArg _ (directory_of_same hupf rfl rfl rfl rfl)) ?_
  exact resolveAnew_congr hupf hget rfl (directory_of_same hupf rfl rfl rfl rfl) Heap.next_set rfl

theorem initiateUpfSession_directory : Sat (initiateUpfSession s u p dns)
      (fun t => t.directory = s.directory.act 0 (associate s u dns)) AnyFault := by
  unfold initiateUpfSession associate
  refine sat_deref_bind fun upf hupf => ?_
  have hbuffer : (bufferCsrRequest s u upf p).directory = s.directory :=
    directory_of_same hupf rfl rfl rfl rfl
  simp only [hupf, Option.map_some]
  cases hstate : upf.state with
  | assocReqSnt => exact sat_pure hbuffer
  | assocRespRcvd => exact sat_pure rfl
  | idle =>
    rw [if_pos rfl]
    refine startAssociation_directory.mono fun t ht => ht.trans ?_
    have hget : (bufferCsrRequest s u upf p).upfs.get u =
        some { upf with pendingSubProcs := p :: upf.pendingSubProcs } :=
      (Heap.get_set hupf).trans (if_pos rfl)
    rw [hbuffer, resolveAnew_congr hupf hget rfl hbuffer Heap.next_set rfl]

theorem initiatePfcpAssociation_directory : Sat (initiatePfcpAssociation s u dns)
      (fun t => t.directory = s.directory.act 0 (associate s u dns)) AnyFault := by
  unfold initiatePfcpAssociation associate
  refine sat_deref_bind fun upf hupf => ?_
  simp only [hupf, Option.map_some, Option.some.injEq]
  split_ifs with hstate
  · exact startAssociation_directory
  · exact sat_pure rfl

theorem handlePfcpAssociationSetupResponse_directory {id : AssocPtr} {accepted : Bool} {recovTime : ℕ} :
    Sat (handlePfcpAssociationSetupResponse s id accepted a recovTime)
      (fun t => t.directory = s.directory) AnyFault := by
  unfold handlePfcpAssociationSetupResponse
  split
  · rfl
  · next proc _ =>
      split_ifs with htrans
      · rfl
      · refine sat_deref_bind fun upf hupf => ?_
        exact sat_pure (directory_of_same hupf rfl rfl rfl rfl)
      · refine sat_deref_bind fun upf hupf => ?_
        exact sat_pure (directory_of_same hupf rfl rfl rfl rfl)

theorem handlePfcpAssociationSetupRequest_directory {recovTime : ℕ} :
    Sat (handlePfcpAssociationSetupRequest s a recovTime)
      (fun t => t.directory = s.directory.act 0 (effect fail s (.assocRequest a recovTime)))
      AnyFault := by
  unfold handlePfcpAssociationSetupRequest
  simp only [effect]
  cases hu : s.byAddr a with
  | none =>
    refine sat_deref_bind fun upf hupf => ?_
    exact sat_pure (directory_of_same hupf rfl rfl rfl directory_createUpfContext)
  | some u =>
    refine sat_deref_bind fun upf hupf => ?_
    exact sat_pure (directory_of_same hupf rfl rfl rfl rfl)

theorem upfDownEvent_directory :
    Sat (upfDownEvent s a) (fun t => t.directory = s.directory.act 0 (goDown s a)) AnyFault := by
  unfold upfDownEvent goDown
  cases hu : s.byAddr a with
  | none => exact sat_pure rfl
  | some u =>
    refine sat_deref_bind fun upf hupf => ?_
    exact sat_pure (directory_of_set hupf rfl rfl)

theorem configDisableUpf_directory {service : Service} : Sat (configDisableUpf s service)
      (fun t => t.directory = s.directory.act 0 (effect fail s (.disable service))) AnyFault := by
  unfold configDisableUpf
  simp only [effect]
  cases hu : s.byService (some service) with
  | none => rfl
  | some u =>
    refine sat_deref_bind fun upf hupf => ?_
    have haddr : s.directory.addr u = some upf.addr := by
      simp only [State.directory, hupf, Option.map_some]
    refine sat_pure (directory_of_set hupf rfl ?_)
    simp only [Directory.act, haddr]
    rw [← haddr, update_eq_self]
    rfl

theorem endUpfProcedure_directory {id : AssocPtr} :
    Sat (endUpfProcedure s id) (fun t => t.directory = s.directory) AnyFault := by
  unfold endUpfProcedure
  refine sat_deref_bind fun proc _ => ?_
  refine sat_deref_bind fun upf hupf => ?_
  exact sat_pure (directory_of_same hupf rfl rfl rfl rfl)

theorem procPfcpAssocSetupFailure_directory {id : AssocPtr} {proc : Assoc}
    (hid : s.assocs.get id = some proc) :
    Sat (procPfcpAssocSetupFailure s id)
      (fun t => t.directory = s.directory.act 0 (.release proc.upfContext)) AnyFault := by
  unfold procPfcpAssocSetupFailure
  rw [hid, deref_some, pure_bind]
  refine sat_deref_bind fun upf hupf => ?_
  refine endUpfProcedure_directory.mono fun t ht => ht.trans ?_
  have haddr : s.directory.addr proc.upfContext = some upf.addr := by
    simp only [State.directory, hupf, Option.map_some]
  refine directory_of_set hupf rfl ?_
  simp only [Directory.act, haddr]
  rfl

theorem directory_drainPending {outcome : Outcome} (hupf : s.upfs.get u = some upf) :
    (drainPending s u upf outcome).directory = s.directory :=
  directory_of_same hupf rfl rfl rfl rfl

theorem upfPfcpSetupFailure_directory :
    Sat (upfPfcpSetupFailure s u) (fun t => t.directory = s.directory.act 0 (giveUp s u)) AnyFault := by
  unfold upfPfcpSetupFailure giveUp
  refine sat_deref_bind fun upf hupf => ?_
  rw [rejectPending_eq hupf]
  simp only [hupf, Option.bind_some]
  cases hproc : upf.proc with
  | none => exact sat_pure (directory_drainPending hupf)
  | some id =>
    simp only
    cases hid : s.assocs.get id with
    | none =>
      have hid' : (drainPending s u upf .rejected).assocs.get id = none := hid
      unfold procPfcpAssocSetupFailure
      rw [hid']
      exact trivial
    | some proc =>
      have hid' : (drainPending s u upf .rejected).assocs.get id = some proc := hid
      refine (procPfcpAssocSetupFailure_directory hid').mono fun t ht => ht.trans ?_
      rw [directory_drainPending hupf]

theorem wakePending_directory {dns : ℕ → Ipv4} (hupf : s.upfs.get u = some upf) :
    Sat (wakePending u dns (upf.pendingSubProcs.length + 1) s)
      (fun t => t.directory = s.directory) AnyFault := by
  by_cases hstate : upf.state = .assocRespRcvd
  · rw [wakePending_of_established hupf hstate (Nat.lt_succ_self _)]
    exact directory_drainPending hupf
  · by_cases hnil : upf.pendingSubProcs = []
    · rw [wakePending_of_nil hupf hnil]
      exact directory_drainPending hupf
    · have hest : ¬ s.Established u := fun h => hstate ((established_of_get hupf).mp h)
      have hpend : s.pending u ≠ [] := by
        rw [pending_of_get hupf]
        exact hnil
      exact (wakePending_ne_ok hest hpend).mono fun t ht => ht.elim

theorem upfPfcpSetupSuccess_directory {dns : ℕ → Ipv4} :
    Sat (upfPfcpSetupSuccess s u dns) (fun t => t.directory = s.directory) AnyFault := by
  unfold upfPfcpSetupSuccess
  refine sat_deref_bind fun upf hupf => ?_
  refine (wakePending_directory hupf).bind fun t ht => ?_
  refine sat_deref_bind fun upf' _ => ?_
  refine sat_deref_bind fun id _ => ?_
  exact endUpfProcedure_directory.mono fun t' ht' => ht'.trans ht

/-- **An event that the gateway survives changes the directory as `effect` says.** -/
theorem step_directory (e : Event) : Sat (step fail s e)
      (fun t => t.directory = s.directory.act 0 (effect fail s e)) AnyFault := by
  cases e with
  | discover service glob dns =>
    have h : Sat (getUpfContext s (some service) glob dns)
        (fun q => q.1.directory = s.directory.act 0 (resolve s (some service) dns)) AnyFault :=
      getUpfContext_directory (some service) glob
    simp only [step, effect]
    cases hq : getUpfContext s (some service) glob dns with
    | error f => exact trivial
    | ok q =>
      rw [hq] at h
      exact h
  | attach u p dns =>
    simp only [step, effect]
    split_ifs with hu
    · exact initiateUpfSession_directory
    · have hnone : s.upfs.get u = none := Option.not_isSome_iff_eq_none.mp hu
      simp only [associate, hnone]
      rfl
  | replaced u p =>
    simp only [step, effect, forgetProc]
    split_ifs with hu
    · refine sat_deref_bind fun upf hupf => ?_
      exact sat_pure (directory_of_same hupf rfl rfl rfl rfl)
    · rfl
  | assocTimer u dns =>
    simp only [step, effect]
    split_ifs with hu
    · exact initiatePfcpAssociation_directory
    · have hnone : s.upfs.get u = none := Option.not_isSome_iff_eq_none.mp hu
      simp only [associate, hnone]
      rfl
  | assocResponse id accepted peer recovTime => exact handlePfcpAssociationSetupResponse_directory
  | assocTimeout id =>
    simp only [step, effect, processAssocRespTimeoutHandler]
    cases hid : s.assocs.get id with
    | none => rfl
    | some proc =>
      simp only
      split_ifs with htrans
      · exact upfPfcpSetupFailure_directory
      · rfl
  | assocRequest peer recovTime => exact handlePfcpAssociationSetupRequest_directory
  | heartbeatResponse peer recovTime =>
    simp only [step, effect, processHeartbeatResponse]
    split_ifs with hfails
    · exact upfDownEvent_directory
    · rfl
  | peerTimeout peer =>
    simp only [step, effect, peerTimeout]
    split_ifs
    · exact upfDownEvent_directory.bind fun t ht => sat_pure ht
    · rfl
  | disable service => exact configDisableUpf_directory
  | unwind dns =>
    simp only [step, effect, unwind]
    cases hstack : s.stack with
    | nil => rfl
    | cons e stack =>
      cases e with
      | setupFailed u => exact upfPfcpSetupFailure_directory
      | setupSuccess u => exact upfPfcpSetupSuccess_directory

/-- The event takes no address that is in use and gives none up that is entered. -/
def AddrOk (fail : Bool) (s : State) (e : Event) : Prop := s.directory.Allowed 0 (effect fail s e)

instance (fail : Bool) (s : State) (e : Event) : Decidable (AddrOk fail s e) :=
  inferInstanceAs (Decidable (Directory.Allowed _ _ _))

theorem directory_addr_next : s.directory.addr s.upfs.next = none := by
  simp only [State.directory, Heap.get_next, Option.map_none]

theorem valid_associate : s.directory.Valid 0 (associate s u dns) := by
  unfold associate resolveAnew
  split_ifs with hidle
  · cases hupf : s.upfs.get u with
    | none => trivial
    | some upf =>
      have hlive : s.directory.addr u ≠ none := by simp [State.directory, hupf]
      simp only
      cases hw : s.byService upf.fqdn with
      | none => exact ⟨hlive, fun _ => Or.inl directory_addr_next⟩
      | some w =>
        simp only
        split_ifs with hassign
        · exact ⟨hlive, fun hne => Or.inr (hassign.resolve_left hne)⟩
        · exact hlive
  · trivial

theorem valid_goDown (h : s.directory.Exact 0) : s.directory.Valid 0 (goDown s a) := by
  unfold goDown
  cases hu : s.byAddr a with
  | none => trivial
  | some u =>
    have haddr := ((h a u).mp hu).1
    change s.directory.addr u ≠ none
    rw [haddr]
    exact Option.some_ne_none a

theorem valid_giveUp : s.directory.Valid 0 (giveUp s u) := by
  unfold giveUp
  split
  · trivial
  · split
    · trivial
    · trivial

theorem valid_effect (h : s.directory.Exact 0) (e : Event) :
    s.directory.Valid 0 (effect fail s e) := by
  cases e with
  | discover service glob dns =>
    simp only [effect, resolve]
    cases hu : s.byService (some service) with
    | none => exact Or.inl directory_addr_next
    | some u =>
      simp only
      split_ifs with hzero
      · exact Or.inr hzero
      · trivial
  | attach u p dns => exact valid_associate
  | replaced u p => trivial
  | assocTimer u dns => exact valid_associate
  | assocResponse id accepted peer recovTime => trivial
  | assocTimeout id =>
    simp only [effect]
    cases hid : s.assocs.get id with
    | none => trivial
    | some proc =>
      simp only
      split_ifs with htrans
      · exact valid_giveUp
      · trivial
  | assocRequest peer recovTime =>
    simp only [effect]
    cases hu : s.byAddr peer with
    | none => exact Or.inl directory_addr_next
    | some u => trivial
  | heartbeatResponse peer recovTime =>
    simp only [effect]
    split_ifs with hfails
    · exact valid_goDown h
    · trivial
  | peerTimeout peer =>
    simp only [effect]
    split_ifs
    · exact valid_goDown h
    · trivial
  | disable service =>
    simp only [effect]
    cases hu : s.byService (some service) with
    | none => trivial
    | some u => trivial
  | unwind dns =>
    simp only [effect]
    split
    · exact valid_giveUp
    · trivial

theorem directory_of_next {e : Event} (h : next fail s e = some t) :
    t.directory = s.directory.act 0 (effect fail s e) :=
  of_next (step_directory e) h

/-- **One event keeps the directory exact if it does no harm, and only then.** -/
theorem exact_next_iff {e : Event} (hs : s.directory.Exact 0) (h : next fail s e = some t) :
    t.directory.Exact 0 ↔ AddrOk fail s e := by
  rw [directory_of_next h]
  exact Directory.exact_act_iff hs (valid_effect hs e)

theorem byAddr_zero_of_next {e : Event} (hs : s.directory.Exact 0)
    (h : next fail s e = some t) : t.byAddr 0 = none := by
  have hzero := Directory.act_owner_null hs.owner_null (effect fail s e)
  rw [← directory_of_next h] at hzero
  exact hzero

theorem exact_initial : State.directory {} |>.Exact 0 := by
  intro a u
  constructor
  · intro h
    cases h
  · rintro ⟨h, -⟩
    cases h

/-- **The address table is exact in every state of a run whose events do no harm, and a run in which
an event does harm has a state where it is not.** -/
theorem addressed_iff_addrOk (fail : Bool) (es : List Event) :
    (Guarded (next fail) (AddrOk fail) {} es → ∀ s ∈ trace (next fail) {} es, s.Addressed) ∧
    ((final (next fail) {} es).isSome → (∀ s ∈ trace (next fail) {} es, s.Addressed) →
      Guarded (next fail) (AddrOk fail) {} es) := by
  constructor
  · intro hg s hs
    have hexact : s.directory.Exact 0 := by
      refine trace_invariant (I := fun s => s.directory.Exact 0) ?_ exact_initial hg s hs
      exact fun s e t hs hok hnext => (exact_next_iff hs hnext).mpr hok
    exact (addressed_iff_exact hexact.owner_null).mpr hexact
  · refine guarded_of_trace (I := fun s => s.directory.Exact 0) ?_ exact_initial
    intro s e t hs hnext haddressed
    have hexact := (addressed_iff_exact (byAddr_zero_of_next hs hnext)).mp haddressed
    exact ⟨(exact_next_iff hs hnext).mp hexact, hexact⟩

namespace Demo

def movedUpf : List Event :=
  [.discover 1 false 0x0A000001, .assocTimer 0 0x0A000002, .discover 2 false 0x0A000001]

end Demo

/-- The second UPF is not found under its address: the entry leads to the first one, whose
address is another one. -/
theorem not_addressed_movedUpf : ¬ ∀ s ∈ trace (next true) {} Demo.movedUpf, s.Addressed := by
  intro h
  have hsome : (final (next true) {} Demo.movedUpf).isSome := by decide +kernel
  obtain ⟨s, hs⟩ := Option.isSome_iff_exists.mp hsome
  have hentry : (final (next true) {} Demo.movedUpf).map (fun s => s.byAddr 0x0A000001) =
      some (some 0) := by decide +kernel
  have haddr : (final (next true) {} Demo.movedUpf).map
      (fun s => (s.upfs.get 0).map UpfContext.addr) = some (some 0x0A000002) := by decide +kernel
  rw [hs] at hentry haddr
  have hcurrent := (h s (Machine.mem_trace_of_final hs)).entry 0x0A000001 0 (Option.some.inj hentry)
  exact absurd ((Option.some.inj haddr).symm.trans hcurrent) (by decide)

end Spgw.Upf
