/-
# Pointers between UPFs and association procedures

UPF contexts are never freed. The tables, the queue and the association procedures lead to contexts
that exist, and a context's procedure leads back to it (`Linked`).
-/

import Spgw.Upf.Waiting

namespace Spgw.Upf

open Function

open Session (Service deref sat_deref sat_assert deref_some)
open Machine

variable {s t : State} {u v w : UpfPtr} {c c' upf : UpfContext} {id : AssocPtr} {p : ProcId}
  {a dns : Ipv4} {pfcpHbTsFail : Bool} {E : Fault → Prop}

def State.Live (s : State) (u : UpfPtr) : Prop := (s.upfs.get u).isSome

def State.assocUpf (s : State) (id : AssocPtr) : Option UpfPtr :=
  (s.assocs.get id).map Assoc.upfContext

def StackEvent.upfContext : StackEvent → UpfPtr
  | .setupSuccess u => u
  | .setupFailed u => u

/-- No table, event or procedure leads to a context that is not there. -/
structure Linked (s : State) : Prop where
  service : ∀ n u, s.byService n = some u → s.Live u
  addr : ∀ a u, s.byAddr a = some u → s.Live u
  stack : ∀ e ∈ s.stack, s.Live e.upfContext
  assoc : ∀ id u, s.assocUpf id = some u → s.Live u
  proc : ∀ u upf id, s.upfs.get u = some upf → upf.proc = some id → s.assocUpf id = some u

theorem linked_initial : Linked {} where
  service _ _ h := nomatch h
  addr _ _ h := nomatch h
  stack _ h := nomatch h
  assoc _ _ h := nomatch h
  proc _ _ _ h := nomatch h

theorem live_of_get (h : s.upfs.get u = some upf) : s.Live u := by
  unfold State.Live
  rw [h]
  rfl

theorem State.Live.get (h : s.Live u) : ∃ upf, s.upfs.get u = some upf :=
  Option.isSome_iff_exists.mp h

theorem sat_deref_live (h : s.Live u) : Sat (deref (s.upfs.get u)) (s.upfs.get u = some ·) E := by
  obtain ⟨upf, hupf⟩ := h.get
  exact sat_deref fun hnone => by rw [hupf] at hnone; cases hnone

theorem live_of_set (hget : s.upfs.get u = some c) (hupfs : t.upfs = s.upfs.set u c') :
    t.Live v ↔ s.Live v := by
  unfold State.Live
  rw [hupfs, Heap.get_set hget]
  by_cases hv : v = u
  · rw [if_pos hv, hv, hget]
    exact ⟨fun _ => rfl, fun _ => rfl⟩
  · rw [if_neg hv]

theorem linked_of_set (h : Linked s) (hget : s.upfs.get u = some c)
    (hupfs : t.upfs = s.upfs.set u c') (hproc : ∀ id, c'.proc = some id → t.assocUpf id = some u)
    (hnew : ∀ id v, t.assocUpf id = some v → v = u ∨ s.assocUpf id = some v)
    (hold : ∀ id v, v ≠ u → s.assocUpf id = some v → t.assocUpf id = some v)
    (hservice : t.byService = s.byService)
    (haddr : ∀ a v, t.byAddr a = some v → v = u ∨ s.byAddr a = some v)
    (hstack : ∀ e ∈ t.stack, e.upfContext = u ∨ e ∈ s.stack) : Linked t := by
  have hlive (v : UpfPtr) : s.Live v → t.Live v := (live_of_set hget hupfs).mpr
  have hu : t.Live u := hlive u (live_of_get hget)
  refine ⟨fun n v hv => ?_, fun a v hv => ?_, fun e he => ?_, fun id v hv => ?_, ?_⟩
  · rw [hservice] at hv
    exact hlive v (h.service n v hv)
  · rcases haddr a v hv with rfl | hv
    · exact hu
    · exact hlive v (h.addr a v hv)
  · rcases hstack e he with heu | he
    · exact heu ▸ hu
    · exact hlive _ (h.stack e he)
  · rcases hnew id v hv with rfl | hv
    · exact hu
    · exact hlive v (h.assoc id v hv)
  · intro v upf id hv hid
    rw [hupfs, Heap.get_set hget] at hv
    by_cases hvu : v = u
    · rw [if_pos hvu] at hv
      cases hv
      exact hvu ▸ hproc id hid
    · rw [if_neg hvu] at hv
      exact hold id v hvu (h.proc v upf id hv hid)

theorem linked_of_write (h : Linked s) (hget : s.upfs.get u = some c)
    (hupfs : t.upfs = s.upfs.set u c')
    (hproc : ∀ id, c'.proc = some id → c.proc = some id ∨ s.assocUpf id = some u)
    (hassoc : ∀ id, t.assocUpf id = s.assocUpf id) (hservice : t.byService = s.byService)
    (haddr : ∀ a v, t.byAddr a = some v → v = u ∨ s.byAddr a = some v)
    (hstack : ∀ e ∈ t.stack, e.upfContext = u ∨ e ∈ s.stack) : Linked t := by
  refine linked_of_set h hget hupfs ?_ ?_ ?_ hservice haddr hstack
  · intro id hid
    rw [hassoc]
    rcases hproc id hid with hid | hid
    · exact h.proc u c id hget hid
    · exact hid
  · exact fun id v hv => Or.inr ((hassoc id) ▸ hv)
  · exact fun id v _ hv => (hassoc id).trans hv

theorem linked_of_context (h : Linked s) (hget : s.upfs.get u = some c)
    (hupfs : t.upfs = s.upfs.set u c') (hproc : c'.proc = c.proc) (hassocs : t.assocs = s.assocs)
    (hservice : t.byService = s.byService) (haddr : t.byAddr = s.byAddr)
    (hstack : t.stack = s.stack) : Linked t := by
  refine linked_of_write h hget hupfs ?_ ?_ hservice ?_ ?_
  · exact fun id hid => Or.inl (hproc ▸ hid)
  · intro id
    unfold State.assocUpf
    rw [hassocs]
  · exact fun a v hv => Or.inr (haddr ▸ hv)
  · exact fun e he => Or.inr (hstack ▸ he)

theorem linked_of_eq (h : Linked s) (hupfs : t.upfs = s.upfs) (hservice : t.byService = s.byService)
    (haddr : t.byAddr = s.byAddr) (hstack : ∀ e ∈ t.stack, e ∈ s.stack)
    (hassocs : t.assocs = s.assocs) : Linked t := by
  have hassoc (id : AssocPtr) : t.assocUpf id = s.assocUpf id := by
    unfold State.assocUpf
    rw [hassocs]
  have hlive (v : UpfPtr) (hv : s.Live v) : t.Live v := by
    unfold State.Live
    rw [hupfs]
    exact hv
  refine ⟨fun n v hv => ?_, fun a v hv => ?_, fun e he => ?_, fun id v hv => ?_, ?_⟩
  · exact hlive v (h.service n v (hservice ▸ hv))
  · exact hlive v (h.addr a v (haddr ▸ hv))
  · exact hlive _ (h.stack e (hstack e he))
  · exact hlive v (h.assoc id v ((hassoc id) ▸ hv))
  · intro v upf id hv hid
    rw [hassoc]
    exact h.proc v upf id (hupfs ▸ hv) hid

theorem mem_enterAddr {byAddr : Session.Table Ipv4 UpfPtr} {b : Ipv4}
    (h : enterAddr byAddr a u b = some v) : v = u ∨ byAddr b = some v := by
  unfold enterAddr Session.Table.insert at h
  split_ifs at h with hzero hsome
  · exact Or.inr h
  · by_cases hb : b = a
    · rw [hb, update_self] at h
      exact Or.inl (Option.some.inj h).symm
    · rw [update_of_ne hb] at h
      exact Or.inr h
  · exact Or.inr h

theorem mem_eraseAddr {byAddr : Session.Table Ipv4 UpfPtr} {b : Ipv4}
    (h : byAddr.erase a b = some v) : byAddr b = some v := by
  unfold Session.Table.erase at h
  by_cases hb : b = a
  · rw [hb, update_self] at h
    cases h
  · rwa [update_of_ne hb] at h

theorem linked_createUpfContext {service : Option Service} {glob : Bool} (h : Linked s) :
    Linked (createUpfContext s a service glob) := by
  have hget (v : UpfPtr) : (createUpfContext s a service glob).upfs.get v =
      if v = s.upfs.next then some { addr := a, fqdn := service, globalAddress := glob } else s.upfs.get v :=
    Heap.get_alloc
  have hnew : (createUpfContext s a service glob).Live s.upfs.next :=
    live_of_get ((hget _).trans (if_pos rfl))
  have hlive (v : UpfPtr) (hv : s.Live v) : (createUpfContext s a service glob).Live v := by
    unfold State.Live
    rw [hget]
    split_ifs
    · rfl
    · exact hv
  refine ⟨fun n v hv => ?_, fun b v hv => ?_, fun e he => hlive _ (h.stack e he),
    fun id v hv => hlive v (h.assoc id v hv), ?_⟩
  · change s.byService.insert service s.upfs.next n = some v at hv
    unfold Session.Table.insert at hv
    split_ifs at hv with hsome
    · exact hlive v (h.service n v hv)
    · by_cases hn : n = service
      · rw [hn, update_self] at hv
        exact Option.some.inj hv ▸ hnew
      · rw [update_of_ne hn] at hv
        exact hlive v (h.service n v hv)
  · rcases mem_enterAddr hv with rfl | hv
    · exact hnew
    · exact hlive v (h.addr b v hv)
  · intro v upf id hv hid
    rw [hget] at hv
    split_ifs at hv with hvn
    · cases hv
      cases hid
    · exact h.proc v upf id hv hid

theorem linked_drainPending {outcome : Outcome} (h : Linked s) (hupf : s.upfs.get u = some upf) :
    Linked (drainPending s u upf outcome) :=
  linked_of_context h hupf rfl rfl rfl rfl rfl rfl

theorem getUpfContext_linked (h : Linked s) (service : Option Service) (glob : Bool) :
    Sat (getUpfContext s service glob dns)
      (fun q => Linked q.1 ∧ q.1.Live q.2 ∧ q.1.assocs = s.assocs) E := by
  unfold getUpfContext
  cases hu : s.byService service with
  | none =>
    have hnew : (createUpfContext s dns service glob).Live s.upfs.next :=
      live_of_get (Heap.get_alloc.trans (if_pos rfl))
    exact ⟨linked_createUpfContext h, hnew, rfl⟩
  | some u =>
    refine (sat_deref_live (h.service service u hu)).bind fun upf hupf => ?_
    split_ifs with haddr
    · refine sat_pure ⟨?_, (live_of_set hupf rfl).mpr (live_of_get hupf), rfl⟩
      exact linked_of_write h hupf rfl (fun _ hi => Or.inl hi) (fun _ => rfl) rfl
        (fun _ _ hv => mem_enterAddr hv) fun _ he => Or.inr he
    · exact sat_pure ⟨h, live_of_get hupf, rfl⟩

theorem assocUpf_set {proc proc' : Assoc} (hid : s.assocs.get id = some proc)
    (hassocs : t.assocs = s.assocs.set id proc') (hsame : proc'.upfContext = proc.upfContext)
    (i : AssocPtr) : t.assocUpf i = s.assocUpf i := by
  unfold State.assocUpf
  rw [hassocs]
  exact Heap.map_get_set hid hsame

theorem associationSetupRequest_linked {proc : Assoc} (h : Linked s)
    (hid : s.assocs.get id = some proc) : Sat (associationSetupRequest s id) Linked E := by
  have hassoc : s.assocUpf id = some proc.upfContext := by
    unfold State.assocUpf
    rw [hid]
    rfl
  unfold associationSetupRequest
  rw [hid, deref_some, pure_bind]
  refine (sat_deref_live (h.assoc id _ hassoc)).bind fun upf hupf => sat_pure ?_
  refine linked_of_write h hupf rfl ?_ (assocUpf_set hid rfl rfl) rfl (fun _ _ hv => Or.inr hv)
    fun _ he => Or.inr he
  intro i hi
  cases hi
  exact Or.inr hassoc

theorem associationSetupHandler_linked {proc : Assoc} (h : Linked s)
    (hid : s.assocs.get id = some proc) (hupf : s.upfs.get proc.upfContext = some upf)
    (hstate : upf.state ≠ .assocRespRcvd) : Sat (associationSetupHandler s id dns) Linked E := by
  unfold associationSetupHandler
  rw [hid, deref_some, pure_bind, hupf, deref_some, pure_bind]
  refine (sat_assert fun hnot => absurd hstate hnot).bind fun _ _ => ?_
  have hforget : Linked (s.setUpf proc.upfContext { upf with addr := 0 }) :=
    linked_of_context h hupf rfl rfl rfl rfl rfl rfl
  refine (getUpfContext_linked hforget _ _).bind fun q hq => ?_
  obtain ⟨hlinked, hlive, hassocs⟩ := hq
  refine (sat_deref_live hlive).bind fun found hfound => ?_
  split_ifs with haddr
  · refine sat_pure (linked_of_write hlinked hfound rfl (fun _ hi => Or.inl hi) (fun _ => rfl) rfl ?_ ?_)
    · exact fun _ _ hv => Or.inr hv
    · intro e he
      rcases List.mem_append.mp he with he | he
      · exact Or.inr he
      · rw [List.mem_singleton.mp he]
        exact Or.inl rfl
  · have hid' : q.1.assocs.get id = some proc := by
      rw [hassocs]
      exact hid
    exact associationSetupRequest_linked hlinked hid'

theorem startAssociation_linked (h : Linked s) (hupf : s.upfs.get u = some upf)
    (hstate : upf.state ≠ .assocRespRcvd) : Sat (startAssociation s u dns) Linked E := by
  unfold startAssociation
  rw [hupf, deref_some, pure_bind]
  have hid : (s.assocs.alloc { upfContext := u }).get s.assocs.next = some { upfContext := u } :=
    Heap.get_alloc.trans (if_pos rfl)
  have hget : (s.upfs.set u { upf with proc := some s.assocs.next }).get u =
      some { upf with proc := some s.assocs.next } := (Heap.get_set hupf).trans (if_pos rfl)
  have hassoc (i : AssocPtr) : ((s.assocs.alloc { upfContext := u }).get i).map Assoc.upfContext =
      if i = s.assocs.next then some u else s.assocUpf i := by
    rw [Heap.get_alloc]
    split_ifs
    · rfl
    · rfl
  refine associationSetupHandler_linked ?_ hid hget hstate
  refine linked_of_set h hupf rfl ?_ ?_ ?_ rfl (fun _ _ hv => Or.inr hv) fun _ he => Or.inr he
  · intro i hi
    cases hi
    exact (hassoc _).trans (if_pos rfl)
  · intro i v hv
    have hv' := (hassoc i).symm.trans hv
    split_ifs at hv' with hi
    · exact Or.inl (Option.some.inj hv').symm
    · exact Or.inr hv'
  · intro i v hvu hv
    refine (hassoc i).trans ?_
    have hi : i ≠ s.assocs.next := by
      rintro rfl
      rw [State.assocUpf, Heap.get_next] at hv
      cases hv
    rw [if_neg hi]
    exact hv

theorem initiateUpfSession_linked (h : Linked s) (hupf : s.upfs.get u = some upf) :
    Sat (initiateUpfSession s u p dns) Linked E := by
  unfold initiateUpfSession
  rw [hupf, deref_some, pure_bind]
  have hbuffer : Linked (bufferCsrRequest s u upf p) :=
    linked_of_context h hupf rfl rfl rfl rfl rfl rfl
  have hget : (bufferCsrRequest s u upf p).upfs.get u =
      some { upf with pendingSubProcs := p :: upf.pendingSubProcs } :=
    (Heap.get_set hupf).trans (if_pos rfl)
  cases hstate : upf.state with
  | assocReqSnt => exact sat_pure hbuffer
  | assocRespRcvd => exact sat_pure h
  | idle =>
    refine startAssociation_linked hbuffer hget ?_
    change upf.state ≠ _
    rw [hstate]
    exact fun heq => nomatch heq

theorem handlePfcpAssociationSetupResponse_linked {accepted : Bool} {recovTime : ℕ} (h : Linked s) :
    Sat (handlePfcpAssociationSetupResponse s id accepted a recovTime) Linked E := by
  unfold handlePfcpAssociationSetupResponse
  cases hid : s.assocs.get id with
  | none => exact h
  | some proc =>
    have hassoc : s.assocUpf id = some proc.upfContext := by
      unfold State.assocUpf
      rw [hid]
      rfl
    have hstack (e : StackEvent) (he : e.upfContext = proc.upfContext) :
        ∀ e' ∈ s.stack ++ [e], e'.upfContext = proc.upfContext ∨ e' ∈ s.stack := by
      intro e' he'
      rcases List.mem_append.mp he' with he' | he'
      · exact Or.inr he'
      · rw [List.mem_singleton.mp he']
        exact Or.inl he
    simp only
    split_ifs with htrans
    · exact h
    · refine (sat_deref_live (h.assoc id _ hassoc)).bind fun upf hupf => sat_pure ?_
      exact linked_of_write h hupf rfl (fun _ hi => Or.inl hi) (assocUpf_set hid rfl rfl) rfl
        (fun _ _ hv => Or.inr hv) (hstack _ rfl)
    · refine (sat_deref_live (h.assoc id _ hassoc)).bind fun upf hupf => sat_pure ?_
      exact linked_of_write h hupf rfl (fun _ hi => Or.inl hi) (assocUpf_set hid rfl rfl) rfl
        (fun _ _ hv => Or.inr hv) (hstack _ rfl)

theorem handlePfcpAssociationSetupRequest_linked {recovTime : ℕ} (h : Linked s) :
    Sat (handlePfcpAssociationSetupRequest s a recovTime) Linked E := by
  have hrest (s : State) (u : UpfPtr) (h : Linked s) (hu : s.Live u) : Sat (do
        let upf ← deref (s.upfs.get u)
        return { s.setUpf u { upf with state := .assocRespRcvd } with
          peers := supervise s.peers a recovTime }) Linked E := by
    refine (sat_deref_live hu).bind fun upf hupf => sat_pure ?_
    exact linked_of_context h hupf rfl rfl rfl rfl rfl rfl
  unfold handlePfcpAssociationSetupRequest
  cases hu : s.byAddr a with
  | none =>
    refine hrest _ _ (linked_createUpfContext h) ?_
    exact live_of_get (Heap.get_alloc.trans (if_pos rfl))
  | some u => exact hrest s u h (h.addr a u hu)

theorem upfDownEvent_linked (h : Linked s) : Sat (upfDownEvent s a) Linked E := by
  unfold upfDownEvent
  cases hu : s.byAddr a with
  | none => exact sat_pure (linked_of_eq h rfl rfl rfl (fun _ he => he) rfl)
  | some u =>
    refine (sat_deref_live (h.addr a u hu)).bind fun upf hupf => sat_pure ?_
    exact linked_of_context h hupf rfl rfl rfl rfl rfl rfl

theorem processHeartbeatResponse_linked {recovTime : ℕ} (h : Linked s) :
    Sat (processHeartbeatResponse pfcpHbTsFail s a recovTime) Linked E := by
  have hstored : Linked { s with peers := addIpToHeartbeatHash s.peers a recovTime } :=
    linked_of_eq h rfl rfl rfl (fun _ he => he) rfl
  unfold processHeartbeatResponse
  split_ifs with hfails
  · exact upfDownEvent_linked hstored
  · exact hstored

theorem configDisableUpf_linked {service : Service} (h : Linked s) :
    Sat (configDisableUpf s service) Linked E := by
  unfold configDisableUpf
  cases hu : s.byService (some service) with
  | none => exact h
  | some u =>
    refine (sat_deref_live (h.service _ u hu)).bind fun upf hupf => sat_pure ?_
    exact linked_of_write h hupf rfl (fun _ hi => Or.inl hi) (fun _ => rfl) rfl
      (fun _ _ hv => Or.inr (mem_eraseAddr hv)) fun _ he => Or.inr he

theorem endUpfProcedure_linked {q : Assoc} (h : Linked s) (hid : s.assocs.get id = some q) :
    Sat (endUpfProcedure s id) Linked E := by
  have hassoc : s.assocUpf id = some q.upfContext := by
    unfold State.assocUpf
    rw [hid]
    rfl
  unfold endUpfProcedure
  rw [hid, deref_some, pure_bind]
  refine (sat_deref_live (h.assoc id _ hassoc)).bind fun upf hupf => sat_pure ?_
  refine linked_of_set h hupf rfl (fun i hi => nomatch hi) ?_ ?_ rfl (fun _ _ hv => Or.inr hv)
    fun _ he => Or.inr he
  · intro i v hv
    obtain ⟨proc', hproc', hv⟩ := Option.map_eq_some_iff.mp hv
    exact Or.inr (Option.map_eq_some_iff.mpr ⟨proc', Heap.get_of_get_free hproc', hv⟩)
  · intro i v hvu hv
    have hi : i ≠ id := by
      rintro rfl
      exact hvu (Option.some.inj (hv.symm.trans hassoc))
    exact (congrArg (Option.map _) (Heap.get_free.trans (if_neg hi))).trans hv

theorem upfPfcpSetupFailure_linked (h : Linked s) (hlive : s.Live u) :
    Sat (upfPfcpSetupFailure s u) Linked E := by
  obtain ⟨upf, hupf⟩ := hlive.get
  have hdrained : Linked (drainPending s u upf .rejected) := linked_drainPending h hupf
  unfold upfPfcpSetupFailure
  rw [hupf, deref_some, pure_bind, rejectPending_eq hupf]
  cases hproc : upf.proc with
  | none => exact sat_pure hdrained
  | some id =>
    have hassoc := h.proc u upf id hupf hproc
    obtain ⟨proc, hid, hu⟩ := Option.map_eq_some_iff.mp hassoc
    have hid' : (drainPending s u upf .rejected).assocs.get id = some proc := hid
    have hlive' := hdrained.assoc id u hassoc
    simp only [procPfcpAssocSetupFailure]
    rw [hid', deref_some, pure_bind, hu]
    refine (sat_deref_live hlive').bind fun upf' hupf' => ?_
    refine endUpfProcedure_linked (q := proc) ?_ hid'
    exact linked_of_write hdrained hupf' rfl (fun _ hi => Or.inl hi) (fun _ => rfl) rfl
      (fun _ _ hv => Or.inr (mem_eraseAddr hv)) fun _ he => Or.inr he

/-- The association procedure is there, and nobody waits on a UPF that is not associated. -/
def WakeOk (s : State) (u : UpfPtr) : Prop :=
  ∀ upf ∈ s.upfs.get u, upf.proc ≠ none ∧ (upf.state = .assocRespRcvd ∨ upf.pendingSubProcs = [])

instance (s : State) (u : UpfPtr) : Decidable (WakeOk s u) :=
  inferInstanceAs (Decidable (∀ upf ∈ s.upfs.get u, _))

/-- **The success handler is the only one that the gateway may not survive.** -/
theorem upfPfcpSetupSuccess_linked {dns : ℕ → Ipv4} (h : Linked s) (hlive : s.Live u) :
    Sat (upfPfcpSetupSuccess s u dns) Linked (fun _ => ¬ WakeOk s u) := by
  obtain ⟨upf, hupf⟩ := hlive.get
  have hwake : WakeOk s u ↔
      upf.proc ≠ none ∧ (upf.state = .assocRespRcvd ∨ upf.pendingSubProcs = []) := by
    unfold WakeOk
    rw [hupf]
    exact ⟨fun hall => hall upf rfl, fun hall c hc => Option.some.inj hc ▸ hall⟩
  unfold upfPfcpSetupSuccess
  rw [hupf, deref_some, pure_bind]
  by_cases hends : upf.state = .assocRespRcvd ∨ upf.pendingSubProcs = []
  · have hloop : wakePending u dns (upf.pendingSubProcs.length + 1) s =
        .ok (drainPending s u upf .resumed) := by
      rcases hends with hstate | hnil
      · exact wakePending_of_established hupf hstate (Nat.lt_succ_self _)
      · exact wakePending_of_nil hupf hnil
    have hget : (drainPending s u upf .resumed).upfs.get u =
        some { upf with pendingSubProcs := [] } := (Heap.get_set hupf).trans (if_pos rfl)
    rw [hloop]
    change Sat (deref _ >>= _) _ _
    rw [hget, deref_some, pure_bind]
    cases hproc : upf.proc with
    | none => exact fun hok => (hwake.mp hok).1 hproc
    | some id =>
      have hassoc := h.proc u upf id hupf hproc
      obtain ⟨proc, hid, -⟩ := Option.map_eq_some_iff.mp hassoc
      have hid' : (drainPending s u upf .resumed).assocs.get id = some proc := hid
      exact endUpfProcedure_linked (linked_drainPending h hupf) hid'
  · have hnot : ¬ WakeOk s u := fun hok => hends (hwake.mp hok).2
    have hest : ¬ s.Established u := fun hest => hends (Or.inl ((established_of_get hupf).mp hest))
    have hpend : s.pending u ≠ [] := by
      rw [pending_of_get hupf]
      exact fun hnil => hends (Or.inr hnil)
    have hloop : Sat (wakePending u dns (upf.pendingSubProcs.length + 1) s) (fun _ => False) AnyFault :=
      wakePending_ne_ok hest hpend
    exact (hloop.weaken fun _ _ => hnot).bind fun _ hfalse => hfalse.elim

def State.waking (s : State) : Option UpfPtr :=
  match s.stack with
  | .setupSuccess u :: _ => some u
  | _ => none

/-- Every UPF that a stack event is about to wake has what `WakeOk` asks for. -/
def UnwindOk (s : State) : Event → Prop
  | .unwind _ => ∀ u ∈ s.waking, WakeOk s u
  | _ => True

/-- **An event keeps the pointers, and the gateway survives it if `UnwindOk` holds.** -/
theorem step_linked (h : Linked s) (e : Event) :
    Sat (step pfcpHbTsFail s e) Linked (fun _ => ¬ UnwindOk s e) := by
  cases e with
  | discover service glob dns =>
    have hq : Sat (getUpfContext s (some service) glob dns) _ (fun _ => False) :=
      getUpfContext_linked h (some service) glob
    obtain ⟨q, hq, hlinked, -⟩ := hq.exists_ok
    simp only [step, hq]
    exact hlinked
  | attach u p dns =>
    simp only [step]
    split_ifs with hu
    · obtain ⟨upf, hupf⟩ := Option.isSome_iff_exists.mp hu
      exact initiateUpfSession_linked h hupf
    · exact h
  | replaced u p =>
    simp only [step, forgetProc]
    split_ifs with hu
    · refine (sat_deref_live hu).bind fun upf hupf => sat_pure ?_
      exact linked_of_context h hupf rfl rfl rfl rfl rfl rfl
    · exact h
  | assocTimer u dns =>
    simp only [step, initiatePfcpAssociation]
    split_ifs with hu
    · refine (sat_deref_live hu).bind fun upf hupf => ?_
      split_ifs with hidle
      · refine startAssociation_linked h hupf ?_
        rw [hidle]
        exact fun heq => nomatch heq
      · exact sat_pure h
    · exact h
  | assocResponse id accepted peer recovTime => exact handlePfcpAssociationSetupResponse_linked h
  | assocTimeout id =>
    simp only [step, processAssocRespTimeoutHandler]
    cases hid : s.assocs.get id with
    | none => exact h
    | some proc =>
      simp only
      split_ifs with htrans
      · refine upfPfcpSetupFailure_linked h (h.assoc id _ ?_)
        exact Option.map_eq_some_iff.mpr ⟨proc, hid, rfl⟩
      · exact h
  | assocRequest peer recovTime => exact handlePfcpAssociationSetupRequest_linked h
  | heartbeatResponse peer recovTime => exact processHeartbeatResponse_linked h
  | peerTimeout peer =>
    simp only [step, peerTimeout]
    split_ifs
    · refine (upfDownEvent_linked h).bind fun t ht => sat_pure ?_
      exact linked_of_eq ht rfl rfl rfl (fun _ he => he) rfl
    · exact h
  | disable service => exact configDisableUpf_linked h
  | unwind dns =>
    simp only [step, unwind]
    cases hstack : s.stack with
    | nil => exact h
    | cons e stack =>
      have htail : Linked { s with stack } := by
        refine linked_of_eq h rfl rfl rfl (fun e' he' => ?_) rfl
        rw [hstack]
        exact List.mem_cons_of_mem e he'
      have hlive : s.Live e.upfContext := h.stack e (hstack ▸ List.mem_cons_self ..)
      cases e with
      | setupFailed u => exact upfPfcpSetupFailure_linked htail hlive
      | setupSuccess u =>
        refine (upfPfcpSetupSuccess_linked htail hlive).weaken fun _ hnot hok => hnot ?_
        have hnext : s.waking = some u := by simp only [State.waking, hstack]
        exact hok u hnext

end Spgw.Upf
