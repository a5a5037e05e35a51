/-
# Every buffered attach is resumed or rejected

`buffer_csr_request` puts an attach in the list of its UPF; `upf_pfcp_setup_success` and
`upf_pfcp_setup_failure` (`cp/procedures/proc_pfcp_assoc_setup.c`) take the attaches from it.
-/

import Spgw.Upf.Linked

namespace Spgw.Upf

open Session (Service sat_deref_bind)
open Machine

variable {s t : State} {u v : UpfPtr} {c c' upf : UpfContext} {id : AssocPtr} {p : ProcId}
  {a dns : Ipv4} {pfcpHbTsFail : Bool}

/-- The number of times an attach has been buffered for a UPF is the number of times it is in the
list and the number of times it has been resumed or rejected. -/
structure State.Drained (s : State) : Prop where
  balanced : ∀ u p, s.buffered.count (u, p) =
    (s.pending u).count p + (s.drained.map Prod.fst).count (u, p)
  settled : ∀ u, s.Established u → s.pending u = [] ∨ .setupSuccess u ∈ s.stack

theorem drained_initial : State.Drained {} where
  balanced _ _ := rfl
  settled _ h := nomatch h

theorem State.Drained.of_quiet (h : s.Drained) (hq : Quiet s t) : t.Drained where
  balanced u p := by
    rw [hq.buffered, hq.drained, hq.pending]
    exact h.balanced u p
  settled u hu := by
    rw [hq.pending]
    exact (h.settled u (hq.established u hu)).imp_right (hq.stack _)

theorem drained_of_set (h : s.Drained) (hget : s.upfs.get u = some c)
    (hupfs : t.upfs = s.upfs.set u c') (hpend : c'.pendingSubProcs = c.pendingSubProcs)
    (hstate : c'.state = .assocRespRcvd → c.state = .assocRespRcvd ∨ s.pending u = [] ∨
      .setupSuccess u ∈ t.stack)
    (hstack : ∀ e ∈ s.stack, e ∈ t.stack) (hbuffered : t.buffered = s.buffered)
    (hdrained : t.drained = s.drained) : t.Drained := by
  have ht (v : UpfPtr) : t.pending v = s.pending v := by
    have hsame : t.pending v = (s.setUpf u c').pending v := by
      unfold State.pending
      rw [hupfs]
      rfl
    rw [hsame, pending_setUpf hget]
    split_ifs with hv
    · rw [hv, pending_of_get hget, hpend]
    · rfl
  refine ⟨fun v p => ?_, fun v hv => ?_⟩
  · rw [hbuffered, hdrained, ht]
    exact h.balanced v p
  · rw [ht]
    have hest : (s.setUpf u c').Established v := by
      unfold State.Established at hv ⊢
      rwa [hupfs] at hv
    rw [established_setUpf hget] at hest
    split_ifs at hest with hvu
    · rw [hvu]
      rcases hstate hest with hold | hnew
      · exact (h.settled u ((established_of_get hget).mpr hold)).imp_right (hstack _)
      · exact hnew
    · exact (h.settled v hest).imp_right (hstack _)

theorem count_map_mk (ps : List ProcId) (outcome : Outcome) :
    ((ps.map fun p => ((u, p), outcome)).map Prod.fst).count (v, p) =
      if v = u then ps.count p else 0 := by
  have hmap : (ps.map fun p => ((u, p), outcome)).map Prod.fst = ps.map (Prod.mk u) := by
    rw [List.map_map]
    rfl
  rw [hmap]
  split_ifs with hv
  · rw [hv]
    exact List.count_map_of_injective ps (Prod.mk u) (Prod.mk_right_injective u) p
  · refine List.count_eq_zero.mpr fun hmem => ?_
    obtain ⟨q, -, hq⟩ := List.mem_map.mp hmem
    exact hv (congrArg Prod.fst hq).symm

theorem drained_drainPending {outcome : Outcome} (stack : List StackEvent) (h : s.Drained)
    (hget : s.upfs.get u = some upf)
    (hstack : ∀ v, v ≠ u → .setupSuccess v ∈ s.stack → .setupSuccess v ∈ stack) :
    (drainPending { s with stack } u upf outcome).Drained := by
  have hpend (v : UpfPtr) : (drainPending { s with stack } u upf outcome).pending v =
      if v = u then [] else s.pending v := pending_setUpf hget
  refine ⟨fun v p => ?_, fun v hv => ?_⟩
  · have hsum : ((drainPending { s with stack } u upf outcome).drained.map Prod.fst).count (v, p) =
        (s.drained.map Prod.fst).count (v, p) + if v = u then (s.pending u).count p else 0 := by
      change ((s.drained ++ _).map Prod.fst).count (v, p) = _
      rw [List.map_append, List.count_append, count_map_mk, pending_of_get hget]
    have hbuffered : (drainPending { s with stack } u upf outcome).buffered = s.buffered := rfl
    rw [hbuffered, hpend, hsum, h.balanced v p]
    split_ifs with hvu
    · rw [hvu, List.count_nil]
      omega
    · rfl
  · rw [hpend]
    split_ifs with hvu
    · exact Or.inl rfl
    · have hest : s.Established v := by
        have hv' : ((s.setUpf u { upf with pendingSubProcs := [] }).Established v) := hv
        rw [established_setUpf hget, if_neg hvu] at hv'
        exact hv'
      exact (h.settled v hest).imp_right (hstack v hvu)

theorem drained_bufferCsrRequest (h : s.Drained) (hget : s.upfs.get u = some upf)
    (hstate : upf.state ≠ .assocRespRcvd) : (bufferCsrRequest s u upf p).Drained := by
  have hpend (v : UpfPtr) : (bufferCsrRequest s u upf p).pending v =
      if v = u then p :: upf.pendingSubProcs else s.pending v := pending_setUpf hget
  refine ⟨fun v q => ?_, fun v hv => ?_⟩
  · have hbuffered : (bufferCsrRequest s u upf p).buffered = s.buffered ++ [(u, p)] := rfl
    have hdrained : (bufferCsrRequest s u upf p).drained = s.drained := rfl
    rw [hbuffered, hdrained, hpend, List.count_append, h.balanced v q]
    split_ifs with hvu
    · rw [hvu, pending_of_get hget, List.count_singleton, List.count_cons]
      simp only [beq_iff_eq, Prod.mk.injEq, true_and]
      omega
    · have hne : (u, p) ≠ (v, q) := fun heq => hvu (congrArg Prod.fst heq).symm
      rw [List.count_singleton, if_neg (by simpa using hne), Nat.add_zero]
  · have hv' : (s.setUpf u { upf with pendingSubProcs := p :: upf.pendingSubProcs }).Established v := hv
    rw [established_setUpf hget] at hv'
    split_ifs at hv' with hvu
    · exact absurd hv' hstate
    · rw [hpend, if_neg hvu]
      exact h.settled v hv'

theorem initiateUpfSession_drained (h : s.Drained) :
    Sat (initiateUpfSession s u p dns) State.Drained AnyFault := by
  unfold initiateUpfSession
  refine sat_deref_bind fun upf hget => ?_
  cases hstate : upf.state with
  | assocReqSnt =>
    refine sat_pure (drained_bufferCsrRequest h hget ?_)
    rw [hstate]
    exact fun heq => nomatch heq
  | assocRespRcvd => exact sat_pure h
  | idle =>
    have hbuffer : (bufferCsrRequest s u upf p).Drained := by
      refine drained_bufferCsrRequest h hget ?_
      rw [hstate]
      exact fun heq => nomatch heq
    exact startAssociation_quiet.mono fun t ht => hbuffer.of_quiet ht

theorem handlePfcpAssociationSetupResponse_drained {accepted : Bool} {recovTime : ℕ} (h : s.Drained) :
    Sat (handlePfcpAssociationSetupResponse s id accepted a recovTime) State.Drained AnyFault := by
  unfold handlePfcpAssociationSetupResponse
  cases hid : s.assocs.get id with
  | none => exact h
  | some proc =>
    simp only
    split_ifs with htrans
    · exact h
    · refine sat_deref_bind fun upf hget => sat_pure ?_
      refine drained_of_set h hget rfl rfl (fun _ => Or.inr (Or.inr ?_)) ?_ rfl rfl
      · exact List.mem_append_right _ (List.mem_singleton_self _)
      · exact fun _ he => List.mem_append_left _ he
    · refine sat_deref_bind fun upf hget => sat_pure ?_
      refine drained_of_set h hget rfl rfl (fun heq => nomatch heq) ?_ rfl rfl
      exact fun _ he => List.mem_append_left _ he

theorem handlePfcpAssociationSetupRequest_drained {recovTime : ℕ} (h : s.Drained)
    (hnone : ∀ u ∈ s.byAddr a, s.pending u = [] ∨ .setupSuccess u ∈ s.stack) :
    Sat (handlePfcpAssociationSetupRequest s a recovTime) State.Drained AnyFault := by
  unfold handlePfcpAssociationSetupRequest
  cases hu : s.byAddr a with
  | none =>
    have hnew : (createUpfContext s a none false).Drained := h.of_quiet quiet_createUpfContext
    have hcreated : (createUpfContext s a none false).upfs.get s.upfs.next = some { addr := a } :=
      Heap.get_alloc.trans (if_pos rfl)
    have hempty : (createUpfContext s a none false).pending s.upfs.next = [] :=
      pending_of_get hcreated
    refine sat_deref_bind fun upf hget => sat_pure ?_
    exact drained_of_set hnew hget rfl rfl (fun _ => Or.inr (Or.inl hempty)) (fun _ he => he) rfl rfl
  | some u =>
    refine sat_deref_bind fun upf hget => sat_pure ?_
    exact drained_of_set h hget rfl rfl (fun _ => Or.inr (hnone u hu)) (fun _ he => he) rfl rfl

theorem upfDownEvent_quiet : Sat (upfDownEvent s a) (Quiet s) AnyFault := by
  unfold upfDownEvent
  cases hu : s.byAddr a with
  | none => exact sat_pure ⟨fun _ => rfl, fun _ hv => hv, fun _ he => he, rfl, rfl⟩
  | some u =>
    refine sat_deref_bind fun upf hget => sat_pure ?_
    exact quiet_of_set hget rfl rfl (fun heq => nomatch heq) (fun _ he => he) rfl rfl

theorem processHeartbeatResponse_quiet {recovTime : ℕ} :
    Sat (processHeartbeatResponse pfcpHbTsFail s a recovTime) (Quiet s) AnyFault := by
  have hstored : Quiet s { s with peers := addIpToHeartbeatHash s.peers a recovTime } :=
    ⟨fun _ => rfl, fun _ hv => hv, fun _ he => he, rfl, rfl⟩
  unfold processHeartbeatResponse
  split_ifs with hfails
  · exact upfDownEvent_quiet.mono fun t ht => hstored.trans ht
  · exact hstored

theorem configDisableUpf_quiet {service : Service} :
    Sat (configDisableUpf s service) (Quiet s) AnyFault := by
  unfold configDisableUpf
  cases hu : s.byService (some service) with
  | none => exact Quiet.refl s
  | some u =>
    refine sat_deref_bind fun upf hget => sat_pure ?_
    exact quiet_of_set hget rfl rfl (fun heq => nomatch heq) (fun _ he => he) rfl rfl

theorem endUpfProcedure_quiet : Sat (endUpfProcedure s id) (Quiet s) AnyFault := by
  unfold endUpfProcedure
  refine sat_deref_bind fun proc _ => ?_
  refine sat_deref_bind fun upf hget => sat_pure ?_
  exact quiet_of_set hget rfl rfl (fun heq => heq) (fun _ he => he) rfl rfl

theorem procPfcpAssocSetupFailure_quiet : Sat (procPfcpAssocSetupFailure s id) (Quiet s) AnyFault := by
  unfold procPfcpAssocSetupFailure
  refine sat_deref_bind fun proc _ => ?_
  refine sat_deref_bind fun upf hget => ?_
  refine endUpfProcedure_quiet.mono fun t ht => Quiet.trans ?_ ht
  exact quiet_of_set hget rfl rfl (fun heq => nomatch heq) (fun _ he => he) rfl rfl

theorem upfPfcpSetupFailure_drained (stack : List StackEvent) (h : s.Drained)
    (hstack : ∀ v, v ≠ u → .setupSuccess v ∈ s.stack → .setupSuccess v ∈ stack) :
    Sat (upfPfcpSetupFailure { s with stack } u) State.Drained AnyFault := by
  unfold upfPfcpSetupFailure
  refine sat_deref_bind fun upf hget => ?_
  have hdrained : (drainPending { s with stack } u upf .rejected).Drained :=
    drained_drainPending stack h hget hstack
  rw [rejectPending_eq hget]
  cases hproc : upf.proc with
  | none => exact sat_pure hdrained
  | some id => exact procPfcpAssocSetupFailure_quiet.mono fun t ht => hdrained.of_quiet ht

theorem upfPfcpSetupSuccess_drained {dns : ℕ → Ipv4} (stack : List StackEvent) (h : s.Drained)
    (hstack : ∀ v, v ≠ u → .setupSuccess v ∈ s.stack → .setupSuccess v ∈ stack) :
    Sat (upfPfcpSetupSuccess { s with stack } u dns) State.Drained AnyFault := by
  unfold upfPfcpSetupSuccess
  refine sat_deref_bind fun upf hget => ?_
  have hdrained : (drainPending { s with stack } u upf .resumed).Drained :=
    drained_drainPending stack h hget hstack
  have hloop : Sat (wakePending u dns (upf.pendingSubProcs.length + 1) { s with stack })
      State.Drained AnyFault := by
    by_cases hstate : upf.state = .assocRespRcvd
    · rw [wakePending_of_established hget hstate (Nat.lt_succ_self _)]
      exact hdrained
    · by_cases hnil : upf.pendingSubProcs = []
      · rw [wakePending_of_nil hget hnil]
        exact hdrained
      · refine (wakePending_ne_ok ?_ ?_).mono fun t ht => ht.elim
        · rw [established_of_get hget]
          exact hstate
        · rw [pending_of_get hget]
          exact hnil
  refine hloop.bind fun t ht => ?_
  refine sat_deref_bind fun upf' _ => ?_
  refine sat_deref_bind fun id _ => ?_
  exact endUpfProcedure_quiet.mono fun t' ht' => ht.of_quiet ht'

/-- The events that keep the books: a successful setup finds its procedure, and its UPF associated
or nobody waiting; no attaches wait for a UPF that asks for the association, unless they are about
to go on; no attach is taken from a list because its UE context is replaced. -/
def PendingOk (s : State) : Event → Prop
  | .unwind _ => ∀ u ∈ s.waking, WakeOk s u
  | .assocRequest peer _ => ∀ u ∈ s.byAddr peer, s.pending u = [] ∨ .setupSuccess u ∈ s.stack
  | .replaced u p => p ∉ s.pending u
  | _ => True

instance (s : State) : ∀ e, Decidable (PendingOk s e)
  | .unwind _ => inferInstanceAs (Decidable (∀ u ∈ s.waking, WakeOk s u))
  | .assocRequest peer _ => inferInstanceAs (Decidable (∀ u ∈ s.byAddr peer, _))
  | .replaced u p => inferInstanceAs (Decidable (p ∉ s.pending u))
  | .discover .. | .attach .. | .assocTimer .. | .assocResponse .. | .assocTimeout ..
  | .heartbeatResponse .. | .peerTimeout .. | .disable .. => isTrue trivial

theorem unwindOk_of_pendingOk {e : Event} (h : PendingOk s e) : UnwindOk s e := by
  cases e with
  | unwind dns => exact h
  | _ => trivial

theorem step_drained {e : Event} (h : s.Drained) (hok : PendingOk s e) :
    Sat (step pfcpHbTsFail s e) State.Drained AnyFault := by
  cases e with
  | discover service glob dns =>
    have hq : Sat (getUpfContext s (some service) glob dns) (fun q => Quiet s q.1) AnyFault :=
      getUpfContext_quiet (some service) glob
    simp only [step]
    cases hget : getUpfContext s (some service) glob dns with
    | error f => exact trivial
    | ok q =>
      rw [hget] at hq
      exact h.of_quiet hq
  | attach u p dns =>
    simp only [step]
    split_ifs with hu
    · exact initiateUpfSession_drained h
    · exact h
  | replaced u p =>
    simp only [step, forgetProc]
    split_ifs with hu
    · refine sat_deref_bind fun upf hget => sat_pure ?_
      have hmem : p ∉ upf.pendingSubProcs := by
        rw [← pending_of_get hget]
        exact hok
      exact drained_of_set h hget rfl (List.erase_of_not_mem hmem) Or.inl (fun _ he => he) rfl rfl
    · exact h
  | assocTimer u dns =>
    simp only [step, initiatePfcpAssociation]
    split_ifs with hu
    · refine sat_deref_bind fun upf hget => ?_
      split_ifs with hidle
      · exact startAssociation_quiet.mono fun t ht => h.of_quiet ht
      · exact sat_pure h
    · exact h
  | assocResponse id accepted peer recovTime => exact handlePfcpAssociationSetupResponse_drained h
  | assocTimeout id =>
    simp only [step, processAssocRespTimeoutHandler]
    cases hid : s.assocs.get id with
    | none => exact h
    | some proc =>
      simp only
      split_ifs with htrans
      · exact upfPfcpSetupFailure_drained s.stack h fun _ _ he => he
      · exact h
  | assocRequest peer recovTime => exact handlePfcpAssociationSetupRequest_drained h hok
  | heartbeatResponse peer recovTime =>
    exact processHeartbeatResponse_quiet.mono fun t ht => h.of_quiet ht
  | peerTimeout peer =>
    simp only [step, peerTimeout]
    split_ifs
    · refine upfDownEvent_quiet.bind fun t ht => sat_pure (h.of_quiet (ht.trans ?_))
      exact ⟨fun _ => rfl, fun _ hv => hv, fun _ he => he, rfl, rfl⟩
    · exact h
  | disable service => exact configDisableUpf_quiet.mono fun t ht => h.of_quiet ht
  | unwind dns =>
    simp only [step, unwind]
    cases hstack : s.stack with
    | nil => exact h
    | cons e stack =>
      -- The events of the other UPFs are still in the queue.
      have hothers (v : UpfPtr) (hv : v ≠ e.upfContext) (hmem : .setupSuccess v ∈ s.stack) :
          .setupSuccess v ∈ stack := by
        rw [hstack] at hmem
        rcases List.mem_cons.mp hmem with rfl | hmem
        · exact absurd rfl hv
        · exact hmem
      cases e with
      | setupFailed u => exact upfPfcpSetupFailure_drained stack h hothers
      | setupSuccess u => exact upfPfcpSetupSuccess_drained stack h hothers

/-- **Every buffered attach is resumed or rejected once, and the handlers end** -/
theorem drained_of_pendingOk {es : List Event}
    (hg : Guarded (failStep (step pfcpHbTsFail)) (failGuard PendingOk) (.ok {}) es) :
    ∀ w ∈ trace (failStep (step pfcpHbTsFail)) (.ok {}) es, Sat w State.Drained fun _ => False := by
  intro w hw
  have hinv := failTrace_invariant (I := fun s => Linked s ∧ s.Drained) (E := fun _ => False) ?_
    ⟨linked_initial, drained_initial⟩ hg w hw
  · exact hinv.mono fun s hs => hs.2
  · rintro s e ⟨hlinked, hdrained⟩ hok
    have hlives : Sat (step pfcpHbTsFail s e) Linked (fun _ => False) :=
      (step_linked hlinked e).weaken fun _ hnot => hnot (unwindOk_of_pendingOk hok)
    exact hlives.and (step_drained hdrained hok)

namespace Demo

def servedAttaches : List Event :=
  [.discover 1 false 0x0A000001, .attach 0 7 0x0A000001, .attach 0 8 0x0A000001,
    .assocResponse 0 true 0x0A000001 100, .unwind fun _ => 0, .attach 0 9 0x0A000001,
    .discover 2 false 0x0A000002, .attach 1 10 0x0A000002, .assocTimeout 1, .attach 1 11 0,
    .unwind fun _ => 0, .assocRequest 0x0A000003 5, .peerTimeout 0x0A000001]

/-- The UPF restarts and is associated again; the supervision that began with the first association
gives it up before the stack event of the second one is handled. -/
def downBeforeWake : List Event :=
  [.discover 1 false 0x0A000001, .attach 0 7 0x0A000001, .assocResponse 0 true 0x0A000001 100,
    .unwind fun _ => 0, .heartbeatResponse 0x0A000001 100, .heartbeatResponse 0x0A000001 200,
    .attach 0 8 0x0A000001, .assocResponse 1 true 0x0A000001 200, .peerTimeout 0x0A000001,
    .unwind fun _ => 0x0A000001]

end Demo

theorem drained_servedAttaches :
    Guarded (failStep (step true)) (failGuard PendingOk) (.ok {}) Demo.servedAttaches ∧
      ∀ w ∈ trace (failStep (step true)) (.ok {}) Demo.servedAttaches,
        Sat w State.Drained fun _ => False := by
  have hok : Guarded (failStep (step true)) (failGuard PendingOk) (.ok {}) Demo.servedAttaches := by
    decide +kernel
  exact ⟨hok, drained_of_pendingOk hok⟩

/-- **The success handler does not end.** -/
theorem not_drained_downBeforeWake :
    ¬ ∀ w ∈ trace (failStep (step true)) (.ok {}) Demo.downBeforeWake,
      Sat w State.Drained fun _ => False := by
  intro h
  have hend : (final (failStep (step true)) (.ok {}) Demo.downBeforeWake).map
      (fun w => decide (Sat w (fun _ => False) (· = .endless))) = some true := by decide +kernel
  obtain ⟨w, hw, hendless⟩ := Option.map_eq_some_iff.mp hend
  have hsat := h w (Machine.mem_trace_of_final hw)
  cases w with
  | ok s => exact of_decide_eq_true hendless
  | error f => exact hsat

end Spgw.Upf
