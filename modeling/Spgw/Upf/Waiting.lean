/-
# The attaches that wait for an association

Attaches are buffered in the context of their UPF while it is being associated.
-/

import Spgw.Upf.Machine

namespace Spgw.Upf

open Session (sat_deref_bind sat_assert_bind deref_some)
open Machine

variable {s t r : State} {u v w : UpfPtr} {c c' upf : UpfContext} {p : ProcId} {dns : Ipv4}

def State.pending (s : State) (u : UpfPtr) : List ProcId :=
  match s.upfs.get u with
  | some upf => upf.pendingSubProcs
  | none => []

def State.Established (s : State) (u : UpfPtr) : Prop :=
  ∃ upf, s.upfs.get u = some upf ∧ upf.state = .assocRespRcvd

theorem pending_of_get (h : s.upfs.get u = some upf) : s.pending u = upf.pendingSubProcs := by
  simp only [State.pending, h]

theorem pending_of_none (h : s.upfs.get u = none) : s.pending u = [] := by
  simp only [State.pending, h]

theorem established_of_get (h : s.upfs.get u = some upf) :
    s.Established u ↔ upf.state = .assocRespRcvd := by
  unfold State.Established
  rw [h]
  exact ⟨fun ⟨c, hc, hstate⟩ => Option.some.inj hc ▸ hstate, fun hstate => ⟨upf, rfl, hstate⟩⟩

structure Quiet (s t : State) : Prop where
  pending : ∀ v, t.pending v = s.pending v
  established : ∀ v, t.Established v → s.Established v
  stack : ∀ e ∈ s.stack, e ∈ t.stack
  buffered : t.buffered = s.buffered
  drained : t.drained = s.drained

theorem Quiet.refl (s : State) : Quiet s s := ⟨fun _ => rfl, fun _ h => h, fun _ h => h, rfl, rfl⟩

theorem Quiet.trans (h₁ : Quiet s t) (h₂ : Quiet t r) : Quiet s r where
  pending v := (h₂.pending v).trans (h₁.pending v)
  established v hv := h₁.established v (h₂.established v hv)
  stack e he := h₂.stack e (h₁.stack e he)
  buffered := h₂.buffered.trans h₁.buffered
  drained := h₂.drained.trans h₁.drained

theorem of_next {pfcpHbTsFail : Bool} {e : Event} {Q : State → Prop} {E : Fault → Prop}
    (h : Sat (step pfcpHbTsFail s e) Q E) (hstep : next pfcpHbTsFail s e = some t) : Q t := by
  unfold next at hstep
  cases hok : step pfcpHbTsFail s e with
  | error f =>
    rw [hok] at hstep
    cases hstep
  | ok t' =>
    rw [hok] at hstep h
    cases hstep
    exact h

theorem pending_setUpf (h : s.upfs.get u = some c) :
    (s.setUpf u c').pending v = if v = u then c'.pendingSubProcs else s.pending v := by
  have hget : (s.setUpf u c').upfs.get v = if v = u then some c' else s.upfs.get v := Heap.get_set h
  split_ifs with hv
  · rw [if_pos hv] at hget
    exact pending_of_get hget
  · rw [if_neg hv] at hget
    simp only [State.pending, hget]

theorem established_setUpf (h : s.upfs.get u = some c) :
    (s.setUpf u c').Established v ↔ if v = u then c'.state = .assocRespRcvd else s.Established v := by
  have hget : (s.setUpf u c').upfs.get v = if v = u then some c' else s.upfs.get v := Heap.get_set h
  split_ifs with hv
  · rw [if_pos hv] at hget
    exact established_of_get hget
  · rw [if_neg hv] at hget
    unfold State.Established
    rw [hget]

theorem quiet_of_set (h : s.upfs.get u = some c) (hupfs : t.upfs = s.upfs.set u c')
    (hpend : c'.pendingSubProcs = c.pendingSubProcs)
    (hstate : c'.state = .assocRespRcvd → c.state = .assocRespRcvd)
    (hstack : ∀ e ∈ s.stack, e ∈ t.stack) (hbuffered : t.buffered = s.buffered)
    (hdrained : t.drained = s.drained) : Quiet s t := by
  refine ⟨fun v => ?_, fun v hv => ?_, hstack, hbuffered, hdrained⟩
  · have ht : t.pending v = (s.setUpf u c').pending v := by
      unfold State.pending
      rw [hupfs]
      rfl
    rw [ht, pending_setUpf h]
    split_ifs with hv
    · rw [hv, pending_of_get h, hpend]
    · rfl
  · have ht : (s.setUpf u c').Established v := by
      unfold State.Established at hv ⊢
      rwa [hupfs] at hv
    rw [established_setUpf h] at ht
    split_ifs at ht with hvu
    · rw [hvu]
      exact (established_of_get h).mpr (hstate ht)
    · exact ht

theorem quiet_createUpfContext {service : Option Session.Service} {glob : Bool} :
    Quiet s (createUpfContext s dns service glob) := by
  have hget (v : UpfPtr) : (createUpfContext s dns service glob).upfs.get v =
      if v = s.upfs.next then some { addr := dns, fqdn := service, globalAddress := glob } else s.upfs.get v :=
    Heap.get_alloc
  refine ⟨fun v => ?_, fun v hv => ?_, fun e he => he, rfl, rfl⟩
  · by_cases hv : v = s.upfs.next
    · have hnew := (hget v).trans (if_pos hv)
      rw [pending_of_get hnew, hv, pending_of_none Heap.get_next]
    · have hold := (hget v).trans (if_neg hv)
      simp only [State.pending, hold]
  · by_cases hvn : v = s.upfs.next
    · have hnew := (hget v).trans (if_pos hvn)
      rw [established_of_get hnew] at hv
      cases hv
    · have hold := (hget v).trans (if_neg hvn)
      unfold State.Established at hv ⊢
      rwa [hold] at hv

theorem getUpfContext_quiet (service : Option Session.Service) (glob : Bool) :
    Sat (getUpfContext s service glob dns) (fun q => Quiet s q.1) AnyFault := by
  unfold getUpfContext
  split
  · exact quiet_createUpfContext
  · next u _ =>
      refine sat_deref_bind fun upf hupf => ?_
      split_ifs with haddr
      · exact sat_pure (quiet_of_set hupf rfl rfl (fun h => h) (fun _ he => he) rfl rfl)
      · exact sat_pure (Quiet.refl s)

theorem associationSetupRequest_quiet (id : AssocPtr) :
    Sat (associationSetupRequest s id) (Quiet s) AnyFault := by
  unfold associationSetupRequest
  refine sat_deref_bind fun proc _ => ?_
  refine sat_deref_bind fun upf hupf => ?_
  exact sat_pure (quiet_of_set hupf rfl rfl (fun h => nomatch h) (fun _ he => he) rfl rfl)

theorem associationSetupHandler_quiet (id : AssocPtr) :
    Sat (associationSetupHandler s id dns) (Quiet s) AnyFault := by
  unfold associationSetupHandler
  refine sat_deref_bind fun proc _ => ?_
  refine sat_deref_bind fun upf hupf => ?_
  refine sat_assert_bind ?_
  have hforget : Quiet s (s.setUpf proc.upfContext { upf with addr := 0 }) :=
    quiet_of_set hupf rfl rfl (fun h => h) (fun _ he => he) rfl rfl
  refine (getUpfContext_quiet _ _).bind fun q hq => ?_
  refine sat_deref_bind fun found hfound => ?_
  have hresolved := hforget.trans hq
  split_ifs with haddr
  · refine sat_pure (hresolved.trans ?_)
    exact quiet_of_set hfound rfl rfl (fun h => nomatch h) (fun _ he => List.mem_append_left _ he)
      rfl rfl
  · exact (associationSetupRequest_quiet id).mono fun t ht => hresolved.trans ht

/-- **Starting an association neither buffers an attach nor takes one from a list, and makes
no UPF an associated one.** -/
theorem startAssociation_quiet : Sat (startAssociation s u dns) (Quiet s) AnyFault := by
  unfold startAssociation
  refine sat_deref_bind fun upf hupf => ?_
  refine (associationSetupHandler_quiet _).mono fun t ht => Quiet.trans ?_ ht
  exact quiet_of_set hupf rfl rfl (fun h => h) (fun _ he => he) rfl rfl

def drainPending (s : State) (u : UpfPtr) (upf : UpfContext) (outcome : Outcome) : State :=
  { s.setUpf u { upf with pendingSubProcs := [] } with
    drained := s.drained ++ upf.pendingSubProcs.map fun p => ((u, p), outcome) }

theorem drainPending_nil {outcome : Outcome} (hget : s.upfs.get u = some upf)
    (hnil : upf.pendingSubProcs = []) : drainPending s u upf outcome = s := by
  have hsame : { upf with pendingSubProcs := [] } = upf := by rw [← hnil]
  unfold drainPending
  rw [hsame, hnil, State.setUpf, Heap.set_self hget, List.map_nil, List.append_nil]

theorem drainPending_popPending {outcome : Outcome} {rest : List ProcId}
    (hcons : upf.pendingSubProcs = p :: rest) :
    drainPending (popPending s u upf p rest outcome) u { upf with pendingSubProcs := rest } outcome =
      drainPending s u upf outcome := by
  simp only [drainPending, popPending, State.setUpf, Heap.set_set, hcons, List.map_cons,
    List.append_assoc, List.singleton_append]

theorem get_popPending {outcome : Outcome} {rest : List ProcId} (hget : s.upfs.get u = some upf) :
    (popPending s u upf p rest outcome).upfs.get u = some { upf with pendingSubProcs := rest } :=
  (Heap.get_set hget).trans (if_pos rfl)

/-- **The loop of `upf_pfcp_setup_failure` empties the list.** -/
theorem rejectPending_eq (hget : s.upfs.get u = some upf) :
    rejectPending u upf upf.pendingSubProcs s = drainPending s u upf .rejected := by
  -- The context that the loop writes back differs from the first one in its list only.
  have hloop (ps : List ProcId) : ∀ (s : State) (c : UpfContext), c.pendingSubProcs = ps →
      s.upfs.get u = some c → { c with pendingSubProcs := [] } = { upf with pendingSubProcs := [] } →
      rejectPending u upf ps s = drainPending s u c .rejected := by
    induction ps with
    | nil =>
      intro s c hnil hget _
      exact (drainPending_nil hget hnil).symm
    | cons p rest ih =>
      intro s c hcons hget hsame
      have hwrite : { upf with pendingSubProcs := rest } = { c with pendingSubProcs := rest } := by
        have := congrArg (fun c : UpfContext => { c with pendingSubProcs := rest }) hsame
        exact this.symm
      have hpop : popPending s u upf p rest .rejected = popPending s u c p rest .rejected := by
        unfold popPending
        rw [hwrite]
      calc rejectPending u upf (p :: rest) s
          = rejectPending u upf rest (popPending s u c p rest .rejected) := by
            rw [← hpop]
            rfl
        _ = drainPending (popPending s u c p rest .rejected) u { c with pendingSubProcs := rest }
              .rejected := ih _ _ rfl (get_popPending hget) hsame
        _ = drainPending s u c .rejected := drainPending_popPending hcons
  exact hloop _ s upf rfl hget rfl

theorem wakePending_of_nil {n : ℕ} {dns : ℕ → Ipv4} (hget : s.upfs.get u = some upf)
    (hnil : upf.pendingSubProcs = []) :
    wakePending u dns (n + 1) s = .ok (drainPending s u upf .resumed) := by
  unfold wakePending
  rw [hget, deref_some, pure_bind, drainPending_nil hget hnil]
  simp only [hnil]
  rfl

/-- **The loop of `upf_pfcp_setup_success` empties the list of an associated UPF** -/
theorem wakePending_of_established {n : ℕ} {dns : ℕ → Ipv4} (hget : s.upfs.get u = some upf)
    (hstate : upf.state = .assocRespRcvd) (hn : upf.pendingSubProcs.length < n) :
    wakePending u dns n s = .ok (drainPending s u upf .resumed) := by
  induction n generalizing s upf with
  | zero => exact absurd hn (Nat.not_lt_zero _)
  | succ n ih =>
    cases hps : upf.pendingSubProcs with
    | nil => exact wakePending_of_nil hget hps
    | cons p rest =>
      unfold wakePending
      rw [hget, deref_some, pure_bind]
      simp only [hps]
      have hpop : (popPending s u upf p rest .resumed).upfs.get u =
          some { upf with pendingSubProcs := rest } := get_popPending hget
      have hgoes : initiateUpfSession (popPending s u upf p rest .resumed) u p (dns n) =
          pure (popPending s u upf p rest .resumed) := by
        unfold initiateUpfSession
        rw [hpop, deref_some, pure_bind]
        simp only [hstate]
      have hlen : rest.length < n := by
        rw [hps, List.length_cons] at hn
        omega
      simp only [hgoes, pure_bind]
      rw [ih hpop hstate hlen, drainPending_popPending hps]

theorem initiateUpfSession_waits (h : ¬ s.Established u) :
    Sat (initiateUpfSession s u p dns) (fun t => ¬ t.Established u ∧ p ∈ t.pending u) AnyFault := by
  unfold initiateUpfSession
  refine sat_deref_bind fun upf hget => ?_
  have hbuffer : ¬ (bufferCsrRequest s u upf p).Established u ∧
      p ∈ (bufferCsrRequest s u upf p).pending u := by
    have hnew : (bufferCsrRequest s u upf p).upfs.get u =
        some { upf with pendingSubProcs := p :: upf.pendingSubProcs } :=
      (Heap.get_set hget).trans (if_pos rfl)
    rw [established_of_get hnew, pending_of_get hnew]
    exact ⟨fun hstate => h ((established_of_get hget).mpr hstate), List.mem_cons_self ..⟩
  cases hstate : upf.state with
  | assocReqSnt => exact sat_pure hbuffer
  | assocRespRcvd => exact absurd ((established_of_get hget).mpr hstate) h
  | idle =>
    refine startAssociation_quiet.mono fun t ht => ⟨fun hest => ?_, ?_⟩
    · exact hbuffer.1 (ht.established u hest)
    · rw [ht.pending u]
      exact hbuffer.2

/-- **The loop of `upf_pfcp_setup_success` does not end for a UPF that is not associated and has
buffered attaches** -/
theorem wakePending_ne_ok {n : ℕ} {dns : ℕ → Ipv4} (hest : ¬ s.Established u)
    (hpend : s.pending u ≠ []) : Sat (wakePending u dns n s) (fun _ => False) AnyFault := by
  induction n generalizing s with
  | zero => exact sat_throw trivial
  | succ n ih =>
    unfold wakePending
    refine sat_deref_bind fun upf hget => ?_
    rw [pending_of_get hget] at hpend
    cases hps : upf.pendingSubProcs with
    | nil => exact absurd hps hpend
    | cons p rest =>
      have hpop : ¬ (popPending s u upf p rest .resumed).Established u := by
        rw [established_of_get (get_popPending hget)]
        exact fun hstate => hest ((established_of_get hget).mpr hstate)
      refine (initiateUpfSession_waits hpop).bind fun t ht => ih ht.1 ?_
      exact List.ne_nil_of_mem ht.2

end Spgw.Upf
