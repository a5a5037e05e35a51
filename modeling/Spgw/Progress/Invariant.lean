/-
# The invariant of the timers

The queue of every subscriber has the form `Shape`, where the attaches that wait without a timer are
those on the list of their UPF, and a UPF that holds attaches has an association procedure under
way.
-/

import Spgw.Progress.Handlers

namespace Spgw.Progress

open Machine Function
open Session (UePtr Service)

variable {cfg : Config} {s : State} {u : UePtr} {ue : Ue} {p : ProcId} {service : Service}
  {a : Assoc} {pend pend' : Service → List PendingKey}

structure AssocOk (a : Assoc) : Prop where
  pending : a.pending ≠ [] → a.InProgress
  reqSnt : a.state = .assocReqSnt → ∃ proc ∈ a.armed, a.proc = some proc

theorem AssocOk.idle (h : AssocOk a) : AssocOk { a with state := .idle } := ⟨h.pending, by simp⟩

theorem AssocOk.inProgress (h : AssocOk a) (hstate : a.state = .assocReqSnt) : a.InProgress := by
  obtain ⟨proc, harmed, -⟩ := h.reqSnt hstate
  exact Or.inl (List.ne_nil_of_mem harmed)

theorem AssocOk.buffer (h : AssocOk a) (hstate : a.state = .assocReqSnt) (key : PendingKey) :
    AssocOk (a.buffer key) :=
  ⟨fun _ => h.inProgress hstate, h.reqSnt⟩

theorem assocOk_associationSetup (a : Assoc) (proc : ProcId) (resolved : Bool) :
    AssocOk (a.associationSetup proc resolved) := by
  unfold Assoc.associationSetup
  split_ifs
  · exact ⟨fun _ => Or.inl (by simp), fun _ => ⟨proc, by simp, rfl⟩⟩
  · exact ⟨fun _ => Or.inr (by simp), by simp⟩

theorem associationSetup_pending (a : Assoc) (proc : ProcId) (resolved : Bool) :
    (a.associationSetup proc resolved).pending = a.pending := by
  unfold Assoc.associationSetup
  split_ifs <;> rfl

theorem AssocOk.setupResponse (h : AssocOk a) (proc : ProcId) (accepted : Bool) :
    AssocOk (a.setupResponse proc accepted) := by
  unfold Assoc.setupResponse
  split_ifs
  · exact ⟨fun _ => Or.inr (by simp), by cases accepted <;> simp⟩
  · exact ⟨fun _ => Or.inr (by simp), by cases accepted <;> simp⟩
  · exact h

theorem setupResponse_pending (a : Assoc) (proc : ProcId) (accepted : Bool) :
    (a.setupResponse proc accepted).pending = a.pending := by
  unfold Assoc.setupResponse
  split_ifs <;> rfl

theorem assocOk_setupFailed (hpending : a.pending = [])
    (hproc : a.state = .assocReqSnt → a.proc ≠ none) : AssocOk a.setupFailed := by
  unfold Assoc.setupFailed
  cases h : a.proc with
  | some proc => exact ⟨fun hne => absurd hpending hne, by simp⟩
  | none => exact ⟨fun hne => absurd hpending hne, fun hstate => absurd h (hproc hstate)⟩

theorem initiateUpfSession_spec (requestTries : ℕ) (u : UePtr) {t : Procedure} (ha : AssocOk a)
    (htype : t.procType = .initialPdnAttach) (proc : ProcId) (refused resolved : Bool) :
    let r := initiateUpfSession a u t proc refused resolved
    AssocOk r.1 ∧ a.pending ⊆ r.1.pending ∧ ∀ t' ∈ r.2, t'.toProc = t.toProc ∧
      Alive requestTries (fun p => (u, p) ∈ r.1.pending) t' := by
  unfold initiateUpfSession
  cases hstate : a.state with
  | assocReqSnt =>
    refine ⟨ha.buffer hstate _, by simp [Assoc.buffer], fun t' ht' => ?_⟩
    cases ht'
    exact ⟨rfl, Or.inr ⟨htype, by simp [Assoc.buffer]⟩⟩
  | assocRespRcvd =>
    simp only
    split_ifs
    · exact ⟨ha, by simp, by simp⟩
    · refine ⟨ha, by simp, fun t' ht' => ?_⟩
      cases ht'
      exact ⟨rfl, Or.inl (Procedure.moves_of_slot .pfcp rfl ⟨rfl, retry_leadsOn _ _⟩)⟩
  | idle =>
    refine ⟨assocOk_associationSetup .., by simp [associationSetup_pending, Assoc.buffer],
      fun t' ht' => ?_⟩
    cases ht'
    exact ⟨rfl, Or.inr ⟨htype, by simp [associationSetup_pending, Assoc.buffer]⟩⟩

theorem initiateUpfSession_moves {t t' : Procedure} {proc : ProcId} {refused resolved : Bool}
    (hstate : a.state = .assocRespRcvd)
    (ht' : t' ∈ (initiateUpfSession a u t proc refused resolved).2) :
    t'.toProc = t.toProc ∧ t'.Moves cfg.requestTries := by
  simp only [initiateUpfSession, hstate] at ht'
  split_ifs at ht'
  · simp at ht'
  · cases ht'
    exact ⟨rfl, Procedure.moves_of_slot .pfcp rfl ⟨rfl, retry_leadsOn _ _⟩⟩

/-- The queues are in order, where `pend` are the attaches that the UPFs hold. -/
def UesOk (cfg : Config) (pend : Service → List PendingKey) (ues : Heap Ue) : Prop :=
  ∀ u ue, ues.get u = some ue → Shape cfg.requestTries (fun p => (u, p) ∈ pend ue.service) ue.queue

theorem UesOk.mono {ues : Heap Ue} (h : UesOk cfg pend ues)
    (hpend : ∀ service, pend service ⊆ pend' service) : UesOk cfg pend' ues :=
  fun u ue hu => (h u ue hu).mono fun _ hp => hpend _ hp

theorem UesOk.setQueue {o : Option (List Procedure)} (h : UesOk cfg pend s.ues)
    (hu : s.ues.get u = some ue)
    (hpend : ∀ v service p, v ≠ u → (v, p) ∈ pend service → (v, p) ∈ pend' service)
    (ho : Good cfg.requestTries (fun p => (u, p) ∈ pend' ue.service) o) :
    UesOk cfg pend' (s.setQueue u ue o).ues := by
  intro v ve hv
  cases o with
  | none =>
    simp only [State.setQueue, Heap.get_free] at hv
    split_ifs at hv with heq
    exact (h v ve hv).mono fun p => hpend v _ p heq
  | some queue =>
    simp only [State.setQueue, Heap.get_set hu] at hv
    split_ifs at hv with heq
    · cases hv
      exact heq ▸ ho queue rfl
    · exact (h v ve hv).mono fun p => hpend v _ p heq

structure Inv (cfg : Config) (s : State) : Prop where
  ues : UesOk cfg (fun service => (s.upfs service).pending) s.ues
  assocs : ∀ service, AssocOk (s.upfs service)
  relocations : s.relocations = []

theorem initial_inv : Inv cfg {} :=
  ⟨fun u ue hu => by simp [Heap.get] at hu, fun _ => ⟨by simp, by simp⟩, rfl⟩

theorem Inv.setUpf (h : Inv cfg s) (ha : AssocOk a)
    (hpending : (s.upfs service).pending ⊆ a.pending) : Inv cfg (s.setUpf service a) := by
  refine ⟨h.ues.mono fun service' => ?_, fun service' => ?_, h.relocations⟩
  · simp only [State.setUpf, update_apply]
    split_ifs with heq
    · exact heq ▸ hpending
    · exact fun _ => id
  · simp only [State.setUpf, update_apply]
    split_ifs
    · exact ha
    · exact h.assocs service'

theorem Inv.setQueue {o : Option (List Procedure)} (h : Inv cfg s) (hu : s.ues.get u = some ue)
    (ho : Good cfg.requestTries (fun p => (u, p) ∈ (s.upfs ue.service).pending) o) :
    Inv cfg (s.setQueue u ue o) := by
  have hues := h.ues.setQueue hu (fun _ _ _ _ => id) ho
  cases o with
  | none => exact ⟨hues, h.assocs, h.relocations⟩
  | some queue => exact ⟨hues, h.assocs, h.relocations⟩

theorem Inv.allocProc (h : Inv cfg s) : Inv cfg s.allocProc := ⟨h.ues, h.assocs, h.relocations⟩

theorem findProcedure_eq {before after : List Procedure} {t : Procedure}
    (hu : s.ues.get u = some ue) (hfocus : focus ue.queue p = some (before, t, after)) :
    findProcedure s u p = some t := by
  simp [findProcedure, hu, hfocus]

theorem onProcedure_inv {handler : Handler} {allowed : Procedure → Prop}
    (hhandler : KeepsShape cfg handler allowed) (h : Inv cfg s)
    (hallowed : ∀ t ∈ findProcedure s u p, allowed t) :
    Sat (onProcedure s u p handler) (Inv cfg) AnyFault := by
  unfold onProcedure
  cases hu : s.ues.get u with
  | none => exact sat_pure h
  | some ue =>
    simp only
    cases hfocus : focus ue.queue p with
    | none => exact sat_pure h
    | some r =>
      obtain ⟨before, t, after⟩ := r
      have hshape := h.ues u ue hu
      rw [eq_of_focus hfocus] at hshape
      exact (hhandler hshape (hallowed t (findProcedure_eq hu hfocus))).bind
        fun _ ho => sat_pure (h.setQueue hu ho)

/-- The request finds its bearers, and does not overtake a Re-Auth-Request. -/
def RequestOk (queue : List Procedure) : Request → Prop
  | .releaseAccessBearers bearers bearer =>
    (0 < bearers ∧ bearer = true) ∧ ∀ t ∈ queue, t.procType = .rar → t.running = true
  | .downlinkDataReport bearer =>
    bearer = true ∧ ∀ t ∈ queue, t.procType = .rar → t.running = true
  | .modifyBearer | .deleteSession _ | .usageReport =>
    ∀ t ∈ queue, t.procType = .rar → t.running = true
  | .reAuth work => work.Releases
  | .deleteSessionSi => False

instance (queue : List Procedure) : DecidablePred (RequestOk queue)
  | .releaseAccessBearers _ _ => inferInstanceAs (Decidable (_ ∧ _))
  | .downlinkDataReport _ => inferInstanceAs (Decidable (_ ∧ _))
  | .modifyBearer => inferInstanceAs (Decidable (∀ t ∈ queue, _))
  | .deleteSession _ => inferInstanceAs (Decidable (∀ t ∈ queue, _))
  | .usageReport => inferInstanceAs (Decidable (∀ t ∈ queue, _))
  | .reAuth work => inferInstanceAs (Decidable work.Releases)
  | .deleteSessionSi => isFalse id

theorem RequestOk.waiting {queue : List Procedure} {request : Request}
    (h : RequestOk queue request) (id : ProcId) :
    Waiting (request.procedure id) ∧ ((request.procedure id).procType = .rar ∨
      ∀ t ∈ queue, t.procType = .rar → t.running = true) := by
  have hidle : Idle (request.procedure id) := by
    refine ⟨fun slot => ?_, ?_⟩ <;> cases request <;> first | rfl | (cases slot <;> rfl)
  have hwaiting (hstart : Startable (request.procedure id)) : Waiting (request.procedure id) :=
    ⟨by cases request <;> rfl, by cases request <;> rfl, hstart, hidle⟩
  cases request with
  | releaseAccessBearers bearers bearer => exact ⟨hwaiting h.1, Or.inr h.2⟩
  | modifyBearer => exact ⟨hwaiting trivial, Or.inr h⟩
  | deleteSession contextDeleted => exact ⟨hwaiting trivial, Or.inr h⟩
  | deleteSessionSi => exact h.elim
  | usageReport => exact ⟨hwaiting trivial, Or.inr h⟩
  | downlinkDataReport bearer => exact ⟨hwaiting h.1, Or.inr h.2⟩
  | reAuth work => exact ⟨hwaiting h, Or.inl rfl⟩

theorem handleRequest_inv {request : Request} (h : Inv cfg s)
    (hok : ∀ ue ∈ s.ues.get u, RequestOk ue.queue request) :
    Sat (handleRequest s u request) (Inv cfg) AnyFault := by
  unfold handleRequest
  cases hu : s.ues.get u with
  | none => exact sat_pure h
  | some ue =>
    obtain ⟨hwaiting, horder⟩ := (hok ue hu).waiting s.nextProc
    exact (startProcedure_good (h.ues u ue hu) hwaiting horder).bind
      fun _ ho => sat_pure (h.setQueue hu ho).allocProc

theorem replaceContext_inv (h : Inv cfg s) (old : Option UePtr) :
    Inv cfg (replaceContext s old) := by
  unfold replaceContext
  cases old with
  | none => exact h
  | some u =>
    simp only
    cases hu : s.ues.get u with
    | none => exact h
    | some ue =>
      refine ⟨fun v ve hv => ?_, fun service => ?_, h.relocations⟩
      · simp only [Heap.get_free] at hv
        split_ifs at hv with hne
        refine (h.ues v ve hv).mono fun p hp => ?_
        simp only [State.setUpf, update_apply]
        split_ifs with heq
        · exact List.mem_filter.mpr ⟨heq ▸ hp, by simpa using hne⟩
        · exact hp
      · simp only [State.setUpf, update_apply]
        split_ifs
        · refine ⟨fun hne => (h.assocs _).pending ?_, (h.assocs _).reqSnt⟩
          rintro hnil
          exact hne (by simp [hnil])
        · exact h.assocs service

theorem Inv.alloc (h : Inv cfg s) (service : Service) {t : Procedure}
    (htype : t.procType = .initialPdnAttach) (hrunning : t.running = true)
    (halive : Alive cfg.requestTries (fun p => (s.ues.next, p) ∈ (s.upfs service).pending) t) :
    Inv cfg { s with ues := s.ues.alloc { service, queue := [t] } } := by
  refine ⟨fun v ve hv => ?_, h.assocs, h.relocations⟩
  rw [Heap.get_alloc] at hv
  split_ifs at hv with heq
  · cases hv
    exact heq ▸ .alone (Or.inl htype) hrunning halive .nil
  · exact h.ues v ve hv

theorem startAttach_inv {req : CsReq} (h : Inv cfg s) (hccr : cfg.gxEnabled → req.ccrBuilt) :
    Sat (startAttach cfg s req) (Inv cfg) AnyFault := by
  unfold startAttach
  by_cases hgx : cfg.gxEnabled = true
  · simp only [hgx, hccr hgx, if_true]
    refine sat_pure (h.alloc req.service rfl rfl (Or.inl ?_))
    exact Procedure.moves_of_slot .gx rfl ⟨rfl, Or.inr rfl⟩
  · simp only [hgx]
    obtain ⟨hassoc, hpending, ht'⟩ := initiateUpfSession_spec cfg.requestTries s.ues.next
      (h.assocs req.service) (show (attachProc s).procType = .initialPdnAttach from rfl)
      ((attachProc s).id + 1) req.refused req.resolved
    have hinv := h.setUpf hassoc hpending
    cases ho : (initiateUpfSession (s.upfs req.service) s.ues.next (attachProc s)
        ((attachProc s).id + 1) req.refused req.resolved) with
    | mk a o =>
      rw [ho] at hinv ht'
      cases o with
      | none => exact sat_pure hinv
      | some t =>
        obtain ⟨hsame, halive⟩ := ht' t rfl
        refine sat_pure (hinv.alloc req.service ?_ ?_ ?_)
        · rw [hsame]; rfl
        · rw [hsame]; rfl
        · simpa [State.setUpf] using halive

theorem handleCreateSessionRequest_inv {req : CsReq} (h : Inv cfg s)
    (hoi : req.indicationOi = false)
    (hccr : req.rejected = false → cfg.gxEnabled → req.ccrBuilt) :
    Sat (handleCreateSessionRequest cfg s req) (Inv cfg) AnyFault := by
  have hreplace := replaceContext_inv h req.replaces
  unfold handleCreateSessionRequest
  simp only [hoi, Bool.false_eq_true, if_false]
  split_ifs with hrejected
  · exact sat_pure hreplace.allocProc
  · exact (startAttach_inv hreplace (hccr (by simpa using hrejected))).bind
      fun _ hinv => sat_pure hinv.allocProc

theorem handleCcaInitialMsg_inv (h : Inv cfg s) (accepted refused resolved : Bool) :
    Sat (handleCcaInitialMsg s u accepted refused resolved) (Inv cfg) AnyFault := by
  unfold handleCcaInitialMsg
  cases hu : s.ues.get u with
  | none => exact sat_pure h
  | some ue =>
    simp only
    cases hqueue : ue.queue with
    | nil => exact sat_throw trivial
    | cons t after =>
      have hshape := h.ues u ue hu
      rw [hqueue, ← List.nil_append (t :: after)] at hshape
      simp only
      split_ifs with hgx htype hacc
      · exact sat_pure h
      · exact sat_throw trivial
      all_goals
        rcases hshape.cases with ⟨hidle, -⟩ | ⟨hactive, -⟩
        · exact absurd (hidle.slot .gx) hgx
      · have htype' : ({ t with gxTrans := none } : Procedure).procType = .initialPdnAttach :=
          not_not.mp htype
        obtain ⟨hassoc, hpending, ht'⟩ := initiateUpfSession_spec cfg.requestTries u
          (h.assocs ue.service) htype' s.nextProc refused resolved
        have hactive' : Active cfg.requestTries [] { t with gxTrans := none } after :=
          hactive.same (.refl _)
        refine (continueAttach_good hactive' ht').bind fun o ho => sat_pure ?_
        refine ((h.setUpf hassoc hpending).setQueue hu ?_).allocProc
        simpa [State.setUpf] using ho
      · have hactive' : Active cfg.requestTries [] { t with gxTrans := none } after :=
          hactive.same (.refl _)
        exact hactive'.fails.bind fun _ ho => sat_pure (h.setQueue hu ho)

end Spgw.Progress
