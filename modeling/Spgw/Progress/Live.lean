/-
# No procedure is left behind

A procedure that runs waits on a timer whose expiry moves it on, or is an attach that a UPF holds
while its association is in progress, or is a Re-Auth-Request with a running child.
-/

import Spgw.Progress.Invariant

namespace Spgw.Progress

open Machine Function
open Session (UePtr Service)

variable {cfg : Config} {s : State} {u : UePtr} {service : Service} {a : Assoc}
  {pend : Service → List PendingKey}

/-- What a running procedure of the queue of `u` waits for. -/
def Waits (cfg : Config) (s : State) (u : UePtr) (ue : Ue) (t : Procedure) : Prop :=
  t.Moves cfg.requestTries ∨
    ((u, t.id) ∈ (s.upfs ue.service).pending ∧ (s.upfs ue.service).InProgress) ∨
    (t.procType = .rar ∧ ∃ child ∈ ue.queue, child.running = true ∧ child.parentProc = some t.id)

instance (cfg : Config) (s : State) (u : UePtr) (ue : Ue) (t : Procedure) :
    Decidable (Waits cfg s u ue t) :=
  inferInstanceAs (Decidable (_ ∨ _ ∨ _))

/-- Every running procedure waits for something that will come. -/
def NoneStuck (cfg : Config) (s : State) : Prop :=
  (∀ u < s.ues.next, ∀ ue ∈ s.ues.get u, ∀ t ∈ ue.queue, t.running = true → Waits cfg s u ue t) ∧
    ∀ t ∈ s.relocations, t.running = true → t.Moves cfg.requestTries

instance (cfg : Config) : DecidablePred (NoneStuck cfg) := fun _ =>
  inferInstanceAs (Decidable (_ ∧ _))

theorem Inv.noneStuck (h : Inv cfg s) : NoneStuck cfg s := by
  refine ⟨?_, by simp [h.relocations]⟩
  intro u _ ue hu t ht hrunning
  have hwaits (halive : Alive cfg.requestTries
      (fun p => (u, p) ∈ (s.upfs ue.service).pending) t) : Waits cfg s u ue t :=
    halive.imp id fun ⟨_, hheld⟩ => Or.inl ⟨hheld, (h.assocs _).pending (List.ne_nil_of_mem hheld)⟩
  have hnot (hw : Waiting t) : Waits cfg s u ue t := by
    simp [hw.running] at hrunning
  have hshape := h.ues u ue hu
  generalize hq : ue.queue = queue at hshape ht
  cases hshape with
  | empty => simp at ht
  | alone solo running alive rest =>
    rcases List.mem_cons.mp ht with rfl | ht
    · exact hwaits alive
    · exact hnot (rest.waiting t ht)
  | @detaching rar detach w₁ w₂ rarType rarIdle detachType parent running alive rest =>
    have hcases : t = rar ∨ t = detach ∨ t ∈ w₁ ++ w₂ := by
      simp only [List.cons_append, List.mem_cons, List.mem_append] at ht ⊢
      tauto
    rcases hcases with rfl | rfl | ht
    · exact Or.inr (Or.inr ⟨rarType, detach, by simp [hq], running, parent⟩)
    · exact hwaits alive
    · exact hnot (rest t ht)

theorem wakeAll_spec {handler : UePtr → Handler} {keys : List PendingKey}
    (hhandler : ∀ {u held before t after}, Active cfg.requestTries before t after →
      Sat (handler u before t after) (Good cfg.requestTries held) AnyFault)
    (h : UesOk cfg (update pend service keys) s.ues) :
    Sat (wakeAll handler s keys) (fun s' => UesOk cfg (update pend service []) s'.ues ∧
      s'.upfs = s.upfs ∧ s'.relocations = s.relocations) AnyFault := by
  induction keys generalizing s with
  | nil => exact sat_pure ⟨h, rfl, rfl⟩
  | cons key keys ih =>
    obtain ⟨u, p⟩ := key
    rw [wakeAll]
    refine Sat.bind (Session.sat_deref fun _ => trivial) fun ue hu => ?_
    refine Sat.bind (Session.sat_deref fun _ => trivial) fun ⟨before, t, after⟩ hfocus => ?_
    refine Sat.bind (Session.sat_assert fun _ => trivial) fun _ htype => ?_
    have hshape := h u ue hu
    rw [eq_of_focus hfocus] at hshape
    rcases hshape.cases with ⟨-, hne⟩ | ⟨hactive, -⟩
    · exact absurd htype hne
    · let held := fun p => (u, p) ∈ update pend service keys ue.service
      have hgood : Sat (handler u before t after) (Good cfg.requestTries held) AnyFault :=
        hhandler hactive
      refine hgood.bind fun o ho => ?_
      have hrest : UesOk cfg (update pend service keys) (s.setQueue u ue o).ues := by
        refine h.setQueue hu (fun v service' q hne hq => ?_) ho
        -- Nobody else waits under the key that is taken off.
        simp only [update_apply] at hq ⊢
        split_ifs at hq ⊢ with heq
        · exact (List.mem_cons.mp hq).resolve_left fun he => hne (congrArg Prod.fst he)
        · exact hq
      refine (ih hrest).mono fun s' hs' => ?_
      cases o <;> exact hs'

theorem Inv.woken {s' : State} {a' : Assoc} (h : Inv cfg s)
    (hues : UesOk cfg (update (fun service => (s.upfs service).pending) service []) s'.ues)
    (hupfs : s'.upfs = (s.setUpf service a).upfs) (hrelocations : s'.relocations = s.relocations)
    (ha' : AssocOk a') : Inv cfg (s'.setUpf service a') := by
  refine ⟨hues.mono fun service' => ?_, fun service' => ?_, hrelocations.trans h.relocations⟩
  · simp only [State.setUpf, hupfs, update_apply]
    split_ifs <;> simp
  · simp only [State.setUpf, hupfs, update_apply]
    split_ifs
    · exact ha'
    · exact h.assocs service'

theorem upfPfcpSetupFailure_inv (h : Inv cfg s) (hpend : a.pending = (s.upfs service).pending)
    (hproc : a.state = .assocReqSnt → a.proc ≠ none) :
    Sat (upfPfcpSetupFailure (s.setUpf service a) service) (Inv cfg) AnyFault := by
  have hues : UesOk cfg
      (update (fun service => (s.upfs service).pending) service a.pending) s.ues := by
    rw [hpend, update_eq_self]
    exact h.ues
  simp only [upfPfcpSetupFailure, State.upfs_setUpf, State.setUpf_setUpf]
  have hwake := wakeAll_spec (s := s.setUpf service { a with pending := [] })
    (fun hactive => Active.fails hactive) hues
  refine hwake.bind fun s' hs' => ?_
  obtain ⟨hues', hupfs, hrelocations⟩ := hs'
  refine sat_pure (h.woken hues' hupfs hrelocations ?_)
  rw [hupfs, State.upfs_setUpf]
  exact assocOk_setupFailed rfl hproc

theorem upfPfcpSetupSuccess_inv {refused : UePtr → Bool} (h : Inv cfg s)
    (hpend : a.pending = (s.upfs service).pending) (hstate : a.state ≠ .assocReqSnt) :
    Sat (upfPfcpSetupSuccess (s.setUpf service a) service refused) (Inv cfg) AnyFault := by
  have hues : UesOk cfg
      (update (fun service => (s.upfs service).pending) service a.pending) s.ues := by
    rw [hpend, update_eq_self]
    exact h.ues
  simp only [upfPfcpSetupSuccess, State.upfs_setUpf, State.setUpf_setUpf]
  by_cases hendless : a.pending ≠ [] ∧ a.state ≠ .assocRespRcvd
  · rw [if_pos hendless]
    exact sat_throw trivial
  rw [if_neg hendless]
  have hwake : Sat (wakeAll (fun u before t after => continueAttach before t after
        (initiateUpfSession a u t s.nextProc (refused u) true).2)
        (s.setUpf service { a with pending := [] }) a.pending)
      (fun s' => UesOk cfg (update (fun service => (s.upfs service).pending) service [])
          s'.ues ∧ s'.upfs = (s.setUpf service { a with pending := [] }).upfs ∧
        s'.relocations = s.relocations) AnyFault := by
    by_cases hnil : a.pending = []
    · rw [hnil] at hues ⊢
      exact sat_pure ⟨hues, rfl, rfl⟩
    · have hassociated : a.state = .assocRespRcvd :=
        not_not.mp fun hne => hendless ⟨hnil, hne⟩
      refine wakeAll_spec (fun hactive => continueAttach_good hactive fun t' ht' => ?_) hues
      obtain ⟨hsame, hmoves⟩ := initiateUpfSession_moves hassociated ht'
      exact ⟨hsame, Or.inl hmoves⟩
  refine hwake.bind fun s' hs' => ?_
  obtain ⟨hues', hupfs, hrelocations⟩ := hs'
  refine Sat.bind (Session.sat_deref fun _ => trivial) fun proc _ => ?_
  refine sat_pure (h.woken hues' hupfs hrelocations ?_)
  rw [hupfs, State.upfs_setUpf]
  exact ⟨fun hne => absurd rfl hne, fun hreq => absurd hreq hstate⟩

theorem unwind_inv {refused : UePtr → Bool} (h : Inv cfg s)
    (hok : (s.upfs service).events.head? = some true → (s.upfs service).state ≠ .assocReqSnt) :
    Sat (unwind s service refused) (Inv cfg) AnyFault := by
  unfold unwind
  cases hevents : (s.upfs service).events with
  | nil =>
    simp only [hevents]
    exact sat_pure h
  | cons e events =>
    simp only [hevents]
    cases e with
    | true => exact upfPfcpSetupSuccess_inv h rfl (hok (by rw [hevents]; rfl))
    | false =>
      refine upfPfcpSetupFailure_inv h rfl fun hstate => ?_
      obtain ⟨proc, -, hproc⟩ := (h.assocs service).reqSnt hstate
      exact fun hnone => by simp [hproc] at hnone

theorem assocExpired_inv (h : Inv cfg s) (proc : ProcId) :
    Sat (assocExpired s service proc) (Inv cfg) AnyFault := by
  unfold assocExpired
  simp only
  split_ifs
  · refine upfPfcpSetupFailure_inv h rfl fun hstate => ?_
    obtain ⟨proc, -, hproc⟩ := (h.assocs service).reqSnt hstate
    exact fun hnone => by simp [hproc] at hnone
  · exact sat_pure h

/-- The events that leave no procedure behind:
* a Create Session Request that is not a relocation and whose CCR-I can be built;
* a request that finds its bearer, is not a relocation, does not wait behind a Re-Auth-Request, and,
  if it is one, creates a detach and no bearer;
* a PFCP deletion response that is not for a network-initiated detach, if its CCR-T is packed;
* the success of an association, if no new request to the UPF is under way. -/
def EventOk (cfg : Config) (s : State) : Event → Prop
  | .createSession req => req.indicationOi = false ∧
      (req.rejected = false → cfg.gxEnabled = true → req.ccrBuilt = true)
  | .request u request => ∀ ue ∈ s.ues.get u, RequestOk ue.queue request
  | .pfcpRsp u p rsp => ∀ t ∈ findProcedure s u p, PfcpRspOk rsp t
  | .unwind service _ =>
    (s.upfs service).events.head? = some true → (s.upfs service).state ≠ .assocReqSnt
  | _ => True

instance (cfg : Config) (s : State) : DecidablePred (EventOk cfg s)
  | .createSession _ => inferInstanceAs (Decidable (_ ∧ _))
  | .request u _ => inferInstanceAs (Decidable (∀ ue ∈ s.ues.get u, _))
  | .pfcpRsp u p _ => inferInstanceAs (Decidable (∀ t ∈ findProcedure s u p, _))
  | .unwind _ _ => inferInstanceAs (Decidable (_ → _))
  | .cca .. | .gtpRsp .. | .expired .. | .strayExpired .. | .strayRsp .. | .assocRsp ..
  | .assocExpired .. | .upfDown .. | .initiateAssociation .. => isTrue trivial

theorem afterPfcpRsp_inv {s' : State} (h : Inv cfg s') (s : State) (u : UePtr) (p : ProcId)
    (rsp : PfcpRsp) : Inv cfg (afterPfcpRsp s u p rsp s') := by
  unfold afterPfcpRsp
  split
  · split_ifs
    · exact h.setUpf (h.assocs _).idle (List.Subset.refl _)
    · exact h
  · exact h

theorem step_inv {e : Event} (h : Inv cfg s) (hok : EventOk cfg s e) :
    Sat (step cfg s e) (Inv cfg) AnyFault := by
  cases e with
  | createSession req => exact handleCreateSessionRequest_inv h hok.1 hok.2
  | cca u accepted refused resolved => exact handleCcaInitialMsg_inv h ..
  | request u request => exact handleRequest_inv h hok
  | pfcpRsp u p rsp =>
    exact (onProcedure_inv (onPfcpRsp_keepsShape rsp) h hok).bind
      fun _ hinv => sat_pure (afterPfcpRsp_inv hinv ..)
  | gtpRsp u p rsp =>
    simp only [step]
    split
    · exact sat_throw trivial
    · exact onProcedure_inv (onGtpRsp_keepsShape _) h fun _ _ => trivial
  | expired u p slot => exact onProcedure_inv (onExpiry_keepsShape slot) h fun _ _ => trivial
  | strayExpired u p => exact onProcedure_inv onStrayExpiry_keepsShape h fun _ _ => trivial
  | strayRsp u p accepted =>
    exact onProcedure_inv (onStrayRsp_keepsShape accepted) h fun _ _ => trivial
  | assocRsp service proc accepted =>
    exact sat_pure (h.setUpf ((h.assocs service).setupResponse proc accepted)
      (by rw [setupResponse_pending]; exact List.Subset.refl _))
  | assocExpired service proc => exact assocExpired_inv h proc
  | unwind service refused => exact unwind_inv h hok
  | upfDown service => exact sat_pure (h.setUpf (h.assocs service).idle (List.Subset.refl _))
  | initiateAssociation service resolved =>
    simp only [step]
    split_ifs
    · exact sat_pure (h.setUpf (assocOk_associationSetup ..)
        (by rw [associationSetup_pending]; exact List.Subset.refl _)).allocProc
    · exact sat_pure h

/-- **A run whose events meet `EventOk` leaves no procedure behind.** -/
theorem noneStuck_of_eventsOk (cfg : Config) (events : List Event)
    (hok : Guarded (failStep (step cfg)) (failGuard (EventOk cfg)) (.ok {}) events) :
    ∀ w ∈ trace (failStep (step cfg)) (.ok {}) events, Sat w (NoneStuck cfg) AnyFault := by
  intro w hw
  have hinv := failTrace_invariant (I := Inv cfg) (E := AnyFault)
    (fun _ _ h hg => step_inv h hg) initial_inv hok w hw
  exact hinv.mono fun _ h => h.noneStuck

namespace Demo

def twoTries : Config := { requestTries := 2, gxEnabled := true }

def attach : List Event :=
  [.createSession { service := 0 }, .cca 0 true false true, .assocRsp 0 3 true,
   .unwind 0 fun _ => false, .pfcpRsp 0 0 (.establishment true false)]

def silentUpf : List Event :=
  attach ++ [.request 0 (.releaseAccessBearers 1 true), .expired 0 6 .pfcp, .expired 0 6 .pfcp,
    .request 0 (.reAuth .sessionRelease), .expired 0 11 .pfcp, .expired 0 11 .pfcp]

def silentMme : List Event :=
  attach ++ [.request 0 (.reAuth .sessionRelease), .pfcpRsp 0 8 (.deletion true),
    .expired 0 8 .gtpc]

end Demo

/-- The events of `Demo.silentUpf` meet the condition; the attach is on the list of its UPF
for a while, later the Re-Auth-Request runs with its detach, and at the end the subscriber
is released. -/
theorem noneStuck_silentUpf : (∀ w ∈ trace (failStep (step Demo.twoTries)) (.ok {}) Demo.silentUpf,
      Sat w (NoneStuck Demo.twoTries) AnyFault) ∧
    (∃ w ∈ trace (failStep (step Demo.twoTries)) (.ok {}) Demo.silentUpf,
      Sat w (fun s => (s.upfs 0).pending = [(0, 0)]) fun _ => False) ∧
    (∃ w ∈ trace (failStep (step Demo.twoTries)) (.ok {}) Demo.silentUpf,
      Sat w (fun s => (s.ues.live.flatMap (·.queue)).map (·.id) = [9, 11]) fun _ => False) ∧
    ∃ w ∈ trace (failStep (step Demo.twoTries)) (.ok {}) Demo.silentUpf,
      Sat w (fun s => s.ues.next = 1 ∧ s.ues.live = []) fun _ => False :=
  ⟨noneStuck_of_eventsOk Demo.twoTries Demo.silentUpf (by decide), by decide, by decide, by decide⟩

/-- **A detach waits for an answer that need not come.** -/
theorem not_noneStuck_silentMme :
    ¬ ∀ w ∈ trace (failStep (step Demo.twoTries)) (.ok {}) Demo.silentMme,
      Sat w (NoneStuck Demo.twoTries) AnyFault := by
  decide

end Spgw.Progress
