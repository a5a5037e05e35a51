/-
# What the end of a session leaves alone

A handler that fails an attach or ends a detach removes records, and writes the queue of a UE
context, transactions and addresses.
-/

import Spgw.Session.Events

namespace Spgw.Session

open Machine

structure SameContexts (a b : Procedure) : Prop where
  procType : b.procType = a.procType := by rfl
  ueContext : b.ueContext = a.ueContext := by rfl
  pdnContext : b.msgInfo.pdnContext = a.msgInfo.pdnContext := by rfl

def SameKind (a b : Pdn) : Prop :=
  (b.allocControl = true → a.allocControl = true) ∧ b.staticAddr = a.staticAddr

def SameFeatures (a b : Upf) : Prop :=
  (b.state = .assocRespRcvd → a.state = .assocRespRcvd) ∧ b.ueip = a.ueip

structure Keeps (s t : State) : Prop where
  procs : s.procs.Evolves SameContexts t.procs
  next : t.procs.next = s.procs.next
  ues : s.ues.Evolves (fun a b => b.upfContext = a.upfContext) t.ues
  pdns : s.pdns.Evolves SameKind t.pdns
  upfs : ∀ service b, t.upfs service = some b → ∃ a, s.upfs service = some a ∧ SameFeatures a b

namespace Keeps

variable {s t u : State}

theorem refl (s : State) : Keeps s s where
  procs := .refl fun _ => {}
  next := rfl
  ues := .refl fun _ => rfl
  pdns := .refl fun _ => ⟨id, rfl⟩
  upfs _ b hb := ⟨b, hb, id, rfl⟩

theorem trans (h₁ : Keeps s t) (h₂ : Keeps t u) : Keeps s u where
  procs := h₁.procs.trans (fun _ _ _ hab hbc =>
    ⟨hbc.procType.trans hab.procType, hbc.ueContext.trans hab.ueContext,
      hbc.pdnContext.trans hab.pdnContext⟩) h₂.procs
  next := h₂.next.trans h₁.next
  ues := h₁.ues.trans (fun _ _ _ hab hbc => hbc.trans hab) h₂.ues
  pdns := h₁.pdns.trans (fun _ _ _ hab hbc => ⟨hab.1 ∘ hbc.1, hbc.2.trans hab.2⟩) h₂.pdns
  upfs service c hc := by
    obtain ⟨b, hb, hbc⟩ := h₂.upfs service c hc
    obtain ⟨a, ha, hab⟩ := h₁.upfs service b hb
    exact ⟨a, ha, hab.1 ∘ hbc.1, hbc.2.trans hab.2⟩

theorem setProc {p : ProcId} {a b : Procedure} (hp : s.procs.get p = some a)
    (hab : SameContexts a b) : Keeps s (s.setProc p b) :=
  { refl s with
    procs := Heap.evolves_set (fun _ => {}) hp hab
    next := Heap.next_set }

theorem freeProc (p : ProcId) : Keeps s { s with procs := s.procs.free p } :=
  { refl s with
    procs := Heap.evolves_free fun _ => {}
    next := Heap.next_free }

theorem setUe {u : UePtr} {a b : UeContext} (hu : s.ues.get u = some a)
    (hab : b.upfContext = a.upfContext) : Keeps s (s.setUe u b) :=
  { refl s with ues := Heap.evolves_set (fun _ => rfl) hu hab }

theorem freeUe (u : UePtr) : Keeps s { s with ues := s.ues.free u } :=
  { refl s with ues := Heap.evolves_free fun _ => rfl }

theorem setPdn {p : PdnPtr} {a b : Pdn} (hp : s.pdns.get p = some a) (hab : SameKind a b) :
    Keeps s (s.setPdn p b) :=
  { refl s with pdns := Heap.evolves_set (fun _ => ⟨id, rfl⟩) hp hab }

theorem freePdn (p : PdnPtr) : Keeps s { s with pdns := s.pdns.free p } :=
  { refl s with pdns := Heap.evolves_free fun _ => ⟨id, rfl⟩ }

theorem setUpf {service : Service} {a b : Upf} (hs : s.upfs service = some a)
    (hab : SameFeatures a b) : Keeps s (s.setUpf service b) where
  __ := refl s
  upfs other c hc := by
    simp only [State.setUpf, Function.update_apply] at hc
    split_ifs at hc with heq
    · cases hc
      exact ⟨a, heq ▸ hs, hab⟩
    · exact ⟨c, hc, id, rfl⟩

theorem of_eq (hprocs : t.procs = s.procs) (hues : t.ues = s.ues) (hpdns : t.pdns = s.pdns)
    (hupfs : t.upfs = s.upfs) : Keeps s t where
  procs := hprocs ▸ (refl s).procs
  next := by rw [hprocs]
  ues := hues ▸ (refl s).ues
  pdns := hpdns ▸ (refl s).pdns
  upfs := hupfs ▸ (refl s).upfs

end Keeps

theorem cleanupPdnContext_keeps (s : State) (p : PdnPtr) :
    Sat (cleanupPdnContext s p) (Keeps s) AnyFault := by
  refine (cleanupPdnContext_spec trivial (Or.inr trivial)).mono ?_
  rintro t ⟨pdn, u, context, -, -, hctx, rfl⟩
  obtain ⟨dynamicPool, staticPool, heq⟩ := exists_releaseAddress_eq s pdn
  rw [heq]
  have hue : Keeps s (s.setUe u { context with pdn := none }) := .setUe hctx rfl
  exact ⟨hue.procs, hue.next, hue.ues, (Keeps.freePdn p).pdns, hue.upfs⟩

theorem cleanupUeContext_keeps (s : State) (u : UePtr) :
    Sat (cleanupUeContext s u) (Keeps s) AnyFault := by
  refine (cleanupUeContext_spec trivial (Or.inr trivial)).mono ?_
  rintro t ⟨context, procs, gtpTrans, -, hdropped, rfl⟩
  have hue : Keeps s { s with ues := s.ues.free u } := .freeUe u
  refine ⟨hdropped.evolves.mono ?_, hdropped.next, hue.ues, hue.pdns, hue.upfs⟩
  rintro a _ rfl
  exact {}

theorem releaseSession_keeps (s : State) (u : UePtr) (p : PdnPtr) :
    Sat (releaseSession s u p) (Keeps s) AnyFault :=
  (cleanupPdnContext_keeps s p).bind fun t ht =>
    (cleanupUeContext_keeps t u).mono fun _ => ht.trans

theorem unlinkProc_keeps (s : State) (p : ProcId) (proc : Procedure) :
    Sat (unlinkProc s p proc) (Keeps s) AnyFault := by
  refine (unlinkProc_spec trivial (Or.inr trivial)).mono ?_
  rintro t (⟨-, rfl⟩ | ⟨u, context, -, hctx, rfl⟩)
  · exact .of_eq rfl rfl rfl rfl
  · have hue : Keeps s (s.setUe u
        { context with pendingSubProcs := context.pendingSubProcs.erase p }) := .setUe hctx rfl
    exact ⟨hue.procs, hue.next, hue.ues, hue.pdns, hue.upfs⟩

theorem endAttachFailure_keeps (s : State) (p : ProcId) :
    Sat (endAttachFailure s p) (Keeps s) AnyFault := by
  unfold endAttachFailure
  refine sat_deref_bind fun proc _ => ?_
  refine (unlinkProc_keeps s p proc).bind fun t ht => ?_
  have hfree : Keeps s { t with procs := t.procs.free p, ended := t.ended ++ [(p, proc.request)] } :=
    ht.trans ((Keeps.freeProc p).trans (.of_eq rfl rfl rfl rfl))
  split
  · exact (releaseSession_keeps _ _ _).mono fun _ => hfree.trans
  · exact sat_pure hfree

theorem csErrorResponse_keeps {s : State} {p : ProcId} {proc : Procedure} (cause : ℕ)
    (hp : s.procs.get p = some proc) : Sat (csErrorResponse s p proc cause) (Keeps s) AnyFault := by
  unfold csErrorResponse
  refine (sat_true (getErrorCsrspInfo s proc)).bind fun ⟨peer, seq⟩ _ => ?_
  refine sat_assert_bind ?_
  dsimp only
  split
  · exact sat_pure (.of_eq rfl rfl rfl rfl)
  · refine (sat_assert fun _ => trivial).bind fun _ _ => sat_pure ?_
    have hset : Keeps s (s.setProc p { proc with gtpcTrans := none }) := .setProc hp {}
    exact ⟨hset.procs, hset.next, hset.ues, hset.pdns, hset.upfs⟩

theorem procInitialAttachFailure_keeps (s : State) (p : ProcId) (cause : ℕ) :
    Sat (procInitialAttachFailure s p cause) (Keeps s) AnyFault := by
  unfold procInitialAttachFailure
  refine sat_deref_bind fun proc hproc => ?_
  refine (csErrorResponse_keeps cause hproc).bind fun t ht => ?_
  exact (endAttachFailure_keeps t p).mono fun _ => ht.trans

theorem keeps_handOverAddress {s : State} {p : PdnPtr} {pdn : Pdn} (hp : s.pdns.get p = some pdn) :
    Keeps s (handOverAddress s p pdn) := by
  unfold handOverAddress
  split_ifs with hcontrol
  · have hset : Keeps s (s.setPdn p { pdn with ipv4 := 0, allocControl := false, allocUpf := true }) :=
      .setPdn hp ⟨fun _ => hcontrol, rfl⟩
    exact ⟨hset.procs, hset.next, hset.ues, hset.pdns, hset.upfs⟩
  · exact .refl s

theorem procs_handOverAddress (s : State) (p : PdnPtr) (pdn : Pdn) :
    (handOverAddress s p pdn).procs = s.procs := by
  unfold handOverAddress
  split_ifs <;> rfl

theorem keeps_bufferCsrRequest {s : State} {service : Service} {upf : Upf} (p : ProcId)
    (hupf : s.upfs service = some upf) : Keeps s (bufferCsrRequest s service upf p) :=
  .setUpf hupf ⟨id, rfl⟩

theorem associationSetup_keeps (s : State) (service : Service) (dns : Ipv4) :
    Sat (associationSetup s service dns) (Keeps s) AnyFault := by
  unfold associationSetup
  refine sat_deref_bind fun upf hupf => ?_
  refine (sat_assert fun _ => trivial).bind fun _ _ => sat_pure (.setUpf hupf ⟨?_, rfl⟩)
  split_ifs <;> simp

theorem initiateUpfSession_keeps (s : State) (p : ProcId) (dns : Ipv4) :
    Sat (initiateUpfSession s p dns) (Keeps s) AnyFault := by
  unfold initiateUpfSession
  refine sat_deref_bind fun proc hproc => ?_
  refine sat_deref_bind fun u _ => ?_
  refine sat_deref_bind fun context _ => ?_
  refine sat_deref_bind fun service _ => ?_
  refine sat_deref_bind fun upf hupf => ?_
  split
  · exact sat_pure (keeps_bufferCsrRequest p hupf)
  · refine sat_deref_bind fun q _ => ?_
    refine sat_deref_bind fun pdn hpdn => ?_
    split_ifs
    · exact procInitialAttachFailure_keeps s p _
    · refine sat_pure ((keeps_handOverAddress hpdn).trans (.setProc (a := proc) ?_ {}))
      rw [procs_handOverAddress, hproc]
    · exact sat_pure (.setProc hproc {})
  · exact (associationSetup_keeps _ service dns).mono fun _ => (keeps_bufferCsrRequest p hupf).trans

theorem keeps_popPending (s : State) (service : Service) (rest : List ProcId) :
    Keeps s (popPending s service rest) := by
  unfold popPending
  split
  · next upf hupf => exact .setUpf hupf ⟨id, rfl⟩
  · exact .refl s

theorem wake_keeps (s : State) (service : Service) (rest : List ProcId) (p : ProcId)
    (msgType : MsgType) :
    Sat (retypeMsg (popPending s service rest) p msgType) (Keeps s) AnyFault :=
  sat_deref_bind fun _ hproc =>
    sat_pure ((keeps_popPending s service rest).trans (.setProc hproc {}))

end Spgw.Session
