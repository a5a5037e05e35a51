/-
# The ledger and the user plane session

`initiate_upf_session` hands a control plane address over to a UPF that allocates addresses itself:
it pushes the address of the PDN into the dynamic pool, whatever pool it came from.
-/

import Spgw.Ledger.Basic

namespace Spgw.Session

open Machine

/-- `initiate_upf_session` hands the address over: the UPF is associated and
allocates addresses itself. -/
def handsOver (s : State) (proc : Procedure) : Bool :=
  (upfOf s proc).any fun upf => upf.state = .assocRespRcvd && upf.ueip

/-- A session that is handed over to the UPF has no static address. -/
def HandOverOk (s : State) (proc : Procedure) (q : Option PdnPtr) : Prop :=
  handsOver s proc = true →
    ∀ pdn ∈ q.bind s.pdns.get, pdn.allocControl = true → pdn.staticAddr = false

instance (s : State) (proc : Procedure) (q : Option PdnPtr) : Decidable (HandOverOk s proc q) :=
  inferInstanceAs (Decidable (_ → _))

/-- `HandOverOk` for a procedure and the PDN its message names. -/
def ResumeOk (s : State) (p : ProcId) : Prop :=
  ∀ proc ∈ s.procs.get p, HandOverOk s proc proc.msgInfo.pdnContext

instance (s : State) (p : ProcId) : Decidable (ResumeOk s p) :=
  inferInstanceAs (Decidable (∀ proc ∈ s.procs.get p, _))

theorem handsOver_iff {s : State} {proc : Procedure} : handsOver s proc = true ↔
      ∃ upf, upfOf s proc = some upf ∧ upf.state = .assocRespRcvd ∧ upf.ueip = true := by
  simp [handsOver, Option.any_eq_true]

theorem Keeps.handsOver {s t : State} {a b : Procedure} (h : Keeps s t)
    (hab : b.ueContext = a.ueContext) (hb : handsOver t b = true) :
    Session.handsOver s a = true := by
  obtain ⟨upf, hupf, hstate, hueip⟩ := handsOver_iff.mp hb
  obtain ⟨u, context, service, hu, hctx, hservice, hupf⟩ := upfOf_eq_some.mp hupf
  obtain ⟨context₀, hctx₀, hsame⟩ := h.ues u context hctx
  obtain ⟨upf₀, hupf₀, hresp, hfeature⟩ := h.upfs service upf hupf
  refine handsOver_iff.mpr ⟨upf₀, ?_, hresp hstate, hfeature ▸ hueip⟩
  exact upfOf_eq_some.mpr ⟨u, context₀, service, hab ▸ hu, hctx₀, hsame ▸ hservice, hupf₀⟩

theorem Keeps.resumeOk {s t : State} {p : ProcId} (h : Keeps s t) (hs : ResumeOk s p) :
    ResumeOk t p := by
  intro proc hproc hover pdn hpdn hcontrol
  obtain ⟨proc₀, hproc₀, -, hue, hmsg⟩ := h.procs p proc hproc
  obtain ⟨q, hq, hget⟩ := Option.bind_eq_some_iff.mp hpdn
  obtain ⟨pdn₀, hpdn₀, hcontrol₀, hstatic⟩ := h.pdns q pdn hget
  rw [hstatic]
  refine hs proc₀ hproc₀ (h.handsOver hue hover) pdn₀ ?_ (hcontrol₀ hcontrol)
  exact Option.bind_eq_some_iff.mpr ⟨q, hmsg ▸ hq, hpdn₀⟩

def Settles (l : Ledger) (a : Act) : Prop :=
  Cleans l a ∨ ∃ q, a = .handOver q ∧
    ∀ pdn, l.pdns.get q = some pdn → pdn.allocControl = true → pdn.staticAddr = false

theorem Cleans.settles {l : Ledger} {a : Act} (h : Cleans l a) : Settles l a := Or.inl h

theorem ledger_handOverAddress {s : State} {p : PdnPtr} {pdn : Pdn} (hp : s.pdns.get p = some pdn) :
    (handOverAddress s p pdn).ledger = s.ledger.act (.handOver p) := by
  have hget : s.ledger.pdns.get p = some pdn := hp
  simp only [handOverAddress, Ledger.act, hget]
  split_ifs
  · rw [releaseIp_eq]
    rfl
  · rfl

theorem associationSetup_ledger (s : State) (service : Service) (dns : Ipv4) :
    Sat (associationSetup s service dns) (fun t => t.ledger = s.ledger) AnyFault :=
  sat_deref_bind fun _ _ =>
    (sat_assert fun _ => trivial).bind fun _ _ => sat_pure rfl

theorem initiateUpfSession_settles {s : State} {p : ProcId} (dns : Ipv4) (hok : ResumeOk s p) :
    Sat (initiateUpfSession s p dns) (Performs Settles s.ledger) AnyFault := by
  unfold initiateUpfSession
  refine sat_deref_bind fun proc hproc => ?_
  refine sat_deref_bind fun u hu => ?_
  refine sat_deref_bind fun context hctx => ?_
  refine sat_deref_bind fun service hservice => ?_
  refine sat_deref_bind fun upf hupf => ?_
  split
  · exact sat_pure .refl
  · next hstate =>
    refine sat_deref_bind fun q hq => ?_
    refine sat_deref_bind fun pdn hpdn => ?_
    split_ifs with hreject hueip
    · exact (procInitialAttachFailure_cleans s p _).mono fun t ht => ht.mono fun _ _ h => h.settles
    · have hover : handsOver s proc = true :=
        handsOver_iff.mpr ⟨upf, upfOf_eq_some.mpr ⟨u, context, service, hu, hctx, hservice, hupf⟩,
          hstate, hueip⟩
      have hledger := ledger_handOverAddress hpdn
      refine sat_pure ?_
      change Path Ledger.act Settles s.ledger (handOverAddress s q pdn).ledger
      rw [hledger]
      refine .single (Or.inr ⟨q, rfl, fun pdn' hpdn' => ?_⟩)
      exact hok proc hproc hover pdn' (Option.bind_eq_some_iff.mpr ⟨q, hq, hpdn'⟩)
    · exact sat_pure .refl
  · refine (associationSetup_ledger _ service dns).mono fun t ht => ?_
    rw [Performs, ht]
    exact .refl

theorem wake_ledger (s : State) (service : Service) (rest : List ProcId) (p : ProcId)
    (msgType : MsgType) : Sat (retypeMsg (popPending s service rest) p msgType)
      (fun t => t.ledger = s.ledger) AnyFault := by
  refine sat_deref_bind fun _ _ => sat_pure ?_
  unfold popPending
  split <;> rfl

theorem rejectPending_cleans (service : Service) (queue : List ProcId) (s : State) :
    Sat (rejectPending service queue s) (Performs Cleans s.ledger) AnyFault := by
  induction queue generalizing s with
  | nil => exact sat_pure .refl
  | cons p rest ih =>
    unfold rejectPending
    refine (wake_ledger s service rest p _).bind fun t ht => ?_
    rw [← ht]
    refine (procInitialAttachFailure_cleans t p _).bind fun u hu => ?_
    exact (ih u).mono fun _ => hu.trans

theorem resumePending_settles (service : Service) (queue : List ProcId) (s : State)
    (hok : ∀ p ∈ queue, ResumeOk s p) :
    Sat (resumePending service queue s) (Performs Settles s.ledger) AnyFault := by
  induction queue generalizing s with
  | nil => exact sat_pure .refl
  | cons p rest ih =>
    unfold resumePending
    refine ((wake_ledger s service rest p _).and (wake_keeps s service rest p _)).bind
      fun t ⟨hledger, hkeeps⟩ => ?_
    rw [← hledger]
    have hp : ResumeOk t p := hkeeps.resumeOk (hok p List.mem_cons_self)
    refine ((initiateUpfSession_settles 0 hp).and (initiateUpfSession_keeps t p 0)).bind
      fun u ⟨hpath, hkeeps'⟩ => ?_
    refine (ih u fun q hq => ?_).mono fun _ => hpath.trans
    exact (hkeeps.trans hkeeps').resumeOk (hok q (List.mem_cons_of_mem p hq))

theorem upfPfcpSetupFailure_cleans (s : State) (service : Service) :
    Sat (upfPfcpSetupFailure s service) (Performs Cleans s.ledger) AnyFault := by
  unfold upfPfcpSetupFailure
  refine sat_deref_bind fun upf _ => ?_
  refine (rejectPending_cleans service _ s).bind fun t ht => ?_
  refine sat_deref_bind fun upf _ => sat_pure ?_
  split_ifs <;> exact ht

theorem upfPfcpSetupSuccess_settles (s : State) (service : Service)
    (hok : ∀ upf ∈ s.upfs service, ∀ p ∈ upf.pendingSubProcs, ResumeOk s p) :
    Sat (upfPfcpSetupSuccess s service) (Performs Settles s.ledger) AnyFault := by
  unfold upfPfcpSetupSuccess
  refine sat_deref_bind fun upf hupf => ?_
  split_ifs with hloop
  · exact sat_throw trivial
  · refine (resumePending_settles service _ s (hok upf hupf)).bind fun t ht => ?_
    refine sat_deref_bind fun upf _ => ?_
    split_ifs
    · exact sat_pure ht
    · exact sat_throw trivial

end Spgw.Session
