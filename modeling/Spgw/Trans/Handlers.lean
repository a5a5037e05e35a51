/-
# Handlers that meet the transaction tables

The handlers of the responses on S11 and of the PFCP session modification response, and the handlers
of the requests of an MME, up to the point where a procedure takes over.
-/

import Spgw.Session.Events
import Spgw.Trans.Machine

namespace Spgw.Trans

open Session (UePtr CreateSessReq imsiKey validateCsreqMsg deref assert assert_bind_eq_ok)

/-- The part of `ue_context_t` that is read here: `bearer_bitmap`, and which pointers
`eps_bearers[i]` are not `NULL`. -/
structure UeContext where
  bearerBitmap : ℕ := 0
  epsBearers : ℕ → Bool := fun _ => false

structure Gateway (ρ : Type) where
  trans : State := {}
  ueByTeid : ℕ → Option UePtr := fun _ => none
  ues : UePtr → UeContext := fun _ => {}
  rest : ρ

structure Calls (ρ : Type) where
  handler : Gateway ρ → ProcId → Except Fault (Gateway ρ)
  startProcedure : Gateway ρ → ProcId → Except Fault (Gateway ρ)
  replaceContext : Gateway ρ → ℕ → Except Fault (Gateway ρ)

/-- The own sockets, and whether the gateway runs as a PGW-C. -/
structure Config where
  my : Socks
  pgwc : Bool := false

section Handlers

variable {ρ : Type} (cfg : Config) (calls : Calls ρ)

structure GtpRsp where
  decodes : Bool := true
  rawTeid : ℕ
  teid : ℕ
  rawSeq : ℕ
  seq : ℕ

/-- The sequence number that the handler of the response to `r` uses. -/
def GtpRsp.seqFor (m : GtpRsp) : Request → ℕ
  | .createBearer | .downlinkDataNotification => m.rawSeq
  | .deleteBearer | .pfcp => m.seq

def takeGtpResponse (g : Gateway ρ) (r : Request) (m : GtpRsp) (context : Option UePtr) :
    Except Fault (Gateway ρ) := do
  let trans ← g.trans.gtpAnswer cfg.my r (m.seqFor r)
  match g.trans.tables .gtp ⟨m.seqFor r, cfg.my.s11⟩ with
  | none => return g
  | some t =>
    let d ← deref (trans.trans.get t)
    let p ← deref d.procContext
    let c ← deref (trans.procs.get p)
    match context with
    | none => let _ ← deref c.ueContext
    | some u => assert (c.ueContext = some u)
    calls.handler { g with trans } p

def handleCreateBearerResponseMsg (g : Gateway ρ) (m : GtpRsp) : Except Fault (Gateway ρ) :=
  if m.decodes = false then pure g
  else if m.rawTeid = 0 then takeGtpResponse cfg calls g .createBearer m none
  else match g.ueByTeid m.teid with
    | none => pure g
    | some u => takeGtpResponse cfg calls g .createBearer m (some u)

/-- `handle_delete_bearer_response_msg` and `handle_ddn_ack`. -/
def handleWithContext (r : Request) (g : Gateway ρ) (m : GtpRsp) : Except Fault (Gateway ρ) :=
  if m.decodes = false then pure g
  else match g.ueByTeid m.teid with
    | none => pure g
    | some u => takeGtpResponse cfg calls g r m (some u)

def handleDeleteBearerResponseMsg : Gateway ρ → GtpRsp → Except Fault (Gateway ρ) :=
  handleWithContext cfg calls .deleteBearer

def handleDdnAck : Gateway ρ → GtpRsp → Except Fault (Gateway ρ) :=
  handleWithContext cfg calls .downlinkDataNotification

def handlePfcpSessionModResponseMsg (g : Gateway ρ) (decodes : Bool) (seq : ℕ) : Except Fault (Gateway ρ) :=
  if decodes = false then pure g
  else do
    let trans ← g.trans.pfcpAnswer cfg.my seq
    match g.trans.tables .pfcp ⟨seq, cfg.my.pfcp⟩ with
    | none => return g
    | some t =>
      let d ← deref (trans.trans.get t)
      let p ← deref d.procContext
      calls.handler { g with trans } p

inductive Response
  | createBearer (m : GtpRsp)
  | deleteBearer (m : GtpRsp)
  | ddnAck (m : GtpRsp)
  | pfcpSessionModification (decodes : Bool) (seq : ℕ)

def handleResponse (g : Gateway ρ) : Response → Except Fault (Gateway ρ)
  | .createBearer m => handleCreateBearerResponseMsg cfg calls g m
  | .deleteBearer m => handleDeleteBearerResponseMsg cfg calls g m
  | .ddnAck m => handleDdnAck cfg calls g m
  | .pfcpSessionModification decodes seq =>
    handlePfcpSessionModResponseMsg cfg calls g decodes seq

def Response.transaction (my : Socks) (s : State) : Response → Option TransId
  | .createBearer m => s.tables .gtp ⟨m.seqFor .createBearer, my.s11⟩
  | .deleteBearer m => s.tables .gtp ⟨m.seqFor .deleteBearer, my.s11⟩
  | .ddnAck m => s.tables .gtp ⟨m.seqFor .downlinkDataNotification, my.s11⟩
  | .pfcpSessionModification _ seq => s.tables .pfcp ⟨seq, my.pfcp⟩

/-- A Create Bearer Response whose context is found, or not asked for. -/
def Response.ReachesAssert (g : Gateway ρ) : Response → Prop
  | .createBearer m => m.decodes = true ∧ (m.rawTeid = 0 ∨ (g.ueByTeid m.teid).isSome)
  | _ => False

variable {cfg calls} {g : Gateway ρ}

theorem takeGtpResponse_of_none {r : Request} {m : GtpRsp} {context : Option UePtr}
    (h : g.trans.tables .gtp ⟨m.seqFor r, cfg.my.s11⟩ = none) :
    takeGtpResponse cfg calls g r m context =
      if r = .createBearer then throw .assertion else pure g := by
  unfold takeGtpResponse State.gtpAnswer
  simp only [h]
  split_ifs
  · rfl
  · rfl

theorem handleWithContext_of_none {r : Request} {m : GtpRsp} (hr : r ≠ .createBearer)
    (h : g.trans.tables .gtp ⟨m.seqFor r, cfg.my.s11⟩ = none) :
    handleWithContext cfg calls r g m = .ok g := by
  unfold handleWithContext
  split_ifs
  · rfl
  · cases g.ueByTeid m.teid with
    | none => rfl
    | some u =>
      simp only [takeGtpResponse_of_none h, if_neg hr]
      rfl

/-- **An unmatched response is dropped without a trace, unless it is a Create Bearer Response
that reaches the assertion.** -/
theorem unmatched_unchanged_iff (cfg : Config) (calls : Calls ρ) (g : Gateway ρ) (rsp : Response)
    (h : rsp.transaction cfg.my g.trans = none) :
    handleResponse cfg calls g rsp = .ok g ↔ ¬ rsp.ReachesAssert g := by
  cases rsp with
  | createBearer m =>
    simp only [handleResponse, handleCreateBearerResponseMsg, Response.ReachesAssert]
    cases hdec : m.decodes with
    | false => simp [pure, Except.pure]
    | true =>
      by_cases hteid : m.rawTeid = 0
      · simp [hteid, takeGtpResponse_of_none h, throw, throwThe, MonadExceptOf.throw]
      · cases hu : g.ueByTeid m.teid with
        | none => simp [hteid, pure, Except.pure]
        | some u => simp [hteid, takeGtpResponse_of_none h, throw, throwThe, MonadExceptOf.throw]
  | deleteBearer m => exact iff_of_true (handleWithContext_of_none (by decide) h) id
  | ddnAck m => exact iff_of_true (handleWithContext_of_none (by decide) h) id
  | pfcpSessionModification decodes seq =>
    refine iff_of_true ?_ id
    have hnone : g.trans.tables .pfcp ⟨seq, cfg.my.pfcp⟩ = none := h
    simp only [handleResponse, handlePfcpSessionModResponseMsg, State.pfcpAnswer, hnone]
    split_ifs
    · rfl
    · rfl

end Handlers

def strayResponse (rawTeid teid : ℕ) : Response :=
  .createBearer { rawTeid, teid, rawSeq := 65536, seq := 1 }

def sampleConfig : Config := { my := ⟨⟨10, 2123⟩, ⟨10, 8805⟩⟩ }

def idleCalls : Calls Unit where
  handler g _ := pure g
  startProcedure g _ := pure g
  replaceContext g _ := pure g

def oneRequest : Gateway Unit where
  trans := ({} : State).handleRequest .mme ⟨20, 2123⟩ 7 none
  rest := ()

/-- Besides the request there is a context, with the TEID 1. -/
def oneContext : Gateway Unit :=
  { oneRequest with ueByTeid := fun teid => if teid = 1 then some 0 else none }

theorem unmatched_unchanged_unknownTeid :
    handleResponse sampleConfig idleCalls oneContext (strayResponse 33554432 2) = .ok oneContext ∧
      handleResponse sampleConfig idleCalls oneContext
        (.deleteBearer { rawTeid := 16777216, teid := 1, rawSeq := 65536, seq := 1 }) =
          .ok oneContext :=
  ⟨(unmatched_unchanged_iff sampleConfig idleCalls oneContext _ rfl).mpr (by
      rintro ⟨-, hteid | hteid⟩ <;> cases hteid),
    (unmatched_unchanged_iff sampleConfig idleCalls oneContext _ rfl).mpr id⟩

/-- **A Create Bearer Response without a TEID and without a transaction aborts the gateway.** -/
theorem unmatched_fails_withoutTeid :
    (strayResponse 0 0).transaction sampleConfig.my ({ rest := () } : Gateway Unit).trans = none ∧
      handleResponse sampleConfig idleCalls { rest := () } (strayResponse 0 0) =
        .error .assertion := ⟨rfl, rfl⟩

section Requests

variable {ρ : Type} (cfg : Config) (calls : Calls ρ)

structure ModBearerReq where
  decodes : Bool := true
  teid : ℕ
  seq : ℕ
  epsBearerId : Option ℕ
  s1EnodebFteid : Bool := true

structure DelSessReq where
  decodes : Bool := true
  teid : ℕ
  seq : ℕ
  lbi : ℕ

/-- `ebi - 5`. -/
def ebiIndex (ebi : ℕ) : ℕ := (ebi + 251) % 256

/-- `bearer_bitmap & (1 << i)`. -/
def UeContext.hasBit (c : UeContext) (i : ℕ) : Bool := c.bearerBitmap.testBit (i % 32)

def validateMbreqMsg (g : Gateway ρ) (m : ModBearerReq) : ℕ :=
  match g.ueByTeid m.teid with
  | none => 64
  | some u =>
    match m.epsBearerId, m.s1EnodebFteid with
    | some ebi, true =>
      if (g.ues u).hasBit (ebiIndex ebi) ∧ (g.ues u).epsBearers (ebiIndex ebi) then 0 else 64
    | _, _ => 67

/-- The new procedure and its transaction, and `start_procedure`. -/
def admitRequest (g : Gateway ρ) (peer : SockAddr) (seq : ℕ) (ueContext : Option UePtr) :
    Except Fault (Gateway ρ) :=
  calls.startProcedure { g with trans := g.trans.handleRequest .mme peer seq ueContext }
    g.trans.procs.next

def handleCreateSessionRequest (g : Gateway ρ) (peer : SockAddr) (decodes : Bool)
    (m : CreateSessReq) : Except Fault (Gateway ρ) :=
  if decodes = false then pure g
  else if validateCsreqMsg m ≠ 0 then do
    let trans ← g.trans.csErrorResponse peer m.seq none
    return { g with trans }
  else if (g.trans.tables .gtp ⟨m.seq, peer⟩).isSome then pure g
  else do
    let imsi ← imsiKey m
    let g ← calls.replaceContext g imsi
    admitRequest calls g peer m.seq none

def handleModifyBearerRequest (g : Gateway ρ) (peer : SockAddr) (m : ModBearerReq) :
    Except Fault (Gateway ρ) :=
  if m.decodes = false then pure g
  else if validateMbreqMsg g m ≠ 0 then do
    assert (peer.port ≠ 0)
    return g
  else if (g.trans.tables .gtp ⟨m.seq, peer⟩).isSome then pure g
  else if cfg.pgwc then throw .assertion
  else admitRequest calls g peer m.seq (g.ueByTeid m.teid)

def handleDeleteSessionRequest (g : Gateway ρ) (peer : SockAddr) (m : DelSessReq) :
    Except Fault (Gateway ρ) :=
  if m.decodes = false then pure g
  else if (g.trans.tables .gtp ⟨m.seq, peer⟩).isSome then pure g
  else match g.ueByTeid m.teid with
    | none => do
      assert (peer.port ≠ 0)
      return g
    | some u =>
      if (g.ues u).hasBit (ebiIndex m.lbi) ∧ (g.ues u).epsBearers (ebiIndex m.lbi) then
        admitRequest calls g peer m.seq (some u)
      else pure g

inductive MmeRequest
  | createSession (decodes : Bool) (m : CreateSessReq)
  | modifyBearer (m : ModBearerReq)
  | deleteSession (m : DelSessReq)

def MmeRequest.seq : MmeRequest → ℕ
  | .createSession _ m => m.seq
  | .modifyBearer m => m.seq
  | .deleteSession m => m.seq

def handleMmeRequest (g : Gateway ρ) (peer : SockAddr) : MmeRequest → Except Fault (Gateway ρ)
  | .createSession decodes m => handleCreateSessionRequest calls g peer decodes m
  | .modifyBearer m => handleModifyBearerRequest cfg calls g peer m
  | .deleteSession m => handleDeleteSessionRequest calls g peer m

def State.Linked (s : State) (t : TransId) (p : ProcId) : Prop :=
  (∃ d, s.trans.get t = some d ∧ d.procContext = some p) ∧
    ∃ c, s.procs.get p = some c ∧ c.trans .gtp = some t

/-- The transaction of the request is in the table, with its procedure. -/
def State.InProgress (s : State) (key : TransKey) (t : TransId) (p : ProcId) : Prop :=
  s.tables .gtp key = some t ∧ s.Linked t p

/-- The request is still in progress, and nothing else has been begun. -/
structure Undisturbed (g g' : Gateway ρ) (key : TransKey) (t : TransId) (p : ProcId) : Prop where
  inProgress : g'.trans.InProgress key t p
  procs : ∀ q, g.trans.procs.get q = none → g'.trans.procs.get q = none
  trans : ∀ q, g.trans.trans.get q = none → g'.trans.trans.get q = none
  ueByTeid : g'.ueByTeid = g.ueByTeid
  ues : g'.ues = g.ues
  rest : g'.rest = g.rest

/-- The request is not rejected before the table is consulted. -/
def MmeRequest.Harmless (g : Gateway ρ) (peer : SockAddr) : MmeRequest → Prop
  | .createSession decodes m => decodes = true → validateCsreqMsg m = 0
  | .modifyBearer m => m.decodes = true → validateMbreqMsg g m = 0 ∨ peer.port ≠ 0
  | .deleteSession _ => True

instance (g : Gateway ρ) (peer : SockAddr) : ∀ m : MmeRequest, Decidable (m.Harmless g peer)
  | .createSession _ _ => inferInstanceAs (Decidable (_ → _))
  | .modifyBearer _ => inferInstanceAs (Decidable (_ → _))
  | .deleteSession _ => isTrue trivial

variable {cfg calls} {g : Gateway ρ} {peer : SockAddr} {t : TransId} {p : ProcId}

theorem undisturbed_self {key : TransKey} (h : g.trans.InProgress key t p) :
    Undisturbed g g key t p :=
  ⟨h, fun _ h => h, fun _ h => h, rfl, rfl, rfl⟩

theorem handleMmeRequest_of_harmless {m : MmeRequest}
    (hdup : (g.trans.tables .gtp ⟨m.seq, peer⟩).isSome) (h : m.Harmless g peer) :
    handleMmeRequest cfg calls g peer m = .ok g := by
  cases m with
  | createSession decodes m =>
    simp only [handleMmeRequest, handleCreateSessionRequest]
    cases decodes with
    | false => rfl
    | true =>
      simp only [Bool.true_eq_false, if_false, h rfl, ne_eq, not_true_eq_false]
      exact if_pos hdup
  | modifyBearer m =>
    simp only [handleMmeRequest, handleModifyBearerRequest]
    cases hdec : m.decodes with
    | false => rfl
    | true =>
      simp only [Bool.true_eq_false, if_false]
      by_cases hvalid : validateMbreqMsg g m = 0
      · simp only [hvalid, ne_eq, not_true_eq_false, if_false]
        exact if_pos hdup
      · have hport : peer.port ≠ 0 := (h hdec).resolve_left hvalid
        simp only [if_pos hvalid, assert, if_pos hport]
        rfl
  | deleteSession m =>
    simp only [handleMmeRequest, handleDeleteSessionRequest]
    by_cases hdec : m.decodes = false
    · exact if_pos hdec
    · rw [if_neg hdec]
      exact if_pos hdup

theorem tables_csErrorResponse {s s' : State} {seq : ℕ}
    (h : s.csErrorResponse peer seq none = .ok s') : s'.tables .gtp ⟨seq, peer⟩ = none := by
  obtain ⟨rfl, hnone⟩ | ⟨t, -, rfl | ⟨p, rfl⟩⟩ := csErrorResponse_cases h
  · exact hnone
  all_goals
    change (s.deleteTransaction .gtp ⟨seq, peer⟩).tables .gtp ⟨seq, peer⟩ = none
    grind

/-- **A repeated request leaves the request in progress alone iff it is harmless** -/
theorem repeated_undisturbed_iff (cfg : Config) (calls : Calls ρ) (g : Gateway ρ) (peer : SockAddr)
    (m : MmeRequest) (t : TransId) (p : ProcId) (h : g.trans.InProgress ⟨m.seq, peer⟩ t p) :
    (∃ g', handleMmeRequest cfg calls g peer m = .ok g' ∧ Undisturbed g g' ⟨m.seq, peer⟩ t p) ↔
      m.Harmless g peer := by
  have hdup : (g.trans.tables .gtp ⟨m.seq, peer⟩).isSome := by rw [h.1]; rfl
  constructor
  · rintro ⟨g', hg', hund⟩
    cases m with
    | createSession decodes m =>
      intro hdec
      by_contra hvalid
      simp only [handleMmeRequest, handleCreateSessionRequest, hdec, Bool.true_eq_false, if_false,
        ne_eq, hvalid, not_false_eq_true, if_true] at hg'
      cases hs : g.trans.csErrorResponse peer m.seq none with
      | error f =>
        rw [hs] at hg'
        cases hg'
      | ok s' =>
        rw [hs] at hg'
        cases hg'
        have hlisted : s'.tables .gtp ⟨m.seq, peer⟩ = some t := hund.inProgress.1
        rw [tables_csErrorResponse hs] at hlisted
        cases hlisted
    | modifyBearer m =>
      intro hdec
      by_contra hneither
      obtain ⟨hvalid, hport⟩ := not_or.mp hneither
      simp only [handleMmeRequest, handleModifyBearerRequest, hdec, Bool.true_eq_false, if_false,
        ne_eq, hvalid, not_false_eq_true, if_true] at hg'
      exact hport (assert_bind_eq_ok.mp hg').1
    | deleteSession m => trivial
  · intro hharmless
    exact ⟨g, handleMmeRequest_of_harmless hdup hharmless, undisturbed_self h⟩

end Requests

theorem inProgress_oneRequest : oneRequest.trans.InProgress ⟨7, ⟨20, 2123⟩⟩ 0 0 :=
  ⟨rfl, ⟨_, rfl, rfl⟩, ⟨_, rfl, rfl⟩⟩

theorem repeated_undisturbed_valid :
    ∃ g', handleMmeRequest sampleConfig idleCalls oneRequest ⟨20, 2123⟩
        (.createSession true (Session.Demo.request 7 8 0)) = .ok g' ∧
      Undisturbed oneRequest g' ⟨7, ⟨20, 2123⟩⟩ 0 0 :=
  (repeated_undisturbed_iff sampleConfig idleCalls oneRequest ⟨20, 2123⟩
    (.createSession true (Session.Demo.request 7 8 0)) 0 0 inProgress_oneRequest).mpr (by decide)

/-- **A repeated Create Session Request without an IMSI deletes the transaction of the request in
progress** -/
theorem repeated_deletes_withoutImsi : oneRequest.trans.InProgress ⟨7, ⟨20, 2123⟩⟩ 0 0 ∧
    ∃ g', handleMmeRequest sampleConfig idleCalls oneRequest ⟨20, 2123⟩
        (.createSession true (Session.Demo.request 7 0 0)) = .ok g' ∧
      g'.trans.tables .gtp ⟨7, ⟨20, 2123⟩⟩ = none ∧
      ∃ c, g'.trans.procs.get 0 = some c ∧ c.trans .gtp = some 0 :=
  ⟨inProgress_oneRequest, _, rfl, rfl, _, rfl, rfl⟩

end Spgw.Trans
