/-
# Retransmission of PFCP session requests

A PFCP session request is sent and copied into its transaction (`start_response_wait_timer` of
`cp_transactions.c`), which three threads share without a lock: the timer thread (`cp_timer.c`), the
main thread, which handles the response, and that of `delayed_task_handler`.
-/

import Spgw.Sx.State
import Mathlib.Algebra.Order.Ring.Nat

namespace Spgw.Trans.Retransmit

open Machine
open Sx (maxPfcpMsgSize)

structure Message where
  octets : List UInt8
  fits : octets.length ≤ maxPfcpMsgSize

inductive Sender
  | attach
  | detach
  | serviceRequest

structure TransData where
  itrCnt : UInt8 := 0
  bufLen : UInt16
  buf : List UInt8
  timer : Bool := false
  delayedDelete : Bool := false

/-- Where the timer thread is in a callback: behind the test of the mark, or behind the comparison
with `request_tries`, which has found that the request is sent again or that it has failed. -/
inductive Callback
  | entered
  | again
  | giveUp
  deriving DecidableEq

/-- The transaction, until it is freed, and its entry in the table; the procedure and its pointer to
the transaction; the places of the timer thread and of the main thread, which is `handling` when it
has taken a response and not run the procedure yet. The rest is a record of what has happened, down
to the use of memory that is freed or no longer linked. -/
structure State where
  trans : Option TransData
  listed : Bool
  pfcpTrans : Bool
  proc : Bool
  callback : Option Callback := none
  handling : Bool := false
  sent : List (List UInt8)
  expiries : ℕ := 0
  failures : ℕ := 0
  responses : ℕ := 0
  fault : Bool := false

def startTransactionTimer (m : Message) : TransData where
  bufLen := UInt16.ofNat m.octets.length
  buf := m.octets ++ List.replicate (maxPfcpMsgSize - m.octets.length) 0
  timer := true

def stopTransactionTimer (d : TransData) : TransData := { d with timer := false }

def restartResponseWaitTimer (d : TransData) : TransData := { d with timer := true }

def delayedFree (d : TransData) : TransData := { d with delayedDelete := true }

/-- The end of `process_pfcp_sess_est_request`, `process_pfcp_sess_del_request` and
`process_mb_req_handler`: the request is sent, then its transaction is started, listed and
linked to the procedure. -/
def sendRequest (m : Message) : State where
  trans := some (startTransactionTimer m)
  listed := true
  pfcpTrans := true
  proc := true
  sent := [m.octets]

def crash (s : State) : State := { s with fault := true }

/-- `pfcp_timer_retry_send` and `restart_response_wait_timer`. -/
def sendAgain (s : State) : State :=
  match s.trans with
  | some d => { s with
      trans := some (restartResponseWaitTimer d)
      callback := none
      sent := s.sent ++ [d.buf.take d.bufLen.toNat] }
  | none => crash s

def cleanupPfcpTrans (s : State) : State :=
  { s with
    listed := false
    trans := s.trans.map fun d => delayedFree (stopTransactionTimer d)
    pfcpTrans := false }

def endProcedure (s : State) : State :=
  { (if s.pfcpTrans then cleanupPfcpTrans s else s) with proc := false }

/-- `proc_initial_attach_failure`, `proc_detach_failure` and `proc_service_request_failure`. -/
def procFailure (s : State) : State :=
  let s := { s with callback := none, failures := s.failures + 1 }
  if s.proc then endProcedure s else crash s

/-- What the three timeout handlers share, up to the comparison with `request_tries`. -/
def retry (requestTries : UInt8) (s : State) : State :=
  match s.trans with
  | some d =>
    if s.proc ∧ s.pfcpTrans then
      let itrCnt := d.itrCnt + 1
      { s with
        trans := some { stopTransactionTimer d with itrCnt := itrCnt }
        callback := some (if itrCnt < requestTries then .again else .giveUp) }
    else crash s
  | none => crash s

def processSessEstRespTimeoutHandler (requestTries : UInt8) (s : State) : State :=
  retry requestTries s

/-- The two assertions find what `retry` tests. -/
def processPfcpSessDelRequestTimeout (requestTries : UInt8) (s : State) : State :=
  if s.proc ∧ s.pfcpTrans then retry requestTries s else crash s

def processPfcpSessModRequestTimeout (requestTries : UInt8) (s : State) : State :=
  retry requestTries s

def Sender.timeoutFunction : Sender → UInt8 → State → State
  | .attach => processSessEstRespTimeoutHandler
  | .detach => processPfcpSessDelRequestTimeout
  | .serviceRequest => processPfcpSessModRequestTimeout

/-- The test of the mark. -/
def transactionRetryCallback (s : State) : State :=
  let s := { s with expiries := s.expiries + 1 }
  match s.trans with
  | some d => if d.delayedDelete then s else { s with callback := some .entered }
  | none => crash s

/-- `handle_pfcp_session_est_response`, `handle_pfcp_session_delete_response` and
`handle_pfcp_session_modification_response`, up to the call of the procedure. -/
def handleResponse (s : State) : State :=
  if s.listed then
    if s.proc then { cleanupPfcpTrans s with handling := true } else crash s
  else s

/-- The procedure gets the response, and ends. -/
def processResponse (s : State) : State :=
  let s := { s with handling := false, responses := s.responses + 1 }
  if s.proc then endProcedure s else crash s

inductive Event
  | expiry
  | callback
  | response
  | handler
  | delayedFree
  deriving DecidableEq

/-- The timer thread takes the next expiry, or goes on in its callback; the main thread takes the
next response, or goes on with the one it has; the transaction is freed. A thread that is not there
does nothing. -/
def next (p : Sender) (requestTries : UInt8) (s : State) : Event → State
  | .expiry => if s.callback = none then transactionRetryCallback s else s
  | .callback => match s.callback with
    | some .entered => p.timeoutFunction requestTries s
    | some .again => sendAgain s
    | some .giveUp => procFailure s
    | none => s
  | .response => if s.handling then s else handleResponse s
  | .handler => if s.handling then processResponse s else s
  | .delayedFree => if s.trans.any (·.delayedDelete) then { s with trans := none } else s

def step (p : Sender) (requestTries : UInt8) (s : State) (e : Event) : Option State :=
  some (next p requestTries s e)

/-- No response is taken while a callback is under way, no callback starts while a response is
handled, and none for a transaction that has been freed. -/
def Apart (s : State) : Event → Prop
  | .response => s.callback = none
  | .expiry => s.handling = false ∧ s.trans.isSome
  | _ => True

instance (s : State) (e : Event) : Decidable (Apart s e) := by
  unfold Apart
  cases e <;> infer_instance

/-- What holds of the request `m` at any time. -/
structure Outcome (tries : UInt8) (m : Message) (s : State) : Prop where
  survives : s.fault = false
  sent_le : s.sent.length ≤ max 1 tries.toNat
  identical : ∀ b ∈ s.sent, b = m.octets
  failures_eq : s.responses = 0 → s.handling = false → s.callback = none →
    s.failures = if max 1 tries.toNat ≤ s.expiries then 1 else 0
  not_both : s.responses + s.failures ≤ 1
  timer : s.failures = 0 → s.responses = 0 → s.handling = false → s.callback = none →
    s.trans.any (·.timer)
  taken : s.failures = 0 → s.responses = 0 → s.handling = false → s.callback = none →
    (handleResponse s).handling = true
  answered : s.handling = true → (processResponse s).responses = 1
  quiet : s.responses = 1 → ∀ p e, Apart s e → (next p tries s e).responses = 1 ∧
    (next p tries s e).failures = 0 ∧ (next p tries s e).sent = s.sent

/-- The request after `n` expiries, each of which has sent it again. -/
def waiting (m : Message) (n : ℕ) : State :=
  { sendRequest m with
    trans := some { startTransactionTimer m with itrCnt := UInt8.ofNat n }
    sent := List.replicate (n + 1) m.octets
    expiries := n }

/-- The callback of the next expiry. -/
def calling (m : Message) (n : ℕ) (c : Callback) : State :=
  { waiting m n with
    trans := some (if c = .entered then { startTransactionTimer m with itrCnt := UInt8.ofNat n }
      else { startTransactionTimer m with itrCnt := UInt8.ofNat (n + 1), timer := false })
    callback := some c
    expiries := n + 1 }

/-- The transaction is marked or freed, and nothing leads to it. -/
structure Closed (tries : UInt8) (m : Message) (s : State) : Prop where
  trans : ∀ d, s.trans = some d → d.delayedDelete = true
  listed : s.listed = false
  pfcpTrans : s.pfcpTrans = false
  callback : s.callback = none
  fault : s.fault = false
  sent : ∃ n < max 1 tries.toNat, s.sent = List.replicate (n + 1) m.octets

/-- The states that the request goes through. -/
inductive Phase (tries : UInt8) (m : Message) : State → Prop
  | waiting (n : ℕ) (hn : n < max 1 tries.toNat) : Phase tries m (waiting m n)
  | entered (n : ℕ) (hn : n < max 1 tries.toNat) : Phase tries m (calling m n .entered)
  | again (n : ℕ) (hn : n + 1 < tries.toNat) : Phase tries m (calling m n .again)
  | giveUp (n : ℕ) (hn : n < max 1 tries.toNat) (hge : tries.toNat ≤ n + 1) :
    Phase tries m (calling m n .giveUp)
  | failed (s : State) (hs : Closed tries m s) (hproc : s.proc = false) (hidle : s.handling = false)
    (hfail : s.failures = 1) (hres : s.responses = 0) (hn : max 1 tries.toNat ≤ s.expiries) :
    Phase tries m s
  | handling (s : State) (hs : Closed tries m s) (hproc : s.proc = true) (hbusy : s.handling = true)
    (hfail : s.failures = 0) (hres : s.responses = 0) : Phase tries m s
  | answered (s : State) (hs : Closed tries m s) (hproc : s.proc = false)
    (hidle : s.handling = false) (hfail : s.failures = 0) (hres : s.responses = 1) : Phase tries m s

theorem take_buf (m : Message) :
    (startTransactionTimer m).buf.take (startTransactionTimer m).bufLen.toNat = m.octets := by
  have hlen : m.octets.length < 65536 := lt_of_le_of_lt m.fits (by decide)
  simp [startTransactionTimer, Nat.mod_eq_of_lt hlen]

theorem ofNat_lt_iff {n : ℕ} {tries : UInt8} (hn : n ≤ max 1 tries.toNat) :
    UInt8.ofNat n < tries ↔ n < tries.toNat := by
  have htries := tries.toNat_lt
  rw [UInt8.lt_iff_toNat_lt, UInt8.toNat_ofNat_of_lt' (by simp only [UInt8.size]; omega)]

section Steps

variable {tries : UInt8} {m : Message} {n : ℕ} {s : State}

/-- The comparison with `request_tries`. -/
theorem phase_retry (p : Sender) (hn : n < max 1 tries.toNat) :
    Phase tries m (p.timeoutFunction tries (calling m n .entered)) := by
  have hcnt : UInt8.ofNat n + 1 = UInt8.ofNat (n + 1) := by simp [UInt8.ofNat_add]
  have hretry : p.timeoutFunction tries (calling m n .entered) =
      calling m n (if UInt8.ofNat (n + 1) < tries then .again else .giveUp) := by
    cases p <;> simp only [Sender.timeoutFunction, processSessEstRespTimeoutHandler,
      processPfcpSessDelRequestTimeout, processPfcpSessModRequestTimeout, retry, calling, waiting,
      sendRequest, stopTransactionTimer, if_true, and_self, hcnt] <;> split <;> rfl
  rw [hretry]
  by_cases hlt : n + 1 < tries.toNat
  · rw [if_pos ((ofNat_lt_iff hn).mpr hlt)]
    exact .again n hlt
  · rw [if_neg ((ofNat_lt_iff hn).not.mpr hlt)]
    exact .giveUp n hn (not_lt.mp hlt)

theorem phase_sendAgain (hn : n + 1 < tries.toNat) :
    Phase tries m (sendAgain (calling m n .again)) := by
  have hsent : List.replicate (n + 1) m.octets ++ [m.octets] =
      List.replicate (n + 1 + 1) m.octets := List.replicate_succ'.symm
  have hsend : sendAgain (calling m n .again) = waiting m (n + 1) := by
    have hbuf : (sendAgain (calling m n .again)).sent = List.replicate (n + 1) m.octets ++
        [(startTransactionTimer m).buf.take (startTransactionTimer m).bufLen.toNat] := rfl
    rw [take_buf, hsent] at hbuf
    exact congrArg (fun sent => { waiting m (n + 1) with sent := sent }) hbuf
  rw [hsend]
  exact .waiting (n + 1) (lt_max_of_lt_right hn)

theorem phase_procFailure (hn : n < max 1 tries.toNat) (hge : tries.toNat ≤ n + 1) :
    Phase tries m (procFailure (calling m n .giveUp)) := by
  refine .failed _ ⟨?_, rfl, rfl, rfl, rfl, n, hn, rfl⟩ rfl rfl rfl rfl (max_le (by simp [procFailure,
    endProcedure, cleanupPfcpTrans, calling, waiting, sendRequest]) hge)
  rintro d hd
  obtain rfl := Option.some.inj hd
  rfl

theorem phase_handleResponse (hn : n < max 1 tries.toNat) :
    Phase tries m (handleResponse (waiting m n)) := by
  refine .handling _ ⟨?_, rfl, rfl, rfl, rfl, n, hn, rfl⟩ rfl rfl rfl rfl
  rintro d hd
  obtain rfl := Option.some.inj hd
  rfl

/-- What a step can do to a transaction that is marked: an expiry, or the freeing. -/
theorem Closed.next (hs : Closed tries m s) (p : Sender) {e : Event} (hapart : Apart s e)
    (he : s.handling = false ∨ e ≠ .handler) :
    Closed tries m (next p tries s e) ∧ ∃ trans k, next p tries s e =
      { s with trans := trans, expiries := s.expiries + k } := by
  have hsame : Closed tries m s ∧ ∃ trans k, s =
      { s with trans := trans, expiries := s.expiries + k } := ⟨hs, s.trans, 0, rfl⟩
  obtain ⟨htrans, hlisted, hpfcp, hcall, hfault, hsent⟩ := hs
  cases e with
  | handler =>
    have hidle : s.handling = false := he.resolve_right (fun h => h rfl)
    simpa [Retransmit.next, hidle] using hsame
  | expiry =>
    obtain ⟨d, hd⟩ := Option.isSome_iff_exists.mp hapart.2
    have hnext : Retransmit.next p tries s .expiry = { s with expiries := s.expiries + 1 } := by
      simp only [Retransmit.next, hcall, transactionRetryCallback, hd, htrans d hd, if_true]
    rw [hnext]
    exact ⟨⟨htrans, hlisted, hpfcp, hcall, hfault, hsent⟩, s.trans, 1, rfl⟩
  | callback => simpa only [Retransmit.next, hcall] using hsame
  | response =>
    have hnext : Retransmit.next p tries s .response = s := by
      simp [Retransmit.next, handleResponse, hlisted]
    rwa [hnext]
  | delayedFree =>
    simp only [Retransmit.next]
    split
    · exact ⟨⟨by simp, hlisted, hpfcp, hcall, hfault, hsent⟩, none, 0, rfl⟩
    · exact hsame

theorem Closed.processResponse (hs : Closed tries m s) (hproc : s.proc = true) :
    Retransmit.processResponse s =
      { s with proc := false, handling := false, responses := s.responses + 1 } := by
  simp [Retransmit.processResponse, endProcedure, hproc, hs.pfcpTrans]

theorem phase_next (p : Sender) {e : Event} (hs : Phase tries m s) (hapart : Apart s e) :
    Phase tries m (next p tries s e) := by
  cases hs with
  | waiting n hn =>
    cases e with
    | expiry => exact .entered n hn
    | response => exact phase_handleResponse hn
    | callback | handler | delayedFree => exact .waiting n hn
  | entered n hn =>
    cases e with
    | callback => exact phase_retry p hn
    | response => cases hapart
    | expiry | handler | delayedFree => exact .entered n hn
  | again n hn =>
    cases e with
    | callback => exact phase_sendAgain hn
    | response => cases hapart
    | expiry | handler | delayedFree => exact .again n hn
  | giveUp n hn hge =>
    cases e with
    | callback => exact phase_procFailure hn hge
    | response => cases hapart
    | expiry | handler | delayedFree => exact .giveUp n hn hge
  | failed _ hs hproc hidle hfail hres hn =>
    obtain ⟨hs', trans, k, hnext⟩ := hs.next p hapart (.inl hidle)
    rw [hnext] at hs' ⊢
    exact .failed _ hs' hproc hidle hfail hres (Nat.le_add_right_of_le hn)
  | handling _ hs hproc hbusy hfail hres =>
    by_cases he : e = .handler
    · subst he
      simp only [next, hbusy, if_true, hs.processResponse hproc, hres]
      exact .answered _ ⟨hs.trans, hs.listed, hs.pfcpTrans, hs.callback, hs.fault, hs.sent⟩ rfl rfl
        hfail rfl
    · obtain ⟨hs', trans, k, hnext⟩ := hs.next p hapart (.inr he)
      rw [hnext] at hs' ⊢
      exact .handling _ hs' hproc hbusy hfail hres
  | answered _ hs hproc hidle hfail hres =>
    obtain ⟨hs', trans, k, hnext⟩ := hs.next p hapart (.inl hidle)
    rw [hnext] at hs' ⊢
    exact .answered _ hs' hproc hidle hfail hres

/-- What does not depend on the phase: how often the request was sent. -/
theorem outcome_of_sent (hn : n < max 1 tries.toNat)
    (hsent : s.sent = List.replicate (n + 1) m.octets) :
    s.sent.length ≤ max 1 tries.toNat ∧ ∀ b ∈ s.sent, b = m.octets := by
  rw [hsent]
  exact ⟨List.length_replicate.trans_le hn, fun b hb => List.eq_of_mem_replicate hb⟩

theorem outcome_of_phase (hs : Phase tries m s) : Outcome tries m s := by
  cases hs with
  | waiting n hn =>
    obtain ⟨hlen, hsame⟩ := outcome_of_sent (s := waiting m n) hn rfl
    refine ⟨rfl, hlen, hsame, fun _ _ _ => ?_, Nat.zero_le 1, fun _ _ _ _ => rfl,
      fun _ _ _ _ => rfl, fun h => (Bool.false_ne_true h).elim, fun h => (Nat.zero_ne_one h).elim⟩
    exact (if_neg (not_le.mpr hn)).symm
  | entered n hn | again n hn | giveUp n hn =>
    have hlt : n < max 1 tries.toNat := by omega
    obtain ⟨hlen, hsame⟩ := outcome_of_sent (s := calling m n _) hlt rfl
    exact ⟨rfl, hlen, hsame, fun _ _ h => (Option.some_ne_none _ h).elim, Nat.zero_le 1,
      fun _ _ _ h => (Option.some_ne_none _ h).elim, fun _ _ _ h => (Option.some_ne_none _ h).elim,
      fun h => (Bool.false_ne_true h).elim, fun h => (Nat.zero_ne_one h).elim⟩
  | failed _ hs hproc hidle hfail hres hge =>
    obtain ⟨n, hn, hsent⟩ := hs.sent
    obtain ⟨hlen, hsame⟩ := outcome_of_sent hn hsent
    refine ⟨hs.fault, hlen, hsame, fun _ _ _ => ?_, ?_, ?_, ?_, ?_, ?_⟩
    · rw [if_pos hge, hfail]
    all_goals simp_all
  | handling _ hs hproc hbusy hfail hres =>
    obtain ⟨n, hn, hsent⟩ := hs.sent
    obtain ⟨hlen, hsame⟩ := outcome_of_sent hn hsent
    refine ⟨hs.fault, hlen, hsame, ?_, ?_, ?_, ?_, fun _ => ?_, ?_⟩
    case refine_5 => rw [hs.processResponse hproc, hres]
    all_goals simp_all
  | answered _ hs hproc hidle hfail hres =>
    obtain ⟨n, hn, hsent⟩ := hs.sent
    obtain ⟨hlen, hsame⟩ := outcome_of_sent hn hsent
    refine ⟨hs.fault, hlen, hsame, ?_, ?_, ?_, ?_, ?_, fun _ p e hapart => ?_⟩
    case refine_6 =>
      obtain ⟨-, trans, k, hnext⟩ := hs.next p hapart (.inl hidle)
      rw [hnext]
      exact ⟨hres, hfail, rfl⟩
    all_goals simp_all

end Steps

/-- **A session request is sent at most `max 1 request_tries` times, always with the same octets,
fails exactly once if no response comes, and never behind a response**, in every run in which the
timer thread and the main thread do not get in each other's way. -/
theorem outcome_of_apart (p : Sender) (tries : UInt8) (m : Message) (es : List Event)
    (h : Guarded (step p tries) Apart (sendRequest m) es) :
    ∀ s ∈ trace (step p tries) (sendRequest m) es, Outcome tries m s := by
  have hstart : Phase tries m (sendRequest m) := .waiting 0 (lt_max_of_lt_left Nat.zero_lt_one)
  have hphase := trace_invariant (I := Phase tries m)
    (fun s e t hs hapart ht => Option.some.inj ht ▸ phase_next p hs hapart) hstart h
  exact fun s hs => outcome_of_phase (hphase s hs)

namespace Demo

def oneOctet : Message := ⟨[7], by decide⟩

/-- The first expiry sends the request again, and then the response comes. -/
def answeredLate : List Event := [.expiry, .callback, .callback, .response, .handler, .expiry]

/-- The response is handled when the callback has found that the request has failed. -/
def race : List Event := [.expiry, .callback, .response, .handler, .callback]

end Demo

/-- The request is sent twice, and the expiry behind the response changes nothing. -/
theorem outcome_answeredLate :
    Guarded (step .attach 2) Apart (sendRequest Demo.oneOctet) Demo.answeredLate ∧
      ∀ s ∈ trace (step .attach 2) (sendRequest Demo.oneOctet) Demo.answeredLate,
        Outcome 2 Demo.oneOctet s := by
  have hapart : Guarded (step .attach 2) Apart (sendRequest Demo.oneOctet) Demo.answeredLate := by
    decide
  exact ⟨hapart, outcome_of_apart .attach 2 Demo.oneOctet Demo.answeredLate hapart⟩

/-- The attach fails although its response has been processed. -/
theorem not_outcome_race : ∃ s ∈ trace (step .attach 1) (sendRequest Demo.oneOctet) Demo.race,
      s.responses = 1 ∧ s.failures = 1 ∧ ¬ Outcome 1 Demo.oneOctet s := by
  have hboth : ∀ s : State, s.responses = 1 → s.failures = 1 → ¬ Outcome 1 Demo.oneOctet s := by
    intro s hres hfail h
    have := h.not_both
    omega
  exact ⟨_, mem_trace_of_final rfl, rfl, rfl, hboth _ rfl rfl⟩

end Spgw.Trans.Retransmit
