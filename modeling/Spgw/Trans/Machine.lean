/-
# Transactions and their tables

A `transData_t` is one request that waits for its response: a request of a peer that the gateway has
not answered yet, or a request that the gateway has sent.
-/

import Spgw.Lib.Index
import Spgw.Session.State

namespace Spgw.Trans

open Function

open Session (UePtr deref deref_some deref_bind_eq_ok assert assert_bind_eq_ok)

structure SeqOctets where
  o1 : Fin 256
  o2 : Fin 256
  o3 : Fin 256

namespace SeqOctets

local instance neZero_octet : NeZero 256 := ⟨by decide⟩

/-- `encode_bits` of 24 bits: the most significant octet comes first. -/
def encodeBits (n : ℕ) : SeqOctets :=
  ⟨Fin.ofNat 256 (n / 65536), Fin.ofNat 256 (n / 256), Fin.ofNat 256 n⟩

/-- `decode_bits` of 24 bits. -/
def decodeBits (o : SeqOctets) : ℕ := 65536 * o.o1 + 256 * o.o2 + o.o3

/-- A number stored through the bit field `seq` of `gtpv2c_header_t`: on a little-endian
machine its least significant octet comes first. -/
def ofBitField (n : ℕ) : SeqOctets :=
  ⟨Fin.ofNat 256 n, Fin.ofNat 256 (n / 256), Fin.ofNat 256 (n / 65536)⟩

/-- The bit field `seq` of a message in a buffer. -/
def bitField (o : SeqOctets) : ℕ := o.o1 + 256 * o.o2 + 65536 * o.o3

end SeqOctets

inductive Kind
  | gtp
  | pfcp
  | gx
  deriving DecidableEq

inductive Node
  | mme
  | upf

def Node.kind : Node → Kind
  | .mme => .gtp
  | .upf => .pfcp

inductive Request
  | createBearer
  | deleteBearer
  | downlinkDataNotification
  | pfcp
  deriving DecidableEq

namespace Request

def kind : Request → Kind
  | .createBearer | .deleteBearer | .downlinkDataNotification => .gtp
  | .pfcp => .pfcp

/-- The octets that are sent for the number `n`. -/
def wire (n : ℕ) : Request → SeqOctets
  | .downlinkDataNotification => .ofBitField n
  | .createBearer | .deleteBearer | .pfcp => .encodeBits n

/-- The `sequence` of the transaction. -/
def transSeq (n : ℕ) (r : Request) : ℕ :=
  match r with
  | .createBearer => (r.wire n).bitField
  | .deleteBearer | .downlinkDataNotification | .pfcp => n

def answerSeq (o : SeqOctets) : Request → ℕ
  | .createBearer | .downlinkDataNotification => o.bitField
  | .deleteBearer | .pfcp => o.decodeBits

end Request

/-- `struct sockaddr_in`. -/
structure SockAddr where
  addr : ℕ
  port : ℕ
  deriving DecidableEq

structure TransKey where
  msgSeq : ℕ
  src : SockAddr
  deriving DecidableEq

/-- `my_sock`. -/
structure Socks where
  s11 : SockAddr
  pfcp : SockAddr

def Socks.own (my : Socks) : Kind → SockAddr
  | .gtp => my.s11
  | .pfcp => my.pfcp
  | .gx => ⟨0, 0⟩

abbrev TransId := ℕ

/-- Where a transaction comes from: a message of a peer, or a message of the gateway with
the number that was drawn for it (`SELF_INITIATED`). -/
inductive Origin
  | received (node : Node)
  | sent (request : Request) (n : ℕ)
  | ccrInitial (n : ℕ)

namespace Origin

def kind : Origin → Kind
  | .received node => node.kind
  | .sent r _ => r.kind
  | .ccrInitial _ => .gx

def selfInitiated : Origin → Bool
  | .received _ => false
  | .sent _ _ | .ccrInitial _ => true

end Origin

structure TransData where
  sequence : ℕ
  peer : SockAddr
  procContext : Option ProcId
  origin : Origin
  stopped : Bool := false
  delayedDelete : Bool := false

def TransData.key (my : Socks) (kind : Kind) (d : TransData) : TransKey :=
  match kind with
  | .gtp | .pfcp => ⟨d.sequence, if d.origin.selfInitiated then my.own kind else d.peer⟩
  | .gx => ⟨d.sequence, my.own .gx⟩

/-- The pointers of a `proc_context_t` to its transactions and its UE context. -/
structure ProcContext where
  trans : Kind → Option TransId := fun _ => none
  ueContext : Option UePtr := none

/-- The transactions, the procedures, the tables, and the next numbers of `get_gtp_sequence`,
`generate_seq_no` and `gx_send`. -/
structure State where
  trans : Heap TransData := {}
  procs : Heap ProcContext := {}
  tables : Kind → Table TransKey := fun _ _ => none
  sequence : Kind → ℕ := fun _ => 1

abbrev Result := Except Fault State

namespace State

/-- `delete_gtp_transaction`, `delete_pfcp_transaction`. -/
def deleteTransaction (s : State) (kind : Kind) (key : TransKey) : State :=
  { s with tables := update s.tables kind ((s.tables kind).erase key) }

def stopTransactionTimer (s : State) (t : TransId) : State :=
  { s with trans := s.trans.modify t fun d => { d with stopped := true } }

def delayedFree (s : State) (t : TransId) : State :=
  { s with trans := s.trans.modify t fun d => { d with delayedDelete := true } }

def setTrans (s : State) (p : ProcId) (kind : Kind) (t : Option TransId) : State :=
  { s with procs := s.procs.modify p fun c => { c with trans := update c.trans kind t } }

/-- A new transaction, in its table and with its procedure. -/
def openTransaction (s : State) (kind : Kind) (key : TransKey) (p : ProcId) (d : TransData) :
    State :=
  { s with
    trans := s.trans.alloc d
    tables := update s.tables kind ((s.tables kind).insertNew key s.trans.next) }.setTrans
    p kind (some s.trans.next)

/-- A number is drawn; the counters are `uint32_t`. -/
def useSequence (s : State) (kind : Kind) : State :=
  { s with sequence := update s.sequence kind ((s.sequence kind + 1) % 2 ^ 32) }

def allocProc (s : State) (ueContext : Option UePtr) : State :=
  { s with procs := s.procs.alloc { ueContext } }

def handleRequest (s : State) (node : Node) (peer : SockAddr) (seq : ℕ)
    (ueContext : Option UePtr) : State :=
  if (s.tables node.kind ⟨seq, peer⟩).isSome then s
  else
    (s.allocProc ueContext).openTransaction node.kind ⟨seq, peer⟩ s.procs.next
      { sequence := seq, peer, procContext := some s.procs.next, origin := .received node }

/-- A request of the gateway for the procedure `p`. -/
def send (my : Socks) (s : State) (r : Request) (p : ProcId) (peer : SockAddr) : Result := do
  let _ ← deref (s.procs.get p)
  let n := s.sequence r.kind
  return (s.useSequence r.kind).openTransaction r.kind ⟨r.transSeq n, my.own r.kind⟩ p
    { sequence := r.transSeq n, peer, procContext := some p, origin := .sent r n }

/-- `gen_ccr_request`. -/
def sendCcrInitial (my : Socks) (s : State) (p : ProcId) : Result := do
  let _ ← deref (s.procs.get p)
  let n := s.sequence .gx
  return (s.useSequence .gx).openTransaction .gx ⟨n, my.own .gx⟩ p
    { sequence := n, peer := ⟨0, 0⟩, procContext := some p, origin := .ccrInitial n }

/-- A response on S11 with a sequence number as its handler reads it. -/
def gtpAnswer (my : Socks) (s : State) (r : Request) (seq : ℕ) : Result :=
  match s.tables .gtp ⟨seq, my.s11⟩ with
  | none => if r = .createBearer then throw .assertion else pure s
  | some t => pure ((s.deleteTransaction .gtp ⟨seq, my.s11⟩).stopTransactionTimer t)

def gtpResponse (my : Socks) (s : State) (r : Request) (o : SeqOctets) : Result :=
  s.gtpAnswer my r (r.answerSeq o)

def pfcpAnswer (my : Socks) (s : State) (seq : ℕ) : Result :=
  match s.tables .pfcp ⟨seq, my.pfcp⟩ with
  | none => pure s
  | some t => do
    let d ← deref (s.trans.get t)
    let p ← deref d.procContext
    let _ ← deref (s.procs.get p)
    return (((s.deleteTransaction .pfcp ⟨seq, my.pfcp⟩).setTrans p .pfcp
      none).stopTransactionTimer t).delayedFree t

def pfcpResponse (my : Socks) (s : State) (o : SeqOctets) : Result :=
  s.pfcpAnswer my (Request.pfcp.answerSeq o)

/-- `handle_cca_initial_msg` for the first procedure of the UE context: the transaction is
marked for delayed delete, and stays in its table. -/
def ccaInitial (s : State) (p : ProcId) : Result := do
  let c ← deref (s.procs.get p)
  match c.trans .gx with
  | none => return s
  | some t => return ((s.setTrans p .gx none).stopTransactionTimer t).delayedFree t

/-- The end of `cs_error_response`, for a message with its peer, its sequence number and its
procedure. -/
def csErrorResponse (s : State) (peer : SockAddr) (seq : ℕ) (msgProc : Option ProcId) : Result := do
  assert (peer.port ≠ 0)
  match s.tables .gtp ⟨seq, peer⟩ with
  | none => return s
  | some t =>
    let s := s.deleteTransaction .gtp ⟨seq, peer⟩
    let d ← deref (s.trans.get t)
    match msgProc with
    | none => return s.delayedFree t
    | some p =>
      assert (d.procContext = some p)
      let _ ← deref (s.procs.get p)
      return (s.setTrans p .gtp none).delayedFree t

def unlinkTransaction (s : State) (kind : Kind) (key : TransKey) (t : TransId) (d : TransData) :
    Result := do
  assert (s.tables kind key = none ∨ s.tables kind key = some t)
  let s := ((s.deleteTransaction kind key).stopTransactionTimer t).delayedFree t
  match d.procContext with
  | none => return s
  | some p =>
    let _ ← deref (s.procs.get p)
    return s.setTrans p kind none

def cleanupGtpcTrans (my : Socks) (s : State) (t : TransId) : Result := do
  let d ← deref (s.trans.get t)
  if d.origin.selfInitiated then
    s.unlinkTransaction .gtp ⟨d.sequence, my.s11⟩ t d
  else
    let p ← deref d.procContext
    let c ← deref (s.procs.get p)
    let current ← deref (c.trans .gtp)
    let d' ← deref (s.trans.get current)
    s.unlinkTransaction .gtp ⟨d.sequence, d'.peer⟩ t d

def cleanupPfcpTrans (my : Socks) (s : State) (t : TransId) : Result := do
  let d ← deref (s.trans.get t)
  s.unlinkTransaction .pfcp (d.key my .pfcp) t d

def cleanupGxTrans (my : Socks) (s : State) (t : TransId) : Result := do
  let d ← deref (s.trans.get t)
  s.unlinkTransaction .gx (d.key my .gx) t d

def cleanupTrans (my : Socks) : Kind → State → TransId → Result
  | .gtp => cleanupGtpcTrans my
  | .pfcp => cleanupPfcpTrans my
  | .gx => cleanupGxTrans my

end State

/-- The calls of cleanup functions. -/
inductive CleanupCall
  | gtpc
  | pfcp
  | gx
  | gxAsPfcp

namespace CleanupCall

def slot : CleanupCall → Kind
  | .gtpc => .gtp
  | .pfcp => .pfcp
  | .gx | .gxAsPfcp => .gx

def table : CleanupCall → Kind
  | .gtpc => .gtp
  | .pfcp | .gxAsPfcp => .pfcp
  | .gx => .gx

end CleanupCall

/-- A cleanup function is called for a pointer of a procedure that is not `NULL`. -/
def State.cleanupSlot (my : Socks) (s : State) (call : CleanupCall) (p : ProcId) : Result := do
  let c ← deref (s.procs.get p)
  match c.trans call.slot with
  | none => return s
  | some t => cleanupTrans my call.table s t

section Fields

variable {s : State} {kind k : Kind} {key l : TransKey} {p q : ProcId} {t : TransId}
  {o : Option TransId} {c : ProcContext} {d : TransData}

theorem tables_deleteTransaction (k : Kind) : (s.deleteTransaction kind key).tables k =
    if k = kind then (s.tables k).erase key else s.tables k := by
  unfold State.deleteTransaction
  split_ifs with hk
  · subst hk
    exact update_self ..
  · exact update_of_ne hk ..

@[grind =]
theorem table_deleteTransaction : (s.deleteTransaction kind key).tables k l =
    if k = kind ∧ l = key then none else s.tables k l := by
  rw [tables_deleteTransaction]
  grind

theorem tables_openTransaction (k : Kind) : (s.openTransaction kind key p d).tables k =
    if k = kind then (s.tables k).insertNew key s.trans.next else s.tables k := by
  change update s.tables kind _ k = _
  split_ifs with hk
  · subst hk
    exact update_self ..
  · exact update_of_ne hk ..

@[grind =]
theorem table_openTransaction : (s.openTransaction kind key p d).tables k l =
    if k = kind ∧ l = key ∧ s.tables k l = none then some s.trans.next else s.tables k l := by
  rw [tables_openTransaction]
  grind

@[grind =]
theorem trans_openTransaction : (s.openTransaction kind key p d).trans.get t =
    if t = s.trans.next then some d else s.trans.get t := by
  change (s.trans.alloc d).get t = _
  rw [Heap.get_alloc]

@[grind →]
theorem trans_setTrans (hq : (s.setTrans p kind o).procs.get q = some c) (ht : c.trans k = some t) :
    (∃ c', s.procs.get q = some c' ∧ c'.trans k = some t) ∨ (q = p ∧ k = kind ∧ o = some t) := by
  change (s.procs.modify p _).get q = some c at hq
  rw [Heap.get_modify] at hq
  split_ifs at hq with hqp
  · obtain ⟨c', hc', rfl⟩ := Option.map_eq_some_iff.mp hq
    change update c'.trans kind o k = some t at ht
    by_cases hk : k = kind
    · subst hk
      rw [update_self] at ht
      exact .inr ⟨hqp, rfl, ht⟩
    · rw [update_of_ne hk] at ht
      exact .inl ⟨c', hc', ht⟩
  · exact .inl ⟨c, hq, ht⟩

@[grind →]
theorem trans_openTransaction_slot
    (hq : (s.openTransaction kind key p d).procs.get q = some c) (ht : c.trans k = some t) :
    (∃ c', s.procs.get q = some c' ∧ c'.trans k = some t) ∨
      (q = p ∧ k = kind ∧ t = s.trans.next) := by
  rcases trans_setTrans hq ht with h | ⟨hq', hk, ho⟩
  · exact .inl h
  · exact .inr ⟨hq', hk, (Option.some.inj ho).symm⟩

@[grind →]
theorem trans_allocProc {ueContext : Option UePtr}
    (hq : (s.allocProc ueContext).procs.get q = some c) (ht : c.trans k = some t) :
    ∃ c', s.procs.get q = some c' ∧ c'.trans k = some t := by
  change (s.procs.alloc _).get q = some c at hq
  rw [Heap.get_alloc] at hq
  split_ifs at hq
  · cases hq
    cases ht
  · exact ⟨c, hq, ht⟩

theorem cleanupTrans_eq {my : Socks} (hc : s.procs.get p = some c) (ht : c.trans kind = some t)
    (hd : s.trans.get t = some d) (hproc : d.procContext = some p) (hkind : d.origin.kind = kind) :
    State.cleanupTrans my kind s t = s.unlinkTransaction kind (d.key my kind) t d := by
  cases kind with
  | gtp =>
    simp only [State.cleanupTrans, State.cleanupGtpcTrans, hd, deref_some, pure_bind]
    by_cases hself : d.origin.selfInitiated = true
    · simp only [hself, if_true, TransData.key]
      rfl
    · simp only [Bool.not_eq_true] at hself
      simp only [hself, Bool.false_eq_true, if_false, hproc, hc, ht, hd, deref_some, pure_bind,
        TransData.key]
  | pfcp => simp only [State.cleanupTrans, State.cleanupPfcpTrans, hd, deref_some, pure_bind]
  | gx => simp only [State.cleanupTrans, State.cleanupGxTrans, hd, deref_some, pure_bind]

end Fields

def FlagsOnly (f : TransData → TransData) : Prop :=
  ∀ d, (f d).sequence = d.sequence ∧ (f d).peer = d.peer ∧ (f d).procContext = d.procContext ∧
    (f d).origin = d.origin

theorem FlagsOnly.key {f : TransData → TransData} (hf : FlagsOnly f) (my : Socks) (kind : Kind)
    (d : TransData) : (f d).key my kind = d.key my kind := by
  obtain ⟨hseq, hpeer, -, horigin⟩ := hf d
  simp only [TransData.key, hseq, hpeer, horigin]

theorem flagsOnly_stop : FlagsOnly fun d => { d with stopped := true } :=
  fun _ => ⟨rfl, rfl, rfl, rfl⟩

theorem flagsOnly_mark : FlagsOnly fun d => { d with delayedDelete := true } :=
  fun _ => ⟨rfl, rfl, rfl, rfl⟩

section Outcomes

variable {my : Socks} {s s' : State} {r : Request} {o : SeqOctets} {p : ProcId}

theorem send_eq {peer : SockAddr} (h : s.send my r p peer = .ok s') :
    s' = (s.useSequence r.kind).openTransaction r.kind
      ⟨r.transSeq (s.sequence r.kind), my.own r.kind⟩ p
      { sequence := r.transSeq (s.sequence r.kind), peer, procContext := some p,
        origin := .sent r (s.sequence r.kind) } := by
  obtain ⟨c, -, h⟩ := deref_bind_eq_ok.mp h
  exact (Except.ok.inj h).symm

theorem sendCcrInitial_eq (h : s.sendCcrInitial my p = .ok s') :
    s' = (s.useSequence .gx).openTransaction .gx ⟨s.sequence .gx, my.own .gx⟩ p
      { sequence := s.sequence .gx, peer := ⟨0, 0⟩, procContext := some p,
        origin := .ccrInitial (s.sequence .gx) } := by
  obtain ⟨c, -, h⟩ := deref_bind_eq_ok.mp h
  exact (Except.ok.inj h).symm

theorem gtpResponse_cases (h : s.gtpResponse my r o = .ok s') :
    s' = s ∨ ∃ t, s.tables .gtp ⟨r.answerSeq o, my.s11⟩ = some t ∧
      s' = (s.deleteTransaction .gtp ⟨r.answerSeq o, my.s11⟩).stopTransactionTimer t := by
  unfold State.gtpResponse State.gtpAnswer at h
  cases ht : s.tables .gtp ⟨r.answerSeq o, my.s11⟩ <;> simp only [ht] at h
  · split_ifs at h
    exact .inl (Except.ok.inj h).symm
  · exact .inr ⟨_, rfl, (Except.ok.inj h).symm⟩

theorem pfcpResponse_cases (h : s.pfcpResponse my o = .ok s') :
    s' = s ∨ ∃ t p, s.tables .pfcp ⟨Request.pfcp.answerSeq o, my.pfcp⟩ = some t ∧
      s' = (((s.deleteTransaction .pfcp ⟨Request.pfcp.answerSeq o, my.pfcp⟩).setTrans p .pfcp
        none).stopTransactionTimer t).delayedFree t := by
  unfold State.pfcpResponse State.pfcpAnswer at h
  cases ht : s.tables .pfcp ⟨Request.pfcp.answerSeq o, my.pfcp⟩ <;> simp only [ht] at h
  · exact .inl (Except.ok.inj h).symm
  · obtain ⟨d, -, h⟩ := deref_bind_eq_ok.mp h
    obtain ⟨p, -, h⟩ := deref_bind_eq_ok.mp h
    obtain ⟨c, -, h⟩ := deref_bind_eq_ok.mp h
    exact .inr ⟨_, p, rfl, (Except.ok.inj h).symm⟩

theorem csErrorResponse_cases {peer : SockAddr} {seq : ℕ} {msgProc : Option ProcId}
    (h : s.csErrorResponse peer seq msgProc = .ok s') :
    s' = s ∧ s.tables .gtp ⟨seq, peer⟩ = none ∨ ∃ t, s.tables .gtp ⟨seq, peer⟩ = some t ∧
      (s' = (s.deleteTransaction .gtp ⟨seq, peer⟩).delayedFree t ∨
        ∃ p, s' = ((s.deleteTransaction .gtp ⟨seq, peer⟩).setTrans p .gtp none).delayedFree t) := by
  obtain ⟨-, h⟩ := assert_bind_eq_ok.mp h
  cases ht : s.tables .gtp ⟨seq, peer⟩ <;> simp only [ht] at h
  · exact .inl ⟨(Except.ok.inj h).symm, rfl⟩
  · obtain ⟨d, -, h⟩ := deref_bind_eq_ok.mp h
    refine .inr ⟨_, rfl, ?_⟩
    cases msgProc with
    | none => exact .inl (Except.ok.inj h).symm
    | some p =>
      obtain ⟨-, h⟩ := assert_bind_eq_ok.mp h
      obtain ⟨c, -, h⟩ := deref_bind_eq_ok.mp h
      exact .inr ⟨p, (Except.ok.inj h).symm⟩

end Outcomes

inductive Op
  | allocProc (ueContext : Option UePtr)
  | handleRequest (node : Node) (peer : SockAddr) (seq : ℕ) (ueContext : Option UePtr)
  | send (r : Request) (p : ProcId) (peer : SockAddr)
  | sendCcrInitial (p : ProcId)
  /-- A number for a message without a transaction: a heartbeat, the session deletion of
  `process_error_occured_handler_new`, a CCR-T, a Create Bearer Request whose session is not
  found. -/
  | useSequence (kind : Kind)
  | gtpResponse (r : Request) (o : SeqOctets)
  | pfcpResponse (o : SeqOctets)
  | ccaInitial (p : ProcId)
  | csErrorResponse (peer : SockAddr) (seq : ℕ) (msgProc : Option ProcId)
  | cleanup (call : CleanupCall) (p : ProcId)
  | freeProc (p : ProcId)

def step (my : Socks) (s : State) : Op → Result
  | .allocProc ueContext => pure (s.allocProc ueContext)
  | .handleRequest node peer seq ueContext => pure (s.handleRequest node peer seq ueContext)
  | .send r p peer => s.send my r p peer
  | .sendCcrInitial p => s.sendCcrInitial my p
  | .useSequence kind => pure (s.useSequence kind)
  | .gtpResponse r o => s.gtpResponse my r o
  | .pfcpResponse o => s.pfcpResponse my o
  | .ccaInitial p => s.ccaInitial p
  | .csErrorResponse peer seq msgProc => s.csErrorResponse peer seq msgProc
  | .cleanup call p => s.cleanupSlot my call p
  | .freeProc p => pure { s with procs := s.procs.free p }

inductive Event
  | single (op : Op)
  /-- `process_release_access_bearer_request`: one request for each bearer of the UE. -/
  | releaseAccessBearers (p : ProcId) (peer : SockAddr) (bearers : ℕ)
  /-- `end_procedure`. -/
  | endProcedure (p : ProcId)
  /-- `end_upf_procedure`. -/
  | endUpfProcedure (p : ProcId)
  /-- `process_error_occured_handler_new`, for the procedures of the UE. -/
  | errorOccured (procs : List ProcId)
  /-- `cleanup_ue_context`, for the procedures of the UE. -/
  | cleanupUeContext (procs : List ProcId)

def Event.ops : Event → List Op
  | .single op => [op]
  | .releaseAccessBearers p peer bearers => List.replicate bearers (.send .pfcp p peer)
  | .endProcedure p => [.cleanup .gtpc p, .cleanup .pfcp p, .cleanup .gx p, .freeProc p]
  | .endUpfProcedure p => [.cleanup .pfcp p, .freeProc p]
  | .errorOccured procs => procs.flatMap fun p =>
    [.cleanup .gtpc p, .cleanup .pfcp p, .cleanup .gx p, .freeProc p]
  | .cleanupUeContext procs => procs.flatMap fun p =>
    [.cleanup .gtpc p, .cleanup .pfcp p, .cleanup .gxAsPfcp p, .freeProc p]

/-- A step of a run; `none` is the end of the process. -/
def next (my : Socks) (s : State) (op : Op) : Option State := (step my s op).toOption

theorem next_eq_some {my : Socks} {s t : State} {op : Op} :
    next my s op = some t ↔ step my s op = .ok t := by
  unfold next
  cases step my s op <;> simp [Except.toOption]

end Spgw.Trans
