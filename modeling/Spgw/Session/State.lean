/-
# Sessions: the state of attaches and detaches

What an attach and a detach of the SAEGWC role read and write: the address pools, the UE contexts
and PDN connections with their tables (`cpplib/ue_tables.h`, `cpplib/pdn_tables.h`), the UPF
contexts, the procedures with their messages (`msg_info`), and the GTP transactions.
-/

import Spgw.IpPool
import Spgw.Lib.Heap
import Spgw.Lib.Run
import Spgw.Proc.Context

namespace Spgw

open Function

inductive Fault
  | assertion
  | badPointer
  | endless
  deriving DecidableEq

namespace Session

abbrev UePtr := ℕ
abbrev PdnPtr := ℕ

abbrev Service := ℕ

/-- `struct sockaddr_in` of a GTP peer. -/
structure Peer where
  addr : Ipv4
  port : UInt16
  deriving DecidableEq

structure TransKey where
  peer : Peer
  seq : ℕ
  deriving DecidableEq

/-- `pdn_connection_t`. -/
structure Pdn where
  context : Option UePtr := none
  defaultBearerId : ℕ := 0
  seid : ℕ := 0
  ipv4 : Ipv4 := 0
  staticAddr : Bool := false
  allocControl : Bool := false
  allocUpf : Bool := false

structure UeContext where
  imsi : ℕ
  s11SgwGtpcTeid : ℕ
  pdn : Option PdnPtr := none
  upfContext : Option Service := none
  pendingSubProcs : List ProcId := []

inductive UpfState
  | idle
  | assocReqSnt
  | assocRespRcvd
  deriving DecidableEq

/-- `upf_context_t`. -/
structure Upf where
  addr : Ipv4
  globalAddress : Bool
  state : UpfState := .idle
  ueip : Bool := false
  proc : Bool := false
  pendingSubProcs : List ProcId := []

/-- The fields of a Create Session Request that are read here. -/
structure CreateSessReq where
  seq : ℕ
  imsiDigits : ℕ
  imsiLen : ℕ
  imsi64 : ℕ
  apn : List ℕ
  plmn : ℕ
  tac : ℕ
  paaPdnType : ℕ
  paaAddr : Ipv4
  ebi : ℕ
  indicationUimsi : Bool
  indicationOi : Bool
  bearerContextLen : ℕ
  senderFteidLen : ℕ
  apnAmbrLen : ℕ
  pdnTypeLen : ℕ
  pdnType : ℕ
  bearerQosLen : ℕ
  ratTypeLen : ℕ

structure DelSessReq where
  seq : ℕ
  teid : ℕ
  lbiLen : ℕ
  lbi : ℕ
  indicationSi : Bool

/-- `msg_type` of the messages a procedure can hold. -/
inductive MsgType
  | createSessionReq
  | deleteSessionReq
  | pfcpSessionEstablishmentResponse
  | pfcpSessionDeletionResponse
  | gxCca
  | gxCcaiFailed
  | pfcpAssocSetupSuccess
  | pfcpAssocSetupFailed
  | reserved

/-- The decoded message inside `msg_info_t`. -/
inductive RxMsg
  | csr (csr : CreateSessReq)
  | dsr (dsr : DelSessReq)
  | other

structure MsgInfo where
  msgType : MsgType
  peerAddr : Peer := ⟨0, 0⟩
  pdnContext : Option PdnPtr := none
  rxMsg : RxMsg := .other

/-- `proc_context_t` of an attach or a detach. -/
structure Procedure where
  procType : ProcType
  request : TransKey
  running : Bool := false
  ueContext : Option UePtr := none
  pdnContext : Option PdnPtr := none
  gtpcTrans : Option TransKey := none
  pfcpTrans : Option ℕ := none
  gxTrans : Bool := false
  msgInfo : MsgInfo

structure CsRsp where
  proc : Option ProcId
  peer : Peer
  seq : ℕ
  cause : ℕ

structure SubConfig where
  userPlaneService : Service
  globalAddress : Bool

/-- The configuration: the Gx switch, the number of transmissions of a PFCP
request, `match_apn_profile` and `match_sub_selection`. -/
structure Config where
  gxEnabled : Bool
  requestTries : ℕ
  matchApnProfile : List ℕ → Bool
  matchSubSelection : CreateSessReq → Option SubConfig

abbrev Table (κ α : Type) := κ → Option α

/-- `unordered_map::insert` keeps an entry that is there. -/
def Table.insert {κ α : Type} [DecidableEq κ] (t : Table κ α) (k : κ) (a : α) : Table κ α :=
  if (t k).isSome then t else update t k (some a)

/-- `unordered_map::erase`. -/
def Table.erase {κ α : Type} [DecidableEq κ] (t : Table κ α) (k : κ) : Table κ α := update t k none

section Table

variable {κ α : Type} [DecidableEq κ] {t : Table κ α} {k : κ}

theorem Table.insert_of_none (h : t k = none) (a : α) : t.insert k a = update t k (some a) := by
  simp [Table.insert, h]

@[grind =]
theorem Table.erase_apply (j : κ) : t.erase k j = if j = k then none else t j := update_apply ..

end Table

/-- The pools, the UPFs, the heaps with the tables into them, and the responses sent so far. -/
structure State where
  dynamicPool : List Ipv4
  staticPool : StaticPool
  ues : Heap UeContext := {}
  pdns : Heap Pdn := {}
  procs : Heap Procedure := {}
  ueByImsi : Table ℕ UePtr := fun _ => none
  ueByTeid : Table ℕ UePtr := fun _ => none
  pdnByTeid : Table ℕ PdnPtr := fun _ => none
  upfs : Table Service Upf := fun _ => none
  gtpTrans : Table TransKey ProcId := fun _ => none
  teidOffset : ℕ := 0
  csRsps : List CsRsp := []
  ended : List (ProcId × TransKey) := []

abbrev Result := Except Fault State

def deref {α : Type} (o : Option α) : Except Fault α :=
  match o with
  | some a => .ok a
  | none => .error .badPointer

theorem deref_some {α : Type} (a : α) : deref (some a) = pure a := rfl

/-- The record behind a pointer that is asserted not to be `NULL`. -/
def assertSome {α : Type} (o : Option α) : Except Fault α :=
  match o with
  | some a => .ok a
  | none => .error .assertion

def assert (p : Prop) [Decidable p] : Except Fault Unit :=
  if p then .ok () else .error .assertion

section Inversion

variable {α β : Type} {o : Option α} {P : Prop} [Decidable P] {b : β}

@[grind =]
theorem deref_bind_eq_ok {f : α → Except Fault β} :
    (deref o >>= f) = .ok b ↔ ∃ a, o = some a ∧ f a = .ok b := by
  cases o with
  | none =>
    constructor
    · intro h
      cases h
    · rintro ⟨a, h, -⟩
      cases h
  | some a => simp [deref_some]

@[grind =]
theorem assert_bind_eq_ok {f : Unit → Except Fault β} :
    (assert P >>= f) = .ok b ↔ P ∧ f () = .ok b := by
  unfold assert
  split_ifs with hP
  · exact ⟨fun h => ⟨hP, h⟩, And.right⟩
  · constructor
    · intro h
      cases h
    · rintro ⟨h, -⟩
      exact absurd h hP

end Inversion

section Spec

open Machine

variable {α : Type} {E : Fault → Prop} {o : Option α} {P : Prop} [Decidable P]

theorem sat_deref (h : o = none → E .badPointer) : Sat (deref o) (o = some ·) E := by
  cases o with
  | none => exact h rfl
  | some a => rfl

theorem sat_deref_bind {β : Type} {f : α → Except Fault β} {Q : β → Prop}
    (h : ∀ a, o = some a → Sat (f a) Q AnyFault) : Sat (deref o >>= f) Q AnyFault :=
  (sat_deref fun _ => trivial).bind h

theorem sat_assertSome (h : o = none → E .assertion) : Sat (assertSome o) (o = some ·) E := by
  cases o with
  | none => exact h rfl
  | some a => rfl

theorem sat_assert (h : ¬P → E .assertion) : Sat (assert P) (fun _ => P) E := by
  unfold assert
  split_ifs with hP
  · exact hP
  · exact h hP

theorem sat_assert_bind {m : Except Fault β} {Q : β → Prop} (h : Sat m Q AnyFault) :
    Sat (assert P >>= fun _ => m) Q AnyFault :=
  (sat_assert fun _ => trivial).bind fun _ _ => h

end Spec

def State.setUe (s : State) (u : UePtr) (c : UeContext) : State := { s with ues := s.ues.set u c }

def State.setPdn (s : State) (p : PdnPtr) (pdn : Pdn) : State := { s with pdns := s.pdns.set p pdn }

def State.setProc (s : State) (p : ProcId) (proc : Procedure) : State :=
  { s with procs := s.procs.set p proc }

def State.setUpf (s : State) (service : Service) (upf : Upf) : State :=
  { s with upfs := update s.upfs service (some upf) }

attribute [grind =] State.setUe State.setPdn State.setProc State.setUpf

end Session

end Spgw
