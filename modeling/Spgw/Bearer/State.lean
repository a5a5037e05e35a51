/-
# UE contexts, PDN connections and bearers

The bearers of a subscriber are recorded five times: in `eps_bearers` and in `bearer_bitmap` of the
UE context, in `eps_bearers` and in `num_bearer` of the PDN connection, and in the EPS bearer
identifier of the bearer itself (`cp/ue.h`, `cp/pdn.h`, `cp/bearer.h`).
-/

import Spgw.Rar.Handler
import Spgw.Session.Create
import Spgw.Trans.Machine

namespace Spgw.Bearer

open Session (UePtr PdnPtr Service deref assert)
open Rar (BearerQos RuleName PccRule RuleTable maxBearers)
open Spgw.Trans (Kind TransKey)

abbrev BearerPtr := ℕ

/-- An array of `MAX_BEARERS` pointers. -/
abbrev Slots (α : Type) := Fin maxBearers → Option α

/-- The index of an EPS bearer identifier. -/
def slotIndex (ebi : ℕ) : Except Fault (Fin maxBearers) :=
  if h : 5 ≤ ebi ∧ ebi < 5 + maxBearers then pure ⟨ebi - 5, by omega⟩ else throw .badPointer

/-- The number of pointers that are not `NULL`. -/
def occupied {α : Type} (slots : Slots α) : ℕ :=
  (List.finRange maxBearers).countP fun i => (slots i).isSome

structure EpsBearer extends Rar.EpsBearer where
  pdn : PdnPtr
  pdrIds : List ℕ := []
  qerIds : List ℕ := []
  ambrQer : Bool := false

structure Rules where
  pdrs : Session.Table ℕ (UePtr × BearerPtr) := fun _ => none
  qers : Session.Table ℕ (UePtr × BearerPtr) := fun _ => none
  ruleNames : RuleTable := []
  pdrRuleIdOffset : ℕ := 0
  qerRuleIdOffset : ℕ := 0

inductive Interface
  | access
  | core
  | unknown

/-- The bits that `generate_qer_id` sets. -/
def Interface.qerBits : Interface → ℕ
  | .access => 0x20000000
  | .core => 0x40000000
  | .unknown => 0x30000000

namespace Rules

/-- `generate_pdr_id` and `add_pdr_entry`. -/
def addPdr (r : Rules) (owner : UePtr × BearerPtr) : Rules × ℕ :=
  let id := (r.pdrRuleIdOffset + 1) % 2 ^ 16
  ({ r with pdrs := r.pdrs.insert id owner, pdrRuleIdOffset := id }, id)

/-- `generate_qer_id` and `fill_qer_entry`. -/
def addQer (r : Rules) (owner : UePtr × BearerPtr) (iface : Interface) : Rules × ℕ :=
  let offset := (r.qerRuleIdOffset + 1) % 2 ^ 32
  let id := offset ||| iface.qerBits
  ({ r with qers := r.qers.insert id owner, qerRuleIdOffset := offset }, id)

def addQerIntoHash (r : Rules) (owner : UePtr × BearerPtr) (id : ℕ) : Rules :=
  { r with qers := r.qers.insert id owner }

def addRuleName (r : Rules) (key : RuleName) (id : ℕ) : Rules :=
  { r with ruleNames := r.ruleNames.addRuleNameEntry key id }

def delRuleName (r : Rules) (key : RuleName) : Rules :=
  { r with ruleNames := r.ruleNames.delRuleNameEntry key }

def delRuleEntries (r : Rules) (bearer : EpsBearer) : Rules :=
  { r with
    qers := bearer.qerIds.foldl Session.Table.erase r.qers
    pdrs := bearer.pdrIds.foldl Session.Table.erase r.pdrs }

end Rules

/-- `pdn_connection_t`. -/
structure Pdn where
  defaultBearerId : ℕ
  numBearer : ℕ
  epsBearers : Slots BearerPtr
  seid : ℕ
  callId : ℕ := 0
  gxSessId : List Char := []
  defaultBearerQos : BearerQos := {}
  pendingPccRules : List PccRule := []

structure UeContext where
  imsi : ℕ
  s11SgwGtpcTeid : ℕ
  epsBearers : Slots BearerPtr := fun _ => none
  pdns : Slots PdnPtr := fun _ => none
  numPdns : ℕ := 0
  bearerBitmap : BitVec 16 := 0
  upfContext : Option Service := none
  pendingSubProcs : List ProcId := []
  pdnHeap : Heap Pdn := {}
  bearerHeap : Heap EpsBearer := {}
  overwritten : List BearerPtr := []

namespace UeContext

/-- The bearers of a PDN connection as `Spgw.Rar` sees them. -/
def rarBearers (c : UeContext) (pdn : Pdn) : Rar.Bearers := fun i =>
  (pdn.epsBearers i).bind fun b => (c.bearerHeap.get b).map (·.toEpsBearer)

/-- A PDN connection as `Spgw.Rar` sees it. -/
def policy (c : UeContext) (pdn : Pdn) : Rar.Pdn where
  callId := pdn.callId
  defaultBearerId := pdn.defaultBearerId
  numBearer := pdn.numBearer
  epsBearers := c.rarBearers pdn
  pendingPccRules := pdn.pendingPccRules

def getBearer (c : UeContext) (pdn : Pdn) (qos : BearerQos) : Option BearerPtr :=
  (Rar.getBearer (c.rarBearers pdn) qos).bind pdn.epsBearers

def getPdn (c : UeContext) (ebi : ℕ) : Except Fault PdnPtr := do
  let i ← slotIndex ebi
  let b ← deref (c.epsBearers i)
  let bearer ← deref (c.bearerHeap.get b)
  return bearer.pdn

def withSlots (c : UeContext) (p : PdnPtr) (pdn : Pdn) (slots : Slots BearerPtr) (numBearer : ℕ)
    (bearers : Heap EpsBearer) : UeContext :=
  { c with
    epsBearers := slots
    pdnHeap := c.pdnHeap.set p { pdn with epsBearers := slots, numBearer }
    bearerHeap := bearers }

end UeContext

/-- The transactions a `proc_context_t` points to, by their keys. -/
structure Procedure where
  trans : Kind → Option TransKey := fun _ => none

/-- The procedures, the tables of their transactions, and the lists `pending_sub_procs` of
the UPF contexts. -/
structure Procedures where
  procs : Heap Procedure := {}
  trans : Kind → Session.Table TransKey ProcId := fun _ _ => none
  pending : Service → List ProcId := fun _ => []

namespace Procedures

/-- The key is looked up for the transaction of `q`, and removed; another transaction under
it fails the assertion of the cleanup function. -/
def cleanupTrans (w : Procedures) (q : ProcId) (proc : Procedure) (kind : Kind) :
    Except Fault Procedures :=
  match proc.trans kind with
  | none => pure w
  | some key => do
    assert (w.trans kind key = none ∨ w.trans kind key = some q)
    return { w with trans := Function.update w.trans kind ((w.trans kind).erase key) }

def forgetPending (w : Procedures) (upf : Option Service) (q : ProcId) : Procedures :=
  match upf with
  | none => w
  | some service =>
    { w with pending := Function.update w.pending service ((w.pending service).erase q) }

/-- The loop of `process_error_occured_handler_new` over the queue of the UE context. -/
def dropProcs (upf : Option Service) : Procedures → List ProcId → Except Fault Procedures
  | w, [] => pure w
  | w, q :: queue => do
    let w := w.forgetPending upf q
    let proc ← deref (w.procs.get q)
    let w ← w.cleanupTrans q proc .gtp
    let w ← w.cleanupTrans q proc .pfcp
    let w ← w.cleanupTrans q proc .gx
    dropProcs upf { w with procs := w.procs.free q } queue

end Procedures

/-- The contexts with the tables into them, the counters of identifiers, and what is in progress. -/
structure State where
  gxEnabled : Bool
  ues : Heap UeContext := {}
  ueByImsi : Session.Table ℕ UePtr := fun _ => none
  ueByTeid : Session.Table ℕ UePtr := fun _ => none
  ueBySeid : Session.Table ℕ UePtr := fun _ => none
  ueByGxSessId : Session.Table (List Char) UePtr := fun _ => none
  pdnByTeid : Session.Table ℕ (UePtr × PdnPtr) := fun _ => none
  pdnByCallId : Session.Table ℕ (UePtr × PdnPtr) := fun _ => none
  rules : Rules := {}
  procedures : Procedures := {}
  teidOffset : ℕ := 0
  callIdOffset : ℕ := 0

abbrev Result := Except Fault State

def State.setUe (s : State) (u : UePtr) (c : UeContext) : State := { s with ues := s.ues.set u c }

end Spgw.Bearer
