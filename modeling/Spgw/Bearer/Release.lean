/-
# Releasing a session, and replacing one

A detach and a failed attach end in `cleanup_pdn_context` (`cp/pdn.c`), which cleans up the bearers
(`cleanup_bearer_context`, `cp/bearer.c`), and in `cleanup_ue_context` (`cp/ue.c`).
-/

import Spgw.Bearer.State

namespace Spgw.Bearer

open Function

open Session (UePtr PdnPtr deref assert ueSessId)
open Rar (maxBearers ruleKey)

def cleanupBearerContext (r : Rules) (c : UeContext) (b : BearerPtr) :
    Except Fault (Rules × UeContext) := do
  let bearer ← deref (c.bearerHeap.get b)
  let pdn ← deref (c.pdnHeap.get bearer.pdn)
  let r := bearer.dynamicRules.foldl
    (fun r rule => r.delRuleName (ruleKey pdn.callId rule.ruleName)) r
  let i ← slotIndex bearer.epsBearerId
  let found ← deref (c.epsBearers i)
  let found ← deref (c.bearerHeap.get found)
  return (r.delRuleEntries found, { c with
      epsBearers := update c.epsBearers i none
      pdnHeap := c.pdnHeap.set bearer.pdn { pdn with epsBearers := update pdn.epsBearers i none }
      bearerHeap := c.bearerHeap.free b })

/-- One turn of the loop of `cleanup_pdn_context`. -/
def cleanupSlot (p : PdnPtr) (rc : Rules × UeContext) (i : Fin maxBearers) :
    Except Fault (Rules × UeContext) := do
  let pdn ← deref (rc.2.pdnHeap.get p)
  match pdn.epsBearers i with
  | none => pure rc
  | some b =>
    let (r, c) ← cleanupBearerContext rc.1 rc.2 b
    return (r, { c with
      pdns := update c.pdns i none
      bearerBitmap := c.bearerBitmap &&& ~~~(1#16 <<< (i : ℕ)) })

/-- The PDN connection leaves its tables and is freed; `num_pdns` is a `uint8_t`. -/
def State.freePdn (s : State) (u : UePtr) (c : UeContext) (p : PdnPtr) (pdn : Pdn) : State :=
  { s with
    ues := s.ues.set u { c with numPdns := (c.numPdns + 255) % 256, pdnHeap := c.pdnHeap.free p }
    ueBySeid := s.ueBySeid.erase pdn.seid
    pdnByCallId := s.pdnByCallId.erase pdn.callId
    ueByGxSessId := s.ueByGxSessId.erase pdn.gxSessId
    pdnByTeid := s.pdnByTeid.erase c.s11SgwGtpcTeid }

def cleanupPdnContext (s : State) (u : UePtr) (p : PdnPtr) : Result := do
  let c ← deref (s.ues.get u)
  let pdn ← deref (c.pdnHeap.get p)
  assert (c.s11SgwGtpcTeid = ueSessId pdn.seid)
  let (r, c) ← (List.finRange maxBearers).foldlM (cleanupSlot p) (s.rules, c)
  return { s.freePdn u c p pdn with rules := r }

def State.freeUe (s : State) (u : UePtr) (c : UeContext) : State :=
  { s with
    ues := s.ues.free u
    ueByImsi := s.ueByImsi.erase c.imsi
    ueByTeid := s.ueByTeid.erase c.s11SgwGtpcTeid }

/-- The end of a detach and of a failed attach in `end_procedure`: `cleanup_pdn_context`, and
`cleanup_ue_context` once no PDN connection is left. -/
def releaseSession (s : State) (u : UePtr) (p : PdnPtr) : Result := do
  let s ← cleanupPdnContext s u p
  let c ← deref (s.ues.get u)
  return if c.numPdns = 0 then s.freeUe u c else s

def State.removeGxSession (s : State) (u : UePtr) (pdn : Pdn) : Result :=
  if s.gxEnabled then
    match s.ueByGxSessId pdn.gxSessId with
    | none => pure s
    | some v => do
      assert (v = u)
      return { s with
        ueByGxSessId := s.ueByGxSessId.erase pdn.gxSessId
        pdnByCallId := s.pdnByCallId.erase pdn.callId }
  else
    pure s

/-- One turn of the loop of `process_error_occured_handler_new` over the bearers. -/
def clearSlot (p : PdnPtr) (c : UeContext) (i : Fin maxBearers) : Except Fault UeContext := do
  match c.epsBearers i with
  | none => pure c
  | some _ =>
    let pdn ← deref (c.pdnHeap.get p)
    let bearers ← match pdn.epsBearers i with
      | none => pure c.bearerHeap
      | some b => do
        -- A pointer that is freed twice does not survive.
        let _ ← deref (c.bearerHeap.get b)
        pure (c.bearerHeap.free b)
    return { c with
      epsBearers := update c.epsBearers i none
      pdnHeap := c.pdnHeap.set p { pdn with
          epsBearers := update pdn.epsBearers i none
          numBearer := pdn.numBearer - 1 }
      bearerHeap := bearers }

def releaseIfEmpty (s : State) (u : UePtr) (p : PdnPtr) (pdn : Pdn) : Result :=
  if pdn.numBearer = 0 then cleanupPdnContext s u p else pure s

def dropQueue (s : State) (u : UePtr) : Result := do
  let c ← deref (s.ues.get u)
  let procedures ← s.procedures.dropProcs c.upfContext c.pendingSubProcs
  let s := { s.setUe u { c with pendingSubProcs := [] } with procedures }
  return if c.numPdns = 0 then s.freeUe u c else s

def processErrorOccuredHandlerNew (s : State) (teid ebi : ℕ) : Result :=
  match s.ueByTeid teid with
  | none => pure s
  | some u => do
    let c ← deref (s.ues.get u)
    let p ← c.getPdn ebi
    let pdn ← deref (c.pdnHeap.get p)
    let s ← s.removeGxSession u pdn
    let c ← (List.finRange maxBearers).foldlM (clearSlot p) c
    let pdn ← deref (c.pdnHeap.get p)
    let s ← releaseIfEmpty (s.setUe u c) u p pdn
    dropQueue s u

/-- The part of `handle_create_session_request` that looks for a UE context with the IMSI of the
request. -/
def replaceOldContext (s : State) (csr : Session.CreateSessReq) : Result :=
  match s.ueByImsi csr.imsiDigits with
  | none => pure s
  | some u => do
    let c ← deref (s.ues.get u)
    let _ ← c.getPdn csr.ebi
    processErrorOccuredHandlerNew s c.s11SgwGtpcTeid csr.ebi

end Spgw.Bearer
