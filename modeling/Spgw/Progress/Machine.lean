/-
# Procedures and the timers they wait on

What keeps a procedure moving. A procedure that has `PROC_FLAGS_RUNNING` waits for a message; the
transaction it waits on has a timer, and the timer a callback (`start_response_wait_timer`,
`cp/cp_transactions.c`).
-/

import Spgw.Proc.Queue
import Spgw.Session.State

namespace Spgw.Progress

open Session (deref)

/-- The functions `start_response_wait_timer` is called with for a procedure of a
subscriber. -/
inductive Callback
  | processGxCcriTimeout
  | processPfcpSessEstRequestTimeout
  | processPfcpSessDelRequestTimeout
  | processPfcpSessModRequestTimeout
  | processReleaseAccessBearerRequestPfcpTimeout
  | ddnIndicationTimeout
  | procNwInitDetachPfcpSessDelRequestTimeout
  | nwInitDbreqTimeout
  | pfcpModifySessionPreCbreqTimeout
  | processCbrTimeout
  | processSgwcPfcpModPostCbrspTimeout

inductive Expiry
  /-- The request is sent again and the timer is restarted. -/
  | resent
  /-- `end_procedure`. -/
  | ended
  /-- The callback returns. -/
  | ignored
  /-- `assert(0)`. -/
  | aborts
  /-- The callback takes its argument for something else. -/
  | wildPointer
  deriving DecidableEq

/-- A request that is sent `request_tries` times; `itr_cnt` is a `uint8_t`. -/
def retry (requestTries itrCnt : ℕ) : Expiry :=
  if (itrCnt + 1) % 256 < requestTries then .resent else .ended

/-- The callbacks. -/
def Callback.expiry (requestTries itrCnt : ℕ) : Callback → Expiry
  | .processGxCcriTimeout => .ended
  | .processPfcpSessEstRequestTimeout => retry requestTries itrCnt
  | .processPfcpSessDelRequestTimeout => retry requestTries itrCnt
  | .processPfcpSessModRequestTimeout => retry requestTries itrCnt
  | .processReleaseAccessBearerRequestPfcpTimeout => retry requestTries itrCnt
  | .ddnIndicationTimeout => .ended
  | .procNwInitDetachPfcpSessDelRequestTimeout => retry requestTries itrCnt
  | .nwInitDbreqTimeout => .ignored
  | .pfcpModifySessionPreCbreqTimeout => .aborts
  | .processCbrTimeout => .ignored
  | .processSgwcPfcpModPostCbrspTimeout => .wildPointer

def Expiry.LeadsOn (e : Expiry) : Prop := e = .resent ∨ e = .ended

instance (e : Expiry) : Decidable e.LeadsOn := inferInstanceAs (Decidable (_ ∨ _))

/-- `transData_t` of a request this side has sent. -/
structure TransData where
  timeout : Callback
  armed : Bool := true
  itrCnt : ℕ := 0
  listed : Bool := true

def TransData.Moves (requestTries : ℕ) (data : TransData) : Prop :=
  data.armed = true ∧ (data.timeout.expiry requestTries data.itrCnt).LeadsOn

instance (requestTries : ℕ) (data : TransData) : Decidable (data.Moves requestTries) :=
  inferInstanceAs (Decidable (_ ∧ _))

/-- What `process_rar_request_handler` finds in a Re-Auth-Request. -/
inductive RarWork
  /-- `parse_gx_rar_msg` fails. -/
  | unparsed
  | sessionRelease
  /-- The rules: one to add has no bearer; after a bearer activation took its rules
  there is still such a rule; a rule to delete is found on a bearer. -/
  | rules (adds addsAgain deletes : Bool)

structure Found where
  /-- S1 release: the number of bearers of the UE context. -/
  bearers : ℕ := 1
  /-- S1 release: `eps_bearers[0]` is not `NULL`; paging: the bearer of the report is
  not `NULL`. -/
  bearer : Bool := true
  /-- Detach: `delete_context` succeeds. -/
  contextDeleted : Bool := true
  rar : RarWork := .sessionRelease

/-- `proc_context_t` with the transactions it has sent. -/
structure Procedure extends Proc where
  gtpcTrans : Option TransData := none
  pfcpTrans : Option TransData := none
  gxTrans : Option TransData := none
  strays : ℕ := 0
  preCbr : Bool := false
  found : Found := {}

inductive Slot
  | gtpc
  | pfcp
  | gx
  deriving DecidableEq

namespace Procedure

def slot (t : Procedure) : Slot → Option TransData
  | .gtpc => t.gtpcTrans
  | .pfcp => t.pfcpTrans
  | .gx => t.gxTrans

def setSlot (t : Procedure) (data : Option TransData) : Slot → Procedure
  | .gtpc => { t with gtpcTrans := data }
  | .pfcp => { t with pfcpTrans := data }
  | .gx => { t with gxTrans := data }

/-- A timer of the procedure is armed, and its expiry leads on. -/
def Moves (requestTries : ℕ) (t : Procedure) : Prop :=
  ∃ slot, ∃ data ∈ t.slot slot, data.Moves requestTries

instance (requestTries : ℕ) (t : Procedure) : Decidable (t.Moves requestTries) :=
  decidable_of_iff (∃ slot ∈ [Slot.gtpc, .pfcp, .gx], ∃ data ∈ t.slot slot, data.Moves requestTries)
    ⟨fun ⟨slot, _, h⟩ => ⟨slot, h⟩, fun ⟨slot, h⟩ => ⟨slot, by cases slot <;> simp, h⟩⟩

/-- The first handler of a procedure that sends one request, or returns without having sent it. -/
def started (t : Procedure) : Procedure :=
  match t.procType with
  | .s1Release =>
    if 0 < t.found.bearers ∧ t.found.bearer then
      { t with
        pfcpTrans := some { timeout := .processReleaseAccessBearerRequestPfcpTimeout }
        strays := t.found.bearers - 1 }
    else t
  | .serviceRequest =>
    { t with pfcpTrans := some { timeout := .processPfcpSessModRequestTimeout } }
  | .detach => { t with pfcpTrans := some { timeout := .processPfcpSessDelRequestTimeout } }
  | .nwInitDetach =>
    { t with pfcpTrans := some { timeout := .procNwInitDetachPfcpSessDelRequestTimeout } }
  | .paging =>
    if t.found.bearer then { t with gtpcTrans := some { timeout := .ddnIndicationTimeout } }
    else t
  | .dedBerActivation =>
    { t with
      pfcpTrans := some { timeout := .pfcpModifySessionPreCbreqTimeout }
      preCbr := true }
  -- `start_procedure_direct` has no case for the two relocations.
  | _ => t

/-- `proc_ctxt->flags |= PROC_FLAGS_RUNNING`. -/
def run (t : Procedure) : Procedure := { t with running := true }

/-- `proc_context->result = PROC_RESULT_SUCCESS`. -/
abbrev succeeded (t : Procedure) : Procedure := { t with result := .success }

end Procedure

/-- What is left of the queue; `none` once the UE context is released. -/
abbrev Outcome := Except Fault (Option (List Procedure))

def focus (queue : List Procedure) (p : ProcId) :
    Option (List Procedure × Procedure × List Procedure) :=
  match queue.dropWhile (·.id ≠ p) with
  | [] => none
  | t :: after => some (queue.takeWhile (·.id ≠ p), t, after)

theorem eq_of_focus {queue before after : List Procedure} {t : Procedure} {p : ProcId}
    (h : focus queue p = some (before, t, after)) : queue = before ++ t :: after := by
  unfold focus at h
  split at h
  · cases h
  · next t' after' hdrop =>
      obtain ⟨rfl, rfl, rfl⟩ : queue.takeWhile (·.id ≠ p) = before ∧ t' = t ∧ after' = after := by
        simpa using h
      rw [← hdrop, List.takeWhile_append_dropWhile]

/-- What `start_procedure` reads of the queue. -/
def procs (queue : List Procedure) : List Proc := queue.map Procedure.toProc

/-- A procedure that a Re-Auth-Request creates: it becomes a child, goes to the tail of the queue,
and is started if `start_procedure` admits it. -/
def addChild (before : List Procedure) (rar : Procedure) (after : List Procedure)
    (child : Procedure) : Except Fault (Procedure × List Procedure × Bool) := do
  let parent ← deref (rar.toProc.addRarChildProc child.id)
  let rar := { rar with toProc := parent }
  if startsAtOnce (procs (before ++ rar :: after)) child.toProc then
    return (rar, after ++ [child.run.started], true)
  else
    return (rar, after ++ [child], false)

/-- The procedures `process_rar_request_handler` allocates. -/
def bearerCreate (rar : Procedure) : Procedure :=
  { toProc := rarChild (rar.id + 1) rar.id .dedBerActivation }

def nwInitDetach (rar : Procedure) : Procedure :=
  { toProc := rarChild (rar.id + 2) rar.id .nwInitDetach }

def deleteRules (before : List Procedure) (rar : Procedure) (after : List Procedure)
    (deletes : Bool) : Outcome :=
  if deletes then do
    let (rar, after, _) ← addChild before rar after (nwInitDetach rar)
    return some (before ++ rar :: after)
  else
    throw .endless

def processRarRequestHandler (before : List Procedure) (rar : Procedure)
    (after : List Procedure) : Outcome :=
  match rar.found.rar with
  | .unparsed => pure (some (before ++ rar :: after))
  | .sessionRelease => do
    let (rar, after, _) ← addChild before rar after (nwInitDetach rar)
    return some (before ++ rar :: after)
  | .rules adds addsAgain deletes =>
    if adds then do
      let (rar, after, started) ← addChild before rar after (bearerCreate rar)
      if started ∧ addsAgain = false then deleteRules before rar after deletes
      else throw .endless
    else
      deleteRules before rar after deletes

/-- `start_procedure_direct` on the procedure between `before` and `after`, usage reports apart. -/
def startProcedureDirect (before : List Procedure) (t : Procedure) (after : List Procedure) :
    Outcome :=
  match t.procType with
  | .rar => processRarRequestHandler before t.run after
  | .detach =>
    if t.found.contextDeleted then pure (some (before ++ t.run.started :: after))
    else pure none
  | _ => pure (some (before ++ t.run.started :: after))

/-- The scan at the end of `end_procedure`, with the entries it has passed. -/
def startNext (before : List Procedure) : List Procedure → Outcome
  | [] => pure (some before)
  | t :: after =>
    if t.running then startNext (before ++ [t]) after
    else if t.procType = .usageReport then startNext before after
    else startProcedureDirect before t after

def startProcedure (queue : List Procedure) (new : Procedure) : Outcome :=
  if startsAtOnce (procs queue) new.toProc then
    if new.procType = .usageReport then startNext [] queue
    else startProcedureDirect queue new []
  else
    pure (some (queue ++ [new]))

def childProcDone (queue : List Procedure) (child : Procedure) : Outcome :=
  match child.parentProc with
  | none => pure (some queue)
  | some r => do
    let (before, rar, after) ← deref (focus queue r)
    if rar.toProc.childrenDone child.toProc then
      startNext [] (before ++ after)
    else
      let rar := { rar with toProc := rar.toProc.doneRarChildProc child.toProc }
      return some (before ++ rar :: after)

/-- `end_procedure` on the procedure between `before` and `after`. -/
def endProcedure (before : List Procedure) (t : Procedure) (after : List Procedure) : Outcome :=
  match t.procType with
  | .initialPdnAttach =>
    if t.result = .success then startNext [] (before ++ after) else pure none
  | .s1Release | .serviceRequest | .usageReport | .paging | .rar =>
    startNext [] (before ++ after)
  | .detach => pure none
  | .dedBerActivation => do
    -- A context that the parent's end has released is read again.
    let queue ← deref (← childProcDone (before ++ after) t)
    startNext [] queue
  | .nwInitDetach => do
    let _ ← deref (← childProcDone (before ++ after) t)
    return none
  | _ => throw .assertion

/-- `end_procedure` after `result` was set to `PROC_RESULT_FAILURE`. -/
def failProcedure (before : List Procedure) (t : Procedure) (after : List Procedure) : Outcome :=
  endProcedure before { t with result := .failure } after

end Spgw.Progress
