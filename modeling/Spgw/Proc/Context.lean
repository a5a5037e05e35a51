/-
# Procedure contexts

`proc_context_t` in `cp/procedures/proc_struct.h` is one signalling procedure of a subscriber.
-/

import Mathlib.Logic.Function.Basic
import Mathlib.Data.Fintype.Pi

namespace Spgw

/-- `sm_proc`. -/
inductive ProcType
  | none
  | initialPdnAttach
  | serviceRequest
  | sgwRelocation
  | connSuspend
  | detach
  | rar
  | dedBerActivation
  | pdnGwInitBearerDeactivation
  | mmeIniDedicatedBearerDeactivation
  | updateBearer
  | restorationRecovery
  | paging
  | usageReport
  | s1Release
  | pfcpAssocSetup
  | sgwRelocationDetach
  | nwInitDetach
  | endProc
  deriving DecidableEq

/-- `enum proc_result`. -/
inductive ProcResult
  | success
  | failure
  deriving DecidableEq

/-- The address of a `proc_context_t`. -/
abbrev ProcId := ℕ

def maxChildProc : ℕ := 8

theorem parent_type_of_none (type : ProcType) : (none : Option ProcId) ≠ none →
    type = .dedBerActivation ∨ type = .nwInitDetach := fun h => absurd rfl h

/-- `struct proc_context`. -/
structure Proc where
  id : ProcId
  procType : ProcType
  running : Bool := false
  result : ProcResult := .success
  rarSeqNum : ℕ := 0
  childProcsCnt : ℕ := 0
  childProcs : Fin maxChildProc → Option ProcId := fun _ => none
  parentProc : Option ProcId := none
  parent_type : parentProc ≠ none → procType = .dedBerActivation ∨ procType = .nwInitDetach := by
      exact parent_type_of_none _
  deriving DecidableEq

theorem dedBerActivation_child : ProcType.dedBerActivation = .dedBerActivation ∨
    ProcType.dedBerActivation = .nwInitDetach := .inl rfl

theorem nwInitDetach_child : ProcType.nwInitDetach = .dedBerActivation ∨
    ProcType.nwInitDetach = .nwInitDetach := .inr rfl

/-- A child of the Re-Auth-Request `rar`, as `process_rar_request_handler`
allocates it. -/
def rarChild (id rar : ProcId) (type : ProcType)
    (h : type = .dedBerActivation ∨ type = .nwInitDetach := by
      first | exact dedBerActivation_child | exact nwInitDetach_child) : Proc :=
  { id, procType := type, parentProc := some rar, parent_type := fun _ => h }

namespace Proc

theorem parentProc_of_rar {p : Proc} (h : p.procType = .rar) : p.parentProc = none := by
  by_contra hp
  rcases p.parent_type hp with ht | ht <;> simp [h] at ht

/-- `proc->flags |= PROC_FLAGS_RUNNING`. -/
def run (p : Proc) : Proc := { p with running := true }

@[simp] theorem run_id (p : Proc) : p.run.id = p.id := rfl
@[simp] theorem run_procType (p : Proc) : p.run.procType = p.procType := rfl
@[simp] theorem run_parentProc (p : Proc) : p.run.parentProc = p.parentProc := rfl
@[simp] theorem run_running (p : Proc) : p.run.running = true := rfl

def addRarChildProc (rar : Proc) (child : ProcId) : Option Proc :=
  if h : rar.childProcsCnt < maxChildProc then
    some { rar with
      childProcs := Function.update rar.childProcs ⟨rar.childProcsCnt, h⟩ (some child)
      childProcsCnt := (rar.childProcsCnt + 1) % 256 }
  else
    none

def childSlot (rar : Proc) (child : ProcId) : Option (Fin maxChildProc) :=
  (List.finRange maxChildProc).find? fun i => rar.childProcs i == some child

/-- The search loop of `done_rar_child_proc`: the child's slot is cleared and
the count goes down; a child that no slot holds changes nothing. -/
def clearChild (rar : Proc) (child : ProcId) : Proc :=
  match rar.childSlot child with
  | some i => { rar with
      childProcs := Function.update rar.childProcs i none
      childProcsCnt := (rar.childProcsCnt + 255) % 256 }
  | none => rar

def doneRarChildProc (rar child : Proc) : Proc :=
  let rar := rar.clearChild child.id
  if rar.childProcsCnt = 0 then { rar with result := child.result } else rar

/-- `done_rar_child_proc` resumes the parent, which answers the Re-Auth-Request. -/
def childrenDone (rar child : Proc) : Bool := (rar.clearChild child.id).childProcsCnt = 0

structure SameProc (p q : Proc) : Prop where
  id : p.id = q.id
  procType : p.procType = q.procType
  running : p.running = q.running
  parentProc : p.parentProc = q.parentProc

theorem SameProc.refl (p : Proc) : SameProc p p := ⟨rfl, rfl, rfl, rfl⟩

theorem SameProc.trans {p q r : Proc} (h₁ : SameProc p q) (h₂ : SameProc q r) : SameProc p r :=
  ⟨h₁.id.trans h₂.id, h₁.procType.trans h₂.procType, h₁.running.trans h₂.running,
    h₁.parentProc.trans h₂.parentProc⟩

theorem sameProc_doneRarChildProc (rar child : Proc) :
    SameProc (rar.doneRarChildProc child) rar := by
  unfold doneRarChildProc clearChild
  constructor <;> cases rar.childSlot child.id <;> simp only <;> split_ifs <;> rfl

theorem sameProc_of_addRarChildProc {rar rar' : Proc} {child : ProcId}
    (h : rar.addRarChildProc child = some rar') : SameProc rar' rar := by
  unfold addRarChildProc at h
  split_ifs at h
  cases h
  exact ⟨rfl, rfl, rfl, rfl⟩

end Proc

end Spgw
