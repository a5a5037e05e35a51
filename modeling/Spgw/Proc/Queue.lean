/-
# The procedure queue of a subscriber

`start_procedure` and `end_procedure` (`cp/procedures/proc.c`) share the queue `pending_sub_procs`
of a UE context.
-/

import Spgw.Lib.Run
import Spgw.Proc.Context

namespace Spgw

/-- The part of `ue_context_t` the two functions use. -/
structure QueueContext where
  pendingSubProcs : List Proc
  numPdns : ℕ

/-- The UE context and the `end_procedure` calls in progress on it, innermost first, each with the
procedure it ends. -/
structure QueueState where
  context : Option QueueContext
  ending : List Proc := []

def QueueState.queue (m : QueueState) : List Proc :=
  match m.context with
  | some c => c.pendingSubProcs
  | none => []

/-- A UE context is created by its initial attach, which is running by then and
is put in the empty queue (`handle_csreq_msg`). -/
def QueueState.attached (attach : ProcId) : QueueState :=
  { context := some
      { pendingSubProcs := [{ id := attach, procType := .initialPdnAttach, running := true }]
        numPdns := 1 } }

/-- The parent of `new` is `temp`, and `new` is of a type that may run next to
its parent. -/
def isChildOf (new temp : Proc) : Bool :=
  (new.procType = .dedBerActivation || new.procType = .nwInitDetach) &&
    new.parentProc = some temp.id

/-- The `TAILQ_FOREACH` of `start_procedure`, over the entries before `new`. -/
def allowedParellel (queue : List Proc) (new : Proc) : Bool :=
  queue.foldl (fun allowed temp =>
    if temp.procType = .rar then
      if isChildOf new temp then true else allowed
    else
      false) false

/-- `start_procedure` goes on to `start_procedure_direct`. -/
def startsAtOnce (queue : List Proc) (new : Proc) : Bool :=
  queue.isEmpty || allowedParellel queue new

def startProcedure (c : QueueContext) (new : Proc) : QueueContext :=
  let new := { new with running := startsAtOnce c.pendingSubProcs new }
  { c with pendingSubProcs := c.pendingSubProcs ++ [new] }

/-- The scan at the end of `end_procedure`: the first procedure that is not
running is started. -/
def startNext : List Proc → List Proc
  | [] => []
  | p :: queue => if p.running then p :: startNext queue else p.run :: queue

/-- `cleanup_pdn_context`. -/
def cleanupPdn (c : QueueContext) : Option QueueContext :=
  let numPdns := (c.numPdns + 255) % 256
  if numPdns = 0 then none else some { c with numPdns }

/-- The procedure types `end_procedure` has a case for; the others fail
`assert(0)`. -/
def ProcType.hasEnd : ProcType → Bool
  | .initialPdnAttach | .s1Release | .serviceRequest | .detach | .usageReport | .paging
  | .dedBerActivation | .rar | .nwInitDetach => true
  | _ => false

/-- `p_proc->child_proc_done(proc)` on the queue. -/
def childProcDone (queue : List Proc) (p : Proc) : Option (List Proc) :=
  match p.parentProc with
  | none => some queue
  | some r =>
    if queue.any (·.id = r) then
      some (queue.map fun x => if x.id = r then x.doneRarChildProc p else x)
    else
      none

/-- `end_procedure` up to the `switch`, and the call of the parent. -/
def endProcedure (c : QueueContext) (id : ProcId) (result : ProcResult) :
    Option (QueueContext × Proc) := do
  let p ← c.pendingSubProcs.find? (·.id = id)
  let p := { p with result }
  let queue ← childProcDone (c.pendingSubProcs.filter (·.id ≠ id)) p
  if p.procType.hasEnd then some ({ c with pendingSubProcs := queue }, p) else none

/-- The rest of `end_procedure`: a failed attach and the two detaches release
the PDN; a context that is still there starts its next procedure. -/
def afterEnd (c : QueueContext) (p : Proc) : Option QueueContext :=
  match p.procType with
  | .initialPdnAttach => if p.result = .success then some c else cleanupPdn c
  | .detach | .nwInitDetach => cleanupPdn c
  | _ => some c

inductive QueueCall
  | startProcedure (new : Proc)
  | childProcAdd (rar child : ProcId)
  | endProcedure (id : ProcId) (result : ProcResult)
  | resume

/-- One call. -/
def queueStep (m : QueueState) (call : QueueCall) : Option QueueState := do
  let c ← m.context
  match call with
  | .startProcedure new =>
    if c.pendingSubProcs.any (·.id = new.id) then none
    else some { m with context := some (startProcedure c new) }
  | .childProcAdd rar child =>
    let r ← c.pendingSubProcs.find? (·.id = rar)
    let _ ← r.addRarChildProc child
    some { m with context := some { c with
      pendingSubProcs := c.pendingSubProcs.map fun x =>
        if x.id = rar then (x.addRarChildProc child).getD x else x } }
  | .endProcedure id result =>
    let (c, p) ← Spgw.endProcedure c id result
    some { context := some c, ending := p :: m.ending }
  | .resume =>
    let p ← m.ending.head?
    some { context := (afterEnd c p).map fun c =>
             { c with pendingSubProcs := startNext c.pendingSubProcs }
           ending := m.ending.tail }

variable {m m' : QueueState}

theorem queueStep_startProcedure {new : Proc} (h : queueStep m (.startProcedure new) = some m') :
    ∃ c, m.context = some c ∧ (∀ p ∈ c.pendingSubProcs, p.id ≠ new.id) ∧
      m' = { m with context := some (startProcedure c new) } := by
  obtain ⟨c, hc, h⟩ := Option.bind_eq_some_iff.mp h
  dsimp only at h
  split_ifs at h with hnew
  exact ⟨c, hc, by simpa using hnew, (Option.some.inj h).symm⟩

theorem queueStep_childProcAdd {rar child : ProcId}
    (h : queueStep m (.childProcAdd rar child) = some m') :
    ∃ c f, m.context = some c ∧ (∀ p, Proc.SameProc (f p) p) ∧
      m' = { m with context := some { c with pendingSubProcs := c.pendingSubProcs.map f } } := by
  obtain ⟨c, hc, h⟩ := Option.bind_eq_some_iff.mp h
  obtain ⟨_, _, h⟩ := Option.bind_eq_some_iff.mp h
  obtain ⟨_, _, h⟩ := Option.bind_eq_some_iff.mp h
  refine ⟨c, _, hc, fun p => ?_, (Option.some.inj h).symm⟩
  split_ifs
  · cases hp : p.addRarChildProc child with
    | none => exact .refl p
    | some p' => exact Proc.sameProc_of_addRarChildProc hp
  · exact .refl p

theorem childProcDone_of_none {p : Proc} (h : p.parentProc = none) (q : List Proc) :
    childProcDone q p = some q := by
  rw [childProcDone, h]

theorem exists_map_of_childProcDone {q q' : List Proc} {p : Proc}
    (h : childProcDone q p = some q') :
    ∃ f, (∀ x, Proc.SameProc (f x) x) ∧ q' = q.map f := by
  unfold childProcDone at h
  split at h
  · exact ⟨id, Proc.SameProc.refl, by simpa using h.symm⟩
  · split_ifs at h
    refine ⟨_, fun x => ?_, (Option.some.inj h).symm⟩
    split_ifs
    · exact Proc.sameProc_doneRarChildProc x p
    · exact .refl x

theorem queueStep_endProcedure {id : ProcId} {result : ProcResult}
    (h : queueStep m (.endProcedure id result) = some m') :
    ∃ c p f, m.context = some c ∧ c.pendingSubProcs.find? (·.id = id) = some p ∧
      p.procType.hasEnd = true ∧ (∀ x, Proc.SameProc (f x) x) ∧
      childProcDone (c.pendingSubProcs.filter (·.id ≠ id)) { p with result } =
        some ((c.pendingSubProcs.filter (·.id ≠ id)).map f) ∧
      m' = { context := some { c with
               pendingSubProcs := (c.pendingSubProcs.filter (·.id ≠ id)).map f }
             ending := { p with result } :: m.ending } := by
  obtain ⟨c, hc, h⟩ := Option.bind_eq_some_iff.mp h
  obtain ⟨⟨c', p'⟩, hend, h⟩ := Option.bind_eq_some_iff.mp h
  obtain ⟨p, hp, hend⟩ := Option.bind_eq_some_iff.mp hend
  obtain ⟨q, hq, hend⟩ := Option.bind_eq_some_iff.mp hend
  obtain ⟨f, hf, rfl⟩ := exists_map_of_childProcDone hq
  split_ifs at hend with htype
  obtain ⟨rfl, rfl⟩ := Prod.mk.inj (Option.some.inj hend)
  exact ⟨c, p, f, hc, hp, htype, hf, hq, (Option.some.inj h).symm⟩

theorem queueStep_resume (h : queueStep m .resume = some m') :
    ∃ c p rest, m.context = some c ∧ m.ending = p :: rest ∧
      m' = { context := (afterEnd c p).map fun c =>
               { c with pendingSubProcs := startNext c.pendingSubProcs }
             ending := rest } := by
  obtain ⟨c, hc, h⟩ := Option.bind_eq_some_iff.mp h
  obtain ⟨p, hp, h⟩ := Option.bind_eq_some_iff.mp h
  cases hm : m.ending with
  | nil => simp [hm] at hp
  | cons p' rest =>
    rw [hm] at hp h
    cases hp
    exact ⟨c, _, rest, hc, rfl, (Option.some.inj h).symm⟩

end Spgw
