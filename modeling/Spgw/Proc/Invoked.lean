/-
# Which handler a call invokes

`start_procedure_direct` (`cp/procedures/proc.c`) sets `PROC_FLAGS_RUNNING` and then switches over
the type of the procedure: nine types call the handler, the others reach `assert("unknown proc")`,
which is true, and return.
-/

import Spgw.Proc.Running

namespace Spgw

variable {m m' : QueueState} {c : QueueContext} {call : QueueCall}

/-- The procedure types `start_procedure_direct` has a case for. -/
def ProcType.hasStart : ProcType → Bool
  | .initialPdnAttach | .s1Release | .serviceRequest | .detach | .nwInitDetach | .usageReport
  | .paging | .dedBerActivation | .rar => true
  | _ => false

/-- The procedure that a call gives to `start_procedure_direct`. -/
def startedBy (m : QueueState) : QueueCall → Option Proc
  | .startProcedure new => if startsAtOnce m.queue new then some new else none
  | .resume => (resumedContext m).bind fun c => firstWaiting c.pendingSubProcs
  | _ => none

def invoked (m : QueueState) (call : QueueCall) : Option Proc := do
  let _ ← queueStep m call
  let p ← startedBy m call
  if p.procType.hasStart then some p else none

theorem invoked_eq_some {p : Proc} : invoked m call = some p ↔
      (queueStep m call).isSome ∧ startedBy m call = some p ∧ p.procType.hasStart = true := by
  unfold invoked
  cases queueStep m call with
  | none => simp
  | some m' =>
    cases startedBy m call with
    | none => simp
    | some q =>
      simp only [Option.bind_eq_bind, Option.bind_some, Option.ite_none_right_eq_some,
        Option.some.injEq, Option.isSome_some, true_and]
      constructor
      · rintro ⟨htype, rfl⟩
        exact ⟨rfl, htype⟩
      · rintro ⟨rfl, htype⟩
        exact ⟨htype, rfl⟩

theorem invoked_eq_none_of_startedBy (h : startedBy m call = none) : invoked m call = none := by
  unfold invoked
  cases queueStep m call <;> simp [h]

@[simp] theorem invoked_endProcedure (id : ProcId) (result : ProcResult) :
    invoked m (.endProcedure id result) = none :=
  invoked_eq_none_of_startedBy rfl

theorem queueStep_of_freed (h : m.context = none) (call : QueueCall) : queueStep m call = none := by
  unfold queueStep
  rw [h]
  rfl

theorem invoked_of_freed (h : m.context = none) (call : QueueCall) : invoked m call = none := by
  rw [invoked, queueStep_of_freed h]
  rfl

theorem startedBy_resume {p : Proc} {rest : List Proc} (hc : m.context = some c)
    (hp : m.ending = p :: rest) :
    startedBy m .resume = (afterEnd c p).bind fun _ => firstWaiting c.pendingSubProcs := by
  simp only [startedBy, resumedContext, hc, hp]
  cases hafter : afterEnd c p with
  | none => simp [hafter]
  | some c' => simp [hafter, afterEnd_pendingSubProcs hafter]

/-- **The scan of an `end_procedure` that keeps the context** -/
theorem invoked_resume_eq_none_iff {p : Proc} {rest : List Proc} (hc : m.context = some c)
    (hp : m.ending = p :: rest) (hafter : (afterEnd c p).isSome) :
    invoked m .resume = none ↔
      ∀ w, firstWaiting c.pendingSubProcs = some w → w.procType.hasStart = false := by
  obtain ⟨c', hafter⟩ := Option.isSome_iff_exists.mp hafter
  have hstep : (queueStep m .resume).isSome := by simp [queueStep, hc, hp]
  have hstarted : startedBy m .resume = firstWaiting c.pendingSubProcs := by
    rw [startedBy_resume hc hp, hafter]
    rfl
  rw [Option.eq_none_iff_forall_ne_some]
  simp only [ne_eq, invoked_eq_some, hstep, hstarted, true_and, not_and, Bool.not_eq_true]

theorem queue_of_context (hc : m.context = some c) : m.queue = c.pendingSubProcs := by
  rw [QueueState.queue, hc]

theorem map_of_sameProc {β : Type*} {f : Proc → Proc} (hf : ∀ p, (f p).SameProc p) {g : Proc → β}
    (hg : ∀ p q, Proc.SameProc p q → g p = g q) (q : List Proc) : (q.map f).map g = q.map g := by
  rw [List.map_map]
  exact List.map_congr_left fun p _ => hg (f p) p (hf p)

theorem map_startNext {β : Type*} {g : Proc → β} (hg : ∀ p, g p.run = g p) (q : List Proc) :
    (startNext q).map g = q.map g := by
  induction q with
  | nil => rfl
  | cons p q ih =>
    rw [startNext]
    split_ifs
    · rw [List.map_cons, List.map_cons, ih]
    · rw [List.map_cons, List.map_cons, hg]

theorem filter_id_map {f : Proc → Proc} (hf : ∀ p, (f p).SameProc p) (id : ProcId)
    (q : List Proc) : (q.map f).filter (·.id ≠ id) = (q.filter (·.id ≠ id)).map f := by
  rw [List.filter_map]
  congr 2
  funext p
  simp [(hf p).id]

theorem firstWaiting_map {f : Proc → Proc} (hf : ∀ p, (f p).SameProc p) (q : List Proc) :
    firstWaiting (q.map f) = (firstWaiting q).map f := by
  rw [firstWaiting, firstWaiting, List.find?_map]
  congr 2
  funext p
  simp [(hf p).running]

structure QueueContext.Ordered (c : QueueContext) : Prop where
  ids : (c.pendingSubProcs.map (·.id)).Nodup
  numPdns : c.numPdns = 1

theorem cleanupPdn_eq_none (h : c.numPdns = 1) : cleanupPdn c = none := by
  rw [cleanupPdn, h]
  rfl

theorem afterEnd_eq_some {c' : QueueContext} {p : Proc} (hone : c.numPdns = 1)
    (h : afterEnd c p = some c') : c' = c := by
  unfold afterEnd at h
  rw [cleanupPdn_eq_none hone] at h
  split at h
  · split_ifs at h
    exact (Option.some.inj h).symm
  · cases h
  · cases h
  · exact (Option.some.inj h).symm

/-- **One call keeps the order.** -/
theorem QueueContext.Ordered.step (h : ∀ c, m.context = some c → c.Ordered)
    (hstep : queueStep m call = some m') : ∀ c, m'.context = some c → c.Ordered := by
  intro c' hc'
  cases call with
  | startProcedure new =>
    obtain ⟨c, hc, hnew, rfl⟩ := queueStep_startProcedure hstep
    cases hc'
    refine ⟨?_, (h c hc).numPdns⟩
    rw [startProcedure, List.map_append]
    refine List.nodup_append.mpr ⟨(h c hc).ids, List.nodup_singleton _, ?_⟩
    simpa using hnew
  | childProcAdd rar child =>
    obtain ⟨c, f, hc, hf, rfl⟩ := queueStep_childProcAdd hstep
    cases hc'
    refine ⟨?_, (h c hc).numPdns⟩
    rw [map_of_sameProc hf fun _ _ hpq => hpq.id]
    exact (h c hc).ids
  | endProcedure id result =>
    obtain ⟨c, p, f, hc, -, -, hf, -, rfl⟩ := queueStep_endProcedure hstep
    cases hc'
    refine ⟨?_, (h c hc).numPdns⟩
    rw [map_of_sameProc hf fun _ _ hpq => hpq.id]
    exact (h c hc).ids.sublist (List.filter_sublist.map _)
  | resume =>
    obtain ⟨c, p, rest, hc, -, rfl⟩ := queueStep_resume hstep
    obtain ⟨c'', hafter, rfl⟩ := Option.map_eq_some_iff.mp hc'
    obtain rfl := afterEnd_eq_some (h c hc).numPdns hafter
    refine ⟨?_, (h c'' hc).numPdns⟩
    rw [map_startNext fun _ => rfl]
    exact (h c'' hc).ids

theorem ordered_attached (attach : ProcId) :
    ∀ c, (QueueState.attached attach).context = some c → c.Ordered := by
  intro c hc
  cases hc
  exact ⟨List.nodup_singleton _, rfl⟩

/-- **The context is in order in every state that calls can reach.** -/
theorem ordered_of_run {attach : ProcId} {calls : List QueueCall}
    (hrun : Machine.final queueStep (.attached attach) calls = some m) :
    ∀ c, m.context = some c → c.Ordered :=
  Machine.final_invariant (I := fun m => ∀ c, m.context = some c → c.Ordered)
    (fun _ _ _ h hstep => QueueContext.Ordered.step h hstep) (ordered_attached attach) hrun

end Spgw
