/-
# Which procedures run side by side

`docs/features/message_collisions.md` promises one procedure per session at a time; the code adds
one exception, a Re-Auth-Request next to the procedures it created.
-/

import Spgw.Proc.Queue

namespace Spgw

/-- The procedures that carry `PROC_FLAGS_RUNNING`. -/
def runningProcs (queue : List Proc) : List Proc := queue.filter (·.running)

/-- The first procedure `end_procedure` finds without the flag. -/
def firstWaiting (queue : List Proc) : Option Proc := queue.find? fun p => !p.running

/-- Nothing runs, one procedure runs, or a Re-Auth-Request runs with procedures it has created. -/
def Exclusive (procs : List Proc) : Prop :=
  procs.length ≤ 1 ∨ ∃ rar ∈ procs, rar.procType = .rar ∧
    ∀ p ∈ procs, p.id = rar.id ∨ p.parentProc = some rar.id

instance (procs : List Proc) : Decidable (Exclusive procs) :=
  inferInstanceAs (Decidable (_ ∨ ∃ rar ∈ procs, _))

/-- What runs behind the first procedure of the queue runs next to it, and is its child. -/
def Led : List Proc → Prop
  | [] => True
  | h :: queue => ∀ x ∈ queue, x.running = true →
      h.running = true ∧ h.procType = .rar ∧ x.parentProc = some h.id

theorem Led.exclusive {queue : List Proc} (h : Led queue) : Exclusive (runningProcs queue) := by
  cases queue with
  | nil => exact .inl (Nat.zero_le 1)
  | cons first queue =>
    by_cases hrun : ∃ x ∈ queue, x.running = true
    · obtain ⟨x, hx, hxrun⟩ := hrun
      obtain ⟨hfirst, htype, -⟩ := h x hx hxrun
      refine .inr ⟨first, List.mem_filter.mpr ⟨List.mem_cons_self, hfirst⟩, htype, ?_⟩
      intro p hp
      obtain ⟨hmem, hprun⟩ := List.mem_filter.mp hp
      rcases List.mem_cons.mp hmem with rfl | hmem
      · exact .inl rfl
      · exact .inr (h p hmem hprun).2.2
    · have hnone : runningProcs queue = [] :=
        List.filter_eq_nil_iff.mpr fun x hx hxrun => hrun ⟨x, hx, hxrun⟩
      refine .inl ?_
      rw [runningProcs, List.filter_cons, ← runningProcs, hnone]
      split <;> simp

theorem Led.map {f : Proc → Proc} (hf : ∀ p, (f p).SameProc p) {queue : List Proc}
    (h : Led queue) : Led (queue.map f) := by
  cases queue with
  | nil => trivial
  | cons first queue =>
    intro x hx hxrun
    obtain ⟨p, hp, rfl⟩ := List.mem_map.mp hx
    rw [(hf p).running] at hxrun
    rw [(hf first).running, (hf first).procType, (hf p).parentProc, (hf first).id]
    exact h p hp hxrun

/-- A procedure without children in the queue may leave. -/
theorem Led.filter {queue : List Proc} {id : ProcId} (h : Led queue)
    (hid : ∀ x ∈ queue, x.parentProc ≠ some id) : Led (queue.filter (·.id ≠ id)) := by
  cases queue with
  | nil => trivial
  | cons first queue =>
    by_cases hfirst : first.id = id
    · -- Nothing runs behind the first procedure, since that would be its child.
      have hnone : ∀ x ∈ queue, x.running = false := by
        intro x hx
        by_contra hxrun
        have hparent := (h x hx (Bool.eq_true_of_not_eq_false hxrun)).2.2
        exact hid x (List.mem_cons_of_mem _ hx) (hfirst ▸ hparent)
      rw [List.filter_cons_of_neg (by simp [hfirst])]
      cases hrest : queue.filter (·.id ≠ id) with
      | nil => trivial
      | cons y rest =>
        intro x hx hxrun
        have hmem : x ∈ queue.filter (·.id ≠ id) := hrest ▸ List.mem_cons_of_mem y hx
        rw [hnone x (List.mem_filter.mp hmem).1] at hxrun
        cases hxrun
    · rw [List.filter_cons_of_pos (by simp [hfirst])]
      exact fun x hx => h x (List.mem_filter.mp hx).1

/-- The scan starts one procedure at most. -/
theorem mem_startNext {queue : List Proc} {x : Proc} (hx : x ∈ startNext queue) :
    x ∈ queue ∨ ∃ p ∈ queue, p.running = false ∧ x = p.run := by
  induction queue with
  | nil => exact .inl hx
  | cons p queue ih =>
    cases hp : p.running with
    | false =>
      simp only [startNext, hp, Bool.false_eq_true, if_false] at hx
      rcases List.mem_cons.mp hx with rfl | hx
      · exact .inr ⟨p, List.mem_cons_self, hp, rfl⟩
      · exact .inl (List.mem_cons_of_mem p hx)
    | true =>
      simp only [startNext, hp, if_true] at hx
      rcases List.mem_cons.mp hx with rfl | hx
      · exact .inl List.mem_cons_self
      · rcases ih hx with hx | ⟨q, hq, hqrun, rfl⟩
        · exact .inl (List.mem_cons_of_mem p hx)
        · exact .inr ⟨q, List.mem_cons_of_mem p hq, hqrun, rfl⟩

theorem Led.startNext {queue : List Proc} (h : Led queue)
    (hok : ∀ first ∈ queue.head?, first.running = true → ∀ x ∈ queue, x.running = false →
      first.procType = .rar ∧ x.parentProc = some first.id) : Led (startNext queue) := by
  cases queue with
  | nil => trivial
  | cons first queue =>
    cases hfirst : first.running with
    | false =>
      simp only [Spgw.startNext, hfirst, Bool.false_eq_true, if_false]
      intro x hx hxrun
      have hrun := (h x hx hxrun).1
      rw [hfirst] at hrun
      cases hrun
    | true =>
      simp only [Spgw.startNext, hfirst, if_true]
      intro x hx hxrun
      rcases mem_startNext hx with hx | ⟨p, hp, hprun, rfl⟩
      · exact h x hx hxrun
      · exact ⟨hfirst, hok first rfl hfirst p (List.mem_cons_of_mem first hp) hprun⟩

/-- The UE context an `end_procedure` call goes on with when it is resumed; none
if the call has released it. -/
def resumedContext (m : QueueState) : Option QueueContext := do
  let c ← m.context
  let p ← m.ending.head?
  afterEnd c p

/-- The order of the calls: a child is started when its parent, a Re-Auth-Request, runs as the
first procedure of the queue; a procedure ends when none of its children is in the queue; and where
`end_procedure` looks for the next procedure while the first one of the queue runs, only children of
that one wait. -/
def QueueCallOk (m : QueueState) : QueueCall → Prop
  | .startProcedure new => new.parentProc ≠ none → ∃ first ∈ m.queue.head?,
      first.procType = .rar ∧ first.running = true ∧ new.parentProc = some first.id
  | .childProcAdd _ _ => True
  | .endProcedure id _ => ∀ x ∈ m.queue, x.parentProc ≠ some id
  | .resume => resumedContext m = none ∨ ∀ first ∈ m.queue.head?, first.running = true →
      ∀ x ∈ m.queue, x.running = false → first.procType = .rar ∧ x.parentProc = some first.id

instance (m : QueueState) : ∀ call, Decidable (QueueCallOk m call)
  | .startProcedure _ => inferInstanceAs (Decidable (_ → ∃ first ∈ m.queue.head?, _))
  | .childProcAdd _ _ => isTrue trivial
  | .endProcedure _ _ => inferInstanceAs (Decidable (∀ x ∈ _, _))
  | .resume => inferInstanceAs (Decidable (_ ∨ ∀ first ∈ m.queue.head?, _))

theorem isChildOf_of_none {new : Proc} (h : new.parentProc = none) (temp : Proc) :
    isChildOf new temp = false := by
  simp [isChildOf, h]

theorem allowedParellel_of_none {new : Proc} (h : new.parentProc = none) (queue : List Proc) :
    allowedParellel queue new = false := by
  have hfold : ∀ queue : List Proc, queue.foldl (fun allowed temp =>
      if temp.procType = .rar then if isChildOf new temp then true else allowed else false)
      false = false := by
    intro queue
    induction queue with
    | nil => rfl
    | cons temp queue ih => simpa [isChildOf_of_none h] using ih
  exact hfold queue

theorem led_startProcedure {c : QueueContext} {new : Proc} (h : Led c.pendingSubProcs)
    (hok : new.parentProc ≠ none → ∃ first ∈ c.pendingSubProcs.head?,
      first.procType = .rar ∧ first.running = true ∧ new.parentProc = some first.id) :
    Led (startProcedure c new).pendingSubProcs := by
  unfold startProcedure
  cases hqueue : c.pendingSubProcs with
  | nil => exact fun x hx => absurd hx List.not_mem_nil
  | cons first queue =>
    rw [hqueue] at h hok
    intro x hx hxrun
    rcases List.mem_append.mp hx with hx | hx
    · exact h x hx hxrun
    · obtain rfl := List.mem_singleton.mp hx
      by_cases hparent : new.parentProc = none
      · -- A procedure without a parent waits in a queue that is not empty.
        simp [startsAtOnce, allowedParellel_of_none hparent] at hxrun
      · obtain ⟨p, hp, htype, hrun, hnew⟩ := hok hparent
        obtain rfl := Option.some.inj hp
        exact ⟨hrun, htype, hnew⟩

theorem afterEnd_pendingSubProcs {c c' : QueueContext} {p : Proc} (h : afterEnd c p = some c') :
    c'.pendingSubProcs = c.pendingSubProcs := by
  have hcleanup : ∀ {c'}, cleanupPdn c = some c' → c'.pendingSubProcs = c.pendingSubProcs := by
    intro c' h
    simp only [cleanupPdn] at h
    split_ifs at h
    cases h
    rfl
  unfold afterEnd at h
  split at h
  · split_ifs at h
    · rw [← Option.some.inj h]
    · exact hcleanup h
  · exact hcleanup h
  · exact hcleanup h
  · rw [← Option.some.inj h]

/-- **One call keeps the queue led by its first procedure** if it comes in the order of
`QueueCallOk`. -/
theorem led_queueStep {m m' : QueueState} {call : QueueCall} (h : Led m.queue)
    (hok : QueueCallOk m call) (hstep : queueStep m call = some m') : Led m'.queue := by
  cases call with
  | startProcedure new =>
    obtain ⟨c, hc, -, rfl⟩ := queueStep_startProcedure hstep
    simp only [QueueCallOk, QueueState.queue, hc] at h hok ⊢
    exact led_startProcedure h hok
  | childProcAdd rar child =>
    obtain ⟨c, f, hc, hf, rfl⟩ := queueStep_childProcAdd hstep
    simp only [QueueState.queue, hc] at h ⊢
    exact h.map hf
  | endProcedure id result =>
    obtain ⟨c, p, f, hc, -, -, hf, -, rfl⟩ := queueStep_endProcedure hstep
    simp only [QueueCallOk, QueueState.queue, hc] at h hok ⊢
    exact (h.filter hok).map hf
  | resume =>
    obtain ⟨c, p, rest, hc, hp, rfl⟩ := queueStep_resume hstep
    cases hafter : afterEnd c p with
    | none => trivial
    | some c' =>
      have hq := afterEnd_pendingSubProcs hafter
      simp only [QueueCallOk, resumedContext, QueueState.queue, hc, hp] at h hok
      simp only [QueueState.queue, Option.map_some, hq]
      refine h.startNext (hok.resolve_left ?_)
      simp [hafter]

/-- **Calls that come in the order of `QueueCallOk` never let strangers run side by side.** -/
theorem exclusive_of_callsOk (attach : ProcId) (calls : List QueueCall)
    (hok : Machine.Guarded queueStep QueueCallOk (.attached attach) calls) :
    ∀ m ∈ Machine.trace queueStep (.attached attach) calls, Exclusive (runningProcs m.queue) := by
  have hstart : Led (QueueState.attached attach).queue := fun x hx => absurd hx List.not_mem_nil
  have hled := Machine.trace_invariant (I := fun m => Led m.queue)
    (fun _ _ _ h hg hs => led_queueStep h hg hs) hstart hok
  exact fun m hm => (hled m hm).exclusive

def rarWithBearer : List QueueCall :=
  [.startProcedure { id := 1, procType := .rar }, .endProcedure 0 .success, .resume,
   .childProcAdd 1 2, .startProcedure (rarChild 2 1 .dedBerActivation),
   .endProcedure 2 .success, .endProcedure 1 .success, .resume, .resume]

/-- The calls of `rarWithBearer` meet the condition of `exclusive_of_callsOk`, and
the Re-Auth-Request does run next to its bearer. -/
theorem exclusive_rarWithBearer : (∀ m ∈ Machine.trace queueStep (.attached 0) rarWithBearer,
      Exclusive (runningProcs m.queue)) ∧
    ∃ m ∈ Machine.trace queueStep (.attached 0) rarWithBearer,
      (runningProcs m.queue).map (·.id) = [1, 2] :=
  ⟨exclusive_of_callsOk 0 rarWithBearer (by decide), by decide⟩

/-- Two Re-Auth-Requests arrive during the attach. -/
def rarCollision : List QueueCall :=
  [.startProcedure { id := 1, procType := .rar }, .startProcedure { id := 4, procType := .rar },
   .endProcedure 0 .success, .resume,
   .childProcAdd 1 2, .startProcedure (rarChild 2 1 .dedBerActivation),
   .childProcAdd 1 3, .startProcedure (rarChild 3 1 .nwInitDetach),
   .endProcedure 2 .success, .resume]

/-- **Two Re-Auth-Requests run side by side.** -/
theorem not_exclusive_rarCollision : ¬ ∀ m ∈ Machine.trace queueStep (.attached 0) rarCollision,
      Exclusive (runningProcs m.queue) := by
  decide

end Spgw
