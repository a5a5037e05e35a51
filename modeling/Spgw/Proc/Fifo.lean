/-
# The waiting list of a subscriber

A procedure that `start_procedure` does not run at once waits in `pending_sub_procs`, and the scan
at the end of `end_procedure` starts the first one that waits.
-/

import Spgw.Proc.Invoked

namespace Spgw

open Machine Function

variable {μ : Type*}

/-- The queue, and `msg_info` of each procedure. -/
structure Sched (μ : Type*) where
  queue : QueueState
  msgInfo : ProcId → μ

/-- The calls on a queue, `start_procedure` with the message the procedure was allocated with,
and `SET_PROC_MSG` by the handler of a response. -/
inductive SchedCall (μ : Type*)
  | startProcedure (new : Proc) (msg : μ)
  | setProcMsg (id : ProcId) (msg : μ)
  | childProcAdd (rar child : ProcId)
  | endProcedure (id : ProcId) (result : ProcResult)
  | resume
  deriving DecidableEq

def SchedCall.queueCall : SchedCall μ → Option QueueCall
  | .startProcedure new _ => some (.startProcedure new)
  | .setProcMsg _ _ => none
  | .childProcAdd rar child => some (.childProcAdd rar child)
  | .endProcedure id result => some (.endProcedure id result)
  | .resume => some .resume

/-- What a call does to `msg_info`. -/
def SchedCall.setMsg (msgInfo : ProcId → μ) : SchedCall μ → ProcId → μ
  | .startProcedure new msg => update msgInfo new.id msg
  | .setProcMsg id msg => update msgInfo id msg
  | _ => msgInfo

def schedStep (m : Sched μ) (call : SchedCall μ) : Option (Sched μ) :=
  match call.queueCall with
  | some q => (queueStep m.queue q).map fun queue => { queue, msgInfo := call.setMsg m.msgInfo }
  | none => some { m with msgInfo := call.setMsg m.msgInfo }

def handled (m : Sched μ) (call : SchedCall μ) : Option (ProcId × μ) :=
  (call.queueCall.bind (invoked m.queue)).map fun p => (p.id, call.setMsg m.msgInfo p.id)

def waiting (m : QueueState) : List ProcId := (m.queue.filter fun p => !p.running).map (·.id)

/-- The procedure is in the queue and has been started. -/
def Runs (m : QueueState) (id : ProcId) : Prop := ∃ p ∈ m.queue, p.id = id ∧ p.running = true

/-- The type of a new procedure has a case in `start_procedure_direct`, and a procedure that waits
is not ended and not given another message. -/
def StartAllowed (m : Sched μ) : SchedCall μ → Prop
  | .startProcedure new _ => new.procType.hasStart = true
  | .setProcMsg id _ => id ∉ waiting m.queue
  | .endProcedure id _ => id ∉ waiting m.queue
  | _ => True

instance (m : Sched μ) : ∀ call, Decidable (StartAllowed m call)
  | .startProcedure _ _ => inferInstanceAs (Decidable (_ = true))
  | .setProcMsg _ _ => inferInstanceAs (Decidable (_ ∉ _))
  | .childProcAdd _ _ => isTrue trivial
  | .endProcedure _ _ => inferInstanceAs (Decidable (_ ∉ _))
  | .resume => isTrue trivial

section Waiting

variable {m m' : QueueState} {c : QueueContext} {q : List Proc} {f : Proc → Proc}

theorem waiting_of_context (hc : m.context = some c) :
    waiting m = (c.pendingSubProcs.filter fun p => !p.running).map (·.id) := by
  rw [waiting, queue_of_context hc]

theorem waiting_map (hf : ∀ p, (f p).SameProc p) (q : List Proc) :
    ((q.map f).filter fun p => !p.running).map (·.id) =
      (q.filter fun p => !p.running).map (·.id) := by
  rw [List.filter_map, map_of_sameProc hf fun _ _ hpq => hpq.id]
  congr 2
  funext p
  simp [(hf p).running]

theorem waiting_startNext (q : List Proc) : ((startNext q).filter fun p => !p.running).map (·.id) =
      ((q.filter fun p => !p.running).map (·.id)).tail := by
  induction q with
  | nil => rfl
  | cons p q ih =>
    rw [startNext]
    cases hp : p.running with
    | true => simpa [hp] using ih
    | false => simp [hp]

theorem firstWaiting_eq_none_iff :
    firstWaiting q = none ↔ (q.filter fun p => !p.running).map (·.id) = [] := by
  rw [firstWaiting, List.map_eq_nil_iff, List.filter_eq_nil_iff, List.find?_eq_none]

theorem waiting_eq_cons_of_firstWaiting {p : Proc} (h : firstWaiting q = some p) :
    ∃ rest, (q.filter fun p => !p.running).map (·.id) = p.id :: rest := by
  rw [firstWaiting, ← List.head?_filter] at h
  obtain ⟨rest, hrest⟩ := List.head?_eq_some_iff.mp h
  exact ⟨rest.map (·.id), by rw [hrest]; rfl⟩

theorem mem_ids_of_waiting {id : ProcId} (h : id ∈ waiting m) : ∃ p ∈ m.queue, p.id = id := by
  obtain ⟨p, hp, rfl⟩ := List.mem_map.mp h
  exact ⟨p, (List.mem_filter.mp hp).1, rfl⟩

theorem Runs.not_waiting {id : ProcId} (hord : ∀ c, m.context = some c → c.Ordered)
    (h : Runs m id) : id ∉ waiting m := by
  intro hw
  obtain ⟨p, hp, rfl, hrun⟩ := h
  obtain ⟨p', hp', hid⟩ := List.mem_map.mp hw
  obtain ⟨hp', hwait⟩ := List.mem_filter.mp hp'
  obtain ⟨c, hc⟩ : ∃ c, m.context = some c := by
    cases hc : m.context with
    | none => simp [QueueState.queue, hc] at hp
    | some c => exact ⟨c, rfl⟩
  rw [queue_of_context hc] at hp hp'
  obtain rfl := List.inj_on_of_nodup_map (hord c hc).ids hp' hp hid
  simp [hrun] at hwait

theorem run_mem_startNext {p : Proc} (h : firstWaiting q = some p) : p.run ∈ startNext q := by
  induction q with
  | nil => cases h
  | cons x q ih =>
    rw [startNext]
    cases hx : x.running with
    | true =>
      rw [firstWaiting, List.find?_cons_of_neg (by simp [hx])] at h
      rw [if_pos rfl]
      exact List.mem_cons_of_mem x (ih h)
    | false =>
      rw [firstWaiting, List.find?_cons_of_pos (by simp [hx])] at h
      cases h
      simp

theorem mem_startNext_of_running {p : Proc} (hp : p ∈ q) (hrun : p.running = true) :
    p ∈ startNext q := by
  induction q with
  | nil => cases hp
  | cons x q ih =>
    rw [startNext]
    rcases List.mem_cons.mp hp with rfl | hp
    · rw [if_pos hrun]
      exact List.mem_cons_self ..
    · split_ifs
      · exact List.mem_cons_of_mem x (ih hp)
      · exact List.mem_cons_of_mem _ hp

end Waiting

section Step

variable {m m' : Sched μ} {call : SchedCall μ} {id : ProcId} {msg : μ}

/-- The states of a behaviour: the context is in order, every type has a case, and if something
waits, something runs or an `end_procedure` has not returned yet. -/
structure Sched.Sound (m : Sched μ) : Prop where
  ordered : ∀ c, m.queue.context = some c → c.Ordered
  startable : ∀ p ∈ m.queue.queue, p.procType.hasStart = true
  busy : waiting m.queue ≠ [] → m.queue.ending = [] → ∃ id, Runs m.queue id

inductive Moves (m m' : Sched μ) : SchedCall μ → Prop
  /-- Nothing is started and nothing is queued. -/
  | idle {call : SchedCall μ} (hdone : handled m call = none)
      (hwaiting : waiting m'.queue = waiting m.queue)
      (hstart : ∀ new msg, call ≠ .startProcedure new msg)
      (hresume : call = .resume → waiting m.queue = []) : Moves m m' call
  /-- A procedure is started at once. -/
  | atOnce {new : Proc} {msg : μ} (hdone : handled m (.startProcedure new msg) = some (new.id, msg))
      (hwaiting : waiting m'.queue = waiting m.queue) : Moves m m' (.startProcedure new msg)
  /-- A procedure is queued behind the others. -/
  | queued {new : Proc} {msg : μ} (hdone : handled m (.startProcedure new msg) = none)
      (hwaiting : waiting m'.queue = waiting m.queue ++ [new.id]) :
      Moves m m' (.startProcedure new msg)
  /-- The context is deleted. -/
  | deleted (hdone : handled m .resume = none) (hctx : m'.queue.context = none) :
      Moves m m' .resume
  /-- The first procedure that waits is started. -/
  | next {id : ProcId} {rest : List ProcId} (hdone : handled m .resume = some (id, m.msgInfo id))
      (hbefore : waiting m.queue = id :: rest) (hwaiting : waiting m'.queue = rest) :
      Moves m m' .resume

theorem schedStep_eq_some (h : schedStep m call = some m') : m'.msgInfo = call.setMsg m.msgInfo ∧
      (∀ q, call.queueCall = some q → queueStep m.queue q = some m'.queue) ∧
      (call.queueCall = none → m'.queue = m.queue) := by
  unfold schedStep at h
  cases hq : call.queueCall with
  | none =>
    rw [hq] at h
    cases h
    simp
  | some q =>
    rw [hq] at h
    obtain ⟨queue, hstep, rfl⟩ := Option.map_eq_some_iff.mp h
    simp [hstep]

theorem Moves.of_startProcedure {new : Proc} (hok : new.procType.hasStart = true)
    (hstep : schedStep m (.startProcedure new msg) = some m') :
    Moves m m' (.startProcedure new msg) := by
  obtain ⟨-, hqueue, -⟩ := schedStep_eq_some hstep
  have hqueue := hqueue _ rfl
  obtain ⟨c, hc, -, hm'⟩ := queueStep_startProcedure hqueue
  have hdone : handled m (.startProcedure new msg) =
      if startsAtOnce m.queue.queue new then some (new.id, msg) else none := by
    rw [handled, SchedCall.queueCall, Option.bind_some, invoked, hqueue]
    split_ifs with hstart
    · simp [startedBy, hstart, hok, SchedCall.setMsg]
    · simp [startedBy, hstart]
  have hwaiting : waiting m'.queue = waiting m.queue ++
      if startsAtOnce m.queue.queue new then [] else [new.id] := by
    rw [hm', waiting_of_context rfl, waiting_of_context hc, queue_of_context hc, startProcedure]
    split_ifs with hstart <;> simp [hstart]
  split_ifs at hdone hwaiting with hstart
  · exact .atOnce hdone (by simpa using hwaiting)
  · exact .queued hdone hwaiting

theorem Moves.of_resume (hs : m.Sound) (hstep : schedStep m .resume = some m') :
    Moves m m' .resume := by
  obtain ⟨-, hqueue, -⟩ := schedStep_eq_some hstep
  have hqueue := hqueue _ rfl
  obtain ⟨c, p, rest, hc, hp, hm'⟩ := queueStep_resume hqueue
  have hstarted := startedBy_resume hc hp
  cases hafter : afterEnd c p with
  | none =>
    refine .deleted ?_ (by rw [hm', hafter]; rfl)
    rw [hafter] at hstarted
    rw [handled, SchedCall.queueCall, Option.bind_some, invoked_eq_none_of_startedBy hstarted]
    rfl
  | some c' =>
    obtain rfl := afterEnd_eq_some (hs.ordered c hc).numPdns hafter
    have hwaiting : waiting m'.queue = (waiting m.queue).tail := by
      rw [hm', hafter, Option.map_some, waiting_of_context rfl, waiting_of_context hc,
        waiting_startNext]
    rw [hafter, Option.bind_some] at hstarted
    cases hfirst : firstWaiting c'.pendingSubProcs with
    | none =>
      have hnil : waiting m.queue = [] := by
        rw [waiting_of_context hc]
        exact firstWaiting_eq_none_iff.mp hfirst
      refine .idle ?_ (by rw [hwaiting, hnil]; rfl) (fun _ _ h => (nomatch h)) fun _ => hnil
      rw [handled, SchedCall.queueCall, Option.bind_some,
        invoked_eq_none_of_startedBy (hstarted.trans hfirst)]
      rfl
    | some x =>
      obtain ⟨rest, hrest⟩ := waiting_eq_cons_of_firstWaiting hfirst
      rw [← waiting_of_context hc] at hrest
      have hx : x.procType.hasStart = true :=
        hs.startable x (by rw [queue_of_context hc]; exact List.mem_of_find?_eq_some hfirst)
      have hinvoked : invoked m.queue .resume = some x :=
        invoked_eq_some.mpr ⟨by rw [hqueue]; rfl, hstarted.trans hfirst, hx⟩
      refine .next ?_ hrest (by rw [hwaiting, hrest]; rfl)
      rw [handled, SchedCall.queueCall, Option.bind_some, hinvoked]
      rfl

/-- **Every call that is allowed moves the waiting list in one of these ways.** -/
theorem moves_of_step (hs : m.Sound) (hok : StartAllowed m call)
    (hstep : schedStep m call = some m') : Moves m m' call := by
  cases call with
  | startProcedure new msg => exact .of_startProcedure hok hstep
  | resume => exact .of_resume hs hstep
  | setProcMsg id msg =>
    obtain ⟨-, -, hqueue⟩ := schedStep_eq_some hstep
    exact .idle rfl (by rw [hqueue rfl]) (fun _ _ h => (nomatch h)) fun h => (nomatch h)
  | childProcAdd rar child =>
    obtain ⟨-, hqueue, -⟩ := schedStep_eq_some hstep
    obtain ⟨c, f, hc, hf, hm'⟩ := queueStep_childProcAdd (hqueue _ rfl)
    refine .idle ?_ ?_ (fun _ _ h => (nomatch h)) fun h => (nomatch h)
    · rw [handled, SchedCall.queueCall, Option.bind_some, invoked_eq_none_of_startedBy rfl]
      rfl
    · rw [hm', waiting_of_context rfl, waiting_of_context hc, waiting_map hf]
  | endProcedure id result =>
    obtain ⟨-, hqueue, -⟩ := schedStep_eq_some hstep
    obtain ⟨c, p, f, hc, -, -, hf, -, hm'⟩ := queueStep_endProcedure (hqueue _ rfl)
    refine .idle ?_ ?_ (fun _ _ h => (nomatch h)) fun h => (nomatch h)
    · rw [handled, SchedCall.queueCall, Option.bind_some, invoked_endProcedure]
      rfl
    · simp only [StartAllowed, waiting_of_context hc, List.mem_map, List.mem_filter, not_exists,
        not_and] at hok
      rw [hm', waiting_of_context rfl, waiting_of_context hc, waiting_map hf, List.filter_comm]
      congr 1
      refine List.filter_eq_self.mpr fun x hx => ?_
      simpa using hok x (List.mem_filter.mp hx)

theorem ids_ne_of_startProcedure {new : Proc} (hstep : schedStep m (.startProcedure new msg) = some m') :
    ∀ p ∈ m.queue.queue, p.id ≠ new.id := by
  obtain ⟨c, hc, hnew, -⟩ := queueStep_startProcedure ((schedStep_eq_some hstep).2.1 _ rfl)
  rw [queue_of_context hc]
  exact hnew

theorem msgInfo_of_waiting (hok : StartAllowed m call) (hstep : schedStep m call = some m')
    (hid : id ∈ waiting m.queue) : m'.msgInfo id = m.msgInfo id := by
  rw [(schedStep_eq_some hstep).1]
  cases call with
  | startProcedure new msg =>
    obtain ⟨p, hp, rfl⟩ := mem_ids_of_waiting hid
    exact update_of_ne (ids_ne_of_startProcedure hstep p hp) ..
  | setProcMsg id' msg =>
    have hne : id ≠ id' := by
      rintro rfl
      exact hok hid
    exact update_of_ne hne ..
  | childProcAdd rar child => rfl
  | endProcedure id' result => rfl
  | resume => rfl

theorem runs_of_handled (hstep : schedStep m call = some m') (h : handled m call = some (id, msg)) :
    Runs m'.queue id := by
  obtain ⟨p, hp, heq⟩ := Option.map_eq_some_iff.mp h
  obtain ⟨q, hq, hp⟩ := Option.bind_eq_some_iff.mp hp
  obtain ⟨rfl, -⟩ := Prod.mk.inj heq
  obtain ⟨-, hstarted, -⟩ := invoked_eq_some.mp hp
  have hqueue := (schedStep_eq_some hstep).2.1 q hq
  cases q with
  | startProcedure new =>
    obtain ⟨c, hc, -, hm'⟩ := queueStep_startProcedure hqueue
    simp only [startedBy, Option.ite_none_right_eq_some, Option.some.injEq] at hstarted
    obtain ⟨hstart, rfl⟩ := hstarted
    rw [queue_of_context hc] at hstart
    refine ⟨{ new with running := true }, ?_, rfl, rfl⟩
    simp [hm', QueueState.queue, startProcedure, hstart]
  | resume =>
    obtain ⟨c, e, rest, hc, hending, hm'⟩ := queueStep_resume hqueue
    rw [startedBy_resume hc hending] at hstarted
    obtain ⟨c', hafter, hfirst⟩ := Option.bind_eq_some_iff.mp hstarted
    refine ⟨p.run, ?_, rfl, rfl⟩
    rw [hm', hafter, QueueState.queue, Option.map_some]
    simp only [afterEnd_pendingSubProcs hafter]
    exact run_mem_startNext hfirst
  | childProcAdd rar child => cases hstarted
  | endProcedure id result => cases hstarted

theorem Runs.step (h : Runs m.queue id) (hstep : schedStep m call = some m') :
    (∃ result, call = .endProcedure id result) ∨ m'.queue.context = none ∨ Runs m'.queue id := by
  obtain ⟨p, hp, rfl, hrun⟩ := h
  obtain ⟨-, hqueue, hsame⟩ := schedStep_eq_some hstep
  cases call with
  | setProcMsg id' msg =>
    rw [hsame rfl]
    exact Or.inr (Or.inr ⟨p, hp, rfl, hrun⟩)
  | startProcedure new msg =>
    obtain ⟨c, hc, -, hm'⟩ := queueStep_startProcedure (hqueue _ rfl)
    rw [queue_of_context hc] at hp
    refine Or.inr (Or.inr ⟨p, ?_, rfl, hrun⟩)
    rw [hm', QueueState.queue]
    exact List.mem_append_left _ hp
  | childProcAdd rar child =>
    obtain ⟨c, f, hc, hf, hm'⟩ := queueStep_childProcAdd (hqueue _ rfl)
    rw [queue_of_context hc] at hp
    refine Or.inr (Or.inr ⟨f p, ?_, (hf p).id, (hf p).running.trans hrun⟩)
    rw [hm', QueueState.queue]
    exact List.mem_map_of_mem hp
  | endProcedure id' result =>
    by_cases hid : p.id = id'
    · exact Or.inl ⟨result, by rw [hid]⟩
    · obtain ⟨c, p', f, hc, -, -, hf, -, hm'⟩ := queueStep_endProcedure (hqueue _ rfl)
      rw [queue_of_context hc] at hp
      refine Or.inr (Or.inr ⟨f p, ?_, (hf p).id, (hf p).running.trans hrun⟩)
      rw [hm', QueueState.queue]
      exact List.mem_map_of_mem (List.mem_filter.mpr ⟨hp, by simpa using hid⟩)
  | resume =>
    obtain ⟨c, e, rest, hc, -, hm'⟩ := queueStep_resume (hqueue _ rfl)
    rw [queue_of_context hc] at hp
    cases hafter : afterEnd c e with
    | none => exact Or.inr (Or.inl (by rw [hm', hafter]; rfl))
    | some c' =>
      refine Or.inr (Or.inr ⟨p, ?_, rfl, hrun⟩)
      rw [hm', hafter, QueueState.queue, Option.map_some]
      simp only [afterEnd_pendingSubProcs hafter]
      exact mem_startNext_of_running hp hrun

theorem Runs.not_handled (hs : m.Sound) (hok : StartAllowed m call)
    (hstep : schedStep m call = some m') (h : Runs m.queue id) : handled m call ≠ some (id, msg) := by
  intro hdone
  cases moves_of_step hs hok hstep with
  | idle hnone => simp [hnone] at hdone
  | atOnce hnew =>
    obtain ⟨rfl, -⟩ := Prod.mk.inj (Option.some.inj (hnew.symm.trans hdone))
    obtain ⟨p, hp, hid, -⟩ := h
    exact ids_ne_of_startProcedure hstep p hp hid
  | queued hnone => simp [hnone] at hdone
  | deleted hnone => simp [hnone] at hdone
  | next hnext hbefore =>
    obtain ⟨rfl, -⟩ := Prod.mk.inj (Option.some.inj (hnext.symm.trans hdone))
    exact h.not_waiting hs.ordered (by rw [hbefore]; exact List.mem_cons_self ..)

theorem ending_of_step (hstep : schedStep m call = some m') (hresume : call ≠ .resume)
    (h : m'.queue.ending = []) :
    m.queue.ending = [] ∧ ∀ id result, call ≠ .endProcedure id result := by
  obtain ⟨-, hqueue, hsame⟩ := schedStep_eq_some hstep
  cases call with
  | startProcedure new msg =>
    obtain ⟨c, hc, -, hm'⟩ := queueStep_startProcedure (hqueue _ rfl)
    rw [hm'] at h
    exact ⟨h, fun _ _ h => (nomatch h)⟩
  | setProcMsg id msg =>
    rw [hsame rfl] at h
    exact ⟨h, fun _ _ h => (nomatch h)⟩
  | childProcAdd rar child =>
    obtain ⟨c, f, hc, hf, hm'⟩ := queueStep_childProcAdd (hqueue _ rfl)
    rw [hm'] at h
    exact ⟨h, fun _ _ h => (nomatch h)⟩
  | endProcedure id result =>
    obtain ⟨c, p, f, -, -, -, -, -, hm'⟩ := queueStep_endProcedure (hqueue _ rfl)
    rw [hm'] at h
    cases h
  | resume => exact absurd rfl hresume

theorem Sched.Sound.exists_runs (hs : m.Sound) (hqueue : m.queue.queue ≠ [])
    (hending : m.queue.ending = []) : ∃ id, Runs m.queue id := by
  obtain ⟨p, rest, hp⟩ := List.exists_cons_of_ne_nil hqueue
  have hmem : p ∈ m.queue.queue := by
    rw [hp]
    exact List.mem_cons_self ..
  cases hrun : p.running with
  | true => exact ⟨p.id, p, hmem, rfl, hrun⟩
  | false =>
    refine hs.busy (List.ne_nil_of_mem (a := p.id) ?_) hending
    exact List.mem_map_of_mem (List.mem_filter.mpr ⟨hmem, by simp [hrun]⟩)

theorem Sched.Sound.busy_of_step (hs : m.Sound) (hok : StartAllowed m call)
    (hstep : schedStep m call = some m') (hwaiting : waiting m'.queue ≠ [])
    (hending : m'.queue.ending = []) : ∃ id, Runs m'.queue id := by
  have hctx : m'.queue.context ≠ none := by
    intro hnone
    rw [waiting, QueueState.queue, hnone] at hwaiting
    exact hwaiting rfl
  -- Whatever runs before the call runs after it, unless the call ends it.
  have hkeep (hresume : call ≠ .resume) (hqueue : m.queue.queue ≠ []) : ∃ id, Runs m'.queue id := by
    obtain ⟨hending, hend⟩ := ending_of_step hstep hresume hending
    obtain ⟨id, hrun⟩ := hs.exists_runs hqueue hending
    rcases hrun.step hstep with ⟨result, hcall⟩ | hnone | hrun
    · exact absurd hcall (hend id result)
    · exact absurd hnone hctx
    · exact ⟨id, hrun⟩
  have hqueue_of_waiting (h : waiting m.queue ≠ []) : m.queue.queue ≠ [] := by
    intro hnil
    rw [waiting, hnil] at h
    exact h rfl
  cases moves_of_step hs hok hstep with
  | idle _ hsame _ hresume =>
    rw [hsame] at hwaiting
    exact hkeep (fun h => hwaiting (hresume h)) (hqueue_of_waiting hwaiting)
  | atOnce hdone => exact ⟨_, runs_of_handled hstep hdone⟩
  | @queued new msg hdone =>
    have hcall : SchedCall.startProcedure new msg ≠ .resume := by simp
    refine hkeep hcall fun hnil => ?_
    have hstart : startsAtOnce m.queue.queue new = true := by rw [hnil]; rfl
    have hinvoked : invoked m.queue (.startProcedure new) = some new :=
      invoked_eq_some.mpr ⟨by rw [(schedStep_eq_some hstep).2.1 _ rfl]; rfl,
        by rw [startedBy, if_pos hstart], hok⟩
    rw [handled, SchedCall.queueCall, Option.bind_some, hinvoked] at hdone
    cases hdone
  | deleted _ hnone => exact absurd hnone hctx
  | next hdone => exact ⟨_, runs_of_handled hstep hdone⟩

theorem Sched.Sound.startable_of_step (hs : m.Sound) (hok : StartAllowed m call)
    (hstep : schedStep m call = some m') : ∀ p ∈ m'.queue.queue, p.procType.hasStart = true := by
  have htypes : ∀ t ∈ m'.queue.queue.map (·.procType), t.hasStart = true := by
    have hbefore : ∀ t ∈ m.queue.queue.map (·.procType), t.hasStart = true := by
      simpa using hs.startable
    obtain ⟨-, hqueue, hsame⟩ := schedStep_eq_some hstep
    cases call with
    | setProcMsg id msg =>
      rw [hsame rfl]
      exact hbefore
    | startProcedure new msg =>
      obtain ⟨c, hc, -, hm'⟩ := queueStep_startProcedure (hqueue _ rfl)
      rw [queue_of_context hc] at hbefore
      intro t ht
      rw [hm', QueueState.queue, startProcedure, List.map_append] at ht
      rcases List.mem_append.mp ht with ht | ht
      · exact hbefore t ht
      · rw [List.mem_singleton.mp ht]
        exact hok
    | childProcAdd rar child =>
      obtain ⟨c, f, hc, hf, hm'⟩ := queueStep_childProcAdd (hqueue _ rfl)
      rw [queue_of_context hc] at hbefore
      rw [hm', QueueState.queue, map_of_sameProc hf fun _ _ hpq => hpq.procType]
      exact hbefore
    | endProcedure id result =>
      obtain ⟨c, p, f, hc, -, -, hf, -, hm'⟩ := queueStep_endProcedure (hqueue _ rfl)
      rw [queue_of_context hc] at hbefore
      rw [hm', QueueState.queue, map_of_sameProc hf fun _ _ hpq => hpq.procType]
      exact fun t ht => hbefore t ((List.filter_sublist.map _).subset ht)
    | resume =>
      obtain ⟨c, p, rest, hc, -, hm'⟩ := queueStep_resume (hqueue _ rfl)
      rw [queue_of_context hc] at hbefore
      rw [hm']
      cases hafter : afterEnd c p with
      | none => exact fun t ht => absurd ht List.not_mem_nil
      | some c' =>
        rw [QueueState.queue, Option.map_some, map_startNext fun _ => rfl]
        rwa [← afterEnd_pendingSubProcs hafter] at hbefore
  simpa using htypes

/-- **One call keeps the state sound.** -/
theorem Sched.Sound.step (hs : m.Sound) (hok : StartAllowed m call)
    (hstep : schedStep m call = some m') : m'.Sound where
  ordered := by
    obtain ⟨-, hqueue, hsame⟩ := schedStep_eq_some hstep
    cases hq : call.queueCall with
    | none =>
      rw [hsame hq]
      exact hs.ordered
    | some q => exact QueueContext.Ordered.step hs.ordered (hqueue q hq)
  startable := hs.startable_of_step hok hstep
  busy := hs.busy_of_step hok hstep

theorem Moves.sublist {t : List ProcId} (h : Moves m m' call)
    (hl : List.Sublist (id :: t) (waiting m.queue)) :
    handled m call = some (id, m.msgInfo id) ∨ m'.queue.context = none ∨
      List.Sublist (id :: t) (waiting m'.queue) := by
  cases h with
  | idle _ hwaiting => exact Or.inr (Or.inr (hwaiting ▸ hl))
  | atOnce _ hwaiting => exact Or.inr (Or.inr (hwaiting ▸ hl))
  | queued _ hwaiting =>
    rw [hwaiting]
    exact Or.inr (Or.inr (hl.trans (List.sublist_append_left ..)))
  | deleted _ hctx => exact Or.inr (Or.inl hctx)
  | next hdone hbefore hwaiting =>
    rw [hbefore] at hl
    rcases List.cons_sublist_cons'.mp hl with hl | ⟨rfl, -⟩
    · exact Or.inr (Or.inr (hwaiting ▸ hl))
    · exact Or.inl hdone

theorem Moves.idxOf_le (h : Moves m m' call) (hid : id ∈ waiting m'.queue)
    (hbefore : id ∈ waiting m.queue) (hnot : handled m call ≠ some (id, m.msgInfo id)) :
    (waiting m'.queue).idxOf id ≤ (waiting m.queue).idxOf id ∧
      (call = .resume → m'.queue.context = none ∨
        (waiting m'.queue).idxOf id < (waiting m.queue).idxOf id) := by
  cases h with
  | idle _ hwaiting _ hresume =>
    rw [hwaiting]
    refine ⟨le_rfl, fun h => ?_⟩
    rw [hresume h] at hbefore
    cases hbefore
  | atOnce _ hwaiting =>
    rw [hwaiting]
    exact ⟨le_rfl, fun h => (nomatch h)⟩
  | queued _ hwaiting =>
    rw [hwaiting, List.idxOf_append_of_mem hbefore]
    exact ⟨le_rfl, fun h => (nomatch h)⟩
  | deleted _ hctx =>
    rw [waiting, QueueState.queue, hctx] at hid
    cases hid
  | @next x rest hdone hbefore' hwaiting =>
    have hne : x ≠ id := by
      rintro rfl
      exact hnot hdone
    have hplace : (waiting m.queue).idxOf id = (waiting m'.queue).idxOf id + 1 := by
      rw [hbefore', hwaiting, List.idxOf_cons_ne _ hne]
    exact ⟨by omega, fun _ => Or.inr (by omega)⟩

theorem Moves.eq_of_handled (hstep : schedStep m call = some m') (h : Moves m m' call)
    (hid : id ∈ waiting m.queue) (hdone : handled m call = some (id, msg)) :
    (∃ rest, waiting m.queue = id :: rest) ∧ msg = m.msgInfo id := by
  cases h with
  | idle hnone => simp [hnone] at hdone
  | atOnce hnew =>
    obtain ⟨rfl, -⟩ := Prod.mk.inj (Option.some.inj (hnew.symm.trans hdone))
    obtain ⟨p, hp, hpid⟩ := mem_ids_of_waiting hid
    exact absurd hpid (ids_ne_of_startProcedure hstep p hp)
  | queued hnone => simp [hnone] at hdone
  | deleted hnone => simp [hnone] at hdone
  | next hnext hbefore =>
    obtain ⟨rfl, rfl⟩ := Prod.mk.inj (Option.some.inj (hnext.symm.trans hdone))
    exact ⟨⟨_, hbefore⟩, rfl⟩

theorem Sched.Sound.nodup_waiting (hs : m.Sound) : (waiting m.queue).Nodup := by
  cases hc : m.queue.context with
  | none =>
    rw [waiting, QueueState.queue, hc]
    exact List.nodup_nil
  | some c =>
    rw [waiting_of_context hc]
    exact (hs.ordered c hc).ids.sublist (List.filter_sublist.map _)

theorem handled_of_freed (h : m.queue.context = none) : handled m call = none := by
  rw [handled]
  cases call.queueCall with
  | none => rfl
  | some q => rw [Option.bind_some, invoked_of_freed h]; rfl

theorem freed_of_step (h : m.queue.context = none) (hstep : schedStep m call = some m') :
    m'.queue.context = none := by
  obtain ⟨-, hqueue, hsame⟩ := schedStep_eq_some hstep
  cases hq : call.queueCall with
  | none => rw [hsame hq, h]
  | some q =>
    have hstep := hqueue q hq
    rw [queueStep_of_freed h] at hstep
    cases hstep

theorem queue_eq_nil_of_handled {new : Proc} {x : ProcId × μ} (h : new.parentProc = none)
    (hdone : handled m (.startProcedure new msg) = some x) : m.queue.queue = [] := by
  have hfold (q : List Proc) : allowedParellel q new = false := by
    unfold allowedParellel
    induction q with
    | nil => rfl
    | cons p q ih => simpa [isChildOf, h] using ih
  obtain ⟨p, hp, -⟩ := Option.map_eq_some_iff.mp hdone
  obtain ⟨-, hstarted, -⟩ := invoked_eq_some.mp hp
  simp only [startedBy, startsAtOnce, hfold, Bool.or_false, Option.ite_none_right_eq_some] at hstarted
  exact List.isEmpty_iff.mp hstarted.1

end Step

end Spgw
