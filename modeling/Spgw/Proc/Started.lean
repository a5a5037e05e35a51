/-
# Every procedure is started once, and in order

`Spgw.Proc.Fifo` says what one call does to the waiting list.
-/

import Spgw.Lib.Temporal
import Spgw.Proc.Fifo

namespace Spgw

open Machine

variable {μ : Type*}

def Sched.attached (attach : ProcId) (msgInfo : ProcId → μ) : Sched μ :=
  { queue := .attached attach, msgInfo }

def handledAt (b : Behaviour (@schedStep μ)) (n : ℕ) : Option (ProcId × μ) :=
  (b.event n).bind (handled (b.state n))

/-- **Every procedure whose handler has been invoked calls `end_procedure` in the end**, and
`end_procedure` returns, as long as the context is there. -/
structure Fair (b : Behaviour (@schedStep μ)) : Prop where
  ends : ∀ n, ∀ p ∈ (b.state n).queue.queue, p.running = true → p.procType.hasStart = true →
    ∃ k, n ≤ k ∧ ((b.state k).queue.context = none ∨
      ∃ result, b.event k = some (.endProcedure p.id result))
  returns : ∀ n, (b.state n).queue.ending ≠ [] →
    ∃ k, n ≤ k ∧ ((b.state k).queue.context = none ∨ b.event k = some .resume)

/-- From moment `n` on the procedure is invoked once before its end, and it gets `msg`. -/
def StartedOnce (b : Behaviour (@schedStep μ)) (n : ℕ) (id : ProcId) (msg : μ) : Prop :=
  ∃ k, n ≤ k ∧ handledAt b k = some (id, msg) ∧ ∀ j msg', n ≤ j →
      (∀ i result, n ≤ i → i < j → b.event i ≠ some (.endProcedure id result)) →
      handledAt b j = some (id, msg') → j = k

/-- The context is deleted before the procedure is started. -/
def DeletedWhileWaiting (b : Behaviour (@schedStep μ)) (n : ℕ) (id : ProcId) : Prop :=
  ∃ k, n ≤ k ∧ (b.state k).queue.context = none ∧
    ∀ j msg, n ≤ j → j < k → handledAt b j ≠ some (id, msg)

/-- A procedure without a parent is handled only after all that were started before it. -/
def InOrder (b : Behaviour (@schedStep μ)) : Prop :=
  ∀ i j l p q msg msg' msg'', i < j → b.event i = some (.startProcedure p msg) →
    b.event j = some (.startProcedure q msg') → q.parentProc = none →
    j ≤ l → handledAt b l = some (q.id, msg'') →
    ∃ k, i ≤ k ∧ k < l ∧ handledAt b k = some (p.id, msg)

variable {b : Behaviour (@schedStep μ)} {attach : ProcId} {msgInfo : ProcId → μ} {n k : ℕ}
  {id : ProcId} {msg : μ} {t : List ProcId}

theorem sound_attached : (Sched.attached attach msgInfo).Sound where
  ordered := ordered_attached attach
  startable p hp := by
    obtain rfl := List.mem_singleton.mp hp
    rfl
  busy h := absurd rfl h

theorem freed_of_le (h : (b.state n).queue.context = none) (hk : n ≤ k) :
    (b.state k).queue.context = none := by
  refine (until_next (P := fun k => (b.state k).queue.context = none) (Q := fun _ => False) ?_ h
    hk).resolve_left ?_
  · intro k _ hP
    cases he : b.event k with
    | none => exact Or.inr (by rw [b.rests k he]; exact hP)
    | some call => exact Or.inr (freed_of_step hP (b.moves k call he))
  · rintro ⟨_, _, _, h⟩
    exact h

theorem handledAt_of_freed (h : (b.state k).queue.context = none) : handledAt b k = none := by
  rw [handledAt]
  cases b.event k with
  | none => rfl
  | some call => exact handled_of_freed h

/-- The procedure waits at the moment, with others behind it, and its message is `msg`. -/
structure WaitsAt (b : Behaviour (@schedStep μ)) (id : ProcId) (t : List ProcId) (msg : μ) (k : ℕ) :
    Prop where
  sublist : List.Sublist (id :: t) (waiting (b.state k).queue)
  msgInfo : (b.state k).msgInfo id = msg

theorem WaitsAt.mem (h : WaitsAt b id t msg k) : id ∈ waiting (b.state k).queue :=
  h.sublist.subset (List.mem_cons_self ..)

section Allowed

variable (hsound : ∀ n, (b.state n).Sound) (hallowed : b.Guarded StartAllowed)

include hsound hallowed

/-- **A moment hands the waiting procedures on to the next.** -/
theorem WaitsAt.next (h : WaitsAt b id t msg k) :
    (handledAt b k = some (id, msg) ∨ (b.state (k + 1)).queue.context = none) ∨
      WaitsAt b id t msg (k + 1) := by
  cases he : b.event k with
  | none => exact Or.inr ⟨by rw [b.rests k he]; exact h.sublist, by rw [b.rests k he]; exact h.msgInfo⟩
  | some call =>
    have hstep := b.moves k call he
    have hok := hallowed k call he
    rcases (moves_of_step (hsound k) hok hstep).sublist h.sublist with hhandled | hfreed | hl
    · exact Or.inl (Or.inl (by rw [handledAt, he, Option.bind_some, hhandled, h.msgInfo]))
    · exact Or.inl (Or.inr hfreed)
    · exact Or.inr ⟨hl, (msgInfo_of_waiting hok hstep h.mem).trans h.msgInfo⟩

theorem WaitsAt.until (h : WaitsAt b id t msg n) (hk : n ≤ k) :
    (∃ j, n ≤ j ∧ j < k ∧ handledAt b j = some (id, msg)) ∨ (b.state k).queue.context = none ∨
      WaitsAt b id t msg k := by
  rcases until_next (fun j _ hj => hj.next hsound hallowed) h hk with
    ⟨j, hnj, hjk, hhandled | hfreed⟩ | hwaits
  · exact Or.inl ⟨j, hnj, hjk, hhandled⟩
  · exact Or.inr (Or.inl (freed_of_le hfreed hjk))
  · exact Or.inr (Or.inr hwaits)

theorem WaitsAt.msg_eq {msg' : μ} (h : WaitsAt b id t msg k)
    (hhandled : handledAt b k = some (id, msg')) : msg' = msg := by
  obtain ⟨call, he, hhandled⟩ := Option.bind_eq_some_iff.mp hhandled
  have hstep := b.moves k call he
  obtain ⟨-, rfl⟩ :=
    (moves_of_step (hsound k) (hallowed k call he) hstep).eq_of_handled hstep h.mem hhandled
  exact h.msgInfo

theorem waitsAt_of_startProcedure {new : Proc} (he : b.event n = some (.startProcedure new msg)) :
    handledAt b n = some (new.id, msg) ∨ handledAt b n = none ∧
      waiting (b.state (n + 1)).queue = waiting (b.state n).queue ++ [new.id] ∧
      (b.state (n + 1)).msgInfo new.id = msg := by
  have hstep := b.moves n _ he
  have hmsg : (b.state (n + 1)).msgInfo new.id = msg := by
    rw [(schedStep_eq_some hstep).1]
    exact Function.update_self ..
  simp only [handledAt, he, Option.bind_some]
  cases moves_of_step (hsound n) (hallowed n _ he) hstep with
  | idle _ _ hstart => exact absurd rfl (hstart new msg)
  | atOnce hhandled => exact Or.inl hhandled
  | queued hhandled hwaiting => exact Or.inr ⟨hhandled, hwaiting, hmsg⟩

theorem exists_end_of_handled {j : ℕ} {msg' : μ} (hk : handledAt b k = some (id, msg)) (hkj : k < j)
    (hj : handledAt b j = some (id, msg')) :
    ∃ i result, k < i ∧ i < j ∧ b.event i = some (.endProcedure id result) := by
  have hstart : Runs (b.state (k + 1)).queue id := by
    obtain ⟨call, he, hhandled⟩ := Option.bind_eq_some_iff.mp hk
    exact runs_of_handled (b.moves k call he) hhandled
  have hnext (i : ℕ) (_ : k + 1 ≤ i)
      (hi : (b.state i).queue.context = none ∨ Runs (b.state i).queue id) :
      (∃ result, b.event i = some (.endProcedure id result)) ∨
        ((b.state (i + 1)).queue.context = none ∨ Runs (b.state (i + 1)).queue id) := by
    cases he : b.event i with
    | none => exact Or.inr (by rw [b.rests i he]; exact hi)
    | some call =>
      rcases hi with hfreed | hrun
      · exact Or.inr (Or.inl (freed_of_step hfreed (b.moves i call he)))
      · rcases hrun.step (b.moves i call he) with ⟨result, rfl⟩ | hfreed | hrun
        · exact Or.inl ⟨result, rfl⟩
        · exact Or.inr (Or.inl hfreed)
        · exact Or.inr (Or.inr hrun)
  rcases until_next hnext (Or.inr hstart) hkj with ⟨i, hki, hij, result, he⟩ | hfreed | hrun
  · exact ⟨i, result, hki, hij, he⟩
  · rw [handledAt_of_freed hfreed] at hj
    cases hj
  · obtain ⟨call, he, hhandled⟩ := Option.bind_eq_some_iff.mp hj
    exact absurd hhandled (hrun.not_handled (hsound j) (hallowed j call he) (b.moves j call he))

omit hallowed in
/-- **While a procedure waits, some `end_procedure` returns.** -/
theorem exists_resume (hfair : Fair b) (h : waiting (b.state n).queue ≠ []) :
    ∃ k, n ≤ k ∧ ((b.state k).queue.context = none ∨ b.event k = some .resume) := by
  by_cases hending : (b.state n).queue.ending = []
  · obtain ⟨id, p, hp, rfl, hrun⟩ := (hsound n).busy h hending
    obtain ⟨k, hk, hfreed | ⟨result, he⟩⟩ := hfair.ends n p hp hrun ((hsound n).startable p hp)
    · exact ⟨k, hk, Or.inl hfreed⟩
    · have hstep := b.moves k _ he
      obtain ⟨c, e, f, -, -, -, -, -, hm'⟩ :=
        queueStep_endProcedure ((schedStep_eq_some hstep).2.1 _ rfl)
      obtain ⟨l, hl, hres⟩ := hfair.returns (k + 1) (by rw [hm']; exact List.cons_ne_nil _ _)
      exact ⟨l, by omega, hres⟩
  · exact hfair.returns n hending

theorem WaitsAt.idxOf_next (h : WaitsAt b id [] msg k) :
    (handledAt b k = some (id, msg) ∨ (b.state (k + 1)).queue.context = none) ∨
      WaitsAt b id [] msg (k + 1) ∧
        (waiting (b.state (k + 1)).queue).idxOf id ≤ (waiting (b.state k).queue).idxOf id ∧
        (b.event k = some .resume →
          (waiting (b.state (k + 1)).queue).idxOf id < (waiting (b.state k).queue).idxOf id) := by
  rcases h.next hsound hallowed with hdone | hwaits
  · exact Or.inl hdone
  · cases he : b.event k with
    | none => exact Or.inr ⟨hwaits, by rw [b.rests k he], fun h => (nomatch h)⟩
    | some call =>
      have hmoves := moves_of_step (hsound k) (hallowed k call he) (b.moves k call he)
      by_cases hhandled : handled (b.state k) call = some (id, (b.state k).msgInfo id)
      · exact Or.inl (Or.inl (by rw [handledAt, he, Option.bind_some, hhandled, h.msgInfo]))
      · obtain ⟨hle, hlt⟩ := hmoves.idxOf_le hwaits.mem h.mem hhandled
        by_cases hfreed : (b.state (k + 1)).queue.context = none
        · exact Or.inl (Or.inr hfreed)
        · exact Or.inr ⟨hwaits, hle, fun h => (hlt (Option.some.inj h)).resolve_left hfreed⟩

theorem WaitsAt.exists_handledAt (hfair : Fair b) (h : WaitsAt b id [] msg n) :
    ∃ k, n ≤ k ∧ (handledAt b k = some (id, msg) ∨ (b.state k).queue.context = none) := by
  refine exists_of_rank (P := WaitsAt b id [] msg) (fun k => (waiting (b.state k).queue).idxOf id)
    ?_ h
  intro k hk
  obtain ⟨l, hkl, hl⟩ := exists_resume hsound hfair (List.ne_nil_of_mem hk.mem)
  have hnext (j : ℕ) (_ : k ≤ j) (hj : WaitsAt b id [] msg j ∧
      (waiting (b.state j).queue).idxOf id ≤ (waiting (b.state k).queue).idxOf id) :
      (handledAt b j = some (id, msg) ∨ (b.state (j + 1)).queue.context = none) ∨
        (WaitsAt b id [] msg (j + 1) ∧ (waiting (b.state (j + 1)).queue).idxOf id ≤
          (waiting (b.state k).queue).idxOf id) := by
    rcases hj.1.idxOf_next hsound hallowed with hdone | ⟨hwaits, hle, -⟩
    · exact Or.inl hdone
    · exact Or.inr ⟨hwaits, hle.trans hj.2⟩
  rcases until_next hnext ⟨hk, le_rfl⟩ hkl with ⟨j, hkj, hjl, hhandled | hfreed⟩ | ⟨hwaits, hle⟩
  · exact ⟨j, hkj, Or.inl (Or.inl hhandled)⟩
  · exact ⟨j + 1, by omega, Or.inl (Or.inr hfreed)⟩
  · rcases hl with hfreed | he
    · exact ⟨l, hkl, Or.inl (Or.inr hfreed)⟩
    · rcases hwaits.idxOf_next hsound hallowed with (hhandled | hfreed) | ⟨hwaits, -, hlt⟩
      · exact ⟨l, hkl, Or.inl (Or.inl hhandled)⟩
      · exact ⟨l + 1, by omega, Or.inl (Or.inr hfreed)⟩
      · exact ⟨l + 1, by omega, Or.inr ⟨hwaits, (hlt he).trans_le hle⟩⟩

/-- **A procedure that is given to `start_procedure` is invoked once, with its message** -/
theorem startedOnce_or_deleted (hfair : Fair b) {new : Proc}
    (he : b.event n = some (.startProcedure new msg)) :
    StartedOnce b n new.id msg ∨ DeletedWhileWaiting b n new.id := by
  classical
  have hexists : ∃ k, n ≤ k ∧
      ((∃ msg', handledAt b k = some (new.id, msg')) ∨ (b.state k).queue.context = none) := by
    rcases waitsAt_of_startProcedure hsound hallowed he with hhandled | ⟨-, hwaiting, hmsg⟩
    · exact ⟨n, le_rfl, Or.inl ⟨msg, hhandled⟩⟩
    · have hwaits : WaitsAt b new.id [] msg (n + 1) := ⟨by simp [hwaiting], hmsg⟩
      obtain ⟨k, hk, hdone⟩ := hwaits.exists_handledAt hsound hallowed hfair
      exact ⟨k, by omega, hdone.imp_left fun h => ⟨msg, h⟩⟩
  -- The first moment at which one of the two happens.
  obtain ⟨hnk, hdone⟩ := Nat.find_spec hexists
  have hfirst (j : ℕ) (hnj : n ≤ j) (hj : j < Nat.find hexists) :
      (∀ msg', handledAt b j ≠ some (new.id, msg')) ∧ (b.state j).queue.context ≠ none := by
    have hnot := Nat.find_min hexists hj
    exact ⟨fun msg' h => hnot ⟨hnj, Or.inl ⟨msg', h⟩⟩, fun h => hnot ⟨hnj, Or.inr h⟩⟩
  generalize Nat.find hexists = k at hnk hdone hfirst
  rcases hdone with ⟨msg', hhandled⟩ | hfreed
  · have hmsg : msg' = msg := by
      rcases waitsAt_of_startProcedure hsound hallowed he with hnow | ⟨hnone, hwaiting, hmsg⟩
      · rcases hnk.eq_or_lt with rfl | hlt
        · exact (Prod.mk.inj (Option.some.inj (hhandled.symm.trans hnow))).2
        · exact absurd hnow ((hfirst n le_rfl hlt).1 msg)
      · have hlt : n < k := by
          refine hnk.lt_of_ne ?_
          rintro rfl
          rw [hnone] at hhandled
          cases hhandled
        have hwaits : WaitsAt b new.id [] msg (n + 1) := ⟨by simp [hwaiting], hmsg⟩
        rcases hwaits.until hsound hallowed hlt with ⟨j, hnj, hjk, hj⟩ | hfreed | hwaits
        · exact absurd hj ((hfirst j (by omega) hjk).1 msg)
        · rw [handledAt_of_freed hfreed] at hhandled
          cases hhandled
        · exact hwaits.msg_eq hsound hallowed hhandled
    subst hmsg
    refine Or.inl ⟨k, hnk, hhandled, fun j msg'' hnj hnoend hj => ?_⟩
    by_contra hne
    rcases Nat.lt_or_gt_of_ne hne with hlt | hgt
    · exact (hfirst j hnj hlt).1 msg'' hj
    · obtain ⟨i, result, hki, hij, hend⟩ := exists_end_of_handled hsound hallowed hhandled hgt hj
      exact hnoend i result (by omega) hij hend
  · exact Or.inr ⟨k, hnk, hfreed, fun j msg' hnj hj => (hfirst j hnj hj).1 msg'⟩

/-- **Procedures without a parent are invoked in the order in which they were queued.** -/
theorem inOrder : InOrder b := by
  intro i j l p q msg msg' msg'' hij hp hq hparent hjl hhandled
  rcases waitsAt_of_startProcedure hsound hallowed hp with hnow | ⟨-, hwaiting, hmsg⟩
  · exact ⟨i, le_rfl, by omega, hnow⟩
  have hfreed_of (k : ℕ) (hk : k ≤ l) (h : (b.state k).queue.context = none) : False := by
    rw [handledAt_of_freed (freed_of_le h hk)] at hhandled
    cases hhandled
  have hwaits : WaitsAt b p.id [] msg (i + 1) := ⟨by simp [hwaiting], hmsg⟩
  rcases hwaits.until hsound hallowed hij with ⟨k, hik, hkj, hk⟩ | hfreed | hwaits
  · exact ⟨k, by omega, by omega, hk⟩
  · exact (hfreed_of j hjl hfreed).elim
  -- `p` still waits when `q` arrives, so `q` is queued behind it.
  rcases waitsAt_of_startProcedure hsound hallowed hq with hnow | ⟨hnone, hbehind, -⟩
  · rw [handledAt, hq, Option.bind_some] at hnow
    have hmem := hwaits.mem
    rw [waiting, queue_eq_nil_of_handled hparent hnow] at hmem
    cases hmem
  have hjl : j + 1 ≤ l := by
    refine hjl.lt_of_ne ?_
    rintro rfl
    rw [hnone] at hhandled
    cases hhandled
  have hboth : WaitsAt b p.id [q.id] msg (j + 1) := by
    rcases hwaits.next hsound hallowed with (hnow | hfreed) | hnext
    · rw [hnone] at hnow
      cases hnow
    · exact (hfreed_of _ hjl hfreed).elim
    · refine ⟨?_, hnext.msgInfo⟩
      rw [hbehind]
      exact hwaits.sublist.append (List.Sublist.refl [q.id])
  rcases hboth.until hsound hallowed hjl with ⟨k, hjk, hkl, hk⟩ | hfreed | hboth
  · exact ⟨k, by omega, hkl, hk⟩
  · exact (hfreed_of l le_rfl hfreed).elim
  -- Otherwise `q` is started from the head of a list that has it behind `p`.
  obtain ⟨call, he, hhandled⟩ := Option.bind_eq_some_iff.mp hhandled
  have hstep := b.moves l call he
  have hmem : q.id ∈ waiting (b.state l).queue := hboth.sublist.subset (by simp)
  obtain ⟨⟨rest, hrest⟩, -⟩ :=
    (moves_of_step (hsound l) (hallowed l call he) hstep).eq_of_handled hstep hmem hhandled
  have hnodup := (hsound l).nodup_waiting
  have hsub := hboth.sublist
  rw [hrest] at hnodup hsub
  have hnot : q.id ∉ rest := (List.nodup_cons.mp hnodup).1
  rcases List.cons_sublist_cons'.mp hsub with hsub | ⟨-, hsub⟩
  · exact absurd (hsub.subset (by simp)) hnot
  · exact absurd (hsub.subset (by simp)) hnot

end Allowed

/-- **Every procedure is started once, with its message and in order.** -/
theorem started_once_in_order (hstart : b.state 0 = .attached attach msgInfo)
    (hallowed : b.Guarded StartAllowed) (hfair : Fair b) :
    (∀ n new msg, b.event n = some (.startProcedure new msg) →
      StartedOnce b n new.id msg ∨ DeletedWhileWaiting b n new.id) ∧ InOrder b := by
  have hsound : ∀ n, (b.state n).Sound :=
    b.invariant (I := Sched.Sound) (fun _ _ _ hs hok hstep => hs.step hok hstep) hallowed
      (hstart ▸ sound_attached)
  exact ⟨fun n new msg he => startedOnce_or_deleted hsound hallowed hfair he,
    inOrder hsound hallowed⟩

theorem fair_ofRun {m : Sched μ} {calls : List (SchedCall μ)} {h : (final schedStep m calls).isSome}
    (hends : ∀ n < calls.length, ∀ p ∈ ((Behaviour.ofRun m calls h).state n).queue.queue,
      p.running = true → p.procType.hasStart = true →
      ∃ k < calls.length, n ≤ k ∧ calls[k]? = some (.endProcedure p.id .success))
    (hreturns : ∀ n < calls.length, ((Behaviour.ofRun m calls h).state n).queue.ending ≠ [] →
      ∃ k < calls.length, n ≤ k ∧ calls[k]? = some .resume)
    (hlast : ((Behaviour.ofRun m calls h).state calls.length).queue.ending = [] ∧
      ∀ p ∈ ((Behaviour.ofRun m calls h).state calls.length).queue.queue,
        p.running = true → p.procType.hasStart = false) :
    Fair (Behaviour.ofRun m calls h) where
  ends n p hp hrun htype := by
    rcases Nat.lt_or_ge n calls.length with hn | hn
    · obtain ⟨k, -, hnk, he⟩ := hends n hn p hp hrun htype
      exact ⟨k, hnk, Or.inr ⟨.success, he⟩⟩
    · rw [Behaviour.ofRun_state_of_le hn] at hp
      rw [hlast.2 p hp hrun] at htype
      cases htype
  returns n hending := by
    rcases Nat.lt_or_ge n calls.length with hn | hn
    · obtain ⟨k, -, hnk, he⟩ := hreturns n hn hending
      exact ⟨k, hnk, Or.inr he⟩
    · rw [Behaviour.ofRun_state_of_le hn] at hending
      exact absurd hlast.1 hending

theorem guarded_ofRun {m : Sched μ} {calls : List (SchedCall μ)}
    {h : (final schedStep m calls).isSome}
    (hg : ∀ n < calls.length, ∀ call ∈ calls[n]?,
      StartAllowed ((Behaviour.ofRun m calls h).state n) call) :
    (Behaviour.ofRun m calls h).Guarded StartAllowed := by
  intro n call he
  exact hg n (List.getElem?_eq_some_iff.mp he).1 call he

namespace Demo

def twoRequests : List (SchedCall ℕ) :=
  [.startProcedure { id := 1, procType := .serviceRequest } 7,
   .startProcedure { id := 2, procType := .s1Release } 8,
   .endProcedure 0 .success, .resume, .endProcedure 1 .success, .resume,
   .endProcedure 2 .success, .resume]

def relocation : List (SchedCall ℕ) :=
  [.endProcedure 0 .success, .resume,
   .startProcedure { id := 1, procType := .sgwRelocationDetach } 7]

def served : Behaviour (@schedStep ℕ) :=
  .ofRun (Sched.attached 0 fun _ => 0) twoRequests (by decide)

def relocated : Behaviour (@schedStep ℕ) :=
  .ofRun (Sched.attached 0 fun _ => 0) relocation (by decide)

end Demo

/-- Both requests are started, one after the other. -/
theorem started_once_in_order_twoRequests : Demo.served.Guarded StartAllowed ∧ Fair Demo.served ∧
      (StartedOnce Demo.served 0 1 7 ∨ DeletedWhileWaiting Demo.served 0 1) ∧
      InOrder Demo.served := by
  have hallowed : Demo.served.Guarded StartAllowed := guarded_ofRun (by decide)
  have hfair : Fair Demo.served := fair_ofRun (by decide) (by decide) (by decide)
  obtain ⟨hstarted, horder⟩ := started_once_in_order (b := Demo.served) rfl hallowed hfair
  exact ⟨hallowed, hfair, hstarted 0 { id := 1, procType := .serviceRequest } 7 rfl, horder⟩

/-- **The handler of a detach for an SGW relocation is never invoked** -/
theorem not_startedOnce_relocation :
    Demo.relocated.state 0 = .attached 0 (fun _ => 0) ∧ Fair Demo.relocated ∧
      Demo.relocated.event 2 =
        some (.startProcedure { id := 1, procType := .sgwRelocationDetach } 7) ∧
      (∀ k, (Demo.relocated.state k).queue.context ≠ none) ∧
      ¬ StartedOnce Demo.relocated 2 1 7 := by
  have hctx : ∀ k < 4, (Demo.relocated.state k).queue.context ≠ none := by decide
  have hhandled : ∀ k < 3, handledAt Demo.relocated k = none := by decide
  refine ⟨rfl, fair_ofRun (by decide) (by decide) (by decide), rfl, fun k => ?_, ?_⟩
  · rcases Nat.lt_or_ge k 3 with hk | hk
    · exact hctx k (by omega)
    · rw [Demo.relocated, Behaviour.ofRun_state_of_le hk]
      exact hctx 3 (by omega)
  · rintro ⟨k, -, hk, -⟩
    rcases Nat.lt_or_ge k 3 with hlt | hge
    · rw [hhandled k hlt] at hk
      cases hk
    · have hnone : Demo.relocated.event k = none := List.getElem?_eq_none_iff.mpr hge
      rw [handledAt, hnone] at hk
      cases hk

end Spgw
