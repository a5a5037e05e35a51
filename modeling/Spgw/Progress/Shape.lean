/-
# Queues in which everything that runs waits for something

`Shape` is the form that the queue of a subscriber keeps as long as no handler returns too early.
-/

import Spgw.Progress.Events

namespace Spgw.Progress

open Machine

variable {tries : ℕ} {held held' : ProcId → Prop} {t t' w : Procedure}
  {queue before after ws : List Procedure}

theorem retry_leadsOn (tries itrCnt : ℕ) : (retry tries itrCnt).LeadsOn := by
  unfold retry
  split_ifs
  · exact Or.inl rfl
  · exact Or.inr rfl

def Alive (tries : ℕ) (held : ProcId → Prop) (t : Procedure) : Prop :=
  t.Moves tries ∨ t.procType = .initialPdnAttach ∧ held t.id

theorem Alive.mono (h : Alive tries held t) (hheld : ∀ p, held p → held' p) :
    Alive tries held' t :=
  h.imp id fun ⟨htype, hp⟩ => ⟨htype, hheld _ hp⟩

theorem Procedure.moves_of_slot (slot : Slot) {data : TransData} (hslot : t.slot slot = some data)
    (hmoves : data.Moves tries) : t.Moves tries :=
  ⟨slot, data, hslot, hmoves⟩

structure Idle (t : Procedure) : Prop where
  slot : ∀ slot, t.slot slot = none
  strays : t.strays = 0

def RarWork.Releases : RarWork → Prop
  | .unparsed => False
  | .sessionRelease => True
  | .rules adds _ _ => adds = false

instance : DecidablePred RarWork.Releases
  | .unparsed => isFalse id
  | .sessionRelease => isTrue trivial
  | .rules adds _ _ => inferInstanceAs (Decidable (adds = false))

def Startable (t : Procedure) : Prop :=
  match t.procType with
  | .s1Release => 0 < t.found.bearers ∧ t.found.bearer = true
  | .paging => t.found.bearer = true
  | .rar => t.found.rar.Releases
  | .serviceRequest | .detach | .usageReport => True
  | _ => False

structure Waiting (t : Procedure) : Prop where
  running : t.running = false
  parentProc : t.parentProc = none
  startable : Startable t
  idle : Idle t

structure WaitingAll (ws : List Procedure) : Prop where
  waiting : ∀ w ∈ ws, Waiting w
  order : ws.Pairwise fun v w => v.procType = .rar → w.procType = .rar

theorem WaitingAll.nil : WaitingAll [] := ⟨by simp, .nil⟩

theorem WaitingAll.tail (h : WaitingAll (w :: ws)) : WaitingAll ws :=
  ⟨fun v hv => h.waiting v (List.mem_cons_of_mem _ hv), h.order.tail⟩

theorem WaitingAll.head (h : WaitingAll (w :: ws)) : Waiting w := h.waiting w (by simp)

theorem WaitingAll.concat (h : WaitingAll ws) (hw : Waiting w)
    (horder : w.procType = .rar ∨ ∀ v ∈ ws, v.procType ≠ .rar) : WaitingAll (ws ++ [w]) := by
  refine ⟨?_, List.pairwise_append.mpr ⟨h.order, by simp, ?_⟩⟩
  · intro v hv
    rcases List.mem_append.mp hv with hv | hv
    · exact h.waiting v hv
    · exact List.mem_singleton.mp hv ▸ hw
  · intro v hv x hx hrar
    obtain rfl := List.mem_singleton.mp hx
    exact horder.resolve_right fun hno => hno v hv hrar

def Solo (t : Procedure) : Prop :=
  t.procType = .initialPdnAttach ∨ t.procType = .s1Release ∨ t.procType = .serviceRequest ∨
    t.procType = .detach ∨ t.procType = .paging

inductive Shape (tries : ℕ) (held : ProcId → Prop) : List Procedure → Prop
  | empty : Shape tries held []
  | alone {t : Procedure} {ws : List Procedure} (solo : Solo t) (running : t.running = true)
      (alive : Alive tries held t) (rest : WaitingAll ws) :
      Shape tries held (t :: ws)
  | detaching {rar detach : Procedure} {w₁ w₂ : List Procedure} (rarType : rar.procType = .rar)
      (rarIdle : Idle rar) (detachType : detach.procType = .nwInitDetach)
      (parent : detach.parentProc = some rar.id) (running : detach.running = true)
      (alive : Alive tries held detach)
      (rest : ∀ w ∈ w₁ ++ w₂, Waiting w) :
      Shape tries held (rar :: w₁ ++ detach :: w₂)

theorem Shape.mono (h : Shape tries held queue) (hheld : ∀ p, held p → held' p) :
    Shape tries held' queue := by
  cases h with
  | empty => exact .empty
  | alone solo running alive rest => exact .alone solo running (alive.mono hheld) rest
  | detaching rarType rarIdle detachType parent running alive rest =>
    exact .detaching rarType rarIdle detachType parent running (alive.mono hheld) rest

def Good (tries : ℕ) (held : ProcId → Prop) (outcome : Option (List Procedure)) : Prop :=
  ∀ queue ∈ outcome, Shape tries held queue

theorem Good.none : Good tries held none := by simp [Good]

theorem Shape.good (h : Shape tries held queue) : Good tries held (some queue) := by
  intro q hq
  cases hq
  exact h

theorem startsAtOnce_eq_false {procs : List Proc} {new : Proc} (hne : procs ≠ [])
    (hparent : new.parentProc = none) : startsAtOnce procs new = false := by
  have hfold (q : List Proc) : allowedParellel q new = false := by
    unfold allowedParellel
    induction q with
    | nil => rfl
    | cons p q ih =>
      simp only [List.foldl_cons, isChildOf, hparent, reduceCtorEq, decide_false,
        Bool.and_false, Bool.false_eq_true, if_false, ite_self]
      simpa only [isChildOf, hparent, reduceCtorEq, decide_false, Bool.and_false,
        Bool.false_eq_true, if_false] using ih
  simp [startsAtOnce, hfold, hne]

theorem startsAtOnce_child {rar new : Proc} {procs : List Proc} (hrar : rar.procType = .rar)
    (hchild : isChildOf new rar = true) (hprocs : ∀ p ∈ procs, p.procType = .rar) :
    startsAtOnce (rar :: procs) new = true := by
  have hfold : procs.foldl (fun allowed temp =>
      if temp.procType = .rar then if isChildOf new temp then true else allowed else false)
      true = true := by
    induction procs with
    | nil => rfl
    | cons p procs ih =>
      rw [List.foldl_cons, if_pos (hprocs p (by simp)), ite_self]
      exact ih fun q hq => hprocs q (List.mem_cons_of_mem _ hq)
  rw [startsAtOnce, allowedParellel, List.foldl_cons, if_pos hrar, if_pos hchild, hfold,
    Bool.or_true]

theorem Startable.moves_started (h : Startable t) (hrar : t.procType ≠ .rar)
    (husage : t.procType ≠ .usageReport) : t.run.started.Moves tries := by
  have hslot (slot : Slot) (callback : Callback)
      (hstarted : t.run.started.slot slot = some { timeout := callback })
      (hleads : ∀ itrCnt, (callback.expiry tries itrCnt).LeadsOn) :
      t.run.started.Moves tries :=
    Procedure.moves_of_slot slot hstarted ⟨rfl, hleads 0⟩
  unfold Startable at h
  split at h <;> first | contradiction | skip
  · next htype =>
      refine hslot .pfcp .processReleaseAccessBearerRequestPfcpTimeout ?_ (retry_leadsOn _)
      simp [Procedure.started, Procedure.run, Procedure.slot, htype, h]
  · next htype =>
      refine hslot .gtpc .ddnIndicationTimeout ?_ fun _ => Or.inr rfl
      simp [Procedure.started, Procedure.run, Procedure.slot, htype, h]
  · next htype =>
      refine hslot .pfcp .processPfcpSessModRequestTimeout ?_ (retry_leadsOn _)
      simp [Procedure.started, Procedure.run, Procedure.slot, htype]
  · next htype =>
      refine hslot .pfcp .processPfcpSessDelRequestTimeout ?_ (retry_leadsOn _)
      simp [Procedure.started, Procedure.run, Procedure.slot, htype]

theorem sameProc_started (t : Procedure) : t.started.toProc = t.toProc := by
  unfold Procedure.started
  split <;> try rfl
  all_goals split_ifs <;> rfl

theorem Startable.solo (h : Startable t) (hrar : t.procType ≠ .rar)
    (husage : t.procType ≠ .usageReport) : Solo t := by
  unfold Startable at h
  unfold Solo
  split at h <;> simp_all

theorem addChild_nwInitDetach {rar : Procedure} (hrar : rar.procType = .rar) (hidle : Idle rar)
    (hws : ∀ w ∈ ws, Waiting w) (horder : ∀ w ∈ ws, w.procType = .rar) :
    Sat (addChild [] rar ws (nwInitDetach rar))
      (fun r => Shape tries held (r.1 :: r.2.1)) AnyFault := by
  unfold addChild
  refine Sat.bind (Session.sat_deref fun _ => trivial) fun parent hparent => ?_
  have hsame := Proc.sameProc_of_addRarChildProc hparent
  have hchild : isChildOf (nwInitDetach rar).toProc parent = true := by
    simp [isChildOf, nwInitDetach, rarChild, hsame.id]
  have hstart : startsAtOnce (procs ([] ++ { rar with toProc := parent } :: ws))
      (nwInitDetach rar).toProc = true := by
    refine startsAtOnce_child (hsame.procType.trans hrar) hchild fun p hp => ?_
    obtain ⟨w, hw, rfl⟩ := List.mem_map.mp hp
    exact horder w hw
  simp only [hstart, if_true]
  refine sat_pure ?_
  have hmoves : (nwInitDetach rar).run.started.Moves tries :=
    Procedure.moves_of_slot .pfcp rfl ⟨rfl, retry_leadsOn _ _⟩
  exact .detaching (hsame.procType.trans hrar) ⟨fun slot => hidle.slot slot, hidle.strays⟩ rfl
    (congrArg some hsame.id.symm) rfl (Or.inl hmoves) (by simpa using hws)

theorem processRarRequestHandler_good {rar : Procedure} (hrar : rar.procType = .rar)
    (hidle : Idle rar) (hwork : rar.found.rar.Releases) (hws : ∀ w ∈ ws, Waiting w)
    (horder : ∀ w ∈ ws, w.procType = .rar) :
    Sat (processRarRequestHandler [] rar ws) (Good tries held) AnyFault := by
  have hchild : Sat (addChild [] rar ws (nwInitDetach rar) >>= fun q =>
      pure (some ([] ++ q.1 :: q.2.1))) (Good tries held) AnyFault :=
    (addChild_nwInitDetach hrar hidle hws horder).bind fun _ hshape => sat_pure hshape.good
  unfold processRarRequestHandler
  cases hfound : rar.found.rar with
  | unparsed => simp [hfound, RarWork.Releases] at hwork
  | sessionRelease => exact hchild
  | rules adds addsAgain deletes =>
    obtain rfl : adds = false := by simpa [hfound, RarWork.Releases] using hwork
    simp only [Bool.false_eq_true, if_false, deleteRules]
    split_ifs
    · exact hchild
    · exact sat_throw trivial

/-- **Starting a waiting procedure leaves the queue in order.** -/
theorem startProcedureDirect_good (hws : WaitingAll (w :: ws))
    (husage : w.procType ≠ .usageReport) :
    Sat (startProcedureDirect [] w ws) (Good tries held) AnyFault := by
  have hwait := hws.head
  have halone (hrar : w.procType ≠ .rar) : Shape tries held (w.run.started :: ws) := by
    have hsame := sameProc_started w.run
    refine .alone ?_ (congrArg Proc.running hsame)
      (Or.inl (hwait.startable.moves_started hrar husage)) hws.tail
    have hsolo := hwait.startable.solo hrar husage
    unfold Solo at hsolo ⊢
    rw [hsame]
    exact hsolo
  unfold startProcedureDirect
  split
  · next htype =>
      have hidle : Idle w.run := ⟨fun slot => hwait.idle.slot slot, hwait.idle.strays⟩
      refine processRarRequestHandler_good htype hidle ?_ hws.tail.waiting ?_
      · have hstart := hwait.startable
        simp only [Startable, htype] at hstart
        exact hstart
      · intro v hv
        exact (List.pairwise_cons.mp hws.order).1 v hv htype
  · next htype =>
      split_ifs
      · exact sat_pure (halone (by simp [htype])).good
      · exact sat_pure Good.none
  · next htype _ => exact sat_pure (halone htype).good

/-- **The scan at the end of `end_procedure` leaves the queue in order.** -/
theorem startNext_good (hws : WaitingAll ws) :
    Sat (startNext [] ws) (Good tries held) AnyFault := by
  induction ws with
  | nil => exact sat_pure Shape.empty.good
  | cons w ws ih =>
    rw [startNext, if_neg (by simp [hws.head.running])]
    split_ifs with husage
    · exact ih hws.tail
    · exact startProcedureDirect_good hws husage

/-- **A request that may be started leaves the queue in order.** -/
theorem startProcedure_good (h : Shape tries held queue) (hw : Waiting w)
    (horder : w.procType = .rar ∨ ∀ v ∈ queue, v.procType = .rar → v.running = true) :
    Sat (startProcedure queue w) (Good tries held) AnyFault := by
  have hnonempty : queue ≠ [] → startProcedure queue w = pure (some (queue ++ [w])) := by
    intro hne
    rw [startProcedure, startsAtOnce_eq_false (by simpa [procs] using hne) hw.parentProc]
    rfl
  cases h with
  | empty =>
    simp only [startProcedure, procs, List.map_nil, startsAtOnce, List.isEmpty_nil,
      Bool.true_or, if_true]
    split_ifs with husage
    · exact startNext_good .nil
    · exact startProcedureDirect_good (WaitingAll.nil.concat hw (by simp)) husage
  | alone solo running alive rest =>
    rw [hnonempty (by simp)]
    refine sat_pure (Shape.alone solo running alive (rest.concat hw ?_)).good
    refine horder.imp id fun hrun v hv hrar => ?_
    have := hrun v (List.mem_cons_of_mem _ hv) hrar
    simp [(rest.waiting v hv).running] at this
  | detaching rarType rarIdle detachType parent running alive rest =>
    rw [hnonempty (by simp)]
    simp only [List.cons_append, List.append_assoc]
    refine sat_pure (Shape.detaching rarType rarIdle detachType parent running alive ?_).good
    intro v hv
    rw [← List.append_assoc, List.mem_append] at hv
    rcases hv with hv | hv
    · exact rest v hv
    · exact List.mem_singleton.mp hv ▸ hw

end Spgw.Progress
