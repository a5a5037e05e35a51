/-
# The end of a network-initiated detach

A Re-Auth-Request that releases a session creates a detach as its child.
-/

import Spgw.Proc.Invoked

namespace Spgw

open Machine

variable {m m' : QueueState} {c : QueueContext} {d rar p : Proc} {result : ProcResult}

/-- The calls from the end of the detach to the return of `child_proc_done`. -/
def callsBeforeRelease (d rar : Proc) (result : ProcResult) (work : List QueueCall) :
    List QueueCall :=
  .endProcedure d.id result ::
    if rar.childrenDone d then .endProcedure rar.id result :: .resume :: work else []

/-- Behind the two a procedure waits that has a handler. -/
def Wakes (m : QueueState) (d rar : Proc) : Prop :=
  ∃ w, firstWaiting ((m.queue.filter (·.id ≠ d.id)).filter (·.id ≠ rar.id)) = some w ∧
    w.procType.hasStart = true

/-- None of the calls invokes a handler. -/
def Silent (m : QueueState) (calls : List QueueCall) : Prop :=
  Guarded queueStep (fun m call => invoked m call = none) m calls

/-- **No handler is invoked between the end of the detach and the release of its PDN, and none
afterwards.** The release is the first thing the last `resume` does. -/
structure Undisturbed (m : QueueState) (d rar : Proc) : Prop where
  between : ∀ result work, (¬ Wakes m d rar → work = []) →
    Silent m (callsBeforeRelease d rar result work)
  afterwards : ∀ result work later m', (¬ Wakes m d rar → work = []) →
    final queueStep m (callsBeforeRelease d rar result work) = some m' →
    Silent m' (.resume :: later)

theorem find?_id_of_mem {q : List Proc} (hids : (q.map (·.id)).Nodup) (hp : p ∈ q) :
    q.find? (·.id = p.id) = some p := by
  cases hfind : q.find? (·.id = p.id) with
  | none => simpa using List.find?_eq_none.mp hfind p hp
  | some x =>
    have hid : x.id = p.id := by simpa using List.find?_some hfind
    rw [List.inj_on_of_nodup_map hids (List.mem_of_find?_eq_some hfind) hp hid]

theorem queueStep_endProcedure_of_mem {q : List Proc} (hc : m.context = some c) (hord : c.Ordered)
    (hp : p ∈ c.pendingSubProcs) (htype : p.procType.hasEnd = true)
    (hdone : childProcDone (c.pendingSubProcs.filter (·.id ≠ p.id)) { p with result } = some q) :
    queueStep m (.endProcedure p.id result) =
      some { context := some { c with pendingSubProcs := q }
             ending := { p with result } :: m.ending } := by
  simp only [queueStep, hc, Option.bind_eq_bind, Option.bind_some, Spgw.endProcedure,
    find?_id_of_mem hord.ids hp, hdone, htype, if_true]

theorem id_ne_of_rar (hord : c.Ordered) (hd : d ∈ c.pendingSubProcs)
    (hdtype : d.procType = .nwInitDetach) (hrar : rar ∈ c.pendingSubProcs)
    (hrtype : rar.procType = .rar) : rar.id ≠ d.id := by
  intro heq
  obtain rfl := List.inj_on_of_nodup_map hord.ids hrar hd heq
  rw [hdtype] at hrtype
  cases hrtype

theorem exists_step_of_detach (hc : m.context = some c) (hord : c.Ordered)
    (hd : d ∈ c.pendingSubProcs) (hdtype : d.procType = .nwInitDetach)
    (hrar : rar ∈ c.pendingSubProcs) (hrtype : rar.procType = .rar)
    (hparent : d.parentProc = some rar.id) (result : ProcResult) :
    ∃ f, (∀ x, Proc.SameProc (f x) x) ∧ queueStep m (.endProcedure d.id result) =
      some { context := some { c with
               pendingSubProcs := (c.pendingSubProcs.filter (·.id ≠ d.id)).map f }
             ending := { d with result } :: m.ending } := by
  have hne : rar.id ≠ d.id := id_ne_of_rar hord hd hdtype hrar hrtype
  have hmem : (c.pendingSubProcs.filter (·.id ≠ d.id)).any (·.id = rar.id) = true :=
    List.any_eq_true.mpr ⟨rar, List.mem_filter.mpr ⟨hrar, by simpa using hne⟩, by simp⟩
  obtain ⟨q, hq⟩ : ∃ q, childProcDone (c.pendingSubProcs.filter (·.id ≠ d.id)) { d with result } =
      some q := by
    simp only [childProcDone, hparent, hmem, if_true]
    exact ⟨_, rfl⟩
  obtain ⟨f, hf, rfl⟩ := exists_map_of_childProcDone hq
  exact ⟨f, hf, queueStep_endProcedure_of_mem hc hord hd (by rw [hdtype]; rfl) hq⟩

theorem queueStep_of_rar (hc : m.context = some c) (hord : c.Ordered)
    (hrar : rar ∈ c.pendingSubProcs) (hrtype : rar.procType = .rar) (result : ProcResult) :
    queueStep m (.endProcedure rar.id result) =
      some { context := some { c with
               pendingSubProcs := c.pendingSubProcs.filter (·.id ≠ rar.id) }
             ending := { rar with result } :: m.ending } := by
  refine queueStep_endProcedure_of_mem hc hord hrar (by rw [hrtype]; rfl) ?_
  exact childProcDone_of_none (p := { rar with result }) (Proc.parentProc_of_rar hrtype) _

theorem afterEnd_of_rar {r : Proc} (hr : r.procType = .rar) (c : QueueContext) :
    afterEnd c r = some c := by
  rw [afterEnd, hr]

theorem silent_release {rest : List Proc} (hc : m.context = some c) (hone : c.numPdns = 1)
    (hending : m.ending = d :: rest) (hdtype : d.procType = .nwInitDetach)
    (later : List QueueCall) : Silent m (.resume :: later) := by
  have hafter : afterEnd c d = none := by
    rw [afterEnd, hdtype]
    exact cleanupPdn_eq_none hone
  refine ⟨invoked_eq_none_of_startedBy ?_, ?_⟩
  · rw [startedBy_resume hc hending, hafter]
    rfl
  · cases hstep : queueStep m .resume with
    | none => trivial
    | some m' =>
      obtain ⟨c', d', rest', hc', hending', rfl⟩ := queueStep_resume hstep
      cases hc.symm.trans hc'
      obtain ⟨rfl, -⟩ := List.cons.inj (hending.symm.trans hending')
      simp only [hafter, Option.map_none]
      clear hstep
      cases later with
      | nil => trivial
      | cons call later =>
        refine ⟨invoked_of_freed rfl call, ?_⟩
        rw [queueStep_of_freed rfl call]
        trivial

theorem silent_cons_iff {call : QueueCall} {calls : List QueueCall}
    (hstep : queueStep m call = some m') (hinvoked : invoked m call = none) :
    Silent m (call :: calls) ↔ Silent m' calls := by
  simp [Silent, Guarded, hstep, hinvoked]

section Detach

variable (hc : m.context = some c) (hord : c.Ordered) (hd : d ∈ c.pendingSubProcs)
  (hdtype : d.procType = .nwInitDetach) (hrar : rar ∈ c.pendingSubProcs)
  (hrtype : rar.procType = .rar) (hparent : d.parentProc = some rar.id)

include hc hord hd hdtype hrar hrtype hparent

theorem exists_steps_of_lastChild (result : ProcResult) :
    ∃ m₁ m₂ f r, queueStep m (.endProcedure d.id result) = some m₁ ∧
      queueStep m₁ (.endProcedure rar.id result) = some m₂ ∧ (∀ x, Proc.SameProc (f x) x) ∧
      m₂.context = some { c with pendingSubProcs :=
        ((c.pendingSubProcs.filter (·.id ≠ d.id)).filter (·.id ≠ rar.id)).map f } ∧
      m₂.ending = r :: { d with result } :: m.ending ∧ r.procType = .rar := by
  obtain ⟨f, hf, hstep⟩ := exists_step_of_detach hc hord hd hdtype hrar hrtype hparent result
  have hne : rar.id ≠ d.id := id_ne_of_rar hord hd hdtype hrar hrtype
  have hrar' : f rar ∈ (c.pendingSubProcs.filter (·.id ≠ d.id)).map f :=
    List.mem_map_of_mem (List.mem_filter.mpr ⟨hrar, by simpa using hne⟩)
  have hord' := QueueContext.Ordered.step (fun _ h => Option.some.inj (hc.symm.trans h) ▸ hord)
    hstep _ rfl
  have hrtype' : (f rar).procType = .rar := (hf rar).procType.trans hrtype
  have hstep' := queueStep_of_rar (m := ⟨some _, { d with result } :: m.ending⟩) rfl hord' hrar'
    hrtype' result
  rw [(hf rar).id] at hstep'
  refine ⟨_, _, f, _, hstep, hstep', hf, ?_, rfl, hrtype'⟩
  simp only [filter_id_map hf]

/-- **The scan at the end of the parent invokes the first procedure that waits.** -/
theorem silent_callsBeforeRelease_iff (result : ProcResult) :
    Silent m (callsBeforeRelease d rar result []) ↔ (rar.childrenDone d → ¬ Wakes m d rar) := by
  obtain ⟨m₁, m₂, f, r, hstep₁, hstep₂, hf, hc₂, hending₂, hr⟩ :=
    exists_steps_of_lastChild hc hord hd hdtype hrar hrtype hparent result
  rw [callsBeforeRelease, silent_cons_iff hstep₁ (invoked_endProcedure ..)]
  by_cases hdone : rar.childrenDone d = true
  · have hwakes : invoked m₂ .resume = none ↔ ¬ Wakes m d rar := by
      rw [invoked_resume_eq_none_iff hc₂ hending₂ (by rw [afterEnd_of_rar hr]; rfl),
        firstWaiting_map hf, Wakes, queue_of_context hc]
      simp [(hf _).procType]
    rw [if_pos hdone, silent_cons_iff hstep₂ (invoked_endProcedure ..), ← hwakes]
    simp only [hdone, forall_const, Silent, Guarded]
    cases queueStep m₂ .resume <;> simp
  · simp [hdone, Silent, Guarded]

theorem exists_of_callsBeforeRelease
    (hfinal : final queueStep m (callsBeforeRelease d rar result []) = some m') :
    ∃ c', m'.context = some c' ∧ c'.numPdns = 1 ∧ m'.ending = { d with result } :: m.ending := by
  obtain ⟨f, hf, hstep⟩ := exists_step_of_detach hc hord hd hdtype hrar hrtype hparent result
  obtain ⟨m₁, m₂, f₂, r, hstep₁, hstep₂, hf₂, hc₂, hending₂, hr⟩ :=
    exists_steps_of_lastChild hc hord hd hdtype hrar hrtype hparent result
  rw [callsBeforeRelease, final, hstep₁, Option.bind_some] at hfinal
  split_ifs at hfinal with hdone
  · simp only [final, hstep₂, Option.bind_some, Option.bind_fun_some] at hfinal
    obtain ⟨c', p', rest, hc', hending', rfl⟩ := queueStep_resume hfinal
    obtain ⟨rfl, rfl⟩ := List.cons.inj (hending₂.symm.trans hending')
    rw [afterEnd_of_rar hr]
    cases hc₂.symm.trans hc'
    exact ⟨_, rfl, hord.numPdns, rfl⟩
  · cases hfinal
    cases hstep.symm.trans hstep₁
    exact ⟨_, rfl, hord.numPdns, rfl⟩

end Detach

/-- **The detach of a Re-Auth-Request is undisturbed exactly if the parent has another child left,
or nothing waits that has a handler to invoke.** -/
theorem undisturbed_iff {attach : ProcId} {calls : List QueueCall}
    (hrun : final queueStep (.attached attach) calls = some m) (hd : d ∈ m.queue)
    (hdtype : d.procType = .nwInitDetach) (hrar : rar ∈ m.queue) (hrtype : rar.procType = .rar)
    (hparent : d.parentProc = some rar.id) :
    Undisturbed m d rar ↔ (rar.childrenDone d → ¬ Wakes m d rar) := by
  obtain ⟨c, hc⟩ : ∃ c, m.context = some c := by
    cases hc : m.context with
    | none => simp [QueueState.queue, hc] at hd
    | some c => exact ⟨c, rfl⟩
  have hord : c.Ordered := ordered_of_run hrun c hc
  rw [queue_of_context hc] at hd hrar
  constructor
  · intro h
    exact (silent_callsBeforeRelease_iff hc hord hd hdtype hrar hrtype hparent .success).mp
      (h.between .success [] fun _ => rfl)
  · intro h
    have hcalls (result : ProcResult) (work : List QueueCall) (hwork : ¬ Wakes m d rar → work = []) :
        callsBeforeRelease d rar result work = callsBeforeRelease d rar result [] := by
      by_cases hdone : rar.childrenDone d = true
      · rw [hwork (h hdone)]
      · simp [callsBeforeRelease, hdone]
    refine ⟨fun result work hwork => ?_, fun result work later m' hwork hfinal => ?_⟩
    · rw [hcalls result work hwork]
      exact (silent_callsBeforeRelease_iff hc hord hd hdtype hrar hrtype hparent result).mpr h
    · rw [hcalls result work hwork] at hfinal
      obtain ⟨c', hc', hone, hending⟩ :=
        exists_of_callsBeforeRelease hc hord hd hdtype hrar hrtype hparent hfinal
      exact silent_release hc' hone hending hdtype later

/-- A Re-Auth-Request that releases the session runs next to the detach it has created; `waiting`
arrive in the meantime. -/
def sessionRelease (waiting : List Proc) : List QueueCall :=
  [.startProcedure { id := 1, procType := .rar }, .endProcedure 0 .success, .resume,
   .childProcAdd 1 2, .startProcedure (rarChild 2 1 .nwInitDetach)] ++
    waiting.map .startProcedure

/-- With a second child left, a service request that waits does not disturb the detach. -/
theorem undisturbed_sessionRelease :
    ∃ m d rar, final queueStep (.attached 0) (sessionRelease [] ++
        [.childProcAdd 1 3, .startProcedure (rarChild 3 1 .dedBerActivation),
          .startProcedure { id := 4, procType := .serviceRequest }]) = some m ∧
      d ∈ m.queue ∧ rar ∈ m.queue ∧ Wakes m d rar ∧ Undisturbed m d rar := by
  obtain ⟨m, d, rar, x, w, hrun, hq, hdtype, hrtype, hparent, hleft, hwakes⟩ :
      ∃ m d rar x w, final queueStep (.attached 0) (sessionRelease [] ++
          [.childProcAdd 1 3, .startProcedure (rarChild 3 1 .dedBerActivation),
            .startProcedure { id := 4, procType := .serviceRequest }]) = some m ∧
        m.queue = [rar, d, x, w] ∧ d.procType = .nwInitDetach ∧ rar.procType = .rar ∧
        d.parentProc = some rar.id ∧ rar.childrenDone d = false ∧ Wakes m d rar :=
    ⟨_, _, _, _, _, rfl, rfl, rfl, rfl, rfl, rfl, _, rfl, rfl⟩
  have hd : d ∈ m.queue := by simp [hq]
  have hrar : rar ∈ m.queue := by simp [hq]
  refine ⟨m, d, rar, hrun, hd, hrar, hwakes, ?_⟩
  refine (undisturbed_iff hrun hd hdtype hrar hrtype hparent).mpr fun hdone => ?_
  rw [hleft] at hdone
  cases hdone

/-- **A service request that waits behind the detach is started before the PDN is released.** -/
theorem not_undisturbed_serviceRequest :
    ∃ m d rar, final queueStep (.attached 0)
        (sessionRelease [{ id := 3, procType := .serviceRequest }]) = some m ∧
      m.queue = [rar, d, { id := 3, procType := .serviceRequest }] ∧
      d.procType = .nwInitDetach ∧ rar.procType = .rar ∧ d.parentProc = some rar.id ∧
      ¬ Undisturbed m d rar := by
  refine ⟨_, _, _, rfl, rfl, rfl, rfl, rfl, fun h => ?_⟩
  have hsilent := h.between .success [] fun _ => rfl
  revert hsilent
  unfold Silent
  decide

end Spgw
