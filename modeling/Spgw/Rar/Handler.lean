/-
# The handler of a Re-Auth-Request

`process_rar_request_handler` in `cp/procedures/proc_rar.c`.
-/

import Spgw.Lib.Loop
import Spgw.Proc.Queue
import Spgw.Rar.Policy

namespace Spgw.Rar

open Session (deref)
open Comp (Turn loop)

def allocRarProc (id seq : ℕ) : Proc := { id, procType := .rar, running := true, rarSeqNum := seq }

structure Handling where
  gxEnabled : Bool
  pdn : Pdn
  table : RuleTable
  before : List Proc
  rar : Proc
  after : List Proc
  children : List Proc := []
  nextId : ProcId

/-- `pending_sub_procs`. -/
def Handling.queue (s : Handling) : List Proc := s.before ++ s.rar :: (s.after ++ s.children)

/-- A Re-Auth-Request at the time its handler is called. -/
structure Arrival where
  msg : GxRar
  gxEnabled : Bool := true
  seq : ℕ
  pdn : Pdn
  table : RuleTable
  before : List Proc := []
  after : List Proc := []
  id : ProcId := 0

/-- The state once `parse_gx_rar_msg` has returned. -/
def Arrival.parsed (a : Arrival) : Handling where
  gxEnabled := a.gxEnabled
  pdn := storeDynamicRulesInPolicy a.pdn a.table a.msg
  table := a.table
  before := a.before
  rar := allocRarProc a.id a.seq
  after := a.after
  nextId := a.id + 1

/-- A new procedure becomes a child and is started: `start` is its first handler. -/
def Handling.addChild (s : Handling) (child : Proc)
    (start : Pdn → RuleTable → Except Fault (Pdn × RuleTable)) : Except Fault Handling := do
  let rar ← deref (s.rar.addRarChildProc child.id)
  let s := { s with rar, nextId := s.nextId + 1 }
  if startsAtOnce s.queue child then
    let (pdn, table) ← start s.pdn s.table
    return { s with pdn, table, children := s.children ++ [child.run] }
  else
    return { s with children := s.children ++ [child] }

/-- `alloc_bearer_create_proc`. -/
def Handling.bearerCreate (s : Handling) : Except Fault Handling :=
  s.addChild (rarChild s.nextId s.rar.id .dedBerActivation) (fillPfcpGxSessModReq s.gxEnabled)

/-- `alloc_nw_init_detach_proc`. -/
def Handling.nwInitDetach (s : Handling) : Except Fault Handling :=
  s.addChild (rarChild s.nextId s.rar.id .nwInitDetach) fun pdn table => pure (pdn, table)

def needsBearer (bearers : Bearers) (rule : PccRule) : Bool :=
  !rule.opPending && rule.action = .add && (getBearer bearers rule.dynRule.qos).isNone

def Pdn.needsBearer (pdn : Pdn) : Bool := pdn.pendingPccRules.any (Rar.needsBearer pdn.epsBearers)

def addTurn (s : Handling) : Comp (Turn Handling (Except Fault Handling)) :=
  if s.pdn.needsBearer then
    match s.bearerCreate with
    | .ok s => pure (.again s)
    | .error f => pure (.leave (.error f))
  else
    pure (.leave (.ok s))

def ruleToDelete (callId : ℕ) (bearers : Bearers) (table : RuleTable) :
    List PccRule → Except Fault Bool
  | [] => pure false
  | rule :: rules =>
    if !rule.opPending && rule.action = .delete then
      let id := table.getRuleNameEntry (ruleKey callId rule.dynRule.ruleName)
      if id = -1 then
        ruleToDelete callId bearers table rules
      else do
        match ← bearerAt bearers id with
        | some _ => return true
        | none => ruleToDelete callId bearers table rules
    else
      ruleToDelete callId bearers table rules

def Pdn.ruleToDelete (pdn : Pdn) (table : RuleTable) : Except Fault Bool :=
  Rar.ruleToDelete pdn.callId pdn.epsBearers table pdn.pendingPccRules

def deleteTurn (s : Handling) : Comp (Turn Handling (Except Fault Handling)) :=
  match s.pdn.ruleToDelete s.table with
  | .error f => pure (.leave (.error f))
  | .ok true => pure (.leave s.nwInitDetach)
  | .ok false => pure (.again s)

def processRarRequestHandler (a : Arrival) : Comp (Except Fault Handling) :=
  if a.msg.sessionReleaseCause then
    pure a.parsed.nwInitDetach
  else do
    match ← loop addTurn a.parsed with
    | .error f => pure (.error f)
    | .ok s => loop deleteTurn s

/-- The handler returns, in the state `t`. -/
def Arrival.Returns (a : Arrival) (t : Handling) : Prop :=
  (processRarRequestHandler a).Yields (.ok t)

theorem not_ends_deleteTurn {s : Handling} (hscan : s.pdn.ruleToDelete s.table = .ok false) :
    ¬ (loop deleteTurn s).Ends := by
  refine Comp.not_ends_loop (I := fun t => t = s) ?_ ?_ rfl
  · rintro _ b rfl
    simp [deleteTurn, hscan]
  · rintro _ u rfl hu
    simpa [deleteTurn, hscan] using hu

/-- **The loop over the rules to delete returns only with a detach** -/
theorem yields_deleteTurn {s t : Handling} : (loop deleteTurn s).Yields (.ok t) ↔
      s.pdn.ruleToDelete s.table = .ok true ∧ s.nwInitDetach = .ok t := by
  constructor
  · intro h
    cases hscan : s.pdn.ruleToDelete s.table with
    | error f =>
      rw [Comp.yields_loop] at h
      simp [deleteTurn, hscan] at h
    | ok found =>
      cases found with
      | true =>
        rw [Comp.yields_loop] at h
        simpa [deleteTurn, hscan, eq_comm] using h
      | false => exact (not_ends_deleteTurn hscan ⟨_, h⟩).elim
  · rintro ⟨hscan, ht⟩
    refine Comp.yields_loop.mpr (.inl ?_)
    simp [deleteTurn, hscan, ht]

theorem startsAtOnce_concat {queue : List Proc} {last new : Proc} (hlast : last.procType ≠ .rar) :
    startsAtOnce (queue ++ [last]) new = false := by
  simp [startsAtOnce, allowedParellel, hlast]

theorem startsAtOnce_sameProc {before after : List Proc} {rar rar' new : Proc}
    (h : rar'.SameProc rar) :
    startsAtOnce (before ++ rar' :: after) new = startsAtOnce (before ++ rar :: after) new := by
  have hne (p : Proc) : (before ++ p :: after).isEmpty = false := by simp
  simp [startsAtOnce, hne, allowedParellel, isChildOf, h.procType, h.id]

theorem Handling.addChild_eq_ok {s t : Handling} {child : Proc}
    {start : Pdn → RuleTable → Except Fault (Pdn × RuleTable)} :
    s.addChild child start = .ok t ↔ ∃ rar, s.rar.addRarChildProc child.id = some rar ∧
        ((startsAtOnce s.queue child = true ∧ ∃ pdn table, start s.pdn s.table = .ok (pdn, table) ∧
            t = { s with
              pdn, table, rar, children := s.children ++ [child.run], nextId := s.nextId + 1 }) ∨
          (startsAtOnce s.queue child = false ∧
            t = { s with rar, children := s.children ++ [child], nextId := s.nextId + 1 })) := by
  cases hrar : s.rar.addRarChildProc child.id with
  | none =>
    have hfault : s.addChild child start = .error .badPointer := by
      simp only [Handling.addChild, hrar]; rfl
    simp [hfault]
  | some rar =>
    have hqueue : startsAtOnce ({ s with rar, nextId := s.nextId + 1 } : Handling).queue child =
        startsAtOnce s.queue child :=
      startsAtOnce_sameProc (Proc.sameProc_of_addRarChildProc hrar)
    have hadd : s.addChild child start =
        if startsAtOnce s.queue child then
          (start s.pdn s.table).map fun r => { s with
            pdn := r.1, table := r.2, rar, children := s.children ++ [child.run]
            nextId := s.nextId + 1 }
        else
          .ok { s with rar, children := s.children ++ [child], nextId := s.nextId + 1 } := by
      rw [← hqueue]
      simp only [Handling.addChild, hrar]
      cases start s.pdn s.table <;> rfl
    simp only [hadd, Option.some.injEq, exists_eq_left']
    cases hstart : startsAtOnce s.queue child with
    | false => simp [eq_comm]
    | true =>
      cases start s.pdn s.table with
      | error f => simp [Except.map]
      | ok r => simp [Except.map, Prod.ext_iff, eq_comm]

structure Stuck (s : Handling) : Prop where
  needs : s.pdn.needsBearer = true
  waits : ∃ queue last, s.children = queue ++ [last] ∧ last.procType = .dedBerActivation

theorem Stuck.not_startsAtOnce {s : Handling} (h : Stuck s) {new : Proc} :
    startsAtOnce s.queue new = false := by
  obtain ⟨queue, last, hchildren, hlast⟩ := h.waits
  have hassoc : s.queue = (s.before ++ s.rar :: (s.after ++ queue)) ++ [last] := by
    simp [Handling.queue, hchildren]
  rw [hassoc]
  exact startsAtOnce_concat (by simp [hlast])

theorem Stuck.bearerCreate {s t : Handling} (h : Stuck s) (ht : s.bearerCreate = .ok t) :
    Stuck t := by
  obtain ⟨rar, _, ⟨hstart, _⟩ | ⟨_, rfl⟩⟩ := Handling.addChild_eq_ok.mp ht
  · rw [h.not_startsAtOnce] at hstart
    cases hstart
  · exact ⟨h.needs, _, _, rfl, rfl⟩

/-- **A waiting bearer activation keeps the loop over the rules to add from returning.** -/
theorem Stuck.not_yields {s t : Handling} (h : Stuck s) : ¬ (loop addTurn s).Yields (.ok t) := by
  intro ht
  have := Comp.loop_invariant (I := Stuck) (P := fun r => r ≠ .ok t) ?_ ?_ h ht
  · exact this rfl
  · intro s b hs hb
    cases hcreate : s.bearerCreate with
    | error f =>
      have : b = .error f := by simpa [addTurn, hs.needs, hcreate] using hb
      simp [this]
    | ok u => simp [addTurn, hs.needs, hcreate] at hb
  · intro s u hs hu
    cases hcreate : s.bearerCreate with
    | error f => simp [addTurn, hs.needs, hcreate] at hu
    | ok u' =>
      obtain rfl : u = u' := by simpa [addTurn, hs.needs, hcreate] using hu
      exact hs.bearerCreate hcreate

theorem yields_addTurn {s t : Handling} : (loop addTurn s).Yields (.ok t) ↔
      (s.pdn.needsBearer = false ∧ t = s) ∨
        (s.pdn.needsBearer = true ∧ s.bearerCreate = .ok t ∧ t.pdn.needsBearer = false) := by
  rw [Comp.yields_loop]
  cases hneeds : s.pdn.needsBearer with
  | false => simp [addTurn, hneeds]
  | true =>
    cases hcreate : s.bearerCreate with
    | error f => simp [addTurn, hneeds, hcreate]
    | ok u =>
      have hturn : (loop addTurn u).Yields (.ok t) ↔ u.pdn.needsBearer = false ∧ t = u := by
        cases hu : u.pdn.needsBearer with
        | false =>
          rw [Comp.yields_loop]
          simp [addTurn, hu]
        | true =>
          have hwaits : ∃ queue last,
              u.children = queue ++ [last] ∧ last.procType = .dedBerActivation := by
            obtain ⟨rar, _, ⟨_, _, _, _, rfl⟩ | ⟨_, rfl⟩⟩ := Handling.addChild_eq_ok.mp hcreate
            · exact ⟨_, _, rfl, rfl⟩
            · exact ⟨_, _, rfl, rfl⟩
          simpa using Stuck.not_yields ⟨hu, hwaits⟩
      simp only [addTurn, hneeds, hcreate, if_true, Comp.yields_pure, reduceCtorEq,
        Turn.again.injEq, exists_eq_left, hturn, false_or, Except.ok.injEq, true_and, false_and]
      constructor
      · rintro ⟨hu, rfl⟩
        exact ⟨rfl, hu⟩
      · rintro ⟨rfl, hu⟩
        exact ⟨hu, rfl⟩

theorem Arrival.returns_iff {a : Arrival} {t : Handling} : a.Returns t ↔
      if a.msg.sessionReleaseCause then
        a.parsed.nwInitDetach = .ok t
      else
        ∃ s, (a.parsed.pdn.needsBearer = false ∧ s = a.parsed ∨
            a.parsed.pdn.needsBearer = true ∧ a.parsed.bearerCreate = .ok s ∧
              s.pdn.needsBearer = false) ∧
          s.pdn.ruleToDelete s.table = .ok true ∧ s.nwInitDetach = .ok t := by
  unfold Arrival.Returns processRarRequestHandler
  cases a.msg.sessionReleaseCause with
  | true => simp [eq_comm]
  | false =>
    simp only [Bool.false_eq_true, if_false, Comp.yields_bind]
    constructor
    · rintro ⟨r, hr, ht⟩
      cases r with
      | error f => simp at ht
      | ok s => exact ⟨s, yields_addTurn.mp hr, yields_deleteTurn.mp ht⟩
    · rintro ⟨s, hs, ht⟩
      exact ⟨.ok s, yields_addTurn.mpr hs, yields_deleteTurn.mpr ht⟩

end Spgw.Rar
