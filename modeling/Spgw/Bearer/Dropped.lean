/-
# Dropping the procedures of a UE context

The last loop of `process_error_occured_handler_new` takes the procedures off the queue of a UE
context: the first entry in the list of the UPF and the transactions go.
-/

import Spgw.Bearer.State

namespace Spgw.Bearer.Procedures

open Machine Function
open Session (Service deref_bind_eq_ok assert_bind_eq_ok)
open Spgw.Trans (Kind TransKey)

variable {w w' : Procedures} {queue : List ProcId} {q : ProcId} {proc : Procedure} {kind : Kind}
  {key : TransKey} {upf : Option Service}

def dropOne (w : Procedures) (upf : Option Service) (q : ProcId) (proc : Procedure) : Procedures where
  procs := w.procs.free q
  trans kind key := if proc.trans kind = some key then none else w.trans kind key
  pending service := if upf = some service then (w.pending service).erase q else w.pending service

theorem cleanupTrans_eq_ok :
    w.cleanupTrans q proc kind = .ok w' ↔
      (∀ key v, proc.trans kind = some key → w.trans kind key = some v → v = q) ∧
        w' = { w with trans := update w.trans kind fun key =>
          if proc.trans kind = some key then none else w.trans kind key } := by
  unfold cleanupTrans
  cases hkey : proc.trans kind with
  | none =>
    have hsame : update w.trans kind (fun key =>
        if (none : Option TransKey) = some key then none else w.trans kind key) = w.trans := by
      simp
    rw [hsame]
    exact ⟨fun h => ⟨fun _ _ h => (nomatch h), (Except.ok.inj h).symm⟩, fun h => h.2 ▸ rfl⟩
  | some key =>
    have herase : (w.trans kind).erase key = fun l =>
        if some key = some l then none else w.trans kind l := by
      funext l
      by_cases hl : l = key
      · simp [Session.Table.erase, hl]
      · simp [Session.Table.erase, hl, Ne.symm hl]
    rw [assert_bind_eq_ok, herase]
    refine and_congr ?_ ⟨fun h => (Except.ok.inj h).symm, fun h => h ▸ rfl⟩
    constructor
    · rintro (h | h) l v hl hv
      all_goals
        cases hl
        rw [h] at hv
        cases hv
      rfl
    · intro h
      cases hv : w.trans kind key with
      | none => exact .inl rfl
      | some v => exact .inr (by rw [h key v rfl hv])

theorem tables (w : Procedures) (proc : Procedure) :
    (update (update (update w.trans .gtp fun key =>
        if proc.trans .gtp = some key then none else w.trans .gtp key) .pfcp fun key =>
          if proc.trans .pfcp = some key then none else w.trans .pfcp key) .gx fun key =>
            if proc.trans .gx = some key then none else w.trans .gx key) =
      fun kind key => if proc.trans kind = some key then none else w.trans kind key := by
  funext kind
  cases kind <;> simp

theorem dropProcs_cons_eq_ok :
    dropProcs upf w (q :: queue) = .ok w' ↔ ∃ proc, w.procs.get q = some proc ∧
      (∀ kind key v, proc.trans kind = some key → w.trans kind key = some v → v = q) ∧
        dropProcs upf (w.dropOne upf q proc) queue = .ok w' := by
  have hpend : w.forgetPending upf q =
      { w with pending := fun service =>
        if upf = some service then (w.pending service).erase q else w.pending service } := by
    cases upf with
    | none => simp [forgetPending]
    | some service =>
      simp only [forgetPending]
      congr 1
      funext l
      by_cases hl : l = service
      · simp [hl]
      · simp [hl, Ne.symm hl]
  rw [dropProcs, hpend, deref_bind_eq_ok]
  simp only [bind_eq_ok, cleanupTrans_eq_ok]
  refine exists_congr fun proc => and_congr_right fun _ => ?_
  constructor
  · rintro ⟨w₁, ⟨hgtp, rfl⟩, w₂, ⟨hpfcp, rfl⟩, w₃, ⟨hgx, rfl⟩, hrest⟩
    refine ⟨?_, ?_⟩
    · intro kind key v hkey hv
      cases kind with
      | gtp => exact hgtp key v hkey hv
      | pfcp => exact hpfcp key v hkey (by simpa using hv)
      | gx => exact hgx key v hkey (by simpa using hv)
    · simpa [dropOne, tables] using hrest
  · rintro ⟨howned, hrest⟩
    refine ⟨_, ⟨howned .gtp, rfl⟩, _, ⟨?_, rfl⟩, _, ⟨?_, rfl⟩, ?_⟩
    · intro key v hkey hv
      exact howned .pfcp key v hkey (by simpa using hv)
    · intro key v hkey hv
      exact howned .gx key v hkey (by simpa using hv)
    · simpa [dropOne, tables] using hrest

def keyOf (w : Procedures) (q : ProcId) (kind : Kind) : Option TransKey :=
  (w.procs.get q).bind fun proc => proc.trans kind

def firstHolder (w : Procedures) (queue : List ProcId) (kind : Kind) (key : TransKey) :
    Option ProcId :=
  queue.find? fun q => w.keyOf q kind = some key

structure Droppable (w : Procedures) (queue : List ProcId) : Prop where
  live : ∀ q ∈ queue, (w.procs.get q).isSome
  nodup : queue.Nodup
  owned : ∀ kind key q v, w.firstHolder queue kind key = some q → w.trans kind key = some v → v = q

def dropped (w : Procedures) (upf : Option Service) (queue : List ProcId) : Procedures where
  procs := queue.foldl Heap.free w.procs
  trans kind key := if (w.firstHolder queue kind key).isSome then none else w.trans kind key
  pending service :=
    if upf = some service then (w.pending service).diff queue else w.pending service

theorem dropped_nil (w : Procedures) (upf : Option Service) : w.dropped upf [] = w := by
  simp [dropped, firstHolder]

theorem firstHolder_cons (hget : w.procs.get q = some proc) :
    w.firstHolder (q :: queue) kind key =
      if proc.trans kind = some key then some q else w.firstHolder queue kind key := by
  have hkey : w.keyOf q kind = proc.trans kind := by rw [keyOf, hget, Option.bind_some]
  rw [firstHolder, List.find?_cons, hkey]
  by_cases h : proc.trans kind = some key <;> simp [h, firstHolder]

theorem firstHolder_dropOne (hq : q ∉ queue) :
    (w.dropOne upf q proc).firstHolder queue kind key = w.firstHolder queue kind key := by
  unfold firstHolder
  rw [← List.head?_filter, ← List.head?_filter]
  refine congrArg List.head? (List.filter_congr fun r hr => ?_)
  have hne : r ≠ q := fun h => hq (h ▸ hr)
  have hget : (w.dropOne upf q proc).procs.get r = w.procs.get r := by
    rw [dropOne, Heap.get_free, if_neg hne]
  rw [keyOf, keyOf, hget]

theorem dropped_dropOne (hget : w.procs.get q = some proc) (hq : q ∉ queue) :
    (w.dropOne upf q proc).dropped upf queue = w.dropped upf (q :: queue) := by
  unfold dropped
  congr 1
  · funext kind key
    rw [firstHolder_dropOne hq, firstHolder_cons hget]
    by_cases hkey : proc.trans kind = some key
    · simp [dropOne, hkey]
    · simp [dropOne, hkey]
  · funext service
    by_cases hupf : upf = some service
    · simp [dropOne, hupf]
    · simp [dropOne, hupf]

theorem droppable_cons (hget : w.procs.get q = some proc) :
    w.Droppable (q :: queue) ↔
      (∀ kind key v, proc.trans kind = some key → w.trans kind key = some v → v = q) ∧
        (w.dropOne upf q proc).Droppable queue := by
  constructor
  · intro h
    obtain ⟨hq, hnodup⟩ := List.nodup_cons.mp h.nodup
    refine ⟨fun kind key v hkey hv => ?_, fun r hr => ?_, hnodup, fun kind key r v hfirst hv => ?_⟩
    · exact h.owned kind key q v (by rw [firstHolder_cons hget, if_pos hkey]) hv
    · have hne : r ≠ q := fun hrq => hq (hrq ▸ hr)
      rw [dropOne, Heap.get_free, if_neg hne]
      exact h.live r (List.mem_cons_of_mem q hr)
    · rw [firstHolder_dropOne hq] at hfirst
      by_cases hkey : proc.trans kind = some key
      · simp [dropOne, hkey] at hv
      · simp only [dropOne, hkey, if_false] at hv
        exact h.owned kind key r v (by rw [firstHolder_cons hget, if_neg hkey, hfirst]) hv
  · rintro ⟨howned, h⟩
    -- The procedure has been freed, so it does not come again.
    have hq : q ∉ queue := by
      intro hq
      have hlive := h.live q hq
      rw [dropOne, Heap.get_free, if_pos rfl] at hlive
      cases hlive
    refine ⟨fun r hr => ?_, List.nodup_cons.mpr ⟨hq, h.nodup⟩, fun kind key r v hfirst hv => ?_⟩
    · rcases List.mem_cons.mp hr with rfl | hr
      · rw [hget]
        rfl
      · have hne : r ≠ q := fun hrq => hq (hrq ▸ hr)
        have hlive := h.live r hr
        rwa [dropOne, Heap.get_free, if_neg hne] at hlive
    · rw [firstHolder_cons hget] at hfirst
      split_ifs at hfirst with hkey
      · cases hfirst
        exact howned kind key v hkey hv
      · refine h.owned kind key r v (by rw [firstHolder_dropOne hq, hfirst]) ?_
        simp only [dropOne, hkey, if_false]
        exact hv

theorem dropProcs_eq_ok :
    dropProcs upf w queue = .ok w' ↔ w.Droppable queue ∧ w' = w.dropped upf queue := by
  induction queue generalizing w with
  | nil =>
    rw [dropped_nil]
    have hempty : w.Droppable [] :=
      ⟨fun _ h => (nomatch h), List.nodup_nil, fun _ _ _ _ h => (nomatch h)⟩
    exact ⟨fun h => ⟨hempty, (Except.ok.inj h).symm⟩, fun h => h.2 ▸ rfl⟩
  | cons q queue ih =>
    rw [dropProcs_cons_eq_ok]
    constructor
    · rintro ⟨proc, hget, howned, hrest⟩
      obtain ⟨hdrop, rfl⟩ := ih.mp hrest
      have hall := (droppable_cons hget).mpr ⟨howned, hdrop⟩
      exact ⟨hall, dropped_dropOne hget (List.nodup_cons.mp hall.nodup).1⟩
    · rintro ⟨hall, rfl⟩
      obtain ⟨proc, hget⟩ := Option.isSome_iff_exists.mp (hall.live q (List.mem_cons_self ..))
      obtain ⟨howned, hdrop⟩ : _ ∧ (w.dropOne upf q proc).Droppable queue :=
        (droppable_cons hget).mp hall
      refine ⟨proc, hget, howned, ih.mpr ⟨hdrop, ?_⟩⟩
      exact (dropped_dropOne hget (List.nodup_cons.mp hall.nodup).1).symm

end Spgw.Bearer.Procedures
