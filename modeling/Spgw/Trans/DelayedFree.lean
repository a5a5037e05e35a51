/-
# The release of transactions

`delayed_free` (`cp/cp_transactions.c`) marks a transaction and queues it, without a lock, from the
main thread or the timer thread, and the thread of `delayed_task_handler` (`cp/cp_init.c`) frees
what is in the queue (`cpplib/delayed_task.cpp`).
-/

import Spgw.Trans.Machine

namespace Spgw.Trans.DelayedFree

open Machine

inductive Caller
  | main
  | timer
  deriving DecidableEq

/-- `testing` is the transaction that a thread has found without a mark and not marked yet, and
`holding` what the handler has taken from the queue and not freed yet. `marked` and `freed` are a
record of the run. -/
structure State where
  trans : Heap TransData := {}
  testing : Caller → Option TransId := fun _ => none
  delayedMemoryFree : List TransId := []
  holding : Option TransId := none
  marked : List TransId := []
  freed : List TransId := []

def startTransactionTimer (s : State) (d : TransData) : State :=
  { s with trans := s.trans.alloc { d with delayedDelete := false } }

/-- The test of `delayed_free`. -/
def testDelayedDelete (s : State) (c : Caller) (t : TransId) : Option State :=
  (s.trans.get t).map fun d =>
    if d.delayedDelete then s else { s with testing := Function.update s.testing c (some t) }

/-- The rest of it. -/
def delayedFree (s : State) (c : Caller) : Option State :=
  match s.testing c with
  | some t => (s.trans.get t).map fun _ => { s with
      trans := s.trans.modify t fun d => { d with delayedDelete := true }
      testing := Function.update s.testing c none
      delayedMemoryFree := s.delayedMemoryFree ++ [t]
      marked := s.marked ++ [t] }
  | none => some s

/-- What `delayed_task_handler` does between two points at which another thread may run: it takes
an entry, or frees the one it has. When it sleeps is left out. -/
def delayedTaskHandler (s : State) : State :=
  match s.holding with
  | some t => { s with trans := s.trans.free t, holding := none, freed := s.freed ++ [t] }
  | none => { s with
      delayedMemoryFree := s.delayedMemoryFree.tail
      holding := s.delayedMemoryFree.head? }

/-- The timeout function of the transaction is left out. -/
def transactionRetryCallback (s : State) (t : TransId) : Option State :=
  (s.trans.get t).map fun d =>
    if d.delayedDelete then s
    else { s with trans := s.trans.modify t fun d => { d with stopped := true } }

inductive Event
  | start (d : TransData)
  | test (c : Caller) (t : TransId)
  | delayedFree (c : Caller)
  | handler
  | expiry (t : TransId)

def step (s : State) : Event → Option State
  | .start d => some (startTransactionTimer s d)
  | .test c t => testDelayedDelete s c t
  | .delayedFree c => delayedFree s c
  | .handler => some (delayedTaskHandler s)
  | .expiry t => transactionRetryCallback s t

structure Inv (s : State) : Prop where
  queued : s.marked = s.freed ++ s.holding.toList ++ s.delayedMemoryFree
  started : ∀ t ∈ s.marked, t < s.trans.next
  freed : ∀ t < s.trans.next, s.trans.get t = none ↔ t ∈ s.freed
  mark : ∀ t d, s.trans.get t = some d → (d.delayedDelete = true ↔ t ∈ s.marked)

/-- What holds besides if the threads do not test one transaction together. -/
structure Once (s : State) : Prop extends Inv s where
  nodup : s.marked.Nodup
  unmarked : ∀ c t, s.testing c = some t → t ∉ s.marked
  alone : ∀ c c' t, s.testing c = some t → s.testing c' = some t → c = c'

section Steps

variable {s s' : State} {t : TransId} {c : Caller}

theorem Inv.start (hs : Inv s) (d : TransData) : Inv (startTransactionTimer s d) := by
  obtain ⟨hqueued, hstarted, hfreed, hmark⟩ := hs
  have hnew : s.trans.next ∉ s.marked := fun h => Nat.lt_irrefl _ (hstarted _ h)
  constructor <;> grind [startTransactionTimer]

theorem Inv.test (hs : Inv s) (h : testDelayedDelete s c t = some s') : Inv s' := by
  obtain ⟨d, hd, rfl⟩ := Option.map_eq_some_iff.mp h
  split_ifs with hdelay
  · exact hs
  · exact ⟨hs.queued, hs.started, hs.freed, hs.mark⟩

theorem Inv.delayedFree (hs : Inv s) (h : delayedFree s c = some s') : Inv s' := by
  unfold DelayedFree.delayedFree at h
  split at h
  · obtain ⟨d, hd, rfl⟩ := Option.map_eq_some_iff.mp h
    obtain ⟨hqueued, hstarted, hfreed, hmark⟩ := hs
    constructor <;> grind [Heap.next_modify]
  · exact Option.some.inj h ▸ hs

theorem Inv.delayedTaskHandler (hs : Inv s) : Inv (delayedTaskHandler s) := by
  obtain ⟨hqueued, hstarted, hfreed, hmark⟩ := hs
  unfold DelayedFree.delayedTaskHandler
  cases hhold : s.holding with
  | none =>
    refine ⟨?_, hstarted, hfreed, hmark⟩
    cases hqueue : s.delayedMemoryFree <;> simp [hqueued, hhold, hqueue]
  | some t =>
    refine ⟨?_, ?_, ?_, ?_⟩ <;> grind

theorem Inv.transactionRetryCallback (hs : Inv s) (h : transactionRetryCallback s t = some s') :
    Inv s' := by
  obtain ⟨d, hd, rfl⟩ := Option.map_eq_some_iff.mp h
  obtain ⟨hqueued, hstarted, hfreed, hmark⟩ := hs
  split_ifs with hdelay <;> constructor <;> grind [Heap.next_modify]

theorem inv_next (s : State) (e : Event) (s' : State) (hs : Inv s) (h : step s e = some s') :
    Inv s' := by
  cases e with
  | start d => exact Option.some.inj h ▸ hs.start d
  | test c t => exact hs.test h
  | delayedFree c => exact hs.delayedFree h
  | handler => exact Option.some.inj h ▸ hs.delayedTaskHandler
  | expiry t => exact hs.transactionRetryCallback h

/-- A step that leaves the record and the tests as they are. -/
theorem Once.of_eq (hs : Once s) (hinv : Inv s') (hmarked : s'.marked = s.marked)
    (htesting : s'.testing = s.testing) : Once s' :=
  { hinv with
    nodup := hmarked ▸ hs.nodup
    unmarked := hmarked ▸ htesting ▸ hs.unmarked
    alone := htesting ▸ hs.alone }

end Steps

def received : TransData := ⟨7, ⟨20, 2123⟩, none, .received .mme, false, false⟩

end Spgw.Trans.DelayedFree
