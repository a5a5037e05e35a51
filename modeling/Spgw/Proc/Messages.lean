/-
# The messages that procedures hold

A received message is a `msg_info_t` with a `raw_buf`; the timeout handlers make further ones.
-/

import Spgw.Lib.Heap
import Spgw.Lib.Run
import Mathlib.Algebra.Order.Ring.Nat

namespace Spgw.Proc.Messages

open Machine

abbrev MsgPtr := ℕ

abbrev ProcPtr := ℕ

structure MsgInfo where
  refCnt : UInt32 := 0
  rawFreed : Bool := false
  deriving DecidableEq

/-- The messages, the procedures with their `msg_info`, and every message that a procedure
has taken over. -/
structure State where
  msgs : Heap MsgInfo := {}
  procs : Heap (Option MsgPtr) := {}
  taken : List MsgPtr := []

/-- `free(msg->raw_buf); free(msg);` -/
def freeMsg (msgs : Heap MsgInfo) (m : MsgPtr) : Option (Heap MsgInfo) := do
  let msg ← msgs.get m
  if msg.rawFreed then none else some (msgs.free m)

def setProcMsg (s : State) (p : ProcPtr) (m : MsgPtr) : Option State := do
  let old ← s.procs.get p
  let msgs ← old.elim (some s.msgs) (freeMsg s.msgs)
  let msg ← msgs.get m
  some {
    msgs := msgs.set m { msg with refCnt := msg.refCnt + 1 }
    procs := s.procs.set p (some m)
    taken := m :: s.taken }

/-- What `end_procedure` and `end_upf_procedure` do with the message `m`. -/
def dropMsg (msgs : Heap MsgInfo) (m : MsgPtr) : Option (Heap MsgInfo) := do
  let msg ← msgs.get m
  let msgs := msgs.set m { msg with refCnt := msg.refCnt - 1 }
  if msg.refCnt - 1 = 1 then freeMsg msgs m else some msgs

def endProcedure (s : State) (p : ProcPtr) : Option State := do
  let held ← s.procs.get p
  let msgs ← held.elim (some s.msgs) (dropMsg s.msgs)
  some { s with msgs := msgs, procs := s.procs.free p }

/-- One turn of the loops of `cleanup_ue_context` and `process_error_occured_handler_new`, which free
the procedures of a UE context and leave their messages alone. -/
def freeProc (s : State) (p : ProcPtr) : Option State := do
  let _ ← s.procs.get p
  some { s with procs := s.procs.free p }

/-- The end of `process_gtp_msg` and `process_gx_msg`, for a pointer that is not null. -/
def processMsg (s : State) (m : MsgPtr) : Option State := do
  let msg ← s.msgs.get m
  if msg.refCnt = 0 then (freeMsg s.msgs m).map ({ s with msgs := · }) else some s

/-- The end of `process_pfcp_msg`, which frees the buffer of a message that is held, too. -/
def processPfcpMsg (s : State) (m : MsgPtr) : Option State := do
  let msg ← s.msgs.get m
  if msg.rawFreed then none
  else if msg.refCnt = 0 then some { s with msgs := s.msgs.free m }
  else some { s with msgs := s.msgs.set m { msg with rawFreed := true } }

/-- `newMsg` is a message that is read from a socket or made by a timeout handler, `newProc`
the `calloc` of a procedure. -/
inductive Event
  | newMsg
  | newProc
  | setProcMsg (p : ProcPtr) (m : MsgPtr)
  | endProcedure (p : ProcPtr)
  | freeProc (p : ProcPtr)
  | processMsg (m : MsgPtr)
  | processPfcpMsg (m : MsgPtr)

/-- `none` is a use of memory that has been freed, or a second `free` of it. -/
def step (s : State) : Event → Option State
  | .newMsg => some { s with msgs := s.msgs.alloc {} }
  | .newProc => some { s with procs := s.procs.alloc none }
  | .setProcMsg p m => setProcMsg s p m
  | .endProcedure p => endProcedure s p
  | .freeProc p => freeProc s p
  | .processMsg m => processMsg s m
  | .processPfcpMsg m => processPfcpMsg s m

/-- The number of procedures that hold `m`. -/
def State.holders (s : State) (m : MsgPtr) : ℕ := (s.procs.held fun o => o).count m

/-- A message that is held is whole, and one that was held and no longer is has been freed. -/
structure Sound (s : State) : Prop where
  whole : ∀ m, 0 < s.holders m → ∃ msg, s.msgs.get m = some msg ∧ msg.rawFreed = false
  released : ∀ m ∈ s.taken, s.holders m = 0 → s.msgs.get m = none

/-- A procedure that takes a message over holds none, or is the only holder of another one; the count
of a message whose holder ends is 2 exactly if there is no other holder; a procedure that is freed
otherwise has no message, or one with another holder; a message looked at again is not held. -/
def Safe (s : State) : Event → Prop
  | .newMsg | .newProc => True
  | .setProcMsg p m => (s.msgs.get m).isSome ∧
      ∃ old, s.procs.get p = some old ∧ ∀ o ∈ old, o ≠ m ∧ s.holders o = 1
  | .endProcedure p => ∃ held, s.procs.get p = some held ∧
      ∀ m ∈ held, ∀ msg ∈ s.msgs.get m, msg.refCnt = 2 ↔ s.holders m = 1
  | .freeProc p => ∃ held, s.procs.get p = some held ∧ ∀ m ∈ held, 1 < s.holders m
  | .processMsg m => ∃ msg, s.msgs.get m = some msg ∧ (msg.refCnt = 0 → s.holders m = 0)
  | .processPfcpMsg m => (s.msgs.get m).isSome ∧ s.holders m = 0

/-- The message `m` has been freed and is not held, or it is whole, it has been taken over exactly
if it is held, and its count is zero if it never was. -/
def Kept (s : State) (m : MsgPtr) : Prop :=
  s.msgs.get m = none ∧ s.holders m = 0 ∨
    ∃ cnt, s.msgs.get m = some ⟨cnt, false⟩ ∧ (m ∈ s.taken ↔ 0 < s.holders m) ∧
      (s.holders m = 0 → cnt = 0)

structure Inv (s : State) : Prop where
  kept : ∀ m, Kept s m
  taken_lt : ∀ m ∈ s.taken, m < s.msgs.next

variable {s t : State} {p : ProcPtr} {m : MsgPtr} {held : Option MsgPtr}

theorem Inv.sound (h : Inv s) : Sound s := by
  refine ⟨fun m hm => ?_, fun m hm hnone => ?_⟩
  · rcases h.kept m with ⟨-, hzero⟩ | ⟨cnt, hget, -⟩
    · omega
    · exact ⟨_, hget, rfl⟩
  · rcases h.kept m with ⟨hget, -⟩ | ⟨cnt, -, htaken, -⟩
    · exact hget
    · have := htaken.mp hm
      omega

theorem Inv.get_eq (h : Inv s) (hm : (s.msgs.get m).isSome ∨ 0 < s.holders m) :
    ∃ cnt, s.msgs.get m = some ⟨cnt, false⟩ ∧ (s.holders m = 0 → cnt = 0) := by
  rcases h.kept m with ⟨hget, hzero⟩ | ⟨cnt, hget, -, hcnt⟩
  · simp [hget, hzero] at hm
  · exact ⟨cnt, hget, hcnt⟩

theorem Inv.mem_taken (h : Inv s) (hm : 0 < s.holders m) : m ∈ s.taken := by
  rcases h.kept m with ⟨-, hzero⟩ | ⟨cnt, -, htaken, -⟩
  · omega
  · exact htaken.mpr hm

theorem exists_holders (hp : s.procs.get p = some held) :
    ∃ rest : MsgPtr → ℕ, (∀ q, s.holders q = held.toList.count q + rest q) ∧ (∀ msgs new taken q,
        State.holders ⟨msgs, s.procs.set p new, taken⟩ q = new.toList.count q + rest q) ∧
      ∀ msgs taken q, State.holders ⟨msgs, s.procs.free p, taken⟩ q = rest q := by
  obtain ⟨rest, hheld, hset, hfree⟩ := Heap.exists_held_perm (fun o => o) hp
  refine ⟨rest.count, fun q => ?_, fun _ new _ q => ?_, fun _ _ q => hfree.count_eq q⟩
  · rw [State.holders, hheld.count_eq, List.count_append]
  · rw [State.holders, (hset new).count_eq, List.count_append]

theorem Inv.freeMsg_eq (h : Inv s) (hm : (s.msgs.get m).isSome ∨ 0 < s.holders m) :
    freeMsg s.msgs m = some (s.msgs.free m) := by
  obtain ⟨cnt, hget, -⟩ := h.get_eq hm
  simp [freeMsg, hget]

theorem dropMsg_eq {cnt : UInt32} (hget : s.msgs.get m = some ⟨cnt, false⟩) :
    dropMsg s.msgs m = some (if cnt = 2 then s.msgs.free m
      else s.msgs.set m ⟨cnt - 1, false⟩) := by
  have htwo : cnt - 1 = 1 ↔ cnt = 2 :=
    ⟨fun h => by rw [← UInt32.sub_add_cancel cnt 1, h]; rfl, fun h => by rw [h]; rfl⟩
  simp only [dropMsg, hget, Option.bind_eq_bind, Option.bind_some, htwo]
  split_ifs
  · simp [freeMsg, Heap.get_set hget, Heap.free_set]
  · rfl

theorem Inv.of_eq_off (h : Inv s) (m : MsgPtr) (hm : Kept t m)
    (hget : ∀ q, q ≠ m → t.msgs.get q = s.msgs.get q)
    (hholders : ∀ q, q ≠ m → t.holders q = s.holders q)
    (htaken : ∀ q, q ∈ t.taken ↔ q ∈ s.taken ∨ q = m ∧ 0 < t.holders m)
    (hnext : s.msgs.next ≤ t.msgs.next) (hlt : m < t.msgs.next) : Inv t := by
  refine ⟨fun q => ?_, fun q hq => ?_⟩
  · by_cases hqm : q = m
    · exact hqm ▸ hm
    · simpa [Kept, hget q hqm, hholders q hqm, htaken, hqm] using h.kept q
  · rcases (htaken q).mp hq with hq | ⟨rfl, -⟩
    · exact (h.taken_lt q hq).trans_le hnext
    · exact hlt

theorem Inv.newMsg (h : Inv s) : Inv { s with msgs := s.msgs.alloc {} } := by
  have hnone : s.holders s.msgs.next = 0 := by
    rcases h.kept s.msgs.next with ⟨-, hzero⟩ | ⟨cnt, hget, -⟩
    · exact hzero
    · rw [Heap.get_next] at hget
      cases hget
  have hfresh : s.msgs.next ∉ s.taken := fun hmem => lt_irrefl _ (h.taken_lt _ hmem)
  refine h.of_eq_off s.msgs.next
    (.inr ⟨0, ?_, iff_of_false hfresh hnone.not_gt, fun _ => rfl⟩) (fun q hq => ?_)
    (fun _ _ => rfl) (fun q => (or_iff_left fun hq => hnone.not_gt hq.2).symm)
    (Heap.next_alloc ▸ Nat.le_succ _) (Heap.next_alloc ▸ Nat.lt_succ_self _)
  · rw [Heap.get_alloc, if_pos rfl]
  · rw [Heap.get_alloc, if_neg hq]

theorem Inv.release (h : Inv s) (hp : s.procs.get p = some (some m)) (hone : s.holders m = 1) :
    Inv { s with msgs := s.msgs.free m, procs := s.procs.set p none } := by
  obtain ⟨rest, hrest, hset, -⟩ := exists_holders hp
  obtain ⟨cnt, hget, -⟩ := h.get_eq (.inr (hone ▸ Nat.one_pos))
  have hm : rest m = 0 := by simpa [hone] using hrest m
  refine h.of_eq_off m (.inl ⟨?_, ?_⟩) (fun q hq => ?_) (fun q hq => ?_) (fun q => ?_) ?_ ?_
  · rw [Heap.get_free, if_pos rfl]
  · simp [hset, hm]
  · rw [Heap.get_free, if_neg hq]
  · simp [hset, hrest q, hq.symm]
  · simp [hset, hm]
  · simp
  · simpa using Heap.lt_next_of_get hget

theorem Inv.take (h : Inv s) (hp : s.procs.get p = some none) (hm : (s.msgs.get m).isSome) :
    ∃ t, setProcMsg s p m = some t ∧ Inv t := by
  obtain ⟨rest, hrest, hset, -⟩ := exists_holders hp
  obtain ⟨cnt, hget, -⟩ := h.get_eq (.inl hm)
  refine ⟨_, by simp [setProcMsg, hp, hget]; rfl, ?_⟩
  refine h.of_eq_off m (.inr ⟨cnt + 1, ?_, ?_, ?_⟩) (fun q hq => ?_) (fun q hq => ?_)
    (fun q => ?_) ?_ ?_
  · rw [Heap.get_set hget, if_pos rfl]
  · simp [hset]
  · simp [hset]
  · rw [Heap.get_set hget, if_neg hq]
  · simp [hset, hrest q, hq.symm]
  · simp [hset, or_comm]
  · simp
  · simpa using Heap.lt_next_of_get hget

theorem setProcMsg_of_some {o : MsgPtr} (h : Inv s) (hp : s.procs.get p = some (some o))
    (hone : s.holders o = 1) :
    setProcMsg s p m =
      setProcMsg { s with msgs := s.msgs.free o, procs := s.procs.set p none } p m := by
  simp [setProcMsg, hp, h.freeMsg_eq (.inr (hone ▸ Nat.one_pos)), Heap.get_set hp, Heap.set_set]

/-- The holder `p` of `m` leaves, and `msgs` is what it makes of the messages: `m` is freed exactly if
there is no other holder. -/
theorem Inv.leave (h : Inv s) (hp : s.procs.get p = some (some m)) {msgs : Heap MsgInfo}
    (hmsgs : msgs = s.msgs.free m ∧ s.holders m = 1 ∨
      s.holders m ≠ 1 ∧ (∃ cnt, msgs.get m = some ⟨cnt, false⟩) ∧ msgs.next = s.msgs.next ∧
        ∀ q, q ≠ m → msgs.get q = s.msgs.get q) :
    Inv { s with msgs := msgs, procs := s.procs.free p } := by
  obtain ⟨rest, hrest, -, hfree⟩ := exists_holders hp
  have hcount : s.holders m = 1 + rest m := by simpa using hrest m
  have hpos : 0 < s.holders m := by omega
  obtain ⟨cnt, hget, -⟩ := h.get_eq (.inr hpos)
  have htaken := h.mem_taken hpos
  have hmem (q : MsgPtr) : q ∈ s.taken ↔ q ∈ s.taken ∨
      q = m ∧ 0 < { s with msgs := msgs, procs := s.procs.free p }.holders m := by
    refine (or_iff_left_of_imp ?_).symm
    rintro ⟨rfl, -⟩
    exact htaken
  rcases hmsgs with ⟨rfl, hone⟩ | ⟨hmore, ⟨cnt', hget'⟩, hnext, hoff⟩
  · refine h.of_eq_off m (.inl ⟨?_, ?_⟩) (fun q hq => ?_) (fun q hq => ?_) hmem ?_ ?_
    · rw [Heap.get_free, if_pos rfl]
    · simp only [hfree]
      omega
    · rw [Heap.get_free, if_neg hq]
    · simp [hfree, hrest q, hq.symm]
    · simp
    · simpa using Heap.lt_next_of_get hget
  · refine h.of_eq_off m (.inr ⟨cnt', hget', ?_, ?_⟩) hoff (fun q hq => ?_) hmem hnext.ge ?_
    · refine iff_of_true htaken ?_
      simp only [hfree]
      omega
    · simp only [hfree]
      omega
    · simp [hfree, hrest q, hq.symm]
    · exact hnext ▸ Heap.lt_next_of_get hget

theorem Inv.drop (h : Inv s) (hp : s.procs.get p = some (some m))
    (hcnt : ∀ msg ∈ s.msgs.get m, msg.refCnt = 2 ↔ s.holders m = 1) :
    ∃ t, endProcedure s p = some t ∧ Inv t := by
  obtain ⟨rest, hrest, -⟩ := exists_holders hp
  have hpos : 0 < s.holders m := by
    rw [hrest m]
    simp
  obtain ⟨cnt, hget, -⟩ := h.get_eq (.inr hpos)
  refine ⟨_, by simp [endProcedure, hp, dropMsg_eq hget]; rfl, h.leave hp ?_⟩
  have hcnt : cnt = 2 ↔ s.holders m = 1 := hcnt _ hget
  split_ifs with htwo
  · exact .inl ⟨rfl, hcnt.mp htwo⟩
  · refine .inr ⟨fun hone => htwo (hcnt.mpr hone), ⟨cnt - 1, ?_⟩, by simp, fun q hq => ?_⟩
    · rw [Heap.get_set hget, if_pos rfl]
    · rw [Heap.get_set hget, if_neg hq]

theorem Inv.end_none (h : Inv s) (hp : s.procs.get p = some none) :
    Inv { s with procs := s.procs.free p } := by
  obtain ⟨rest, hrest, -, hfree⟩ := exists_holders hp
  have hcount (q : MsgPtr) : { s with procs := s.procs.free p }.holders q = s.holders q := by
    simp [hfree, hrest q]
  exact ⟨fun q => by simpa only [Kept, hcount] using h.kept q, h.taken_lt⟩

theorem Inv.newProc (h : Inv s) : Inv { s with procs := s.procs.alloc none } := by
  have hcount (q : MsgPtr) : { s with procs := s.procs.alloc none }.holders q = s.holders q := by
    simp [State.holders]
  exact ⟨fun q => by simpa only [Kept, hcount] using h.kept q, h.taken_lt⟩

theorem Inv.discard (h : Inv s) (hm : (s.msgs.get m).isSome) (hzero : s.holders m = 0) :
    Inv { s with msgs := s.msgs.free m } := by
  refine h.of_eq_off m (.inl ⟨?_, hzero⟩) (fun q hq => ?_) (fun q hq => rfl) (fun q => ?_) ?_ ?_
  · rw [Heap.get_free, if_pos rfl]
  · rw [Heap.get_free, if_neg hq]
  · exact (or_iff_left fun hq => hzero.not_gt hq.2).symm
  · simp
  · obtain ⟨cnt, hget, -⟩ := h.get_eq (.inl hm)
    simpa using Heap.lt_next_of_get hget

theorem exists_step_of_safe (h : Inv s) (e : Event) (hs : Safe s e) :
    ∃ t, step s e = some t ∧ Inv t := by
  cases e with
  | newMsg => exact ⟨_, rfl, h.newMsg⟩
  | newProc => exact ⟨_, rfl, h.newProc⟩
  | setProcMsg p m =>
    obtain ⟨hm, old, hp, hold⟩ := hs
    cases old with
    | none => exact h.take hp hm
    | some o =>
      obtain ⟨hne, hone⟩ := hold o rfl
      have htake := (h.release hp hone).take (p := p) (m := m) (by simp [Heap.get_set hp])
        (by simpa [Heap.get_free, hne.symm] using hm)
      rwa [← setProcMsg_of_some h hp hone] at htake
  | endProcedure p =>
    obtain ⟨held, hp, hheld⟩ := hs
    cases held with
    | none => exact ⟨_, by simp [step, endProcedure, hp], h.end_none hp⟩
    | some m => exact h.drop hp (hheld m rfl)
  | freeProc p =>
    obtain ⟨held, hp, hheld⟩ := hs
    refine ⟨_, by simp only [step, freeProc, hp]; rfl, ?_⟩
    cases held with
    | none => exact h.end_none hp
    | some m =>
      have hmore : 1 < s.holders m := hheld m rfl
      obtain ⟨cnt, hget, -⟩ := h.get_eq (.inr (Nat.zero_lt_of_lt hmore))
      exact h.leave hp (.inr ⟨hmore.ne', ⟨cnt, hget⟩, rfl, fun _ _ => rfl⟩)
  | processMsg m =>
    obtain ⟨msg, hget, hzero⟩ := hs
    have hm : (s.msgs.get m).isSome := by simp [hget]
    by_cases hc : msg.refCnt = 0
    · refine ⟨_, ?_, h.discard hm (hzero hc)⟩
      simp [step, processMsg, hget, hc, h.freeMsg_eq (.inl hm)]
    · exact ⟨s, by simp [step, processMsg, hget, hc], h⟩
  | processPfcpMsg m =>
    obtain ⟨hm, hzero⟩ := hs
    obtain ⟨cnt, hget, hcnt⟩ := h.get_eq (.inl hm)
    refine ⟨_, ?_, h.discard hm hzero⟩
    simp [step, processPfcpMsg, hget, hcnt hzero]

theorem safe_of_sound {e : Event} (h : Inv s) (hstep : step s e = some t) (ht : Sound t) :
    Safe s e := by
  cases e with
  | newMsg => trivial
  | newProc => trivial
  | setProcMsg p m =>
    simp only [step, setProcMsg, Option.bind_eq_bind, Option.bind_eq_some_iff] at hstep
    obtain ⟨old, hp, msgs, hmsgs, msg, hmsg, hstep⟩ := hstep
    cases hstep
    obtain ⟨rest, hrest, hset, -⟩ := exists_holders hp
    cases old with
    | none =>
      cases hmsgs
      exact ⟨by simp [hmsg], none, hp, nofun⟩
    | some o =>
      have hcount : s.holders o = 1 + rest o := by simpa using hrest o
      have hfree := h.freeMsg_eq (m := o) (.inr (by omega))
      cases hfree.symm.trans hmsgs
      rw [Heap.get_free] at hmsg
      split_ifs at hmsg with hne
      have hone : rest o = 0 := by
        by_contra hpos
        obtain ⟨msg', hget, -⟩ := ht.whole o (by simp [hset]; omega)
        simp [Heap.get_set (h := s.msgs.free o) (by rwa [Heap.get_free, if_neg hne]),
          Heap.get_free, Ne.symm hne] at hget
      refine ⟨by simp [hmsg], some o, hp, ?_⟩
      rintro _ ⟨⟩
      exact ⟨Ne.symm hne, by omega⟩
  | endProcedure p =>
    simp only [step, endProcedure, Option.bind_eq_bind, Option.bind_eq_some_iff] at hstep
    obtain ⟨held, hp, msgs, hmsgs, hstep⟩ := hstep
    cases hstep
    obtain ⟨rest, hrest, -, hfree⟩ := exists_holders hp
    refine ⟨held, hp, ?_⟩
    rintro m rfl msg hmsg
    have hcount : s.holders m = 1 + rest m := by simpa using hrest m
    have hpos : 0 < s.holders m := by omega
    obtain ⟨cnt, hget, -⟩ := h.get_eq (.inr hpos)
    obtain rfl := Option.some.inj (hmsg.symm.trans hget)
    cases (dropMsg_eq hget).symm.trans hmsgs
    split_ifs at ht with htwo
    · -- The message is gone, so that no other procedure may hold it.
      refine iff_of_true htwo ?_
      by_contra hne
      obtain ⟨msg, hmsg, -⟩ := ht.whole m (by simp only [hfree]; omega)
      simp [Heap.get_free] at hmsg
    · -- The message is there, so that it must still be held.
      refine iff_of_false htwo fun hone => ?_
      have hnone := ht.released m (h.mem_taken hpos) (by simp only [hfree]; omega)
      simp [Heap.get_set hget] at hnone
  | freeProc p =>
    simp only [step, freeProc, Option.bind_eq_bind, Option.bind_eq_some_iff] at hstep
    obtain ⟨held, hp, hstep⟩ := hstep
    cases hstep
    obtain ⟨rest, hrest, -, hfree⟩ := exists_holders hp
    refine ⟨held, hp, ?_⟩
    rintro m rfl
    have hcount : s.holders m = 1 + rest m := by simpa using hrest m
    obtain ⟨cnt, hget, -⟩ := h.get_eq (m := m) (.inr (by omega))
    by_contra hle
    have hnone := ht.released m (h.mem_taken (by omega)) (by simp only [hfree]; omega)
    rw [hget] at hnone
    cases hnone
  | processMsg m =>
    simp only [step, processMsg, Option.bind_eq_bind, Option.bind_eq_some_iff] at hstep
    obtain ⟨msg, hmsg, hstep⟩ := hstep
    have hm : (s.msgs.get m).isSome := by simp [hmsg]
    refine ⟨msg, hmsg, fun hc => ?_⟩
    by_contra hne
    simp only [hc, if_true, h.freeMsg_eq (.inl hm), Option.map_some, Option.some.injEq] at hstep
    subst hstep
    obtain ⟨msg, hget, -⟩ := ht.whole m (Nat.pos_of_ne_zero hne)
    simp [Heap.get_free] at hget
  | processPfcpMsg m =>
    simp only [step, processPfcpMsg, Option.bind_eq_bind, Option.bind_eq_some_iff] at hstep
    obtain ⟨msg, hmsg, hstep⟩ := hstep
    have hm : (s.msgs.get m).isSome := by simp [hmsg]
    refine ⟨hm, ?_⟩
    by_contra hne
    split_ifs at hstep
    all_goals
      cases hstep
      obtain ⟨msg', hget, hwhole⟩ := ht.whole m (Nat.pos_of_ne_zero hne)
    · simp [Heap.get_free] at hget
    · rw [Heap.get_set hmsg, if_pos rfl] at hget
      rw [← Option.some.inj hget] at hwhole
      cases hwhole

theorem inv_initial : Inv {} := ⟨fun _ => .inl ⟨rfl, rfl⟩, nofun⟩

/-- **Every message that procedures take over is released once and in time exactly when every step
of the run is safe.** -/
theorem sound_iff_guarded (es : List Event) :
    (final step {} es).isSome ∧ (∀ t ∈ trace step {} es, Sound t) ↔ Guarded step Safe {} es := by
  constructor
  · rintro ⟨hfinal, hsound⟩
    refine Machine.guarded_of_trace (I := Inv) ?_ inv_initial hfinal hsound
    intro s e t h hstep ht
    have hs := safe_of_sound h hstep ht
    obtain ⟨t', hstep', ht'⟩ := exists_step_of_safe h e hs
    cases hstep.symm.trans hstep'
    exact ⟨hs, ht'⟩
  · intro hg
    refine ⟨hg.isSome_final (fun s e h hs => exists_step_of_safe h e hs) inv_initial, ?_⟩
    intro t ht
    refine (Machine.trace_invariant (I := Inv) ?_ inv_initial hg t ht).sound
    intro s e t h hs hstep
    obtain ⟨t', hstep', ht'⟩ := exists_step_of_safe h e hs
    cases hstep.symm.trans hstep'
    exact ht'

/-- A Create Session Request is read, `alloc_initial_proc` takes it over, the request is
rejected and the procedure ends: no step frees the message. -/
theorem not_sound_rejected :
    ∃ t, final step {} [.newMsg, .newProc, .setProcMsg 0 0, .endProcedure 0] = some t ∧
      0 ∈ t.taken ∧ t.holders 0 = 0 ∧ t.msgs.get 0 = some ⟨0, false⟩ ∧ ¬ Sound t := by
  refine ⟨_, rfl, by decide, by decide, by decide, fun h => ?_⟩
  have hnone := h.released 0 (by decide) (by decide)
  exact absurd hnone (by decide)

end Spgw.Proc.Messages
