/-
# Supervision of a peer

`cp/cp_peer.c`: a peer gets an entry with two timers when it is first heard of
(`add_node_conn_entry`).
-/

import Mathlib.Data.List.Basic
import Mathlib.Data.UInt

namespace Spgw.Peer

/-- The interfaces of `cp_timer.h`; their number is the `portId`. -/
inductive PortId
  | s11Sgw | s5s8Sgwc | sx | s5s8Pgwc

/-- The periodic timer `pt` and the transmit timer `tt`. -/
inductive Timer
  | pt | tt
  deriving DecidableEq

structure PeerData where
  id : ℕ
  portId : PortId
  itr : UInt8
  itrCnt : UInt8
  running : Timer → Bool

structure State where
  entry : Option PeerData := none
  entries : ℕ := 0

inductive Event
  | timeout (id : ℕ) (ti : Timer)
  | addNodeConnEntry (portId : PortId)
  | response

/-- What a timeout leads to: a request, with a new sequence number or the last one, or the end of
the supervision, for a user plane with `upf_down_event`. -/
inductive Output
  | request (portId : PortId) (newSeqnb : Bool)
  | unreachable (portId : PortId)

variable (transmitCnt : UInt8)

def handleTimeoutEvent (s : State) (id : ℕ) (ti : Timer) : State × List Output :=
  match s.entry with
  | none => (s, [])
  | some md =>
    if md.itrCnt = md.itr then ({ s with entry := none }, [.unreachable md.portId])
    else
      let isPt := id = md.id ∧ ti = .pt
      let isTt := id = md.id ∧ ti = .tt
      let itrCnt := if isTt then md.itrCnt + 1 else md.itrCnt
      let running := if isPt then fun t => t == .tt else md.running
      ({ s with entry := some { md with itrCnt, running } }, [.request md.portId isPt])

def addNodeConnEntry (s : State) (portId : PortId) : State :=
  match s.entry with
  | none => ⟨some ⟨s.entries, portId, transmitCnt, 0, fun t => t == .pt⟩, s.entries + 1⟩
  | some md => { s with entry := some { md with running := fun t => t == .pt || md.running t } }

def processResponse (s : State) : State :=
  { s with entry := s.entry.map fun md => { md with itrCnt := 0, running := fun t => t == .pt } }

def step (s : State) : Event → State × List Output
  | .timeout id ti => handleTimeoutEvent s id ti
  | .addNodeConnEntry portId => (addNodeConnEntry transmitCnt s portId, [])
  | .response => (processResponse s, [])

def after : List Event → State
  | [] => {}
  | e :: history => (step transmitCnt (after history) e).1

def processed : List Event → ℕ
  | [] => 0
  | e :: history =>
    match e, (after transmitCnt history).entry with
    | .response, _ => 0
    | .addNodeConnEntry _, none => 0
    | .addNodeConnEntry _, some _ => processed history
    | .timeout id ti, some md =>
      if id = md.id ∧ ti = .tt then processed history + 1 else processed history
    | .timeout _ _, none => processed history

structure Counts (history : List Event) (md : PeerData) : Prop where
  itr : md.itr = transmitCnt
  le : md.itrCnt.toNat ≤ md.itr.toNat
  itrCnt : md.itrCnt.toNat = processed transmitCnt history

variable {transmitCnt}

theorem toNat_lt_of_ne {a b : UInt8} (hle : a.toNat ≤ b.toNat) (hne : a ≠ b) : a.toNat < b.toNat :=
  Nat.lt_of_le_of_ne hle fun h => hne (UInt8.toNat_inj.mp h)

theorem toNat_succ_of_ne {a b : UInt8} (hle : a.toNat ≤ b.toNat) (hne : a ≠ b) :
    (a + 1).toNat = a.toNat + 1 := by
  have hlt := toNat_lt_of_ne hle hne
  have hb := b.toNat_lt
  have hone : (1 : UInt8).toNat = 1 := rfl
  rw [UInt8.toNat_add, hone]
  exact Nat.mod_eq_of_lt (by omega)

theorem counts_step {history : List Event} {e : Event}
    (h : ∀ md, (after transmitCnt history).entry = some md → Counts transmitCnt history md)
    {md : PeerData} (hmd : (after transmitCnt (e :: history)).entry = some md) :
    Counts transmitCnt (e :: history) md := by
  cases hold : (after transmitCnt history).entry with
  | none =>
    cases e with
    | timeout id ti => simp [after, step, handleTimeoutEvent, hold] at hmd
    | response => simp [after, step, processResponse, hold] at hmd
    | addNodeConnEntry portId =>
      simp only [after, step, addNodeConnEntry, hold, Option.some.injEq] at hmd
      subst hmd
      exact ⟨rfl, Nat.zero_le _, by simp [processed, hold]⟩
  | some old =>
    obtain ⟨hitr, hle, hcnt⟩ := h old hold
    cases e with
    | response =>
      simp only [after, step, processResponse, hold, Option.map_some, Option.some.injEq] at hmd
      subst hmd
      exact ⟨hitr, Nat.zero_le _, by simp [processed]⟩
    | addNodeConnEntry portId =>
      simp only [after, step, addNodeConnEntry, hold, Option.some.injEq] at hmd
      subst hmd
      exact ⟨hitr, hle, by simp [processed, hold, hcnt]⟩
    | timeout id ti =>
      by_cases hlimit : old.itrCnt = old.itr
      · simp [after, step, handleTimeoutEvent, hold, hlimit] at hmd
      · simp only [after, step, handleTimeoutEvent, hold, if_neg hlimit, Option.some.injEq] at hmd
        subst hmd
        by_cases htt : id = old.id ∧ ti = .tt
        · have hsucc := toNat_succ_of_ne hle hlimit
          have hlt := toNat_lt_of_ne hle hlimit
          refine ⟨hitr, ?_, ?_⟩
          · rw [if_pos htt]
            exact hsucc.le.trans hlt
          · simp only [processed, hold, if_pos htt, hsucc, hcnt]
        · refine ⟨hitr, ?_, ?_⟩
          · rw [if_neg htt]
            exact hle
          · simp only [processed, hold, if_neg htt, hcnt]

theorem counts_after (history : List Event) :
    ∀ md, (after transmitCnt history).entry = some md → Counts transmitCnt history md := by
  induction history with
  | nil =>
    intro md hmd
    simp [after] at hmd
  | cons e history ih => exact fun md => counts_step ih

variable (transmitCnt)

/-- **A peer is given up at an expiry exactly if `transmit_cnt` expiries of its transmit timer have
been processed since it was last heard of, and any other expiry sends one request.** -/
theorem timeout_iff (history : List Event) (id : ℕ) (ti : Timer) :
    match (after transmitCnt history).entry with
    | none => (step transmitCnt (after transmitCnt history) (.timeout id ti)).2 = []
    | some md =>
      (processed transmitCnt history = transmitCnt.toNat ∧
        (step transmitCnt (after transmitCnt history) (.timeout id ti)).2 =
          [.unreachable md.portId]) ∨
      (processed transmitCnt history < transmitCnt.toNat ∧ ∃ newSeqnb,
        (step transmitCnt (after transmitCnt history) (.timeout id ti)).2 =
          [.request md.portId newSeqnb]) := by
  cases hentry : (after transmitCnt history).entry with
  | none => simp [step, handleTimeoutEvent, hentry]
  | some md =>
    obtain ⟨hitr, hle, hcnt⟩ := counts_after history md hentry
    simp only [step, handleTimeoutEvent, hentry]
    by_cases hlimit : md.itrCnt = md.itr
    · left
      rw [if_pos hlimit]
      exact ⟨by rw [← hcnt, hlimit, hitr], rfl⟩
    · right
      rw [if_neg hlimit]
      refine ⟨?_, _, rfl⟩
      rw [← hcnt, ← hitr]
      exact toNat_lt_of_ne hle hlimit

/-- A user plane that is heard of once and does not answer. -/
def silent : List Event := [.timeout 0 .tt, .timeout 0 .tt, .timeout 0 .pt, .addNodeConnEntry .sx]

theorem timeout_silent : (∃ md, (after 2 silent).entry = some md) ∧
    (step 2 (after 2 silent) (.timeout 0 .tt)).2 = [.unreachable .sx] := by
  refine ⟨⟨_, rfl⟩, ?_⟩
  obtain ⟨-, hgiven⟩ | ⟨hlt, -⟩ := timeout_iff 2 silent 0 .tt
  · exact hgiven
  · exact absurd hlt (by decide)

end Spgw.Peer
