/-
# Messages on the stream socket

`create_ipc_channel` and `recv_from_ipc_channel` of `cp/ipc_api.c`, and the loop of `msg_handler_gx`
in `cp/gx/gx_interface.c`.
-/

import Spgw.Lib.Run

namespace Spgw
namespace Gx

def buffSize : ℕ := 50 * 1024

structure Channel where
  /-- Octets that were sent and not received. -/
  transit : List UInt8 := []
  /-- The events `GX_MSG_RECEIVED` of the queue, by their `raw_buf`. -/
  queued : List (List UInt8) := []
  /-- The calls of `process_gx_msg`, by their `raw_buf`. -/
  handled : List (List UInt8) := []

inductive IpcEvent
  | /-- `gx_app` sends a message. -/
    send (msg : List UInt8)
  | /-- `recv` returns a number of octets to `msg_handler_gx`. -/
    recv (bytesRx : ℕ)
  | /-- The main thread takes an event from the queue. -/
    process

/-- One event. -/
def Channel.step (c : Channel) : IpcEvent → Option Channel
  | .send msg => some { c with transit := c.transit ++ msg }
  | .recv bytesRx =>
    if 0 < bytesRx ∧ bytesRx ≤ buffSize ∧ bytesRx ≤ c.transit.length then
      some { c with
        transit := c.transit.drop bytesRx
        queued := c.queued ++ [c.transit.take bytesRx] }
    else none
  | .process =>
    match c.queued with
    | [] => none
    | rawBuf :: queued => some { c with queued, handled := c.handled ++ [rawBuf] }

def sends (es : List IpcEvent) : List (List UInt8) := es.filterMap fun
  | .send msg => some msg
  | _ => none

/-- The numbers of octets that `recv` returns in a run. -/
def recvs (es : List IpcEvent) : List ℕ := es.filterMap fun
  | .recv bytesRx => some bytesRx
  | _ => none

/-- What `process_gx_msg` is or will be called with. -/
def Channel.calls (c : Channel) : List (List UInt8) := c.handled ++ c.queued

def Channel.Idle (c : Channel) : Prop := c.transit = [] ∧ c.queued = []

theorem step_calls {c c' : Channel} {e : IpcEvent} (h : c.step e = some c') :
    ∃ new, c'.calls = c.calls ++ new ∧ new.map List.length = recvs [e] ∧
      new.flatten ++ c'.transit = c.transit ++ (sends [e]).flatten := by
  cases e with
  | send msg =>
    cases h
    exact ⟨[], by simp [Channel.calls], rfl, by simp [sends]⟩
  | recv bytesRx =>
    simp only [Channel.step] at h
    split at h
    · rename_i hrecv
      cases h
      refine ⟨[c.transit.take bytesRx], by simp [Channel.calls], ?_, by simp [sends]⟩
      simp [recvs, Nat.min_eq_left hrecv.2.2]
    · cases h
  | process =>
    cases hq : c.queued with
    | nil => simp [Channel.step, hq] at h
    | cons rawBuf queued =>
      simp only [Channel.step, hq] at h
      cases h
      exact ⟨[], by simp [Channel.calls, hq], rfl, by simp [sends]⟩

theorem recvs_cons (e : IpcEvent) (es : List IpcEvent) : recvs (e :: es) = recvs [e] ++ recvs es :=
  List.filterMap_append (l := [e])

theorem sends_cons (e : IpcEvent) (es : List IpcEvent) : sends (e :: es) = sends [e] ++ sends es :=
  List.filterMap_append (l := [e])

/-- **The calls of a run are cut where `recv` cut the stream.** -/
theorem final_calls {c c' : Channel} {es : List IpcEvent}
    (h : Machine.final Channel.step c es = some c') :
    ∃ new, c'.calls = c.calls ++ new ∧ new.map List.length = recvs es ∧
      new.flatten ++ c'.transit = c.transit ++ (sends es).flatten := by
  induction es generalizing c with
  | nil =>
    cases h
    exact ⟨[], (List.append_nil _).symm, rfl, (List.append_nil _).symm⟩
  | cons e es ih =>
    obtain ⟨c₁, hstep, hfinal⟩ := Option.bind_eq_some_iff.mp h
    obtain ⟨new₁, hcalls₁, hlen₁, hoctets₁⟩ := step_calls hstep
    obtain ⟨new₂, hcalls₂, hlen₂, hoctets₂⟩ := ih hfinal
    refine ⟨new₁ ++ new₂, ?_, ?_, ?_⟩
    · rw [hcalls₂, hcalls₁, List.append_assoc]
    · rw [List.map_append, hlen₁, hlen₂, ← recvs_cons]
    · rw [List.flatten_append, List.append_assoc, hoctets₂, ← List.append_assoc, hoctets₁,
        List.append_assoc, ← List.flatten_append, ← sends_cons]

theorem eq_of_flatten_eq {xs ys : List (List UInt8)} (hflat : xs.flatten = ys.flatten)
    (hlen : xs.map List.length = ys.map List.length) : xs = ys := by
  induction xs generalizing ys with
  | nil => exact (List.map_eq_nil_iff.mp hlen.symm).symm
  | cons x xs ih =>
    cases ys with
    | nil => cases hlen
    | cons y ys =>
      obtain ⟨hhead, htail⟩ := List.cons.inj hlen
      obtain ⟨rfl, hrest⟩ := List.append_inj hflat hhead
      rw [ih hrest htail]

/-- **Every message is handled once, in order and as it was sent, if and only if each `recv` returns
exactly one message** -/
theorem handled_iff {c : Channel} {es : List IpcEvent}
    (h : Machine.final Channel.step {} es = some c) (hidle : c.Idle) :
    c.handled = sends es ↔ recvs es = (sends es).map List.length := by
  obtain ⟨htransit, hqueued⟩ := hidle
  obtain ⟨new, hcalls, hlen, hoctets⟩ := final_calls h
  have hnew : c.handled = new := by
    simpa [Channel.calls, hqueued] using hcalls
  have hflat : new.flatten = (sends es).flatten := by
    simpa [htransit] using hoctets
  rw [hnew, ← hlen]
  exact ⟨congrArg (List.map List.length), eq_of_flatten_eq hflat⟩

/-- Two messages that are read one by one. -/
theorem handled_oneByOne : ({ handled := [[0, 1], [3]] } : Channel).handled =
    sends [.send [0, 1], .recv 2, .send [3], .process, .recv 1, .process] :=
  (handled_iff (c := { handled := [[0, 1], [3]] }) rfl ⟨rfl, rfl⟩).mpr rfl

/-- Two messages that `recv` returns together are handled as one. -/
theorem not_handled_merged :
    ∃ c, Machine.final Channel.step {} [.send [0, 1], .send [3], .recv 3, .process] = some c ∧
      c.Idle ∧ c.handled ≠ sends [.send [0, 1], .send [3], .recv 3, .process] :=
  ⟨{ handled := [[0, 1, 3]] }, rfl, ⟨rfl, rfl⟩, by decide⟩

end Gx
end Spgw
