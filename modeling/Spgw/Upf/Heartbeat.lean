/-
# Recovery times

An association is accepted with the recovery time of the UPF, and the heartbeat responses carry it
again: another time means that the UPF has restarted.
-/

import Spgw.Upf.Linked

namespace Spgw.Upf

open Function

open Machine

variable {s w : State} {a b : Ipv4} {r t x : ℕ} {peers : Session.Table Ipv4 ℕ} {pfcpHbTsFail : Bool}

/-- Heartbeat responses, each from a peer and with a recovery time, while `pfcp_hb_ts_fail` is
on. -/
def heartbeats (s : State) (rs : List (Ipv4 × ℕ)) : Result :=
  rs.foldlM (fun s q => processHeartbeatResponse true s q.1 q.2) s

/-- Of the responses of one UPF, the first that carries another time than `t` raises
`upf_down_event`, and those that carry `t` do not. -/
structure Detects (s : State) (a : Ipv4) (t : ℕ) (rs : List (Ipv4 × ℕ)) : Prop where
  first : ∀ before r after w, rs = before ++ (a, r) :: after →
    (∀ q ∈ before, q.1 = a → q.2 = t) → r ≠ t → heartbeats s before = .ok w →
    heartbeatFails true w.peers a r = true
  same : ∀ before after w, rs = before ++ (a, t) :: after → heartbeats s before = .ok w →
    heartbeatFails true w.peers a t = false

/-- The event tells that the UPF at `a` has the recovery time `t`. -/
def Accepts (s : State) (a : Ipv4) (t : ℕ) : Event → Prop
  | .assocResponse id accepted peer recovTime =>
    accepted = true ∧ peer = a ∧ recovTime = t ∧ (s.assocs.get id).any Assoc.pfcpTrans
  | .assocRequest peer recovTime => peer = a ∧ recovTime = t
  | _ => False

def hear (peers : Session.Table Ipv4 ℕ) (a : Ipv4) (recovTime : ℕ) : Session.Table Ipv4 ℕ :=
  if heartbeatFails true peers a recovTime then
    addIpToHeartbeatHash (addIpToHeartbeatHash peers a recovTime) a 0
  else
    addIpToHeartbeatHash peers a recovTime

theorem heartbeatFails_iff (h : peers a = some x) :
    heartbeatFails true peers a r = true ↔ x ≠ 0 ∧ r ≠ x := by
  simp [heartbeatFails, h]

theorem addIpToHeartbeatHash_self (h : peers a = some x) :
    addIpToHeartbeatHash peers a r a = some r := by
  unfold addIpToHeartbeatHash
  rw [h]
  exact update_self ..

theorem addIpToHeartbeatHash_of_ne (h : b ≠ a) : addIpToHeartbeatHash peers a r b = peers b := by
  unfold addIpToHeartbeatHash
  split_ifs with hsome
  · exact update_of_ne h ..
  · rfl

theorem hear_self (h : peers a = some x) :
    hear peers a r a = some (if x ≠ 0 ∧ r ≠ x then 0 else r) := by
  have hstored := addIpToHeartbeatHash_self (r := r) h
  unfold hear
  by_cases hfails : x ≠ 0 ∧ r ≠ x
  · rw [if_pos ((heartbeatFails_iff h).mpr hfails), if_pos hfails]
    exact addIpToHeartbeatHash_self hstored
  · rw [if_neg fun hf => hfails ((heartbeatFails_iff h).mp hf), if_neg hfails]
    exact hstored

theorem hear_of_ne (h : b ≠ a) : hear peers a r b = peers b := by
  unfold hear
  split_ifs with hfails
  · rw [addIpToHeartbeatHash_of_ne h, addIpToHeartbeatHash_of_ne h]
  · exact addIpToHeartbeatHash_of_ne h

theorem upfDownEvent_peers :
    Sat (upfDownEvent s a) (fun w => w.peers = addIpToHeartbeatHash s.peers a 0) AnyFault := by
  unfold upfDownEvent
  cases hu : s.byAddr a with
  | none => exact Machine.sat_pure rfl
  | some u => exact (Session.sat_deref fun _ => trivial).bind fun _ _ => Machine.sat_pure rfl

theorem processHeartbeatResponse_peers :
    Sat (processHeartbeatResponse true s a r) (fun w => w.peers = hear s.peers a r) AnyFault := by
  unfold processHeartbeatResponse hear
  split_ifs with hfails
  · exact upfDownEvent_peers
  · rfl

/-- **The gateway survives every sequence of heartbeat responses and notes their times.** -/
theorem heartbeats_ok (h : Linked s) (rs : List (Ipv4 × ℕ)) :
    ∃ w, heartbeats s rs = .ok w ∧ w.peers = rs.foldl (fun peers q => hear peers q.1 q.2) s.peers := by
  induction rs generalizing s with
  | nil => exact ⟨s, rfl, rfl⟩
  | cons q rs ih =>
    have hlives : Sat (processHeartbeatResponse true s q.1 q.2) Linked (fun _ => False) :=
      processHeartbeatResponse_linked h
    have hone := hlives.and processHeartbeatResponse_peers
    obtain ⟨v, hv, hlinked, hpeers⟩ := hone.exists_ok
    obtain ⟨w, hw, hwpeers⟩ := ih hlinked
    refine ⟨w, ?_, ?_⟩
    · unfold heartbeats
      rw [List.foldlM_cons, hv]
      exact hw
    · rw [hwpeers, hpeers, List.foldl_cons]

theorem hear_same (rs : List (Ipv4 × ℕ)) (hall : ∀ q ∈ rs, q.1 = a → q.2 = t)
    (hx : x = 0 ∨ x = t) (h : peers a = some x) :
    ((∀ q ∈ rs, q.1 ≠ a) → rs.foldl (fun peers q => hear peers q.1 q.2) peers a = some x) ∧
    ((∃ q ∈ rs, q.1 = a) → rs.foldl (fun peers q => hear peers q.1 q.2) peers a = some t) := by
  induction rs generalizing peers x with
  | nil =>
    refine ⟨fun _ => h, ?_⟩
    rintro ⟨q, hq, -⟩
    cases hq
  | cons q rs ih =>
    have hrest (q' : Ipv4 × ℕ) (hq' : q' ∈ rs) : q'.1 = a → q'.2 = t :=
      hall q' (List.mem_cons_of_mem q hq')
    rw [List.foldl_cons]
    by_cases hq : q.1 = a
    · -- From here on the time is known, whether the UPF is heard again or not.
      have hknown : hear peers q.1 q.2 a = some t := by
        rw [hq, hall q (List.mem_cons_self ..) hq, hear_self h]
        rcases hx with rfl | rfl
        · rw [if_neg fun hf => hf.1 rfl]
        · rw [if_neg fun hf => hf.2 rfl]
      obtain ⟨hnone, hsome⟩ := ih hrest (Or.inr rfl) hknown
      refine ⟨fun hne => absurd hq (hne q (List.mem_cons_self ..)), fun _ => ?_⟩
      by_cases hagain : ∃ q ∈ rs, q.1 = a
      · exact hsome hagain
      · exact hnone fun q' hq' hqa => hagain ⟨q', hq', hqa⟩
    · have hkept : hear peers q.1 q.2 a = some x := by
        rw [hear_of_ne (Ne.symm hq)]
        exact h
      obtain ⟨hnone, hsome⟩ := ih hrest hx hkept
      refine ⟨fun hne => hnone fun q' hq' => hne q' (List.mem_cons_of_mem q hq'), ?_⟩
      rintro ⟨q', hq', hqa⟩
      rcases List.mem_cons.mp hq' with rfl | hq'
      · exact absurd hqa hq
      · exact hsome ⟨q', hq', hqa⟩

theorem supervise_self : supervise peers a t a = some (if (peers a).isSome then t else 0) := by
  unfold supervise addNodeConnEntry Session.Table.insert
  cases h : peers a with
  | none =>
    have hnone : addIpToHeartbeatHash peers a t a = none := by
      unfold addIpToHeartbeatHash
      rw [h]
      exact h
    rw [hnone]
    exact update_self ..
  | some x =>
    rw [addIpToHeartbeatHash_self h]
    exact addIpToHeartbeatHash_self h

theorem peers_of_accepts {e : Event} (hacc : Accepts s a t e)
    (hstep : next pfcpHbTsFail s e = some w) : w.peers = supervise s.peers a t := by
  have hsat : Sat (step pfcpHbTsFail s e) (fun w => w.peers = supervise s.peers a t) AnyFault := by
    cases e with
    | assocResponse id accepted peer recovTime =>
      obtain ⟨rfl, rfl, rfl, htrans⟩ := hacc
      simp only [step, handlePfcpAssociationSetupResponse]
      cases hid : s.assocs.get id with
      | none =>
        rw [hid] at htrans
        cases htrans
      | some proc =>
        rw [hid] at htrans
        have hon : proc.pfcpTrans = true := htrans
        simp only [hon]
        rw [if_neg (by decide)]
        exact (Session.sat_deref fun _ => trivial).bind fun upf _ => Machine.sat_pure rfl
    | assocRequest peer recovTime =>
      obtain ⟨rfl, rfl⟩ := hacc
      simp only [step, handlePfcpAssociationSetupRequest]
      cases hu : s.byAddr peer with
      | none => exact (Session.sat_deref fun _ => trivial).bind fun upf _ => Machine.sat_pure rfl
      | some u => exact (Session.sat_deref fun _ => trivial).bind fun upf _ => Machine.sat_pure rfl
    | _ => exact hacc.elim
  exact of_next hsat hstep

theorem linked_of_next {e : Event} (h : Linked s) (hstep : next pfcpHbTsFail s e = some w) :
    Linked w :=
  of_next (step_linked h e) hstep

/-- **A restart is detected if the peer was known when the association was accepted.** -/
theorem detects_iff_known {es : List Event} {e : Event}
    (hrun : final (next pfcpHbTsFail) {} es = some s) (hacc : Accepts s a t e)
    (hstep : next pfcpHbTsFail s e = some w) (ht : t ≠ 0) {rs : List (Ipv4 × ℕ)}
    (hback : rs.Pairwise fun q q' => q.1 = a → q'.1 = a → q.2 ≠ t → q'.2 ≠ t) :
    Detects w a t rs ↔ (s.peers a).isSome ∨ ∀ q ∈ rs.find? (fun q => q.1 = a), q.2 = t := by
  have hlinked : Linked w :=
    linked_of_next (final_invariant (fun _ _ _ => linked_of_next) linked_initial hrun) hstep
  have hrecord : w.peers a = some (if (s.peers a).isSome then t else 0) := by
    rw [peers_of_accepts hacc hstep]
    exact supervise_self
  have hx : (if (s.peers a).isSome then t else 0) = 0 ∨ (if (s.peers a).isSome then t else 0) = t := by
    split_ifs
    · exact Or.inr rfl
    · exact Or.inl rfl
  constructor
  · intro hdetects
    by_cases hknown : (s.peers a).isSome
    · exact Or.inl hknown
    · refine Or.inr fun q hq => ?_
      obtain ⟨hqa, before, after, hrs, hnone⟩ := List.find?_eq_some_iff_append.mp hq
      have hqa : q.1 = a := of_decide_eq_true hqa
      have hbefore (q' : Ipv4 × ℕ) (hq' : q' ∈ before) : q'.1 ≠ a := by simpa using hnone q' hq'
      by_contra hother
      obtain ⟨v, hv, hpeers⟩ := heartbeats_ok hlinked before
      have hfails := hdetects.first before q.2 after v (by rw [hrs, ← hqa])
        (fun q' hq' hqa' => absurd hqa' (hbefore q' hq')) hother hv
      -- The time is unknown, so any time would do.
      have hzero := (hear_same before (fun q' hq' hqa' => absurd hqa' (hbefore q' hq')) hx hrecord).1
        hbefore
      rw [← hpeers, if_neg hknown] at hzero
      exact ((heartbeatFails_iff hzero).mp hfails).1 rfl
  · intro hcond
    -- After responses with the time of the association the record has it, or the UPF has not
    -- been heard and there was no record.
    have hafter (before : List (Ipv4 × ℕ)) (v : State) (hv : heartbeats w before = .ok v)
        (hall : ∀ q ∈ before, q.1 = a → q.2 = t) :
        v.peers a = some t ∨ v.peers a = some 0 ∧ (∀ q ∈ before, q.1 ≠ a) ∧ ¬ (s.peers a).isSome := by
      obtain ⟨v', hv', hpeers⟩ := heartbeats_ok hlinked before
      obtain rfl := Except.ok.inj (hv.symm.trans hv')
      obtain ⟨hnone, hsome⟩ := hear_same before hall hx hrecord
      rw [← hpeers] at hnone hsome
      by_cases hheard : ∃ q ∈ before, q.1 = a
      · exact Or.inl (hsome hheard)
      · have hne (q : Ipv4 × ℕ) (hq : q ∈ before) : q.1 ≠ a := fun hqa => hheard ⟨q, hq, hqa⟩
        have hx' := hnone hne
        by_cases hknown : (s.peers a).isSome
        · rw [if_pos hknown] at hx'
          exact Or.inl hx'
        · rw [if_neg hknown] at hx'
          exact Or.inr ⟨hx', hne, hknown⟩
    refine ⟨fun before r after v hrs hall hr hv => ?_, fun before after v hrs hv => ?_⟩
    · rcases hafter before v hv hall with hknown | ⟨-, hne, hnot⟩
      · exact (heartbeatFails_iff hknown).mpr ⟨ht, hr⟩
      · have hfind : rs.find? (fun q => q.1 = a) = some (a, r) := by
          refine List.find?_eq_some_iff_append.mpr ⟨decide_eq_true rfl, before, after, hrs, ?_⟩
          exact fun q hq => by simpa using hne q hq
        exact absurd (hcond.resolve_left hnot (a, r) hfind) hr
    · have hall (q : Ipv4 × ℕ) (hq : q ∈ before) (hqa : q.1 = a) : q.2 = t := by
        rw [hrs] at hback
        by_contra hother
        exact (List.pairwise_append.mp hback).2.2 q hq (a, t) (List.mem_cons_self ..) hqa rfl hother rfl
      rw [← Bool.not_eq_true]
      rcases hafter before v hv hall with hknown | ⟨hzero, -, -⟩
      · exact fun hfails => ((heartbeatFails_iff hknown).mp hfails).2 rfl
      · exact fun hfails => ((heartbeatFails_iff hzero).mp hfails).1 rfl

namespace Demo

def firstAssociation : List Event :=
  [.discover 1 false 0x0A000001, .assocTimer 0 0x0A000001, .assocResponse 0 true 0x0A000001 100]

def secondAssociation : List Event := firstAssociation ++ [.unwind fun _ => 0]

theorem known_secondAssociation (h : final (next true) {} secondAssociation = some s) :
    (s.peers 0x0A000001).isSome := by
  have hpeers : (final (next true) {} secondAssociation).map (fun s => s.peers 0x0A000001) =
      some (some 0) := by decide +kernel
  rw [h] at hpeers
  rw [show s.peers 0x0A000001 = some 0 from Option.some.inj hpeers]
  rfl

end Demo

/-- The restart after the second association is detected, and nothing is raised before. -/
theorem detects_secondAssociation :
    (final (next true) {} (Demo.secondAssociation ++ [.assocRequest 0x0A000001 150])).isSome ∧
    ∀ s ∈ final (next true) {} Demo.secondAssociation,
      ∀ w ∈ next true s (.assocRequest 0x0A000001 150), Detects w 0x0A000001 150
          [(0x0A000001, 150), (0x0A000002, 9), (0x0A000001, 200), (0x0A000001, 200)] :=
  ⟨by decide +kernel, fun s hs _ hw =>
    have hacc : Accepts s 0x0A000001 150 (.assocRequest 0x0A000001 150) := ⟨rfl, rfl⟩
    (detects_iff_known hs hacc hw (by decide) (by decide)).mpr
      (Or.inl (Demo.known_secondAssociation hs))⟩

/-- **The restart after the first association is not detected** -/
theorem not_detects_firstAssociation : ¬ ∀ w ∈ final (next true) {} Demo.firstAssociation,
      Detects w 0x0A000001 100 [(0x0A000001, 200)] := by
  intro h
  have hpeers : (final (next true) {} Demo.firstAssociation).map (fun s => s.peers 0x0A000001) =
      some (some 0) := by decide +kernel
  obtain ⟨w, hw, hzero⟩ := Option.map_eq_some_iff.mp hpeers
  have hfails := (h w hw).first [] 200 [] w rfl (fun _ hq => nomatch hq) (by decide) rfl
  exact ((heartbeatFails_iff hzero).mp hfails).1 rfl

end Spgw.Upf
