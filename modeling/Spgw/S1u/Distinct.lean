/-
# No S1-U tunnel endpoint twice

The low three octets of the TEIDs that `set_s1u_sgw_gtpu_teid` gives out come from a counter that is
never set back, so that 2^24 tunnels could be told apart by them alone.
-/

import Spgw.S1u.Pool
import Mathlib.Data.List.Range

namespace Spgw.S1u

open Sx (TeidPool)
open Machine

variable {s t : State} {es : List Event} {m : ℕ}

def Event.allocates : Event → Bool
  | .defaultBearer .. => true
  | .dedicatedBearer .. => true
  | _ => false

/-- The event calls `set_base_teid`. -/
def Event.setsBase : Event → Bool
  | .association _ (some _) => true
  | _ => false

def allocations (es : List Event) : ℕ := es.countP Event.allocates

/-- The allocations before the first `set_base_teid`. -/
def earlyAllocations (es : List Event) : ℕ := allocations (es.takeWhile (!·.setsBase))

theorem allocations_cons (e : Event) (es : List Event) :
    allocations (e :: es) = (if e.allocates then 1 else 0) + allocations es := by
  rw [allocations, List.countP_cons, allocations, Nat.add_comm]

theorem earlyAllocations_cons (e : Event) (es : List Event) : earlyAllocations (e :: es) =
      if e.setsBase then 0 else (if e.allocates then 1 else 0) + earlyAllocations es := by
  rw [earlyAllocations, List.takeWhile_cons]
  cases he : e.setsBase with
  | true => rfl
  | false => exact allocations_cons e _

/-- The low octets of the TEID with the number `i`, if the first `m` are from before the first
`set_base_teid`. -/
def lowOctets (m i : ℕ) : ℕ := ((if i < m then 0xC0FFEE else 1) + i) % 2 ^ 24

structure State.Numbered (s : State) (m : ℕ) : Prop where
  early_le : m ≤ s.sgwGtpcTeidOffset
  low : s.tunnels.map (·.s1uSgwGtpuTeid % 2 ^ 24) =
    (List.range s.sgwGtpcTeidOffset).map (lowOctets m)

theorem State.low_setS1uSgwGtpuTeid (s : State) (ue : UeId) (upf : UpfId) :
    (s.setS1uSgwGtpuTeid ue upf).tunnels.map (·.s1uSgwGtpuTeid % 2 ^ 24) =
      s.tunnels.map (·.s1uSgwGtpuTeid % 2 ^ 24) ++
        [(s.sgwGtpcBaseTeid + s.sgwGtpcTeidOffset) % 2 ^ 24] := by
  rw [setS1uSgwGtpuTeid, List.map_append, List.map_singleton, TeidPool.s1uSgwGtpuTeid_mod]
  rfl

theorem State.Numbered.early (hs : s.Numbered s.sgwGtpcTeidOffset)
    (hbase : s.sgwGtpcBaseTeid % 2 ^ 24 = 0xC0FFEE) (ue : UeId) (upf : UpfId) :
    (s.setS1uSgwGtpuTeid ue upf).Numbered (s.sgwGtpcTeidOffset + 1) where
  early_le := le_rfl
  low := by
    -- The numbers below the offset are early with the new count as with the old one.
    have hold : (List.range s.sgwGtpcTeidOffset).map (lowOctets s.sgwGtpcTeidOffset) =
        (List.range s.sgwGtpcTeidOffset).map (lowOctets (s.sgwGtpcTeidOffset + 1)) := by
      refine List.map_congr_left fun i hi => ?_
      have hlt := List.mem_range.mp hi
      rw [lowOctets, lowOctets, if_pos hlt, if_pos (hlt.trans (Nat.lt_succ_self _))]
    have hnew : (s.sgwGtpcBaseTeid + s.sgwGtpcTeidOffset) % 2 ^ 24 =
        lowOctets (s.sgwGtpcTeidOffset + 1) s.sgwGtpcTeidOffset := by
      rw [lowOctets, if_pos (Nat.lt_succ_self _)]
      omega
    change _ = (List.range (s.sgwGtpcTeidOffset + 1)).map _
    rw [s.low_setS1uSgwGtpuTeid, hs.low, hold, hnew, List.range_succ, List.map_append,
      List.map_singleton]

theorem State.Numbered.late (hs : s.Numbered m) (hbase : s.sgwGtpcBaseTeid % 2 ^ 24 = 1)
    (ue : UeId) (upf : UpfId) : (s.setS1uSgwGtpuTeid ue upf).Numbered m where
  early_le := hs.early_le.trans (Nat.le_succ _)
  low := by
    have hnew : (s.sgwGtpcBaseTeid + s.sgwGtpcTeidOffset) % 2 ^ 24 =
        lowOctets m s.sgwGtpcTeidOffset := by
      rw [lowOctets, if_neg hs.early_le.not_gt]
      omega
    change _ = (List.range (s.sgwGtpcTeidOffset + 1)).map _
    rw [s.low_setS1uSgwGtpuTeid, hs.low, hnew, List.range_succ, List.map_append, List.map_singleton]

theorem State.Numbered.setS5s8 (hs : s.Numbered m) (ue : UeId) :
    (s.setS5s8PgwGtpuTeidUsingPdn ue).Numbered m :=
  ⟨hs.early_le, hs.low⟩

theorem offset_step (s : State) (e : Event) :
    (step s e).sgwGtpcTeidOffset = s.sgwGtpcTeidOffset + if e.allocates then 1 else 0 := by
  cases e with
  | association upf range => cases range <;> rfl
  | defaultBearer ue upf => rfl
  | dedicatedBearer ue upf => rfl
  | cleanupPdnContext ue => rfl

theorem offset_of_run (h : final next s es = some t) :
    t.sgwGtpcTeidOffset = s.sgwGtpcTeidOffset + allocations es := by
  induction es generalizing s with
  | nil => rw [← Option.some.inj h]; rfl
  | cons e es ih =>
    have hrest : final next (step s e) es = some t := h
    rw [ih hrest, offset_step, allocations_cons, Nat.add_assoc]

theorem late_step (hs : s.Numbered m) (hbase : s.sgwGtpcBaseTeid % 2 ^ 24 = 1) (e : Event) :
    (step s e).Numbered m ∧ (step s e).sgwGtpcBaseTeid % 2 ^ 24 = 1 := by
  cases e with
  | association upf range =>
    cases range with
    | none => exact ⟨⟨hs.early_le, hs.low⟩, hbase⟩
    | some range =>
      refine ⟨⟨hs.early_le, hs.low⟩, ?_⟩
      change (range.toNat * 2 ^ 24 + 1) % 2 ^ 24 = 1
      omega
  | defaultBearer ue upf => exact ⟨hs.late hbase ue upf, hbase⟩
  | dedicatedBearer ue upf => exact ⟨(hs.setS5s8 ue).late hbase ue upf, hbase⟩
  | cleanupPdnContext ue => exact ⟨⟨hs.early_le, hs.low⟩, hbase⟩

theorem late_of_run (hs : s.Numbered m) (hbase : s.sgwGtpcBaseTeid % 2 ^ 24 = 1)
    (h : final next s es = some t) : t.Numbered m := by
  have hlate : t.Numbered m ∧ t.sgwGtpcBaseTeid % 2 ^ 24 = 1 := by
    refine final_invariant (I := fun s => s.Numbered m ∧ s.sgwGtpcBaseTeid % 2 ^ 24 = 1) ?_
      ⟨hs, hbase⟩ h
    rintro s e t ⟨hs, hbase⟩ ht
    cases ht
    exact late_step hs hbase e
  exact hlate.1

theorem early_step (hs : s.Numbered s.sgwGtpcTeidOffset)
    (hbase : s.sgwGtpcBaseTeid % 2 ^ 24 = 0xC0FFEE) {e : Event} (he : e.setsBase = false) :
    (step s e).Numbered (step s e).sgwGtpcTeidOffset ∧
      (step s e).sgwGtpcBaseTeid % 2 ^ 24 = 0xC0FFEE := by
  cases e with
  | association upf range =>
    cases range with
    | none => exact ⟨⟨hs.early_le, hs.low⟩, hbase⟩
    | some range => cases he
  | defaultBearer ue upf => exact ⟨hs.early hbase ue upf, hbase⟩
  | dedicatedBearer ue upf => exact ⟨(hs.setS5s8 ue).early hbase ue upf, hbase⟩
  | cleanupPdnContext ue => exact ⟨⟨hs.early_le, hs.low⟩, hbase⟩

theorem numbered_of_run (hs : s.Numbered s.sgwGtpcTeidOffset)
    (hbase : s.sgwGtpcBaseTeid % 2 ^ 24 = 0xC0FFEE) (h : final next s es = some t) :
    t.Numbered (s.sgwGtpcTeidOffset + earlyAllocations es) := by
  induction es generalizing s with
  | nil => rw [← Option.some.inj h]; exact hs
  | cons e es ih =>
    have hrest : final next (step s e) es = some t := h
    rw [earlyAllocations_cons]
    cases he : e.setsBase with
    | false =>
      obtain ⟨hnumbered, hbase'⟩ := early_step hs hbase he
      have hrun := ih hnumbered hbase' hrest
      rw [offset_step, Nat.add_assoc] at hrun
      simpa using hrun
    | true =>
      obtain ⟨upf, range, rfl⟩ : ∃ upf range, e = .association upf (some range) := by
        cases e with
        | association upf range =>
          cases range with
          | none => cases he
          | some range => exact ⟨upf, range, rfl⟩
        | defaultBearer ue upf => cases he
        | dedicatedBearer ue upf => cases he
        | cleanupPdnContext ue => cases he
      have hbase' : (step s (.association upf (some range))).sgwGtpcBaseTeid % 2 ^ 24 = 1 := by
        change (range.toNat * 2 ^ 24 + 1) % 2 ^ 24 = 1
        omega
      have hnumbered : (step s (.association upf (some range))).Numbered
          s.sgwGtpcTeidOffset := ⟨hs.early_le, hs.low⟩
      exact late_of_run hnumbered hbase' hrest

theorem lowOctets_inj {n i j : ℕ} (hn : n < 2 ^ 24) (h : m = 0 ∨ m = n ∨ n ≤ 0xC0FFED)
    (hi : i < n) (hj : j < n) (heq : lowOctets m i = lowOctets m j) : i = j := by
  rw [lowOctets, lowOctets] at heq
  split_ifs at heq <;> omega

/-- **The TEIDs of a run of fewer than 2^24 tunnels are distinct** -/
theorem nodup_teids {es : List Event} {s : State} (hs : final next initial es = some s)
    (hn : allocations es < 2 ^ 24)
    (h : earlyAllocations es = 0 ∨ earlyAllocations es = allocations es ∨
      allocations es ≤ 0xC0FFED) :
    (s.tunnels.map (·.s1uSgwGtpuTeid)).Nodup := by
  have hnumbered : s.Numbered (0 + earlyAllocations es) := numbered_of_run ⟨le_rfl, rfl⟩ rfl hs
  have hoffset : s.sgwGtpcTeidOffset = 0 + allocations es := offset_of_run hs
  rw [Nat.zero_add] at hnumbered hoffset
  have hrange : ((List.range s.sgwGtpcTeidOffset).map (lowOctets (earlyAllocations es))).Nodup := by
    refine List.Nodup.map_on ?_ List.nodup_range
    intro i hi j hj heq
    rw [hoffset] at hi hj
    exact lowOctets_inj hn h (List.mem_range.mp hi) (List.mem_range.mp hj) heq
  rw [← hnumbered.low] at hrange
  refine List.Nodup.of_map (· % 2 ^ 24) ?_
  rwa [List.map_map]

/-- Tunnels on both sides of a `set_base_teid`, and a UE whose index is used again. -/
def twoSides : List Event :=
  [.defaultBearer 0 0, .association 1 (some 0xf0), .defaultBearer 1 1, .cleanupPdnContext 1,
    .dedicatedBearer 1 1]

theorem nodup_teids_twoSides :
    ∃ s, final next initial twoSides = some s ∧ (s.tunnels.map (·.s1uSgwGtpuTeid)).Nodup := by
  have hrun : ∃ s, final next initial twoSides = some s := ⟨_, rfl⟩
  obtain ⟨s, hs⟩ := hrun
  exact ⟨s, hs, nodup_teids hs (by decide) (.inr (.inr (by decide)))⟩

/-- Default bearers of the UEs from `first` on. -/
def attaches (upf : UpfId) (first n : ℕ) : List Event :=
  (List.range' first n).map fun ue => .defaultBearer ue upf

theorem final_attaches (upf : UpfId) (first n : ℕ) (s : State) :
    ∃ t, final next s (attaches upf first n) = some t ∧ t.teidRange = s.teidRange ∧
      t.sgwGtpcBaseTeid = s.sgwGtpcBaseTeid ∧ t.sgwGtpcTeidOffset = s.sgwGtpcTeidOffset + n ∧
      (∀ ue, first + n ≤ ue → t.teidBitmap ue = s.teidBitmap ue) ∧
      ∀ b ∈ s.tunnels, b ∈ t.tunnels := by
  induction n generalizing first s with
  | zero => exact ⟨s, rfl, rfl, rfl, rfl, fun _ _ => rfl, fun _ => id⟩
  | succ n ih =>
    obtain ⟨t, ht, hrange, hbase, hoffset, hbitmap, htunnels⟩ :=
      ih (first + 1) (s.setS1uSgwGtpuTeid first upf)
    refine ⟨t, ht, hrange, hbase, ?_, fun ue hue => ?_, fun b hb => ?_⟩
    · rw [hoffset]
      change s.sgwGtpcTeidOffset + 1 + n = _
      omega
    · have hne : ue ≠ first := by omega
      rw [hbitmap ue (by omega)]
      exact Function.update_of_ne hne _ _
    · exact htunnels b (List.mem_append_left _ hb)

def rangeLater : List Event := [.association 0 none, .defaultBearer 0 0, .association 1 (some 0xf0)]

/-- **One tunnel before the first `set_base_teid` and `0xC0FFED` after it, and a TEID is given out
twice.** -/
theorem not_nodup_rangeLater :
    allocations (rangeLater ++ (attaches 1 1 0xC0FFEC ++ [.defaultBearer 0xC0FFED 1])) < 2 ^ 24 ∧
    ∃ s, final next initial
        (rangeLater ++ (attaches 1 1 0xC0FFEC ++ [.defaultBearer 0xC0FFED 1])) = some s ∧
      ¬ (s.tunnels.map (·.s1uSgwGtpuTeid)).Nodup := by
  constructor
  · have hattaches : allocations (attaches 1 1 0xC0FFEC) ≤ 0xC0FFEC := by
      refine List.countP_le_length.trans (le_of_eq ?_)
      rw [attaches, List.length_map, List.length_range']
    have hall : allocations (rangeLater ++ (attaches 1 1 0xC0FFEC ++ [.defaultBearer 0xC0FFED 1]))
        = 1 + (allocations (attaches 1 1 0xC0FFEC) + 1) := by
      rw [allocations, List.countP_append, List.countP_append]
      exact congrArg₂ (· + ·) rfl (congrArg₂ (· + ·) rfl rfl)
    omega
  · obtain ⟨s, hs, hrange, hbase, hoffset, hbitmap, htunnels⟩ : ∃ s,
        final next initial rangeLater = some s ∧ s.teidRange = 0xf0 ∧
        s.sgwGtpcBaseTeid = 0xf0000001 ∧ s.sgwGtpcTeidOffset = 1 ∧
        (∀ ue, 1 ≤ ue → s.teidBitmap ue = 0) ∧ s.tunnels = [⟨0, none, 0xf0C0FFEE⟩] :=
      ⟨_, rfl, rfl, rfl, rfl, fun _ hue => Function.update_of_ne (Nat.ne_of_gt hue) _ _, rfl⟩
    obtain ⟨t, ht, htrange, htbase, htoffset, htbitmap, httunnels⟩ := final_attaches 1 1 0xC0FFEC s
    refine ⟨t.setS1uSgwGtpuTeid 0xC0FFED 1, ?_, ?_⟩
    · rw [final_append, hs, Option.bind_some, final_append, ht]
      rfl
    -- The last tunnel has the TEID of the first.
    have hpool : (t.pool 0xC0FFED).s1uSgwGtpuTeid = 0xf0C0FFEE := by
      have hindex : (t.pool 0xC0FFED).index = 0 := by
        rw [TeidPool.index_eq_zero_iff]
        change (t.teidBitmap 0xC0FFED).testBit 0 = false
        rw [htbitmap _ le_rfl, hbitmap _ (by decide)]
        rfl
      rw [TeidPool.s1uSgwGtpuTeid, hindex]
      change (t.sgwGtpcBaseTeid + t.sgwGtpcTeidOffset) % 2 ^ 24 +
        (t.teidRange + 0) % 2 ^ 8 * 2 ^ 24 = _
      rw [htbase, htoffset, htrange, hbase, hoffset, hrange]
      rfl
    intro hnodup
    rw [State.setS1uSgwGtpuTeid, List.map_append, List.nodup_append] at hnodup
    have hfirst : (⟨0, none, 0xf0C0FFEE⟩ : Tunnel) ∈ t.tunnels :=
      httunnels _ (htunnels ▸ List.mem_singleton_self _)
    exact hnodup.2.2 _ (List.mem_map_of_mem hfirst) _ (List.mem_singleton_self _) hpool.symm

end Spgw.S1u
