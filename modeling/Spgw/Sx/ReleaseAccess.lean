/-
# A Release Access Bearers Request works on the first bearer

`handle_rab_request` (`cp/gtpv2/msg/release_access_bearer.c`) looks for a PDN connection, beginning
with slot 0; `process_release_access_bearer_request` (`cp/procedures/proc_s1_release.c`) goes over
all the slots of the UE context.
-/

import Spgw.Sx.Modify

namespace Spgw.Sx

open Function

open Session (deref)
open Rar (maxBearers)
open Bearer (Slots)

/-- What the procedure of a Release Access Bearers Request has done: the messages it sent and the
transactions it created for them, by their sequence numbers. -/
structure Release where
  epsBearers : Slots EpsBearer
  request : SessModReq := {}
  pfcpSeqNoOffset : ℕ := 0
  sent : List SessModReq := []
  transactions : List ℕ := []
  pfcpTrans : Option ℕ := none
  dropped : Bool := false

def releaseParms (stack : ℕ → UpdateFar) (bearer : EpsBearer) : ℕ → UpdateFar :=
  let parms := update stack 0 { stack 0 with
    updFrwdngParms := { (stack 0).updFrwdngParms with
      outerHdrCreation := bearer.s1uEnb
      dstIntfc := s1uEnodebGtpu } }
  update parms 1 { parms 1 with
    applyAction := { (parms 1).applyAction with forw := true } }

def UpdateFar.buffer (far : UpdateFar) : UpdateFar :=
  { far with
    applyAction := { far.applyAction with forw := false, buff := true, nocp := true }
    updFrwdngParms := { far.updFrwdngParms with
      outerHdrCreation := { far.updFrwdngParms.outerHdrCreation with teid := 0 } } }

def releaseRequest (stack : ℕ → UpdateFar) (request : SessModReq) (seqNo : ℕ)
    (bearer : EpsBearer) : SessModReq :=
  let request := fillPfcpSessModReq { request with updateFarCount := 1 } seqNo bearer
    (releaseParms stack bearer) false
  { request with updateFar := update request.updateFar 0 (request.updateFar 0).buffer }

/-- The slot `ebi_index` of the loop, which is never moved on. -/
def releaseSlot : Fin maxBearers := ⟨0, Rar.zero_lt_maxBearers⟩

def Release.turn (stack : ℕ → UpdateFar) (r : Release) (i : Fin maxBearers) : Release :=
  if r.dropped then r
  else if r.epsBearers i = none then r
  else
    match r.epsBearers releaseSlot with
    | none => { r with dropped := true }
    | some bearer =>
      let bearer := { bearer with s1uEnb := { bearer.s1uEnb with teid := 0 } }
      let request := releaseRequest stack r.request (r.pfcpSeqNoOffset + 1) bearer
      { r with
        epsBearers := update r.epsBearers releaseSlot (some bearer)
        request
        pfcpSeqNoOffset := r.pfcpSeqNoOffset + 1
        sent := r.sent ++ [request]
        transactions := r.transactions ++ [r.pfcpSeqNoOffset + 1]
        pfcpTrans := some r.transactions.length }

def processReleaseAccessBearerRequest (stack : ℕ → UpdateFar) (c : UeContext) (offset : ℕ) :
    Release :=
  (List.finRange maxBearers).foldl (Release.turn stack)
    { epsBearers := c.epsBearers, pfcpSeqNoOffset := offset }

def handleRabRequest (stack : ℕ → UpdateFar) (c : UeContext) (offset : ℕ) :
    Except Fault Release := do
  let _ ← deref (c.epsBearers releaseSlot)
  return processReleaseAccessBearerRequest stack c offset

def Release.updates (r : Release) : List (ℕ × UpdateFar) :=
  r.sent.flatMap fun request => request.updateFars.map (request.seid, ·)

/-- The FAR of every PDR for CORE is updated once, to buffer and to notify. -/
def Release.Buffers (c : UeContext) (r : Release) : Prop :=
  ∀ i bearer, c.epsBearers i = some bearer → ∀ pdr ∈ bearer.corePdrs,
    ∃ far, far.applyAction = { buff := true, nocp := true } ∧
      r.updates.filter (fun u => u.1 = bearer.pdn.dpSeid ∧ u.2.farId = pdr.far.farIdValue) =
        [(bearer.pdn.dpSeid, far)]

/-- `pfcp_trans` is each of the transactions. -/
def Release.Linked (r : Release) : Prop := ∀ k < r.transactions.length, r.pfcpTrans = some k

section Release

variable (stack : ℕ → UpdateFar) {c : UeContext} {offset : ℕ} {r : Release}

theorem turn_of_none {i : Fin maxBearers} (h : r.epsBearers i = none) : r.turn stack i = r := by
  unfold Release.turn
  split_ifs with hdropped <;> rfl

theorem turn_of_some {i : Fin maxBearers} {bearer : EpsBearer} (hdropped : r.dropped = false)
    (hi : r.epsBearers i ≠ none) (h0 : r.epsBearers releaseSlot = some bearer) :
    (r.turn stack i).dropped = false ∧
      (∀ j, (r.turn stack i).epsBearers j = none ↔ r.epsBearers j = none) ∧
      (r.turn stack i).transactions.length = r.transactions.length + 1 ∧
      (r.turn stack i).pfcpTrans = some r.transactions.length := by
  have hturn : ¬(r.dropped = true) := by simp [hdropped]
  simp only [Release.turn, if_neg hturn, if_neg hi, h0]
  refine ⟨hdropped, ?_, by simp, trivial⟩
  intro j
  rcases eq_or_ne j releaseSlot with rfl | hj
  · simp [h0]
  · rw [update_of_ne hj]

theorem transactions_foldl (slots : List (Fin maxBearers)) (hdropped : r.dropped = false)
    (h0 : r.epsBearers releaseSlot ≠ none) :
    (slots.foldl (Release.turn stack) r).transactions.length =
      r.transactions.length + slots.countP (fun i => (r.epsBearers i).isSome) := by
  induction slots generalizing r with
  | nil => rfl
  | cons i slots ih =>
    rw [List.foldl_cons]
    rcases hi : r.epsBearers i with _ | bearer
    · rw [turn_of_none stack hi, ih hdropped h0, List.countP_cons_of_neg (by simp [hi])]
    · have hne : r.epsBearers i ≠ none := by simp [hi]
      obtain ⟨first, hfirst⟩ := Option.ne_none_iff_exists'.mp h0
      obtain ⟨hd, hslots, hlength, -⟩ := turn_of_some stack hdropped hne hfirst
      have hsame : ∀ j, ((r.turn stack i).epsBearers j).isSome = (r.epsBearers j).isSome := by
        intro j
        rw [Bool.eq_iff_iff, Option.isSome_iff_ne_none, Option.isSome_iff_ne_none, ne_eq,
          hslots j]
      rw [ih hd ((hslots _).not.mpr h0), hlength, List.countP_cons_of_pos (by simp [hi]),
        List.countP_congr fun j _ => by rw [hsame j]]
      omega

theorem foldl_turn_of_none (slots : List (Fin maxBearers))
    (h : ∀ i ∈ slots, r.epsBearers i = none) : slots.foldl (Release.turn stack) r = r := by
  induction slots with
  | nil => rfl
  | cons i slots ih =>
    rw [List.foldl_cons, turn_of_none stack (h i List.mem_cons_self)]
    exact ih fun j hj => h j (List.mem_cons_of_mem i hj)

def firstRelease (stack : ℕ → UpdateFar) (c : UeContext) (offset : ℕ) (bearer : EpsBearer) :
    Release :=
  let bearer := { bearer with s1uEnb := { bearer.s1uEnb with teid := 0 } }
  let request := releaseRequest stack {} (offset + 1) bearer
  { epsBearers := update c.epsBearers releaseSlot (some bearer)
    request
    pfcpSeqNoOffset := offset + 1
    sent := [request]
    transactions := [offset + 1]
    pfcpTrans := some 0 }

theorem process_of_single {bearer : EpsBearer} (h0 : c.epsBearers releaseSlot = some bearer)
    (hothers : ∀ i, i ≠ releaseSlot → c.epsBearers i = none) :
    processReleaseAccessBearerRequest stack c offset = firstRelease stack c offset bearer := by
  have hslots : List.finRange maxBearers = releaseSlot :: (List.finRange maxBearers).tail := rfl
  have hnodup : (releaseSlot :: (List.finRange maxBearers).tail).Nodup :=
    hslots ▸ List.nodup_finRange maxBearers
  have hturn : Release.turn stack { epsBearers := c.epsBearers, pfcpSeqNoOffset := offset }
      releaseSlot = firstRelease stack c offset bearer := by
    simp [Release.turn, h0, firstRelease]
  rw [processReleaseAccessBearerRequest, hslots, List.foldl_cons, hturn]
  refine foldl_turn_of_none stack _ fun i hi => ?_
  have hne : i ≠ releaseSlot := ne_of_mem_of_not_mem hi (List.nodup_cons.mp hnodup).1
  exact (update_of_ne hne _ c.epsBearers).trans (hothers i hne)

theorem updateFar_releaseRequest (bearer : EpsBearer) (seqNo : ℕ) :
    (releaseRequest stack {} seqNo bearer).updateFar 0 =
      (bearer.markedPdrs.head?.elim {}
        fun pdr => fillUpdateFar (releaseParms stack bearer) false pdr {}).buffer := by
  have hcell := updateFar_fill_zero (releaseParms stack bearer) false { updateFarCount := 1 }
    seqNo bearer
  simp only [releaseRequest, update_self, hcell]

theorem updateFars_of_no_core {bearer : EpsBearer} (h : bearer.corePdrs = []) (seqNo : ℕ) :
    (releaseRequest stack {} seqNo bearer).updateFars = [] := by
  have hmarked : bearer.markedPdrs = [] := by
    rw [← List.map_eq_nil_iff (f := Prod.fst), map_fst_markedPdrs, h]
  have hcell := updateFar_releaseRequest stack bearer seqNo
  rw [hmarked] at hcell
  exact updateFars_of_len_eq_zero rfl (by rw [hcell]; rfl)

theorem updateFars_of_core {bearer : EpsBearer} {pdr : Pdr} {pdrs : List Pdr}
    (h : bearer.corePdrs = pdr :: pdrs) (seqNo : ℕ) :
    ∃ far, (releaseRequest stack {} seqNo bearer).updateFars = [far] ∧
      far.farId = pdr.far.farIdValue ∧ far.applyAction = { buff := true, nocp := true } := by
  have hcell := updateFar_releaseRequest stack bearer seqNo
  rw [← map_fst_markedPdrs] at h
  obtain ⟨first, rest, hmarked, rfl, -⟩ := List.map_eq_cons_iff.mp h
  rw [hmarked] at hcell
  refine ⟨_, updateFars_of_len_ne_zero rfl (by simp [hcell, UpdateFar.buffer]), ?_⟩
  rw [hcell]
  exact ⟨rfl, rfl⟩

theorem updates_firstRelease (c : UeContext) (offset : ℕ) (bearer : EpsBearer) :
    ∃ fars : List UpdateFar, (firstRelease stack c offset bearer).updates = fars.map (bearer.pdn.dpSeid, ·) ∧
      fars.map UpdateFar.farId = bearer.corePdrs.head?.toList.map (·.far.farIdValue) ∧
      ∀ far ∈ fars, far.applyAction = { buff := true, nocp := true } := by
  let released : EpsBearer := { bearer with s1uEnb := { bearer.s1uEnb with teid := 0 } }
  refine ⟨(releaseRequest stack {} (offset + 1) released).updateFars, ?_, ?_⟩
  · simp [Release.updates, firstRelease, released, releaseRequest, fillPfcpSessModReq]
  · rcases hcore : bearer.corePdrs with _ | ⟨pdr, pdrs⟩
    · have hreleased : released.corePdrs = [] := hcore
      rw [updateFars_of_no_core stack hreleased]
      exact ⟨rfl, fun far hfar => absurd hfar List.not_mem_nil⟩
    · have hreleased : released.corePdrs = pdr :: pdrs := hcore
      obtain ⟨far, hfars, hid, haction⟩ := updateFars_of_core stack hreleased (offset + 1)
      rw [hfars]
      refine ⟨by simp [hid], fun other hother => ?_⟩
      rwa [List.mem_singleton.mp hother]

theorem others_none_of_linked (h0 : c.epsBearers releaseSlot ≠ none)
    (hlinked : (processReleaseAccessBearerRequest stack c offset).Linked) (i : Fin maxBearers)
    (hi : i ≠ releaseSlot) : c.epsBearers i = none := by
  by_contra hsome
  have hlength := transactions_foldl stack (List.finRange maxBearers)
    (r := { epsBearers := c.epsBearers, pfcpSeqNoOffset := offset }) rfl h0
  have htwo : 2 ≤ (List.finRange maxBearers).countP fun j => (c.epsBearers j).isSome := by
    have hsub : [releaseSlot, i].Subperm ((List.finRange maxBearers).filter
        fun j => (c.epsBearers j).isSome) := by
      refine List.subperm_of_subset (by simp [hi.symm]) fun j hj => ?_
      rcases List.mem_pair.mp hj with rfl | rfl
      · simpa [Option.isSome_iff_ne_none] using h0
      · simpa [Option.isSome_iff_ne_none] using hsome
    rw [List.countP_eq_length_filter]
    exact hsub.length_le
  have hmany : 2 ≤ (processReleaseAccessBearerRequest stack c offset).transactions.length := by
    rw [processReleaseAccessBearerRequest, hlength]
    exact htwo.trans (Nat.le_add_left ..)
  have hzero := hlinked 0 (by omega)
  have hone := hlinked 1 (by omega)
  rw [hzero] at hone
  exact absurd (Option.some.inj hone) (by decide)

theorem farId_of_buffers {bearer : EpsBearer} {pdr : Pdr}
    (hbearer : c.epsBearers releaseSlot = some bearer)
    (hbuffers : (firstRelease stack c offset bearer).Buffers c) (hpdr : pdr ∈ bearer.corePdrs) :
    some pdr.far.farIdValue = bearer.corePdrs.head?.map (·.far.farIdValue) := by
  obtain ⟨far, -, hfilter⟩ := hbuffers _ _ hbearer pdr hpdr
  obtain ⟨fars, hupdates, hids, -⟩ := updates_firstRelease stack c offset bearer
  have hmem : (bearer.pdn.dpSeid, far) ∈ (firstRelease stack c offset bearer).updates ∧
      far.farId = pdr.far.farIdValue := by
    have := List.mem_filter.mp (hfilter ▸ List.mem_singleton_self (bearer.pdn.dpSeid, far))
    simpa using this
  rw [hupdates] at hmem
  obtain ⟨other, hother, heq⟩ := List.mem_map.mp hmem.1
  obtain rfl : other = far := (Prod.mk.inj heq).2
  have hid := List.mem_map_of_mem (f := UpdateFar.farId) hother
  rw [hids, hmem.2] at hid
  rcases hhead : bearer.corePdrs.head? with _ | first
  · simp [hhead] at hid
  · simpa [hhead] using hid

theorem buffers_of_single {bearer : EpsBearer} (hbearer : c.epsBearers releaseSlot = some bearer)
    (hothers : ∀ i, i ≠ releaseSlot → c.epsBearers i = none)
    (hfar : ∀ p ∈ bearer.corePdrs, ∀ q ∈ bearer.corePdrs,
      p.far.farIdValue = q.far.farIdValue) :
    (firstRelease stack c offset bearer).Buffers c := by
  intro i other hi pdr hpdr
  obtain rfl : i = releaseSlot := by
    by_contra hne
    simp [hothers i hne] at hi
  obtain rfl : other = bearer := Option.some.inj (hi.symm.trans hbearer)
  obtain ⟨fars, hupdates, hids, haction⟩ := updates_firstRelease stack c offset
    other
  obtain ⟨first, pdrs, hcore⟩ := List.exists_cons_of_ne_nil (List.ne_nil_of_mem hpdr)
  rw [hcore] at hids
  obtain ⟨far, rest, rfl, hid, hrest⟩ := List.map_eq_cons_iff.mp hids
  obtain rfl : rest = [] := List.map_eq_nil_iff.mp hrest
  refine ⟨far, haction far List.mem_cons_self, ?_⟩
  have hsame : far.farId = pdr.far.farIdValue :=
    hid.trans (hfar first (hcore ▸ List.mem_cons_self) pdr hpdr)
  simp [hupdates, hsame]

/-- **A Release Access Bearers Request has its effect exactly if the UE has a single bearer, in the
first slot, whose downlink rules share one FAR.** -/
theorem released_iff (stack : ℕ → UpdateFar) (c : UeContext) (offset : ℕ) :
    (∃ r, handleRabRequest stack c offset = .ok r ∧ r.Buffers c ∧ r.Linked) ↔
      ∃ bearer, c.epsBearers releaseSlot = some bearer ∧
        (∀ i, i ≠ releaseSlot → c.epsBearers i = none) ∧
        ∀ p ∈ bearer.corePdrs, ∀ q ∈ bearer.corePdrs, p.far.farIdValue = q.far.farIdValue := by
  constructor
  · rintro ⟨r, hr, hbuffers, hlinked⟩
    obtain ⟨bearer, hbearer, hr⟩ := Session.deref_bind_eq_ok.mp hr
    cases hr
    have hothers := others_none_of_linked stack (by simp [hbearer]) hlinked
    rw [process_of_single stack hbearer hothers] at hbuffers
    exact ⟨bearer, hbearer, hothers, fun p hp q hq =>
      Option.some.inj ((farId_of_buffers stack hbearer hbuffers hp).trans
        (farId_of_buffers stack hbearer hbuffers hq).symm)⟩
  · rintro ⟨bearer, hbearer, hothers, hfar⟩
    refine ⟨firstRelease stack c offset bearer, ?_, buffers_of_single stack hbearer hothers hfar, ?_⟩
    · rw [handleRabRequest, hbearer, ← process_of_single stack hbearer hothers]
      rfl
    · intro k hk
      exact congrArg some (Nat.lt_one_iff.mp hk).symm

end Release

def twoBearers : UeContext where
  epsBearers i :=
    if i.val = 0 then some (twoRuleBearer 5 0)
    else if i.val = 1 then some (twoRuleBearer 6 1)
    else none
  bearerBitmap := 3

/-- The FAR of the default bearer is updated twice, that of the dedicated bearer not at all. -/
theorem not_released_twoBearers :
    ¬∃ r, handleRabRequest (fun _ => {}) twoBearers 0 = .ok r ∧ r.Buffers twoBearers ∧
      r.Linked := by
  rintro ⟨r, hr, hbuffers, -⟩
  obtain rfl : processReleaseAccessBearerRequest (fun _ => {}) twoBearers 0 = r :=
    Except.ok.inj hr
  obtain ⟨far, -, hfilter⟩ := hbuffers ⟨1, by decide⟩ (twoRuleBearer 6 1) rfl _
    (show _ ∈ [_] from List.mem_singleton_self _)
  have hsent : (processReleaseAccessBearerRequest (fun _ => {}) twoBearers 0).updates.map
      (·.2.farId) = [2, 2] := by decide
  have hfar := List.mem_filter.mp (hfilter ▸ List.mem_singleton_self (_, far))
  have hid := List.mem_map_of_mem (f := fun u : ℕ × UpdateFar => u.2.farId) hfar.1
  rw [hsent] at hid
  simp_all [twoRuleBearer]

end Spgw.Sx
