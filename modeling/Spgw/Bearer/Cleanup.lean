/-
# What the two ways to clean up leave

A UE context has one PDN connection, so that `cleanup_pdn_context` frees the UE context with it: a
release leaves the state without the context, up to rules (`sat_releaseSession`).
-/

import Spgw.Bearer.Contexts

namespace Spgw.Bearer

open Machine Function
open Session (UePtr PdnPtr deref deref_some sat_deref_bind sat_assert_bind ueSessId
  assert_bind_eq_ok)
open Rar (maxBearers)

variable {s s' s₁ : State} {c : UeContext} {p : PdnPtr} {pdn : Pdn} {u : UePtr}

def State.forget (s : State) (u : UePtr) (c : UeContext) (pdn : Pdn) : State :=
  { s with
    ues := s.ues.free u
    ueByImsi := s.ueByImsi.erase c.imsi
    ueByTeid := s.ueByTeid.erase c.s11SgwGtpcTeid
    ueBySeid := s.ueBySeid.erase pdn.seid
    ueByGxSessId := s.ueByGxSessId.erase pdn.gxSessId
    pdnByTeid := s.pdnByTeid.erase c.s11SgwGtpcTeid
    pdnByCallId := s.pdnByCallId.erase pdn.callId }

theorem sat_cleanupSlot (p : PdnPtr) (rc : Rules × UeContext) (i : Fin maxBearers) :
    Sat (cleanupSlot p rc i) (fun rc' => rc'.2.imsi = rc.2.imsi ∧
      rc'.2.s11SgwGtpcTeid = rc.2.s11SgwGtpcTeid ∧ rc'.2.numPdns = rc.2.numPdns) AnyFault := by
  unfold cleanupSlot
  refine (sat_true _).bind fun pdn _ => ?_
  cases pdn.epsBearers i with
  | none => exact ⟨rfl, rfl, rfl⟩
  | some b =>
    unfold cleanupBearerContext
    simp only [bind_assoc]
    refine (sat_true _).bind fun bearer _ => (sat_true _).bind fun pdn' _ => ?_
    refine (sat_true _).bind fun j _ => (sat_true _).bind fun b' _ => ?_
    exact (sat_true _).bind fun bearer' _ => ⟨rfl, rfl, rfl⟩

theorem sat_releaseSession (hwf : ∀ c, s.ues.get u = some c → c.WellFormed) :
    Sat (releaseSession s u p) (fun s' => ∃ c pdn r, s.ues.get u = some c ∧ c.Tied p pdn ∧
        s' = { s.forget u c pdn with rules := r }) AnyFault := by
  unfold releaseSession cleanupPdnContext
  simp only [bind_assoc]
  refine sat_deref_bind fun c hc => ?_
  refine sat_deref_bind fun pdn hp => ?_
  have htied := (hwf c hc).tied hp
  refine sat_assert_bind ?_
  have hloop : Sat ((List.finRange maxBearers).foldlM (cleanupSlot p) (s.rules, c))
      (fun rc => rc.2.imsi = c.imsi ∧ rc.2.s11SgwGtpcTeid = c.s11SgwGtpcTeid ∧
        rc.2.numPdns = c.numPdns) AnyFault := by
    refine Sat.foldlM ?_ ⟨rfl, rfl, rfl⟩
    rintro rc i - ⟨h₁, h₂, h₃⟩
    refine (sat_cleanupSlot p rc i).mono ?_
    rintro rc' ⟨h₁', h₂', h₃'⟩
    exact ⟨h₁'.trans h₁, h₂'.trans h₂, h₃'.trans h₃⟩
  refine hloop.bind ?_
  rintro ⟨r, c'⟩ ⟨himsi, hteid, hnum⟩
  simp only at himsi hteid hnum
  simp only [pure_bind, State.freePdn, Heap.get_set hc, if_true, deref_some, hnum, htied.numPdns]
  refine ⟨c, pdn, r, hc, htied, ?_⟩
  simp [State.freeUe, State.forget, Heap.free_set, himsi, hteid]

def Slots.without (slots : Slots BearerPtr) (l : List (Fin maxBearers)) : Slots BearerPtr :=
  fun i => if i ∈ l then none else slots i

theorem clearSlot_eq (h : c.Tied p pdn) (i : Fin maxBearers) :
    ∃ bearers, clearSlot p c i = .ok (c.withSlots p pdn (c.epsBearers.without [i])
        (pdn.numBearer - [i].countP fun i => (c.epsBearers i).isSome) bearers) ∧
      (c.withSlots p pdn (c.epsBearers.without [i])
        (pdn.numBearer - [i].countP fun i => (c.epsBearers i).isSome) bearers).Tied p { pdn with
            epsBearers := c.epsBearers.without [i]
            numBearer := pdn.numBearer - [i].countP fun i => (c.epsBearers i).isSome } := by
  have hslots : c.epsBearers.without [i] = update c.epsBearers i none := by
    funext j
    simp [Slots.without, update_apply]
  have hother {j : Fin maxBearers} {b : BearerPtr} (hj : c.epsBearers.without [i] j = some b) :
      j ≠ i ∧ c.epsBearers j = some b := by
    simpa [Slots.without] using hj
  have hinj : ∀ j k b, c.epsBearers.without [i] j = some b → c.epsBearers.without [i] k = some b →
      j = k := fun j k b hj hk => h.inj j k b (hother hj).2 (hother hk).2
  cases hb : c.epsBearers i with
  | none =>
    have hsame : c.epsBearers.without [i] = c.epsBearers := by
      rw [hslots, ← hb, update_eq_self]
    refine ⟨c.bearerHeap, ?_, h.withSlots (fun j b hj => h.bearers j b (hother hj).2) hinj⟩
    simp [clearSlot, hb, hsame, UeContext.withSlots_self h]
    rfl
  | some b =>
    obtain ⟨bearer, hget, -⟩ := h.bearers i b hb
    refine ⟨c.bearerHeap.free b, ?_, h.withSlots ?_ hinj⟩
    · simp only [clearSlot, hb, h.get, h.slots, deref_some, pure_bind, hget, hslots]
      simp [UeContext.withSlots, hb]
      rfl
    · intro j b' hj
      obtain ⟨hne, hj⟩ := hother hj
      have hne' : b' ≠ b := fun hbb => hne (h.inj j i b (hbb ▸ hj) hb)
      rw [Heap.get_free, if_neg hne']
      exact h.bearers j b' hj

theorem Slots.without_without (slots : Slots BearerPtr) (i : Fin maxBearers)
    (l : List (Fin maxBearers)) : (slots.without [i]).without l = slots.without (i :: l) := by
  funext j
  by_cases hl : j ∈ l <;> by_cases hi : j = i <;> simp [Slots.without, hl, hi]

theorem clearSlots_eq {l : List (Fin maxBearers)} (hl : l.Nodup) (h : c.Tied p pdn) :
    ∃ bearers, l.foldlM (clearSlot p) c = .ok (c.withSlots p pdn (c.epsBearers.without l)
      (pdn.numBearer - l.countP fun i => (c.epsBearers i).isSome) bearers) := by
  induction l generalizing c pdn with
  | nil =>
    have hsame : c.epsBearers.without [] = c.epsBearers := by
      funext i
      simp [Slots.without]
    refine ⟨c.bearerHeap, ?_⟩
    rw [hsame, List.countP_nil, Nat.sub_zero, UeContext.withSlots_self h]
    rfl
  | cons i l ih =>
    obtain ⟨hi, hl⟩ := List.nodup_cons.mp hl
    obtain ⟨bearers, hturn, htied⟩ := clearSlot_eq h i
    obtain ⟨bearers', hloop⟩ := ih hl htied
    refine ⟨bearers', ?_⟩
    -- The slots that are left have not been touched by the first turn.
    have hcount : (l.countP fun j => (c.epsBearers.without [i] j).isSome) =
        l.countP fun j => (c.epsBearers j).isSome := by
      refine List.countP_congr fun j hj => ?_
      have hne : j ≠ i := fun hji => hi (hji ▸ hj)
      simp [Slots.without, hne]
    have hsum : (i :: l).countP (fun j => (c.epsBearers j).isSome) =
        [i].countP (fun j => (c.epsBearers j).isSome) +
          l.countP fun j => (c.epsBearers j).isSome := by
      rw [← List.countP_append, List.singleton_append]
    rw [List.foldlM_cons, hturn]
    refine hloop.trans ?_
    rw [UeContext.withSlots_withSlots, hsum, ← Nat.sub_sub]
    change Except.ok (c.withSlots p pdn ((c.epsBearers.without [i]).without l) (_ - _) _) = _
    rw [Slots.without_without]
    change Except.ok (c.withSlots p pdn _
      (_ - l.countP fun j => (c.epsBearers.without [i] j).isSome) _) = _
    rw [hcount]

def UeContext.cleared (c : UeContext) (p : PdnPtr) (pdn : Pdn) (bearers : Heap EpsBearer) :
    UeContext :=
  c.withSlots p pdn (fun _ => none) (pdn.numBearer - occupied c.epsBearers) bearers

theorem clearAllSlots_eq (h : c.Tied p pdn) :
    ∃ bearers, (List.finRange maxBearers).foldlM (clearSlot p) c = .ok (c.cleared p pdn bearers) := by
  obtain ⟨bearers, hloop⟩ := clearSlots_eq (List.nodup_finRange maxBearers) h
  have hnone : c.epsBearers.without (List.finRange maxBearers) = fun _ => none := by
    funext i
    simp [Slots.without]
  rw [hnone] at hloop
  exact ⟨bearers, hloop⟩

theorem tied_cleared (h : c.Tied p pdn) (bearers : Heap EpsBearer) :
    (c.cleared p pdn bearers).Tied p { pdn with
        epsBearers := fun _ => none
        numBearer := pdn.numBearer - occupied c.epsBearers } :=
  h.withSlots (fun _ _ hi => nomatch hi) (fun _ _ _ hi => nomatch hi)

theorem cleanupSlots_eq {l : List (Fin maxBearers)} {r : Rules} (hp : c.pdnHeap.get p = some pdn)
    (hslots : ∀ i, pdn.epsBearers i = none) : l.foldlM (cleanupSlot p) (r, c) = .ok (r, c) := by
  induction l with
  | nil => rfl
  | cons i l ih =>
    have hturn : cleanupSlot p (r, c) i = .ok (r, c) := by
      simp only [cleanupSlot, hp, deref_some, pure_bind, hslots]
      rfl
    rw [List.foldlM_cons, hturn]
    exact ih

def State.withoutGx (s : State) (pdn : Pdn) : State :=
  if s.gxEnabled ∧ (s.ueByGxSessId pdn.gxSessId).isSome then
    { s with
      ueByGxSessId := s.ueByGxSessId.erase pdn.gxSessId
      pdnByCallId := s.pdnByCallId.erase pdn.callId }
  else
    s

theorem removeGxSession_eq_ok : s.removeGxSession u pdn = .ok s₁ ↔
      (s.gxEnabled → ∀ v, s.ueByGxSessId pdn.gxSessId = some v → v = u) ∧ s₁ = s.withoutGx pdn := by
  have hpure (t : State) : (pure t : Result) = .ok s₁ ↔ s₁ = t :=
    ⟨fun h => (Except.ok.inj h).symm, fun h => h ▸ rfl⟩
  unfold State.removeGxSession State.withoutGx
  cases s.gxEnabled with
  | false => simp [hpure]
  | true =>
    cases s.ueByGxSessId pdn.gxSessId with
    | none => simp [hpure]
    | some v =>
      simp only [if_true, assert_bind_eq_ok, hpure]
      simp

section Erase

variable {κ α : Type} [DecidableEq κ]

theorem erase_erase (t : Session.Table κ α) (k : κ) : (t.erase k).erase k = t.erase k := by
  simp [Session.Table.erase]

end Erase

theorem withoutGx_ues : (s.withoutGx pdn).ues = s.ues := by
  unfold State.withoutGx
  split_ifs <;> rfl

theorem withoutGx_procedures : (s.withoutGx pdn).procedures = s.procedures := by
  unfold State.withoutGx
  split_ifs <;> rfl

theorem forget_withoutGx : (s.withoutGx pdn).forget u c pdn = s.forget u c pdn := by
  unfold State.withoutGx
  split_ifs
  · simp only [State.forget, erase_erase]
  · rfl

theorem freeUe_freePdn {c₁ c₂ : UeContext} (hteid₁ : c₁.s11SgwGtpcTeid = c.s11SgwGtpcTeid)
    (himsi₂ : c₂.imsi = c.imsi) (hteid₂ : c₂.s11SgwGtpcTeid = c.s11SgwGtpcTeid) :
    (((s.withoutGx pdn).setUe u c₁).freePdn u c₁ p pdn).freeUe u c₂ = s.forget u c pdn := by
  rw [← forget_withoutGx]
  simp only [State.freeUe, State.freePdn, State.forget, State.setUe, Heap.free_set, hteid₁, himsi₂,
    hteid₂]

theorem cleanupPdnContext_eq_ok (hc : s.ues.get u = some c) (hp : c.pdnHeap.get p = some pdn)
    (hslots : ∀ i, pdn.epsBearers i = none) :
    cleanupPdnContext s u p = .ok s' ↔
      c.s11SgwGtpcTeid = ueSessId pdn.seid ∧ s' = s.freePdn u c p pdn := by
  simp only [cleanupPdnContext, hc, hp, deref_some, pure_bind, assert_bind_eq_ok]
  rw [cleanupSlots_eq hp hslots]
  refine and_congr_right fun _ => ?_
  constructor
  · exact fun h => (Except.ok.inj h).symm
  · rintro rfl
    rfl

theorem dropQueue_eq_ok (hc : s.ues.get u = some c) : dropQueue s u = .ok s' ↔
      ∃ w, s.procedures.dropProcs c.upfContext c.pendingSubProcs = .ok w ∧
        s' = if c.numPdns = 0 then { s.freeUe u c with procedures := w }
          else { s.setUe u { c with pendingSubProcs := [] } with procedures := w } := by
  simp only [dropQueue, hc, deref_some, pure_bind, bind_eq_ok]
  refine exists_congr fun w => and_congr_right fun _ => ?_
  have hfree : (State.mk s.gxEnabled (s.ues.set u { c with pendingSubProcs := [] }) s.ueByImsi
      s.ueByTeid s.ueBySeid s.ueByGxSessId s.pdnByTeid s.pdnByCallId s.rules w s.teidOffset
      s.callIdOffset).freeUe u c = { s.freeUe u c with procedures := w } := by
    simp only [State.freeUe, Heap.free_set]
  constructor
  · intro h
    rw [← Except.ok.inj h]
    split_ifs
    · exact hfree
    · rfl
  · rintro rfl
    split_ifs
    · exact congrArg Except.ok hfree
    · rfl

theorem processErrorOccuredHandlerNew_eq_ok {teid ebi : ℕ} (hu : s.ueByTeid teid = some u)
    (hc : s.ues.get u = some c) (hp : c.getPdn ebi = .ok p) (h : c.Tied p pdn) :
    ∃ bearers, ∀ s', processErrorOccuredHandlerNew s teid ebi = .ok s' ↔
      (s.gxEnabled → ∀ v, s.ueByGxSessId pdn.gxSessId = some v → v = u) ∧
        ∃ w, s.procedures.dropProcs c.upfContext c.pendingSubProcs = .ok w ∧
          ((pdn.numBearer ≤ occupied c.epsBearers ∧ c.s11SgwGtpcTeid = ueSessId pdn.seid ∧
              s' = { s.forget u c pdn with procedures := w }) ∨
            (occupied c.epsBearers < pdn.numBearer ∧ s' = { (s.withoutGx pdn).setUe u
                  { c.cleared p pdn bearers with pendingSubProcs := [] } with procedures := w })) := by
  obtain ⟨bearers, hclear⟩ := clearAllSlots_eq h
  refine ⟨bearers, fun s' => ?_⟩
  have hcleared := tied_cleared h bearers
  have hget : ((s.withoutGx pdn).setUe u (c.cleared p pdn bearers)).ues.get u =
      some (c.cleared p pdn bearers) := by
    simp only [State.setUe, withoutGx_ues, Heap.get_set hc, if_true]
  have hprocs : ((s.withoutGx pdn).setUe u (c.cleared p pdn bearers)).procedures = s.procedures :=
    withoutGx_procedures
  -- The part up to the loop is the same whatever the number of bearers is.
  have hfirst : processErrorOccuredHandlerNew s teid ebi = .ok s' ↔
      (s.gxEnabled → ∀ v, s.ueByGxSessId pdn.gxSessId = some v → v = u) ∧
        (releaseIfEmpty ((s.withoutGx pdn).setUe u (c.cleared p pdn bearers)) u p { pdn with
              epsBearers := fun _ => none
              numBearer := pdn.numBearer - occupied c.epsBearers } >>=
          fun s => dropQueue s u) = .ok s' := by
    simp only [processErrorOccuredHandlerNew, hu, hc, deref_some, pure_bind]
    rw [hp]
    change (deref (c.pdnHeap.get p) >>= _) = _ ↔ _
    rw [h.get, deref_some, pure_bind, bind_eq_ok]
    simp only [removeGxSession_eq_ok]
    rw [hclear]
    constructor
    · rintro ⟨s₁, ⟨hgx, rfl⟩, hrest⟩
      change (deref ((c.cleared p pdn bearers).pdnHeap.get p) >>= _) = _ at hrest
      rw [hcleared.get, deref_some, pure_bind] at hrest
      exact ⟨hgx, hrest⟩
    · rintro ⟨hgx, hrest⟩
      refine ⟨_, ⟨hgx, rfl⟩, ?_⟩
      change (deref ((c.cleared p pdn bearers).pdnHeap.get p) >>= _) = _
      rw [hcleared.get, deref_some, pure_bind]
      exact hrest
  rw [hfirst]
  refine and_congr_right fun _ => ?_
  rcases Nat.lt_or_ge (occupied c.epsBearers) pdn.numBearer with hlt | hle
  · have hne : pdn.numBearer - occupied c.epsBearers ≠ 0 := by omega
    have hnum : (c.cleared p pdn bearers).numPdns ≠ 0 := by
      rw [hcleared.numPdns]
      exact Nat.one_ne_zero
    rw [releaseIfEmpty, if_neg hne, pure_bind, dropQueue_eq_ok hget, hprocs]
    refine exists_congr fun w => and_congr_right fun _ => ?_
    rw [if_neg hnum]
    simp only [State.setUe, Heap.set_set]
    exact ⟨fun hs' => .inr ⟨hlt, hs'⟩, fun hs' => hs'.elim (fun h => absurd h.1 (by omega)) And.right⟩
  · have hzero : pdn.numBearer - occupied c.epsBearers = 0 := by omega
    rw [releaseIfEmpty, if_pos hzero, bind_eq_ok]
    simp only [cleanupPdnContext_eq_ok hget hcleared.get fun _ => rfl]
    obtain ⟨c', hc', himsi, hteid, hnum, hupf, hqueue⟩ : ∃ c',
        (((s.withoutGx pdn).setUe u (c.cleared p pdn bearers)).freePdn u (c.cleared p pdn bearers) p
          pdn).ues.get u = some c' ∧ c'.imsi = c.imsi ∧ c'.s11SgwGtpcTeid = c.s11SgwGtpcTeid ∧
        c'.numPdns = 0 ∧ c'.upfContext = c.upfContext ∧ c'.pendingSubProcs = c.pendingSubProcs := by
      simp only [State.freePdn, Heap.get_set hget, if_true]
      refine ⟨_, rfl, rfl, rfl, ?_, rfl, rfl⟩
      simp only [hcleared.numPdns]
    have hforget : (((s.withoutGx pdn).setUe u (c.cleared p pdn bearers)).freePdn u
        (c.cleared p pdn bearers) p pdn).freeUe u c' = s.forget u c pdn :=
      freeUe_freePdn rfl himsi hteid
    constructor
    · rintro ⟨_, ⟨hsess, rfl⟩, hdrop⟩
      obtain ⟨w, hw, hs'⟩ := (dropQueue_eq_ok hc').mp hdrop
      rw [if_pos hnum, hforget] at hs'
      rw [hupf, hqueue] at hw
      exact ⟨w, hprocs ▸ hw, .inl ⟨hle, hsess, hs'⟩⟩
    · rintro ⟨w, hw, ⟨-, hsess, hs'⟩ | ⟨hlt, -⟩⟩
      · refine ⟨_, ⟨hsess, rfl⟩, (dropQueue_eq_ok hc').mpr ⟨w, ?_, ?_⟩⟩
        · rw [hupf, hqueue]
          exact hprocs ▸ hw
        · rw [if_pos hnum, hforget, hs']
      · omega

end Spgw.Bearer
