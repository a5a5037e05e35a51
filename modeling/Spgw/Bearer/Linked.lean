/-
# The tables

In every state of every run an entry names a UE context that is allocated and has the key of the
entry, and every UE context is well-formed and listed under its IMSI.
-/

import Spgw.Bearer.Cleanup

namespace Spgw.Bearer

open Machine Function
open Session (UePtr PdnPtr)

open Spgw.Trans (TransKey)

variable {s s' : State} {c c' c'' : UeContext} {p : PdnPtr} {pdn pdn' : Pdn} {u : UePtr}

namespace UeContext

theorem keeps_cleared (h : c.Tied p pdn) (bearers : Heap EpsBearer) (queue : List ProcId) :
    c.Keeps { c.cleared p pdn bearers with pendingSubProcs := queue } where
  imsi := rfl
  teid := rfl
  pdn := exists_pdn_set h.get rfl rfl rfl
  wellFormed _ := WellFormed.congr (.inr ⟨p, _, tied_cleared h bearers⟩) rfl rfl rfl rfl

end UeContext

section Tracked

variable {κ α : Type} [DecidableEq κ] {t : Session.Table κ α} {k l : κ} {a b : α}
  {owner : α → UePtr} {names : UeContext → κ → Prop} {ues : Heap UeContext}

theorem mem_of_insert (h : t.insert k a l = some b) : t l = some b ∨ (l = k ∧ b = a) := by
  unfold Session.Table.insert at h
  split_ifs at h
  · exact .inl h
  · rw [update_apply] at h
    split_ifs at h with hl
    · exact .inr ⟨hl, (Option.some.inj h).symm⟩
    · exact .inl h

theorem mem_of_erase (h : t.erase k l = some b) : l ≠ k ∧ t l = some b := by
  unfold Session.Table.erase at h
  rw [update_apply] at h
  split_ifs at h with hl
  exact ⟨hl, h⟩

def Tracked (owner : α → UePtr) (names : UeContext → κ → Prop) (ues : Heap UeContext)
    (t : Session.Table κ α) : Prop :=
  ∀ k a, t k = some a → ∃ c, ues.get (owner a) = some c ∧ names c k

namespace Tracked

theorem erase (h : Tracked owner names ues t) : Tracked owner names ues (t.erase k) :=
  fun l a hl => h l a (mem_of_erase hl).2

theorem insert (h : Tracked owner names ues t) (hc : ues.get (owner a) = some c) (hk : names c k) :
    Tracked owner names ues (t.insert k a) := by
  intro l b hl
  rcases mem_of_insert hl with hl | ⟨rfl, rfl⟩
  · exact h l b hl
  · exact ⟨c, hc, hk⟩

omit [DecidableEq κ] in
theorem set (h : Tracked owner names ues t) (hc : ues.get u = some c)
    (hk : ∀ k, names c k → names c' k) : Tracked owner names (ues.set u c') t := by
  intro l a hl
  obtain ⟨d, hd, hn⟩ := h l a hl
  rw [Heap.get_set hc]
  split_ifs with hu
  · obtain rfl := Option.some.inj (hc.symm.trans (hu ▸ hd))
    exact ⟨c', rfl, hk l hn⟩
  · exact ⟨d, hd, hn⟩

omit [DecidableEq κ] in
theorem set_of_unlisted (h : Tracked owner names ues t) (hc : ues.get u = some c)
    (hu : ∀ k a, t k = some a → owner a ≠ u) : Tracked owner names (ues.set u c') t := by
  intro l a hl
  obtain ⟨d, hd, hn⟩ := h l a hl
  exact ⟨d, by rw [Heap.get_set hc, if_neg (hu l a hl), hd], hn⟩

omit [DecidableEq κ] in
theorem owner_ne_next (h : Tracked owner names ues t) (hl : t l = some a) : owner a ≠ ues.next := by
  obtain ⟨d, hd, -⟩ := h l a hl
  exact Nat.ne_of_lt (Heap.lt_next_of_get hd)

omit [DecidableEq κ] in
theorem alloc (h : Tracked owner names ues t) : Tracked owner names (ues.alloc c) t := by
  intro l a hl
  obtain ⟨d, hd, hn⟩ := h l a hl
  exact ⟨d, by rw [Heap.get_alloc, if_neg (h.owner_ne_next hl), hd], hn⟩

/-- **Without the entry under its key a UE context has no entry.** -/
theorem owner_ne_of_erase (h : Tracked owner names ues t) (hc : ues.get u = some c)
    (hk : ∀ l, names c l → l = k) (hl : t.erase k l = some a) : owner a ≠ u := by
  rintro rfl
  obtain ⟨hne, hl⟩ := mem_of_erase hl
  obtain ⟨d, hd, hn⟩ := h l a hl
  cases hc.symm.trans hd
  exact hne (hk l hn)

theorem forget (h : Tracked owner names ues t) (hc : ues.get u = some c)
    (hk : ∀ l, names c l → l = k) : Tracked owner names (ues.free u) (t.erase k) := by
  intro l a hl
  have hne := h.owner_ne_of_erase hc hk hl
  obtain ⟨d, hd, hn⟩ := h l a (mem_of_erase hl).2
  exact ⟨d, by rw [Heap.get_free, if_neg hne, hd], hn⟩

end Tracked

end Tracked

structure State.Linked (s : State) : Prop where
  context : ∀ u c, s.ues.get u = some c → c.WellFormed
  listed : ∀ u c, s.ues.get u = some c → s.ueByImsi c.imsi = some u
  imsi : Tracked id (fun c k => c.imsi = k) s.ues s.ueByImsi
  teid : Tracked id (fun c k => c.s11SgwGtpcTeid = k) s.ues s.ueByTeid
  seid : Tracked id (UeContext.Names Pdn.seid) s.ues s.ueBySeid
  gxSessId : Tracked id (UeContext.Names Pdn.gxSessId) s.ues s.ueByGxSessId
  pdnTeid : Tracked Prod.fst (fun c k => c.s11SgwGtpcTeid = k) s.ues s.pdnByTeid
  callId : Tracked Prod.fst (UeContext.Names Pdn.callId) s.ues s.pdnByCallId

theorem linked_initial (gxEnabled : Bool) : (initial gxEnabled).Linked where
  context _ _ h := nomatch h
  listed _ _ h := nomatch h
  imsi _ _ h := nomatch h
  teid _ _ h := nomatch h
  seid _ _ h := nomatch h
  gxSessId _ _ h := nomatch h
  pdnTeid _ _ h := nomatch h
  callId _ _ h := nomatch h

namespace State.Linked

theorem eq_of_imsi {v : UePtr} (hs : s.Linked) (hc : s.ues.get u = some c)
    (hc' : s.ues.get v = some c') (h : c'.imsi = c.imsi) : v = u :=
  Option.some.inj ((hs.listed v c' hc').symm.trans (h ▸ hs.listed u c hc))

theorem update (hs : s.Linked) (hc : s.ues.get u = some c) (himsi : c'.imsi = c.imsi)
    (hteid : c'.s11SgwGtpcTeid = c.s11SgwGtpcTeid) (hwf : c'.WellFormed)
    (hseid : Tracked id (UeContext.Names Pdn.seid) (s.ues.set u c') s.ueBySeid)
    (hgx : Tracked id (UeContext.Names Pdn.gxSessId) (s.ues.set u c') s.ueByGxSessId)
    (hcall : Tracked Prod.fst (UeContext.Names Pdn.callId) (s.ues.set u c') s.pdnByCallId) :
    (s.setUe u c').Linked where
  context v d hd := by
    change (s.ues.set u c').get v = some d at hd
    rw [Heap.get_set hc] at hd
    split_ifs at hd
    · exact Option.some.inj hd ▸ hwf
    · exact hs.context v d hd
  listed v d hd := by
    change (s.ues.set u c').get v = some d at hd
    rw [Heap.get_set hc] at hd
    split_ifs at hd with hv
    · rw [← Option.some.inj hd, himsi, hv]
      exact hs.listed u c hc
    · exact hs.listed v d hd
  imsi := hs.imsi.set hc fun k h => himsi.trans h
  teid := hs.teid.set hc fun k h => hteid.trans h
  seid := hseid
  gxSessId := hgx
  pdnTeid := hs.pdnTeid.set hc fun k h => hteid.trans h
  callId := hcall

theorem setUe (hs : s.Linked) (hc : s.ues.get u = some c) (hk : c.Keeps c') :
    (s.setUe u c').Linked := by
  refine hs.update hc hk.imsi hk.teid (hk.wellFormed (hs.context u c hc)) (hs.seid.set hc ?_)
    (hs.gxSessId.set hc ?_) (hs.callId.set hc ?_)
  all_goals
    rintro k ⟨p, pdn, hp, rfl⟩
    obtain ⟨pdn', hp', hseid, hcall, hgx⟩ := hk.pdn p pdn hp
  · exact ⟨p, pdn', hp', hseid⟩
  · exact ⟨p, pdn', hp', hgx⟩
  · exact ⟨p, pdn', hp', hcall⟩

theorem forget (hs : s.Linked) (hc : s.ues.get u = some c) (h : c.Tied p pdn) :
    (s.forget u c pdn).Linked where
  context v d hd := by
    change (s.ues.free u).get v = some d at hd
    rw [Heap.get_free] at hd
    split_ifs at hd
    exact hs.context v d hd
  listed v d hd := by
    change (s.ues.free u).get v = some d at hd
    rw [Heap.get_free] at hd
    split_ifs at hd with hv
    have hne : d.imsi ≠ c.imsi := fun himsi => hv (hs.eq_of_imsi hc hd himsi)
    change s.ueByImsi.erase c.imsi d.imsi = some v
    rw [Session.Table.erase, update_of_ne hne]
    exact hs.listed v d hd
  imsi := hs.imsi.forget hc fun _ h => h.symm
  teid := hs.teid.forget hc fun _ h => h.symm
  seid := hs.seid.forget hc fun _ hl => (h.names_iff.mp hl).symm
  gxSessId := hs.gxSessId.forget hc fun _ hl => (h.names_iff.mp hl).symm
  pdnTeid := hs.pdnTeid.forget hc fun _ h => h.symm
  callId := hs.callId.forget hc fun _ hl => (h.names_iff.mp hl).symm

theorem withoutGx (hs : s.Linked) : (s.withoutGx pdn).Linked := by
  unfold State.withoutGx
  split_ifs
  · exact { hs with gxSessId := hs.gxSessId.erase, callId := hs.callId.erase }
  · exact hs

theorem addUe (hs : s.Linked) (hc : c.WellFormed) (himsi : s.ueByImsi c.imsi = none) :
    (s.addUe c).Linked where
  context v d hd := by
    change (s.ues.alloc c).get v = some d at hd
    rw [Heap.get_alloc] at hd
    split_ifs at hd
    · exact Option.some.inj hd ▸ hc
    · exact hs.context v d hd
  listed v d hd := by
    change (s.ues.alloc c).get v = some d at hd
    rw [Heap.get_alloc] at hd
    change s.ueByImsi.insert c.imsi s.ues.next d.imsi = some v
    simp only [Session.Table.insert, himsi, Option.isSome_none, Bool.false_eq_true, if_false]
    split_ifs at hd with hv
    · rw [← Option.some.inj hd, hv, update_self]
    · have hne : d.imsi ≠ c.imsi := by
        intro h
        rw [← h, hs.listed v d hd] at himsi
        cases himsi
      rw [update_of_ne hne]
      exact hs.listed v d hd
  imsi := hs.imsi.alloc.insert (by rw [id, Heap.get_alloc, if_pos rfl]) rfl
  teid := hs.teid.alloc.insert (by rw [id, Heap.get_alloc, if_pos rfl]) rfl
  seid := hs.seid.alloc
  gxSessId := hs.gxSessId.alloc
  pdnTeid := hs.pdnTeid.alloc
  callId := hs.callId.alloc

end State.Linked

end Spgw.Bearer
