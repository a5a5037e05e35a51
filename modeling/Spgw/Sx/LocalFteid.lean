/-
# The F-TEIDs of the PDRs for uplink packets

A PDR for uplink packets detects them by the F-TEID of the S1-U tunnel they arrive in, which is that
of its bearer.
-/

import Spgw.Sx.Built

namespace Spgw.Sx

open Rar (maxBearers)

/-- The PDRs for ACCESS have the F-TEID of their bearer, and bearers do not share one. -/
structure Carries (f : Fill) (fteid : EpsBearer → Fteid) (req : SessEstabReq) : Prop where
  own : ∀ x ∈ req.createPdr.zip f.placed, x.1.value.pdi.value.srcIntfc.value = .access →
    ∃ b, f.epsBearers x.2.1 = some b ∧
      x.1.value.pdi.value.localFteid = { setFteid with value := fteid b }
  apart : ∀ x ∈ req.createPdr.zip f.placed, ∀ y ∈ req.createPdr.zip f.placed,
    x.1.value.pdi.value.srcIntfc.value = .access → y.1.value.pdi.value.srcIntfc.value = .access →
    x.2.1 ≠ y.2.1 → x.1.value.pdi.value.localFteid.value ≠ y.1.value.pdi.value.localFteid.value

section Access

variable {a : Attach}

theorem Attach.localFteid_pdrsFrom {teid : ℕ} {entries : List HeldRule} {qers urrs : List ℕ} :
    ∀ pdr ∈ a.pdrsFrom teid qers urrs entries, pdr.srcIntfc = .access →
      pdr.localFteid = ⟨teid, 0⟩ := by
  induction entries generalizing qers urrs with
  | nil => exact fun pdr hpdr => absurd hpdr List.not_mem_nil
  | cons e entries ih =>
    intro pdr hpdr haccess
    rw [Attach.pdrsFrom, List.mem_cons, List.mem_cons] at hpdr
    rcases hpdr with rfl | rfl | hpdr
    · rfl
    · cases haccess
    · exact ih pdr hpdr haccess

theorem Attach.exists_access (teid : ℕ) {entries : List HeldRule} (hne : entries ≠ [])
    (qers urrs : List ℕ) :
    ∃ pdr ∈ a.pdrsFrom teid qers urrs entries, pdr.srcIntfc = .access := by
  obtain ⟨e, entries, rfl⟩ := List.exists_cons_of_ne_nil hne
  exact ⟨_, List.mem_cons_self, rfl⟩

end Access

namespace Finished

variable {a : Attach} {f : Fill} {s : Spread} {i j : Fin maxBearers} {b b' : EpsBearer}

theorem mem_placed {p : Fin maxBearers × Pdr} :
    p ∈ f.placed ↔ ∃ b, f.epsBearers p.1 = some b ∧ p.2 ∈ b.pdrs := by
  obtain ⟨i, pdr⟩ := p
  have hat : (i, pdr) ∈ f.placed ↔ pdr ∈ f.pdrsAt i := by simp [Fill.placed]
  rw [hat, Fill.pdrsAt]
  cases hb : f.epsBearers i with
  | none => simp
  | some b => simp

def addressAt (a : Attach) (s : Spread) (i : Fin maxBearers) : ℕ :=
  if s.last = some i then (htonl a.upf.s1uIp).toNat else 0

theorem localFteid_eq (h : Finished a f s) (hb : f.epsBearers i = some b) {pdr : Pdr}
    (hpdr : pdr ∈ b.pdrs) (haccess : pdr.srcIntfc = .access) :
    pdr.localFteid = ⟨b.s1uSgw.teid, addressAt a s i⟩ := by
  rw [h.pdrs_eq hb, List.mem_map] at hpdr
  obtain ⟨pdr, hpdr, rfl⟩ := hpdr
  have hsrc : pdr.srcIntfc = .access := by
    obtain ⟨fteid, hfix⟩ := @fix_eq a s i b.s1uSgw.teid pdr
    rwa [hfix] at haccess
  have hown := Attach.localFteid_pdrsFrom pdr hpdr hsrc
  unfold fix addressAt
  split_ifs
  · unfold Pdr.updateTeid
    rw [hsrc]
  · exact hown

theorem exists_bearer (h : Finished a f s) {e : HeldRule} (he : e ∈ s.held) :
    ∃ b, f.epsBearers e.slot = some b ∧ ∃ pdr ∈ b.pdrs, pdr.srcIntfc = .access := by
  have hmem : e ∈ s.inSlot e.slot := List.mem_filter.2 ⟨he, decide_eq_true rfl⟩
  cases hb : f.epsBearers e.slot with
  | none =>
    rw [h.inSlot_eq_nil hb] at hmem
    exact absurd hmem List.not_mem_nil
  | some b =>
    obtain ⟨pdr, hpdr, haccess⟩ := a.exists_access b.s1uSgw.teid (List.ne_nil_of_mem hmem)
      (a.ambrQers e.slot) []
    refine ⟨b, rfl, fix a s e.slot b.s1uSgw.teid pdr, ?_, ?_⟩
    · rw [h.pdrs_eq hb]
      exact List.mem_map_of_mem hpdr
    · obtain ⟨fteid, hfix⟩ := @fix_eq a s e.slot b.s1uSgw.teid pdr
      rw [hfix]
      exact haccess

theorem exists_held (h : Finished a f s) (hb : f.epsBearers i = some b) {pdr : Pdr}
    (hpdr : pdr ∈ b.pdrs) : ∃ e ∈ s.held, e.slot = i := by
  have hne : s.inSlot i ≠ [] := by
    intro hnil
    rw [h.pdrs_eq hb, hnil] at hpdr
    exact absurd hpdr List.not_mem_nil
  obtain ⟨e, he⟩ := List.exists_mem_of_ne_nil _ hne
  exact ⟨e, (List.mem_filter.1 he).1, of_decide_eq_true (List.mem_filter.1 he).2⟩

theorem ipv4Address_eq (h : Finished a f s) (hb : f.epsBearers i = some b) : b.s1uSgw.ipv4Address =
      if s.opened i then a.upf.s1uIp.toNat else (htonl a.upf.s1uIp).toNat := by
  obtain ⟨b₀, hholds, rfl⟩ := h.bearer i b hb
  have hsame : (if s.last = some i then b₀.updatePdrTeid b₀.s1uSgw.teid a.upf.s1uIp
      else b₀).s1uSgw = b₀.s1uSgw := by split_ifs <;> rfl
  rw [hsame]
  cases hopened : s.opened i with
  | false =>
    rw [(hholds.default hopened).2, if_neg Bool.false_ne_true]
    rfl
  | true =>
    rw [(hholds.dedicated hopened).1, if_pos rfl]

theorem teid_ne (h : Finished a f s) (hb : f.epsBearers i = some b)
    (hb' : f.epsBearers j = some b') (hij : i ≠ j) : b.s1uSgw.teid ≠ b'.s1uSgw.teid := by
  -- The lowest bits count the bearers: the default one has the number 0, a dedicated one its slot.
  have hlow : ∀ i b, f.epsBearers i = some b → b.s1uSgw.teid % 2 ^ 24 =
      (a.teids.sgwGtpcBaseTeid + (a.teids.sgwGtpcTeidOffset + if s.opened i then i.val else 0)) %
        2 ^ 24 ∧ (s.opened i = false → i = a.pdn.defaultBearer) := by
    intro i b hb
    obtain ⟨b₀, hholds, rfl⟩ := h.bearer i b hb
    have hsame : (if s.last = some i then b₀.updatePdrTeid b₀.s1uSgw.teid a.upf.s1uIp
        else b₀).s1uSgw = b₀.s1uSgw := by split_ifs <;> rfl
    rw [hsame]
    cases hopened : s.opened i with
    | true => exact ⟨(hholds.dedicated hopened).2, fun h => by cases h⟩
    | false =>
      obtain ⟨hi, hs1u⟩ := hholds.default hopened
      refine ⟨?_, fun _ => hi⟩
      rw [hs1u]
      simp only [Attach.defaultBearer, TeidPool.s1uSgwGtpuTeid, Bool.false_eq_true, if_false]
      omega
  intro heq
  obtain ⟨hi, hhome⟩ := hlow i b hb
  obtain ⟨hj, hhome'⟩ := hlow j b' hb'
  rw [heq, hj] at hi
  have hfirst := h.places.first_le.2
  have hslot : ∀ i : Fin maxBearers, i.val < 15 := fun i => i.isLt
  have hne : i.val ≠ j.val := fun h => hij (Fin.ext h)
  have hilt := hslot i
  have hjlt := hslot j
  cases hopened : s.opened i with
  | false =>
    cases hopened' : s.opened j with
    | false => exact hij ((hhome hopened).trans (hhome' hopened').symm)
    | true =>
      have hpos : 1 ≤ j.val := hfirst j hopened'
      simp only [hopened, hopened', if_true, Bool.false_eq_true, if_false] at hi
      omega
  | true =>
    have hpos : 1 ≤ i.val := hfirst i hopened
    cases hopened' : s.opened j with
    | false =>
      simp only [hopened, hopened', if_true, Bool.false_eq_true, if_false] at hi
      omega
    | true =>
      simp only [hopened, hopened', if_true] at hi
      omega

variable {req : SessEstabReq}

theorem carries_iff_forall (h : Finished a f s) (hmade : a.Builds f req)
    (fteid : EpsBearer → Fteid) (hteid : ∀ b, (fteid b).teid = b.s1uSgw.teid) :
    Carries f fteid req ↔ ∀ e ∈ s.held, ∀ b, f.epsBearers e.slot = some b →
      (fteid b).ipv4Address = addressAt a s e.slot := by
  have hzip : req.createPdr.zip f.placed = f.placed.map fun p =>
      (createPdrOf a.cfg.urrEnable a.pdn.addrAllocControl p.2, p) := by
    rw [hmade.createPdr, List.map_map, ← List.map_prod_right_eq_zip]
    rfl
  constructor
  · intro hcarries e he b hb
    obtain ⟨b', hb', pdr, hpdr, haccess⟩ := h.exists_bearer he
    cases hb.symm.trans hb'
    have hmem : (e.slot, pdr) ∈ f.placed := mem_placed.2 ⟨b, hb, hpdr⟩
    have hown := hcarries.own _ (by rw [hzip]; exact List.mem_map_of_mem hmem)
    obtain ⟨b', hb', hfteid⟩ := hown (by rw [srcIntfc_createPdrOf, haccess])
    cases hb.symm.trans hb'
    rw [localFteid_createPdrOf haccess, h.localFteid_eq hb hpdr haccess] at hfteid
    exact (congrArg (fun ie : Ie Fteid => ie.value.ipv4Address) hfteid).symm
  · intro hall
    -- The F-TEID of a PDR for uplink packets that is in the message.
    have hfteid : ∀ p ∈ f.placed, p.2.srcIntfc = .access → ∃ b, f.epsBearers p.1 = some b ∧
        (createPdrOf a.cfg.urrEnable a.pdn.addrAllocControl p.2).value.pdi.value.localFteid =
          { setFteid with value := fteid b } := by
      intro p hp haccess
      obtain ⟨b, hb, hpdr⟩ := mem_placed.1 hp
      obtain ⟨e, he, hslot⟩ := h.exists_held hb hpdr
      refine ⟨b, hb, ?_⟩
      have haddress := hall e he b (by rw [hslot, hb])
      rw [localFteid_createPdrOf haccess, h.localFteid_eq hb hpdr haccess, ← hslot, ← haddress,
        ← hteid]
    refine ⟨fun x hx haccess => ?_, fun x hx y hy haccess haccess' hne => ?_⟩
    · rw [hzip, List.mem_map] at hx
      obtain ⟨p, hp, rfl⟩ := hx
      rw [srcIntfc_createPdrOf] at haccess
      exact hfteid p hp haccess
    · rw [hzip, List.mem_map] at hx hy
      obtain ⟨p, hp, rfl⟩ := hx
      obtain ⟨q, hq, rfl⟩ := hy
      rw [srcIntfc_createPdrOf] at haccess haccess'
      obtain ⟨b, hb, heq⟩ := hfteid p hp haccess
      obtain ⟨b', hb', heq'⟩ := hfteid q hq haccess'
      rw [heq, heq']
      intro hsame
      have hteids : (fteid b).teid = (fteid b').teid := congrArg Fteid.teid hsame
      rw [hteid, hteid] at hteids
      exact h.teid_ne hb hb' hne hteids

theorem forall_addressAt_iff (address : Fin maxBearers → Ipv4)
    (hzero : ∀ i, address i = 0 ↔ a.upf.s1uIp = 0) :
    (∀ e ∈ s.held, (address e.slot).toNat = addressAt a s e.slot) ↔
      a.upf.s1uIp = 0 ∨ (∀ e ∈ s.held, s.last = some e.slot) ∧
        ∀ e ∈ s.held, address e.slot = htonl a.upf.s1uIp := by
  constructor
  · intro hall
    rw [or_iff_not_imp_left]
    intro hne
    have hlast : ∀ e ∈ s.held, s.last = some e.slot := by
      intro e he
      by_contra hslot
      have heq := hall e he
      rw [addressAt, if_neg hslot] at heq
      exact hne ((hzero e.slot).1 (UInt32.toNat_inj.1 heq))
    refine ⟨hlast, fun e he => ?_⟩
    have heq := hall e he
    rw [addressAt, if_pos (hlast e he)] at heq
    exact UInt32.toNat_inj.1 heq
  · rintro (hip | ⟨hlast, hall⟩) e he
    · rw [(hzero e.slot).2 hip, addressAt, hip, htonl_zero]
      split_ifs <;> rfl
    · rw [hall e he, addressAt, if_pos (hlast e he)]

end Finished

/-- **The PDRs carry the F-TEIDs of their bearers exactly if the UPF has no address, or no rule needs
a bearer of its own, or all are on one that does and the address is a palindrome of octets.** -/
theorem carries_iff {a : Attach} {req : SessEstabReq} {f : Fill}
    (h : a.processPfcpSessEstRequest = .ok (some req, f)) :
    Carries f EpsBearer.s1uSgw req ↔
      a.upf.s1uIp = 0 ∨ (∀ rule ∈ a.pending, ¬ a.policy.Foreign rule) ∨
        (htonl a.upf.s1uIp = a.upf.s1uIp ∧ ∃ qos, a.policy.OneOpened qos a.pending) := by
  obtain ⟨-, hne, -⟩ := processPfcpSessEstRequest_eq_ok.1 h
  obtain ⟨s, hfin, hmade⟩ := finished_of_ok h
  have haddress : (∀ e ∈ s.held, ∀ b, f.epsBearers e.slot = some b →
      b.s1uSgw.ipv4Address = Finished.addressAt a s e.slot) ↔
      ∀ e ∈ s.held, (if s.opened e.slot then a.upf.s1uIp else htonl a.upf.s1uIp).toNat =
        Finished.addressAt a s e.slot := by
    refine forall₂_congr fun e he => ?_
    obtain ⟨b, hb, -⟩ := hfin.exists_bearer he
    have heq := hfin.ipv4Address_eq hb
    rw [← apply_ite UInt32.toNat] at heq
    rw [← heq]
    exact ⟨fun hall => hall b hb, fun h b' hb' => by cases hb.symm.trans hb'; exact h⟩
  have hzero : ∀ i, (if s.opened i then a.upf.s1uIp else htonl a.upf.s1uIp) = 0 ↔
      a.upf.s1uIp = 0 := by
    intro i
    split_ifs
    · exact Iff.rfl
    · exact htonl_eq_zero
  rw [hfin.carries_iff_forall hmade EpsBearer.s1uSgw fun _ => rfl, haddress,
    Finished.forall_addressAt_iff _ hzero, hfin.places.gathered_iff hne]
  refine or_congr_right ?_
  rcases hfin.places.shape with hhome | ⟨qos, i, hone⟩ | hapart
  · refine iff_of_true ⟨.inl hhome.items, fun e he => ?_⟩ (.inl hhome.items)
    rw [hhome.slots e he, hhome.opened, if_neg Bool.false_ne_true]
  · obtain ⟨⟨rule, hrule, hforeign⟩, -⟩ := hone.items.key_eq
    have hnot : ¬ ∀ rule ∈ a.pending, ¬ a.policy.Foreign rule := fun hall => hall rule hrule hforeign
    have hheld : (∀ e ∈ s.held, (if s.opened e.slot then a.upf.s1uIp else htonl a.upf.s1uIp) =
        htonl a.upf.s1uIp) ↔ htonl a.upf.s1uIp = a.upf.s1uIp := by
      obtain ⟨e₀, he₀⟩ := List.exists_mem_of_ne_nil _ hone.ne_nil
      constructor
      · intro hall
        have heq := hall e₀ he₀
        rw [hone.slots e₀ he₀, hone.opened, if_pos rfl] at heq
        exact heq.symm
      · intro heq e he
        rw [hone.slots e he, hone.opened, if_pos rfl, heq]
    rw [or_iff_right hnot, or_iff_right hnot, hheld, and_comm]
  · obtain ⟨rule, hrule, hforeign⟩ := hapart.foreign
    refine iff_of_false ?_ ?_
    · rintro ⟨hnone | ⟨qos, hqos⟩, -⟩
      · exact hnone rule hrule hforeign
      · exact hapart.items qos hqos
    · rintro (hnone | ⟨-, qos, hqos⟩)
      · exact hnone rule hrule hforeign
      · exact hapart.items qos hqos

def onDefault : Attach where
  upf := { s1uIp := 0x0a000001 }
  pdn := { defaultBearer := ⟨0, Rar.zero_lt_maxBearers⟩ }
  pending := [{ ruleName := ['a'] }, { ruleName := ['b'] }]

theorem carries_onDefault : ∃ req f, onDefault.processPfcpSessEstRequest = .ok (some req, f) ∧
    Carries f EpsBearer.s1uSgw req := by
  have hrun : ∃ req f, onDefault.processPfcpSessEstRequest = .ok (some req, f) := ⟨_, _, rfl⟩
  obtain ⟨req, f, hbuilt⟩ := hrun
  exact ⟨req, f, hbuilt, (carries_iff hbuilt).2 (.inr (.inl (by decide)))⟩

def onTwoBearers : Attach where
  upf := { s1uIp := 0x0a000001 }
  pdn := { defaultBearer := ⟨0, Rar.zero_lt_maxBearers⟩ }
  pending := [{ ruleName := ['a'] }, { ruleName := ['b'], qos := { qci := 1 } }]

/-- The PDR of the default bearer has the address 0. -/
theorem not_carries_onTwoBearers :
    ∃ req f, onTwoBearers.processPfcpSessEstRequest = .ok (some req, f) ∧
      ¬ Carries f EpsBearer.s1uSgw req := by
  have hrun : ∃ req f x b, onTwoBearers.processPfcpSessEstRequest = .ok (some req, f) ∧
      (req.createPdr.zip f.placed).head? = some x ∧
      x.1.value.pdi.value.srcIntfc.value = .access ∧ f.epsBearers x.2.1 = some b ∧
      x.1.value.pdi.value.localFteid.value.ipv4Address = 0 ∧ b.s1uSgw.ipv4Address = 0x0100000a :=
    ⟨_, _, _, _, rfl, rfl, rfl, rfl, rfl, rfl⟩
  obtain ⟨req, f, x, b, hbuilt, hx, haccess, hb, hpdr, hbearer⟩ := hrun
  refine ⟨req, f, hbuilt, fun hcarries => ?_⟩
  obtain ⟨b', hb', hfteid⟩ := hcarries.own x (List.mem_of_mem_head? hx) haccess
  cases hb.symm.trans hb'
  rw [hfteid, hbearer] at hpdr
  exact absurd hpdr (by decide)

end Spgw.Sx
