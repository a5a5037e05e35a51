/-
# The octets of a Session Establishment Request, counted

How many octets the message has, from the rules of the attach, their flows and the bearers that hold
them.
-/

import Spgw.Sx.Encode
import Spgw.Sx.Referenced

namespace Spgw.Sx

open Emit (Elements)
open Rar (maxBearers)

/-- The identifiers that PDRs of one bearer refer to: each its own one, in the order in which they
are made, and all earlier ones that look common. -/
def refCount : ℕ → List ℕ → ℕ
  | _, [] => 0
  | common, id :: ids => common + 1 + refCount (common + (isCommon id).toNat) ids

namespace Attach

variable (a : Attach)

/-- The octets of the PDRs and FARs of a rule, without the references to QERs. -/
def ruleOctets (rule : DynamicRule) : ℕ :=
  190 + (setUeIp a.pdn.addrAllocControl).size + 2 * (if a.cfg.urrEnable then 8 else 0) +
    sdfSize (rule.flowsFor .access) + sdfSize (rule.flowsFor .core)

/-- The octets for the rules of one bearer: their PDRs and FARs, the references to QERs, and the
URRs. -/
def slotOctets (i : Fin maxBearers) (entries : List HeldRule) : ℕ :=
  (entries.map fun e => a.ruleOctets e.item).sum +
    8 * refCount (a.ambrQers i).length (a.made RuleIds.generateQerId entries) +
    if a.cfg.urrEnable then 49 * refCount 0 (a.made RuleIds.generateUrrId entries) else 0

/-- The QERs of the bearers that hold a rule. -/
def qersOf (s : Spread) : List ℕ :=
  (List.finRange maxBearers).flatMap fun i =>
    if s.inSlot i = [] then [] else a.ambrQers i ++ a.made RuleIds.generateQerId (s.inSlot i)

/-- The octets of the message for rules that are spread over the bearers like this. -/
def octets (s : Spread) : ℕ :=
  47 + ((List.finRange maxBearers).map fun i => a.slotOctets i (s.inSlot i)).sum +
    50 * (a.qersOf s).dedup.length

end Attach

section Sizes

variable {urr control : Bool} {pdr : Pdr}

theorem size_createPdr : (encodeCreatePdrIe (createPdrOf urr control pdr)).size =
    (match pdr.srcIntfc with
      | .access => 53
      | .core => 71 + (setUeIp control).size) +
      sdfSize (pdr.dynamicRule.flowsFor pdr.srcIntfc) + (if urr then 8 else 0) +
      8 * pdr.qerIds.length := by
  have hlen := @len_createPdrOf urr control pdr
  rw [encodeCreatePdrIe, size_group]
  cases h : pdr.srcIntfc with
  | access =>
    rw [h, pdi_createPdrOf_access h] at hlen
    simp only [Ie.size, setPdrId, setPrecedence, setOuterHdrRemoval, setFarId, ieHeaderSize] at hlen ⊢
    rw [if_neg (by omega)]
    omega
  | core =>
    rw [h, pdi_createPdrOf_core h] at hlen
    simp only [Ie.size, setPdrId, setPrecedence, setFarId, ieHeaderSize] at hlen ⊢
    rw [if_neg (by omega)]
    omega

theorem size_createFar : (encodeCreateFarIe (fillCreateFar pdr)).size =
    match pdr.srcIntfc with
      | .access => 26
      | .core => 40 := by
  unfold fillCreateFar
  cases pdr.srcIntfc <;> rfl

theorem size_createUrr (id : ℕ) : (encodeCreateUrrIe (fillCreateUrr id)).size = 49 := rfl

theorem size_createUrrs (pdrs : List Pdr) :
    (Elements.join ((if urr then (pdrs.flatMap Pdr.urrIds).map fillCreateUrr else []).map
      encodeCreateUrrIe)).size =
        (pdrs.map fun pdr => if urr then 49 * pdr.urrIds.length else 0).sum := by
  have hids (ids : List ℕ) :
      (Elements.join ((ids.map fillCreateUrr).map encodeCreateUrrIe)).size = 49 * ids.length := by
    induction ids with
    | nil => rfl
    | cons id ids ih =>
      rw [List.map_cons, List.map_cons, Elements.join, Elements.size_append, ih, size_createUrr,
        List.length_cons]
      omega
  cases urr with
  | false => simp [Elements.join, Elements.size]
  | true =>
    simp only [if_true]
    rw [hids, List.length_flatMap, ← List.sum_map_mul_left]

theorem size_createQer (rule : DynamicRule) (id : ℕ) (qer : Qer) :
    (encodeCreateQerIe (fillCreateQer rule id qer)).size = 50 := rfl

end Sizes

namespace Attach

variable {a : Attach} {teid : ℕ}

/-- What a PDR adds to the message, the QERs apart. -/
def pdrOctets (a : Attach) (pdr : Pdr) : ℕ :=
  (encodeCreatePdrIe (createPdrOf a.cfg.urrEnable a.pdn.addrAllocControl pdr)).size +
    (encodeCreateFarIe (fillCreateFar pdr)).size +
    if a.cfg.urrEnable then 49 * pdr.urrIds.length else 0

theorem isCommon_ambr (ids : RuleIds) : isCommon (ids.generateQerId commonMark) = true := by
  have hbits : commonMark.testBit 28 = true ∧ commonMark.testBit 29 = true := by decide
  rw [isCommon_iff, RuleIds.generateQerId, Nat.testBit_or, Nat.testBit_or, hbits.1, hbits.2]
  simp

theorem filter_ambrQers (i : Fin maxBearers) : (a.ambrQers i).filter isCommon = a.ambrQers i := by
  unfold ambrQers
  split_ifs <;> simp [isCommon_ambr]

/-- How many of the identifiers of a bearer every PDR that follows refers to. -/
def commons (ids : List ℕ) : ℕ := (ids.filter isCommon).length

theorem pdrOctets_pdrOf (qers urrs : List ℕ) (iface : SourceInterface) (ids : RuleIds)
    (rule : DynamicRule) : a.pdrOctets (a.pdrOf teid qers urrs iface ids rule) = (match iface with
        | .access => 79
        | .core => 111 + (setUeIp a.pdn.addrAllocControl).size) +
        sdfSize (rule.flowsFor iface) + (if a.cfg.urrEnable then 8 else 0) + 8 * (commons qers + 1) +
        if a.cfg.urrEnable then 49 * (commons urrs + 1) else 0 := by
  have hqers : (a.pdrOf teid qers urrs iface ids rule).qerIds.length = commons qers + 1 := rfl
  have hsrc : (a.pdrOf teid qers urrs iface ids rule).srcIntfc = iface := rfl
  have hrule : (a.pdrOf teid qers urrs iface ids rule).dynamicRule = rule := rfl
  have hurrs : (if a.cfg.urrEnable then 49 * (a.pdrOf teid qers urrs iface ids rule).urrIds.length
      else 0) = if a.cfg.urrEnable then 49 * (commons urrs + 1) else 0 := by
    cases hurr : a.cfg.urrEnable <;> simp [pdrOf, fillPdrEntry, hurr, commons]
  rw [pdrOctets, size_createPdr, size_createFar, hqers, hsrc, hrule, hurrs]
  cases iface <;> simp only <;> omega

/-- The PDRs of a bearer, one after the other: those before have added to the identifiers that are
common. -/
theorem sum_pdrsFrom (entries : List HeldRule) (qers urrs : List ℕ) :
    ((a.pdrsFrom teid qers urrs entries).map a.pdrOctets).sum =
      (entries.map fun e => a.ruleOctets e.item).sum +
        8 * refCount (commons qers) (a.made RuleIds.generateQerId entries) +
        if a.cfg.urrEnable then 49 * refCount (commons urrs) (a.made RuleIds.generateUrrId entries)
        else 0 := by
  have hone (ids : List ℕ) (id : ℕ) : commons (ids ++ [id]) = commons ids + (isCommon id).toNat := by
    cases h : isCommon id <;> simp [commons, h]
  have htwo (ids : List ℕ) (id id' : ℕ) :
      commons (ids ++ [id, id']) = commons ids + (isCommon id).toNat + (isCommon id').toNat := by
    rw [← hone, ← hone, List.append_assoc, List.singleton_append]
  have hmade (make : RuleIds → ℕ → ℕ) (e : HeldRule) (entries : List HeldRule) :
      a.made make (e :: entries) = make (a.idsAt e.index) SourceInterface.access.mark ::
        make (a.idsAt e.index).next SourceInterface.core.mark :: a.made make entries := rfl
  have hnil (make : RuleIds → ℕ → ℕ) : a.made make [] = [] := rfl
  induction entries generalizing qers urrs with
  | nil => simp [pdrsFrom, made, refCount]
  | cons e entries ih =>
    simp only [pdrsFrom, hmade, hnil, List.map_cons, List.sum_cons, ih, pdrOctets_pdrOf, refCount,
      hone, htwo, ruleOctets]
    split_ifs <;> omega

/-- The QERs that the PDRs of a bearer refer to: every PDR its own one, and the first of them those of
the bearer. -/
theorem mem_qerIds_pdrsFrom_iff {entries : List HeldRule} {i : Fin maxBearers} {q : ℕ} :
    (∃ pdr ∈ a.pdrsFrom teid (a.ambrQers i) [] entries, q ∈ pdr.qerIds) ↔
      q ∈ if entries = [] then [] else a.ambrQers i ++ a.made RuleIds.generateQerId entries := by
  have hown (entries : List HeldRule) (qers urrs : List ℕ)
      (hq : q ∈ a.made RuleIds.generateQerId entries) :
      ∃ pdr ∈ a.pdrsFrom teid qers urrs entries, q ∈ pdr.qerIds := by
    induction entries generalizing qers urrs with
    | nil => exact absurd hq List.not_mem_nil
    | cons e entries ih =>
      rw [pdrsFrom, List.exists_mem_cons_iff, List.exists_mem_cons_iff]
      rcases List.mem_cons.1 hq with rfl | hq
      · exact .inl List.mem_cons_self
      · rcases List.mem_cons.1 hq with rfl | hq
        · exact .inr (.inl List.mem_cons_self)
        · exact .inr (.inr (ih _ _ hq))
  cases entries with
  | nil => simp [pdrsFrom]
  | cons e entries =>
    rw [if_neg (List.cons_ne_nil _ _)]
    constructor
    · rintro ⟨pdr, hpdr, hq⟩
      exact mem_qerIds_pdrsFrom hpdr hq
    · intro hq
      rcases List.mem_append.1 hq with hq | hq
      · refine ⟨_, List.mem_cons_self, List.mem_cons_of_mem _ ?_⟩
        rw [filter_ambrQers]
        exact hq
      · exact hown _ _ _ hq

end Attach

section Message

variable {a : Attach} {f : Fill} {s : Spread} {req : SessEstabReq}

theorem Finished.sum_placed (h : Finished a f s) : ((f.placed.map Prod.snd).map a.pdrOctets).sum =
      ((List.finRange maxBearers).map fun i => a.slotOctets i (s.inSlot i)).sum := by
  have hslot (i : Fin maxBearers) :
      ((f.pdrsAt i).map a.pdrOctets).sum = a.slotOctets i (s.inSlot i) := by
    obtain ⟨teid, hpdrs⟩ := h.pdrsAt_eq i
    have hfix : a.pdrOctets ∘ fix a s i teid = a.pdrOctets := by
      funext pdr
      obtain ⟨fteid, hfix⟩ := @fix_eq a s i teid pdr
      rw [Function.comp_apply, hfix, Attach.pdrOctets, Attach.pdrOctets, size_createPdr,
        size_createPdr, size_createFar, size_createFar]
    rw [hpdrs, List.map_map, hfix, Attach.sum_pdrsFrom, Attach.commons, Attach.filter_ambrQers]
    rfl
  rw [map_snd_placed, List.map_flatMap, List.flatMap_def, List.sum_flatten, List.map_map]
  exact congrArg List.sum (List.map_congr_left fun i _ => hslot i)

theorem Finished.length_createQer (h : Finished a f s) (hmade : a.Builds f req) :
    req.createQer.length = (a.qersOf s).dedup.length := by
  have hperm : (qerIdsOf req.createQer).Perm (a.qersOf s).dedup := by
    refine (List.perm_ext_iff_of_nodup hmade.nodup_qer (List.nodup_dedup _)).2 fun q => ?_
    rw [hmade.mem_qer, List.mem_dedup, Attach.qersOf, List.mem_flatMap, map_snd_placed]
    have hslot (i : Fin maxBearers) : (∃ pdr ∈ f.pdrsAt i, q ∈ pdr.qerIds) ↔
        q ∈ if s.inSlot i = [] then [] else a.ambrQers i ++ a.made RuleIds.generateQerId (s.inSlot i) := by
      obtain ⟨teid, hpdrs⟩ := h.pdrsAt_eq i
      simp only [hpdrs, List.mem_map, exists_exists_and_eq_and, Finished.qerIds_fix]
      exact Attach.mem_qerIds_pdrsFrom_iff
    simp only [← hslot, List.mem_flatMap]
    grind
  simpa [qerIdsOf] using hperm.length_eq

/-- **How many octets the message has.** -/
theorem size_elements (h : Finished a f s) (hmade : a.Builds f req)
    (htrace : a.upf.upTrace = false) : 16 + req.elements.size = a.octets s := by
  have hcount : req.createPdr.length ≤ req.createPdrCount := by
    have hbase := congrArg SessEstabReq.createPdrCount hmade.header
    rw [hmade.createPdr, List.length_map, List.length_map, h.length_placed]
    have hheld := h.places.length_held_le
    have hfilled : req.createPdrCount = 2 * a.pending.length := hbase.trans h.count
    omega
  have hpdrs : (Elements.join (req.createPdr.map encodeCreatePdrIe)).size +
      (Elements.join (req.createFar.map encodeCreateFarIe)).size +
      (Elements.join (req.createUrr.map encodeCreateUrrIe)).size =
        ((f.placed.map Prod.snd).map a.pdrOctets).sum := by
    rw [hmade.createPdr, hmade.createFar, hmade.createUrr, size_createUrrs]
    simp only [Elements.size_join, List.map_map, ← List.sum_map_add]
    rfl
  have hqers : (Elements.join (req.createQer.map encodeCreateQerIe)).size =
      50 * req.createQer.length := by
    have hone : ∀ n ∈ (req.createQer.map encodeCreateQerIe).map Elements.size, n = 50 := by
      intro n hn
      obtain ⟨e, he, rfl⟩ := List.mem_map.1 hn
      obtain ⟨ie, hie, rfl⟩ := List.mem_map.1 he
      obtain ⟨rule, id, qer, rfl⟩ := hmade.filled_qer ie hie
      exact size_createQer rule id qer
    rw [Elements.size_join, List.sum_eq_card_nsmul _ _ hone, List.length_map, List.length_map,
      smul_eq_mul, Nat.mul_comm]
  have hheader : (encodeNodeIdIe req.nodeId).size + (encodeFseidIe req.cpFseid).size +
      (encodePdnTypeIe req.pdnType).size + (encodeTrcInfoIe req.trcInfo).size = 31 := by
    obtain ⟨hnode, hseid, htype, htrc⟩ := first_eq hmade
    rw [hnode, hseid, htype, htrc, htrace]
    rfl
  rw [h.sum_placed] at hpdrs
  rw [h.length_createQer hmade] at hqers
  unfold SessEstabReq.elements Attach.octets
  rw [List.take_of_length_le hcount]
  simp only [Elements.size_append]
  omega

/-- **A message is sent as it should be exactly if the user plane has no trace information, there are
at most eight rules, and the rules with their flows, spread over the bearers as they are, leave the
message within its buffer.** -/
theorem faithful_iff (h : a.processPfcpSessEstRequest = .ok (some req, f)) :
    req.Faithful ↔ a.upf.upTrace = false ∧ 2 * a.pending.length ≤ maxListSize ∧
      ∀ s, Placement.Places a.policy a.pending s → a.octets s ≤ maxPfcpMsgSize := by
  obtain ⟨s, hfin, hmade⟩ := finished_of_ok h
  have hcount : req.createPdrCount = 2 * a.pending.length :=
    (congrArg SessEstabReq.createPdrCount hmade.header).trans hfin.count
  rw [faithful_iff_wellFormed, wellFormed_elements hfin hmade, hcount]
  refine and_congr_right fun htrace => and_congr_right fun _ => ?_
  rw [size_elements hfin hmade htrace]
  constructor
  · intro hroom s' hs'
    rwa [hs'.unique hfin.places]
  · exact fun hroom => hroom s hfin.places

end Message

def twoFlows : Attach where
  upf := { s1uIp := 0x0a000001 }
  pdn := { defaultBearer := ⟨0, Rar.zero_lt_maxBearers⟩ }
  pending :=
    [{ ruleName := ['a']
       flowDesc := [{ sdfFlowDescription := [1, 2, 3] }, { sdfFlowDescription := [4, 5] }] }]

theorem faithful_twoFlows : ∃ req f, twoFlows.processPfcpSessEstRequest = .ok (some req, f) ∧
    req.Faithful := by
  refine ⟨_, _, rfl, (faithful_iff (a := twoFlows) rfl).2 ⟨rfl, by decide, fun s hs => ?_⟩⟩
  rw [hs.unique (.snoc .nil rfl)]
  decide

def traced : Attach where
  upf := { s1uIp := 0x0a000001, upTrace := true }
  pdn := { defaultBearer := ⟨0, Rar.zero_lt_maxBearers⟩ }
  pending := [{ ruleName := ['a'] }]

/-- The message is sent, and three octets of the trace information are missing. -/
theorem not_faithful_traced : ∃ req f m n, traced.processPfcpSessEstRequest = .ok (some req, f) ∧
    req.message = .ok (m, n) ∧ ¬ req.Faithful := by
  have hrun : ∃ req f, traced.processPfcpSessEstRequest = .ok (some req, f) ∧
      req.trcInfo = setTraceInfo ∧ req.createPdrCount ≤ maxListSize ∧
      16 + req.elements.octets.length ≤ maxPfcpMsgSize :=
    ⟨_, _, rfl, rfl, by decide, by decide +kernel⟩
  obtain ⟨req, f, hbuilt, htrace, hcount, hroom⟩ := hrun
  refine ⟨req, f, _, _, hbuilt, message_eq_ok.2 ⟨⟨hcount, hroom⟩, rfl, rfl⟩, ?_⟩
  rintro ⟨-, -, -, -, hwf, -⟩
  unfold SessEstabReq.elements at hwf
  simp only [Elements.wellFormed_append, htrace] at hwf
  exact not_wellFormed_trcInfo hwf.1.1.1.1.2

end Spgw.Sx
