/-
# What the PDRs make of the message

The second loop of `fill_pfcp_sess_est_req` (`cp/pfcp/common/pfcp_cp_session.c`) adds one PDR after
the other to the message.
-/

import Spgw.Sx.Request

namespace Spgw.Sx

open Machine
open Session (deref_bind_eq_ok)

def DynamicRule.Fits (rule : DynamicRule) (iface : SourceInterface) : Prop :=
  (rule.flowsFor iface).length ≤ maxListSize ∧
    ∀ flow ∈ rule.flowsFor iface, flow.length < flowDescSize

instance (rule : DynamicRule) (iface : SourceInterface) : Decidable (rule.Fits iface) :=
  inferInstanceAs (Decidable (_ ∧ _))

def sdfSize (flows : List (List UInt8)) : ℕ := (flows.map fun flow => (sdfFilterOf flow).size).sum

def Ie.withFilters (ie : Ie CreatePdr) (flows : List (List UInt8)) : Ie CreatePdr :=
  { ie with
    len := ie.len + sdfSize flows
    value.pdi.len := ie.value.pdi.len + sdfSize flows
    value.pdi.value.sdfFilter := ie.value.pdi.value.sdfFilter ++ flows.map sdfFilterOf }

theorem withFilters_nil (ie : Ie CreatePdr) : ie.withFilters [] = ie := by
  simp [Ie.withFilters, sdfSize]

theorem withFilters_withFilters (ie : Ie CreatePdr) (l₁ l₂ : List (List UInt8)) :
    (ie.withFilters l₁).withFilters l₂ = ie.withFilters (l₁ ++ l₂) := by
  simp [Ie.withFilters, sdfSize, Nat.add_assoc]

theorem sdfPktFilterAdd_eq_ok {flow : List UInt8} {ie ie' : Ie CreatePdr} :
    sdfPktFilterAdd ie flow = .ok ie' ↔
      (ie.value.pdi.value.sdfFilter.length < maxListSize ∧ flow.length < flowDescSize) ∧
        ie' = ie.withFilters [flow] := by
  have hone : sdfSize [flow] = (sdfFilterOf flow).size := List.sum_singleton
  unfold sdfPktFilterAdd Ie.withFilters
  rw [hone, List.map_singleton]
  split_ifs with hroom
  · rw [and_iff_right hroom]
    exact ⟨fun h => (Except.ok.inj h).symm, fun h => h ▸ rfl⟩
  · constructor
    · intro h
      cases h
    · exact fun h => absurd h.1 hroom

theorem foldlM_sdfPktFilterAdd {flows : List (List UInt8)} {ie ie' : Ie CreatePdr}
    (hle : ie.value.pdi.value.sdfFilter.length ≤ maxListSize) :
    flows.foldlM sdfPktFilterAdd ie = .ok ie' ↔
      (ie.value.pdi.value.sdfFilter.length + flows.length ≤ maxListSize ∧
        ∀ flow ∈ flows, flow.length < flowDescSize) ∧ ie' = ie.withFilters flows := by
  induction flows generalizing ie with
  | nil =>
    rw [List.foldlM_nil, withFilters_nil]
    constructor
    · intro h
      exact ⟨⟨hle, by simp⟩, (Except.ok.inj h).symm⟩
    · rintro ⟨-, rfl⟩
      rfl
  | cons flow flows ih =>
    have hlength : ∀ ie : Ie CreatePdr, (ie.withFilters [flow]).value.pdi.value.sdfFilter.length =
        ie.value.pdi.value.sdfFilter.length + 1 := fun ie => by simp [Ie.withFilters]
    rw [List.foldlM_cons, bind_eq_ok, List.length_cons, List.forall_mem_cons]
    constructor
    · rintro ⟨ie₁, h₁, h⟩
      obtain ⟨hroom, rfl⟩ := sdfPktFilterAdd_eq_ok.1 h₁
      obtain ⟨⟨hlen, hall⟩, rfl⟩ := (ih (by rw [hlength]; exact hroom.1)).1 h
      rw [hlength] at hlen
      exact ⟨⟨by omega, hroom.2, hall⟩, withFilters_withFilters ie [flow] flows⟩
    · rintro ⟨⟨hlen, hflow, hall⟩, rfl⟩
      refine ⟨_, sdfPktFilterAdd_eq_ok.2 ⟨⟨by omega, hflow⟩, rfl⟩,
        (ih (by rw [hlength]; omega)).2 ⟨⟨?_, hall⟩, ?_⟩⟩
      · rw [hlength]
        omega
      · exact (withFilters_withFilters ie [flow] flows).symm

def createPdrOf (urr control : Bool) (pdr : Pdr) : Ie CreatePdr :=
  ((draftCreatePdr urr control pdr).withFilters
    (pdr.dynamicRule.flowsFor pdr.srcIntfc)).withRefs urr pdr

section CreatePdr

variable {urr control : Bool} {pdr : Pdr} {ie : Ie CreatePdr}

theorem sdfFilter_draftCreatePdr :
    (draftCreatePdr urr control pdr).value.pdi.value.sdfFilter = [] := by
  unfold draftCreatePdr
  cases pdr.srcIntfc <;> rfl

theorem fillCreatePdr_eq_ok : fillCreatePdr urr control pdr = .ok ie ↔
      pdr.dynamicRule.Fits pdr.srcIntfc ∧ ie = createPdrOf urr control pdr := by
  unfold fillCreatePdr fillSdfRules
  rw [bind_eq_ok]
  have hnil : (draftCreatePdr urr control pdr).value.pdi.value.sdfFilter = [] :=
    sdfFilter_draftCreatePdr
  have hle : (draftCreatePdr urr control pdr).value.pdi.value.sdfFilter.length ≤ maxListSize := by
    rw [hnil]
    exact Nat.zero_le _
  constructor
  · rintro ⟨ie₁, hfold, hret⟩
    obtain ⟨hfits, rfl⟩ := (foldlM_sdfPktFilterAdd hle).1 hfold
    rw [hnil, List.length_nil, Nat.zero_add] at hfits
    exact ⟨hfits, (Except.ok.inj hret).symm⟩
  · rintro ⟨hfits, rfl⟩
    refine ⟨_, (foldlM_sdfPktFilterAdd hle).2 ⟨?_, rfl⟩, rfl⟩
    rw [hnil, List.length_nil, Nat.zero_add]
    exact hfits

@[simp]
theorem srcIntfc_createPdrOf :
    (createPdrOf urr control pdr).value.pdi.value.srcIntfc.value = pdr.srcIntfc := by
  unfold createPdrOf draftCreatePdr
  cases pdr.srcIntfc <;> rfl

theorem localFteid_createPdrOf (h : pdr.srcIntfc = .access) :
    (createPdrOf urr control pdr).value.pdi.value.localFteid =
      { setFteid with value := pdr.localFteid } := by
  unfold createPdrOf draftCreatePdr
  rw [h]
  rfl

end CreatePdr

def refs (ies : List (Ie ℕ)) : List ℕ := (ies.filter fun ie => ie.len ≠ 0).map Ie.value

theorem refs_fillIds {ie : Ie ℕ} (hlen : ie.len ≠ 0) (n : ℕ) (ids : List ℕ) :
    refs (fillIds (List.replicate n ie) ids) = ids.take n := by
  -- The identifiers from the `k`-th on.
  have htail : ∀ k, refs ((ids.zipIdx k).map fun id =>
      { ((List.replicate n ie)[id.2]?.getD { value := 0 }) with value := id.1 }) =
        ids.take (n - k) := by
    induction ids with
    | nil => intro k; simp [refs]
    | cons id ids ih =>
      intro k
      rw [List.zipIdx_cons, List.map_cons]
      have hih := ih (k + 1)
      unfold refs at hih ⊢
      rw [List.filter_cons]
      by_cases hk : k < n
      · have hsub : n - k = n - (k + 1) + 1 := by omega
        rw [hsub, List.take_succ_cons, ← hih]
        simp [hk, hlen]
      · have hsub : n - k = 0 := by omega
        have hsub' : n - (k + 1) = 0 := by omega
        rw [hsub, List.take_zero]
        rw [hsub', List.take_zero] at hih
        simpa [hk] using hih
  exact htail 0

section Refs

variable {urr control : Bool} {pdr : Pdr}

theorem qerId_createPdrOf : (createPdrOf urr control pdr).value.qerId =
      fillIds (List.replicate pdr.qerIds.length setQerId) pdr.qerIds := by
  unfold createPdrOf draftCreatePdr
  cases pdr.srcIntfc <;> rfl

theorem urrId_createPdrOf : (createPdrOf urr control pdr).value.urrId =
      if urr then fillIds (List.replicate 1 setUrrId) pdr.urrIds else [] := by
  unfold createPdrOf draftCreatePdr
  cases urr <;> cases pdr.srcIntfc <;> rfl

@[simp]
theorem refs_qerId_createPdrOf : refs (createPdrOf urr control pdr).value.qerId = pdr.qerIds := by
  rw [qerId_createPdrOf, refs_fillIds (by decide), List.take_length]

@[simp]
theorem refs_urrId_createPdrOf : refs (createPdrOf urr control pdr).value.urrId =
      if urr then pdr.urrIds.take 1 else [] := by
  rw [urrId_createPdrOf]
  cases urr with
  | true => exact refs_fillIds (by decide) 1 pdr.urrIds
  | false => rfl

end Refs

@[simp]
theorem farId_fillCreateFar (pdr : Pdr) : (fillCreateFar pdr).value.farId.value = pdr.far.farIdValue := by
  unfold fillCreateFar
  cases pdr.srcIntfc <;> rfl

def qerIdsOf (created : List (Ie CreateQer)) : List ℕ := created.map fun ie => ie.value.qerId.value

section Qers

variable {table : QerTable} {rule : DynamicRule} {created created' : List (Ie CreateQer)} {id : ℕ}
  {ids : List ℕ}

theorem addCreateQer_eq_ok : addCreateQer table rule created id = .ok created' ↔
      ∃ qer, table.getQerEntry id = some qer ∧ (id ∈ qerIdsOf created ∧ created' = created ∨
          id ∉ qerIdsOf created ∧ created.length < maxListSize ∧
            created' = created ++ [fillCreateQer rule id qer]) := by
  unfold addCreateQer
  rw [deref_bind_eq_ok]
  refine exists_congr fun qer => and_congr_right fun hqer => ?_
  have hid := QerTable.qerId_of_getQerEntry hqer
  have hany : (created.any fun ie => ie.value.qerId.value == qer.qerId) = true ↔
      id ∈ qerIdsOf created := by
    simp [qerIdsOf, hid]
  by_cases hmem : id ∈ qerIdsOf created
  · rw [if_pos (hany.2 hmem)]
    simp only [hmem, true_and, not_true_eq_false, false_and, or_false]
    exact ⟨fun h => (Except.ok.inj h).symm, fun h => h ▸ rfl⟩
  · rw [if_neg (fun h => hmem (hany.1 h)), inBounds_bind_eq_ok]
    simp only [hmem, false_and, not_false_eq_true, true_and, false_or]
    exact and_congr_right fun _ => ⟨fun h => (Except.ok.inj h).symm, fun h => h ▸ rfl⟩

theorem qerIds_of_foldlM (h : ids.foldlM (addCreateQer table rule) created = .ok created')
    (hnodup : (qerIdsOf created).Nodup) :
    (qerIdsOf created').Nodup ∧ ∀ q, q ∈ qerIdsOf created' ↔ q ∈ qerIdsOf created ∨ q ∈ ids := by
  induction ids generalizing created with
  | nil =>
    cases Except.ok.inj h
    exact ⟨hnodup, by simp⟩
  | cons id ids ih =>
    rw [List.foldlM_cons] at h
    obtain ⟨created₁, h₁, h₂⟩ := bind_eq_ok.1 h
    obtain ⟨qer, -, ⟨hmem, rfl⟩ | ⟨hmem, -, rfl⟩⟩ := addCreateQer_eq_ok.1 h₁
    · obtain ⟨hnodup', hiff⟩ := ih h₂ hnodup
      refine ⟨hnodup', fun q => ?_⟩
      rw [hiff, List.mem_cons]
      constructor
      · exact fun hq => hq.imp_right .inr
      · rintro (hq | rfl | hq)
        · exact .inl hq
        · exact .inl hmem
        · exact .inr hq
    · have hids : qerIdsOf (created ++ [fillCreateQer rule id qer]) = qerIdsOf created ++ [id] := by
        simp [qerIdsOf, fillCreateQer]
      have hnodup₁ : (qerIdsOf (created ++ [fillCreateQer rule id qer])).Nodup := by
        rw [hids, ← List.concat_eq_append]
        exact List.Nodup.concat hmem hnodup
      obtain ⟨hnodup', hiff⟩ := ih h₂ hnodup₁
      refine ⟨hnodup', fun q => ?_⟩
      rw [hiff, hids, List.mem_append, List.mem_singleton, List.mem_cons, or_assoc]

theorem forall_of_foldlM {p : Ie CreateQer → Prop} (hfill : ∀ id qer, p (fillCreateQer rule id qer))
    (h : ids.foldlM (addCreateQer table rule) created = .ok created')
    (hall : ∀ ie ∈ created, p ie) : ∀ ie ∈ created', p ie := by
  induction ids generalizing created with
  | nil =>
    cases Except.ok.inj h
    exact hall
  | cons id ids ih =>
    rw [List.foldlM_cons] at h
    obtain ⟨created₁, h₁, h₂⟩ := bind_eq_ok.1 h
    obtain ⟨qer, -, ⟨-, rfl⟩ | ⟨-, -, rfl⟩⟩ := addCreateQer_eq_ok.1 h₁
    · exact ih h₂ hall
    · refine ih h₂ fun ie hie => ?_
      rcases List.mem_append.1 hie with hie | hie
      · exact hall ie hie
      · rw [List.mem_singleton.1 hie]
        exact hfill id qer

end Qers

theorem foldlM_addCreateUrr {created created' : List (Ie CreateUrr)} {ids : List ℕ}
    (hle : created.length ≤ maxListSize) :
    ids.foldlM addCreateUrr created = .ok created' ↔
      created.length + ids.length ≤ maxListSize ∧ created' = created ++ ids.map fillCreateUrr := by
  induction ids generalizing created with
  | nil =>
    rw [List.foldlM_nil, List.map_nil, List.append_nil]
    exact ⟨fun h => ⟨hle, (Except.ok.inj h).symm⟩, fun h => h.2 ▸ rfl⟩
  | cons id ids ih =>
    rw [List.foldlM_cons, bind_eq_ok]
    constructor
    · rintro ⟨created₁, h₁, h⟩
      obtain ⟨hroom, h₁⟩ := inBounds_bind_eq_ok.1 h₁
      cases Except.ok.inj h₁
      obtain ⟨hlen, rfl⟩ := (ih (by rw [List.length_append]; exact hroom)).1 h
      refine ⟨?_, by simp⟩
      rw [List.length_append, List.length_singleton] at hlen
      rw [List.length_cons]
      omega
    · rintro ⟨hlen, rfl⟩
      rw [List.length_cons] at hlen
      have hroom : created.length < maxListSize := by omega
      refine ⟨_, inBounds_bind_eq_ok.2 ⟨hroom, rfl⟩,
        (ih (by rw [List.length_append]; exact hroom)).2 ⟨?_, by simp⟩⟩
      rw [List.length_append, List.length_singleton]
      omega

def SessEstabReq.header (req : SessEstabReq) : SessEstabReq :=
  { req with createPdr := [], createFar := [], createUrr := [], createQer := [] }

structure Made (urr control : Bool) (base : SessEstabReq) (pdrs : List Pdr)
    (req : SessEstabReq) : Prop where
  fits : ∀ pdr ∈ pdrs, pdr.dynamicRule.Fits pdr.srcIntfc
  length_pdr : pdrs.length ≤ maxListSize
  length_urr : req.createUrr.length ≤ maxListSize
  createPdr : req.createPdr = pdrs.map (createPdrOf urr control)
  createFar : req.createFar = pdrs.map fillCreateFar
  createUrr : req.createUrr = if urr then (pdrs.flatMap Pdr.urrIds).map fillCreateUrr else []
  nodup_qer : (qerIdsOf req.createQer).Nodup
  mem_qer : ∀ q, q ∈ qerIdsOf req.createQer ↔ ∃ pdr ∈ pdrs, q ∈ pdr.qerIds
  filled_qer : ∀ ie ∈ req.createQer, ∃ rule id qer, ie = fillCreateQer rule id qer
  header : req.header = base

section Loop

variable {urr control : Bool} {table : QerTable} {pdr : Pdr} {pdrs : List Pdr}
  {req req' : SessEstabReq}

theorem addCreateUrrs_eq_ok {created created' : List (Ie CreateUrr)}
    (hle : created.length ≤ maxListSize) :
    addCreateUrrs urr created pdr = .ok created' ↔
      (urr = true → created.length + pdr.urrIds.length ≤ maxListSize) ∧
        created' = created ++ if urr then pdr.urrIds.map fillCreateUrr else [] := by
  unfold addCreateUrrs
  cases urr with
  | true => simpa using foldlM_addCreateUrr hle
  | false => simpa using ⟨fun h => (Except.ok.inj h).symm, fun h => h ▸ rfl⟩

theorem addPdr_eq_ok (hurr : req.createUrr.length ≤ maxListSize) :
    req.addPdr urr control table pdr = .ok req' ↔
      req.createPdr.length < maxListSize ∧ pdr.dynamicRule.Fits pdr.srcIntfc ∧
      (urr = true → req.createUrr.length + pdr.urrIds.length ≤ maxListSize) ∧
      ∃ createQer, pdr.qerIds.foldlM (addCreateQer table pdr.dynamicRule) req.createQer =
          .ok createQer ∧
        req' = { req with
          createPdr := req.createPdr ++ [createPdrOf urr control pdr]
          createFar := req.createFar ++ [fillCreateFar pdr]
          createUrr := req.createUrr ++ if urr then pdr.urrIds.map fillCreateUrr else []
          createQer } := by
  unfold SessEstabReq.addPdr
  rw [inBounds_bind_eq_ok, bind_eq_ok]
  refine and_congr_right fun _ => ?_
  constructor
  · rintro ⟨createPdr, hpdr, hrest⟩
    obtain ⟨createQer, hqer, hrest⟩ := bind_eq_ok.1 hrest
    obtain ⟨createUrr, hcreate, hrest⟩ := bind_eq_ok.1 hrest
    obtain ⟨hfits, rfl⟩ := fillCreatePdr_eq_ok.1 hpdr
    obtain ⟨hlen, rfl⟩ := (addCreateUrrs_eq_ok hurr).1 hcreate
    exact ⟨hfits, hlen, createQer, hqer, (Except.ok.inj hrest).symm⟩
  · rintro ⟨hfits, hlen, createQer, hqer, rfl⟩
    exact ⟨_, fillCreatePdr_eq_ok.2 ⟨hfits, rfl⟩, bind_eq_ok.2 ⟨createQer, hqer,
      bind_eq_ok.2 ⟨_, (addCreateUrrs_eq_ok hurr).2 ⟨hlen, rfl⟩, rfl⟩⟩⟩

theorem Made.addPdr {base : SessEstabReq} (h : Made urr control base pdrs req)
    (hadd : req.addPdr urr control table pdr = .ok req') :
    Made urr control base (pdrs ++ [pdr]) req' := by
  obtain ⟨hroom, hfits, hlen, createQer, hqer, rfl⟩ := (addPdr_eq_ok h.length_urr).1 hadd
  obtain ⟨hnodup, hmem⟩ := qerIds_of_foldlM hqer h.nodup_qer
  rw [h.createPdr, List.length_map] at hroom
  refine ⟨?_, ?_, ?_, ?_, ?_, ?_, hnodup, ?_, ?_, h.header⟩
  · simpa [or_imp, forall_and] using ⟨h.fits, hfits⟩
  · rw [List.length_append]
    exact hroom
  · cases urr with
    | true => simpa using hlen rfl
    | false => simpa using h.length_urr
  · simp [h.createPdr]
  · simp [h.createFar]
  · rw [h.createUrr]
    cases urr with
    | true => simp
    | false => simp
  · intro q
    rw [hmem, h.mem_qer]
    simp [or_and_right, exists_or]
  · exact forall_of_foldlM (fun id qer => ⟨_, id, qer, rfl⟩) hqer h.filled_qer

theorem made_of_foldlM {base : SessEstabReq} (hbase : base.header = base)
    (h : pdrs.foldlM (SessEstabReq.addPdr urr control table) base = .ok req) :
    Made urr control base pdrs req := by
  induction pdrs using List.reverseRecOn generalizing req with
  | nil =>
    cases Except.ok.inj h
    rw [← hbase]
    exact ⟨by simp, Nat.zero_le _, Nat.zero_le _, rfl, rfl, by cases urr <;> rfl,
      List.nodup_nil, by simp [SessEstabReq.header, qerIdsOf],
      by simp [SessEstabReq.header], rfl⟩
  | append_singleton pdrs pdr ih =>
    obtain ⟨req₁, h₁, hadd⟩ := foldlM_concat_eq_ok.1 h
    exact (ih h₁).addPdr hadd

end Loop

end Spgw.Sx
