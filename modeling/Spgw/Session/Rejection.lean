/-
# The response to a Create Session Request that is not valid

`validate_csreq_msg` chooses the cause, and `get_error_csrsp_info`
(`cp/gtpv2/common/gtpv2_error_rsp.c`) looks for the type of an offending element.
-/

import Spgw.Session.Create

namespace Spgw.Session

/-- The elements that `get_error_csrsp_info` looks at, in its order. -/
inductive MandatoryIe
  | bearerContext | senderFteid | imsi | apnAmbr | pdnType | bearerQos | ratType | apn
  deriving DecidableEq

/-- A request with what else is read of it for the response. -/
structure DecodedCsr extends CreateSessReq where
  apnLen : ℕ
  senderTeid : ℕ

namespace MandatoryIe

def order : List MandatoryIe :=
  [bearerContext, senderFteid, imsi, apnAmbr, pdnType, bearerQos, ratType, apn]

/-- `GTP_IE_*`. -/
def type : MandatoryIe → ℕ
  | bearerContext => 93
  | senderFteid => 87
  | imsi => 1
  | apnAmbr => 72
  | pdnType => 99
  | bearerQos => 80
  | ratType => 82
  | apn => 71

/-- `header.len` of the element. -/
def len (csr : DecodedCsr) : MandatoryIe → ℕ
  | bearerContext => csr.bearerContextLen
  | senderFteid => csr.senderFteidLen
  | imsi => csr.imsiLen
  | apnAmbr => csr.apnAmbrLen
  | pdnType => csr.pdnTypeLen
  | bearerQos => csr.bearerQosLen
  | ratType => csr.ratTypeLen
  | apn => csr.apnLen

theorem mem_order (ie : MandatoryIe) : ie ∈ order := by cases ie <;> decide

end MandatoryIe

namespace DecodedCsr

variable (csr : DecodedCsr)

/-- The element is not in the request. -/
def Absent (ie : MandatoryIe) : Prop := ie.len csr = 0

instance (ie : MandatoryIe) : Decidable (csr.Absent ie) := inferInstanceAs (Decidable (_ = _))

/-- `rsp_info->offending`. -/
def offending : ℕ :=
  MandatoryIe.order.foldl (fun offending ie => if csr.Absent ie then ie.type else offending) 0

end DecodedCsr

/-- `create_sess_rsp_t` as `cs_error_response` fills it; the type of the offending element is there
for one cause only. -/
structure ErrorRsp where
  senderTeid : ℕ
  seq : ℕ
  causeValue : ℕ
  offendIeType : Option ℕ
  ebi : ℕ
  bearerCause : ℕ

/-- `cs_error_response`. -/
def errorRsp (csr : DecodedCsr) (causeValue : ℕ) : ErrorRsp where
  senderTeid := csr.senderTeid
  seq := csr.seq
  causeValue := causeValue
  offendIeType := if causeValue = causeMandatoryIeMissing then some csr.offending else none
  ebi := csr.ebi
  bearerCause := causeValue

/-- The response of `handle_create_session_request`, if the request is rejected in validation. -/
def rejected (csr : DecodedCsr) : Option ErrorRsp :=
  let cause := validateCsreqMsg csr.toCreateSessReq
  if cause = 0 then none else some (errorRsp csr cause)

/-- The response is right: a missing element is reported only if there is one, and then with the
type of one that is missing, and a PDN type that is not supported is reported as such. -/
def Reported (csr : DecodedCsr) : Prop :=
  ∀ rsp ∈ rejected csr, (rsp.causeValue = causeMandatoryIeMissing →
      ∃ ie, csr.Absent ie ∧ rsp.offendIeType = some ie.type) ∧
    ((∀ ie, ¬ csr.Absent ie) → csr.pdnType = pdnIpTypeIpv6 ∨ csr.pdnType = pdnIpTypeIpv4v6 →
      rsp.causeValue = causePreferredPdnTypeUnsupported)

/-- The type of an offending element is that of an absent one, if there is one. -/
theorem exists_absent_of_offending {csr : DecodedCsr} {ie : MandatoryIe} (h : csr.Absent ie) :
    ∃ ie', csr.Absent ie' ∧ csr.offending = ie'.type := by
  -- The fold keeps the type it has until the next absent element.
  have hfold : ∀ (ies : List MandatoryIe) (old : ℕ),
      (ies.foldl (fun o ie => if csr.Absent ie then ie.type else o) old = old ∧
          ∀ ie ∈ ies, ¬ csr.Absent ie) ∨
        ∃ ie', csr.Absent ie' ∧
          ies.foldl (fun o ie => if csr.Absent ie then ie.type else o) old = ie'.type := by
    intro ies
    induction ies with
    | nil => exact fun old => Or.inl ⟨rfl, by simp⟩
    | cons ie ies ih =>
      intro old
      rw [List.foldl_cons]
      rcases ih (if csr.Absent ie then ie.type else old) with ⟨heq, hnone⟩ | hsome
      · by_cases hie : csr.Absent ie
        · rw [if_pos hie] at heq ⊢
          exact Or.inr ⟨ie, hie, heq⟩
        · rw [if_neg hie] at heq ⊢
          exact Or.inl ⟨heq, List.forall_mem_cons.mpr ⟨hie, hnone⟩⟩
      · exact Or.inr hsome
  rcases hfold MandatoryIe.order 0 with ⟨-, hnone⟩ | hsome
  · exact absurd h (hnone ie ie.mem_order)
  · exact hsome

/-- A request without the flag `UIMSI` is rejected with one cause only: the test of the PDN types
that are not supported is never reached. -/
theorem validateCsreqMsg_eq {csr : CreateSessReq} (huimsi : csr.indicationUimsi = false)
    (h : validateCsreqMsg csr ≠ 0) : validateCsreqMsg csr = causeMandatoryIeMissing := by
  unfold validateCsreqMsg at h ⊢
  rw [if_neg (by simp [huimsi])] at h ⊢
  split_ifs at h ⊢ with hmissing hpdn
  · rfl
  · have hv4 : csr.pdnType = pdnIpTypeIpv4 := by
      by_contra hne
      exact hmissing (by simp [hne])
    rw [hv4] at hpdn
    exact absurd hpdn (by decide)
  · exact absurd rfl h

theorem validateCsreqMsg_pos {csr : CreateSessReq} (h : csr.pdnType ≠ pdnIpTypeIpv4) :
    validateCsreqMsg csr ≠ 0 := by
  unfold validateCsreqMsg
  split_ifs with huimsi hmissing
  · decide
  · decide
  · exact absurd (by simp [h]) hmissing
  · exact absurd (by simp [h]) hmissing

theorem validateCsreqMsg_uimsi {csr : CreateSessReq} (h : csr.indicationUimsi = true) :
    validateCsreqMsg csr = causeImsiNotKnown := by
  rw [validateCsreqMsg, if_pos h]

theorem mem_rejected {csr : DecodedCsr} {rsp : ErrorRsp} :
    rsp ∈ rejected csr ↔ validateCsreqMsg csr.toCreateSessReq ≠ 0 ∧
      rsp = errorRsp csr (validateCsreqMsg csr.toCreateSessReq) := by
  unfold rejected
  by_cases h : validateCsreqMsg csr.toCreateSessReq = 0
  · simp [h]
  · simp [h, eq_comm]

/-- A request for IPv4 is rejected for an absent element. -/
theorem exists_absent_of_ipv4 {csr : DecodedCsr} (hflag : csr.indicationUimsi ≠ true)
    (hv4 : csr.pdnType = pdnIpTypeIpv4) (h : validateCsreqMsg csr.toCreateSessReq ≠ 0) :
    ∃ ie, csr.Absent ie := by
  by_contra hnone
  rw [not_exists] at hnone
  refine h ?_
  have hlen : ∀ ie : MandatoryIe, ie.len csr ≠ 0 := hnone
  have h₁ : csr.bearerContextLen ≠ 0 := hlen .bearerContext
  have h₂ : csr.senderFteidLen ≠ 0 := hlen .senderFteid
  have h₃ : csr.imsiLen ≠ 0 := hlen .imsi
  have h₄ : csr.apnAmbrLen ≠ 0 := hlen .apnAmbr
  have h₅ : csr.pdnTypeLen ≠ 0 := hlen .pdnType
  have h₆ : csr.bearerQosLen ≠ 0 := hlen .bearerQos
  have h₇ : csr.ratTypeLen ≠ 0 := hlen .ratType
  have hother : ¬ (pdnIpTypeIpv4 = pdnIpTypeIpv6 ∨ pdnIpTypeIpv4 = pdnIpTypeIpv4v6) := by decide
  simp [validateCsreqMsg, hflag, h₁, h₂, h₃, h₄, h₅, h₆, h₇, hv4, hother]

/-- **The response is right exactly if an element is absent, or the PDN type is IPv4, or the flag
`UIMSI` is set and the PDN type is neither IPv6 nor IPv4v6.** -/
theorem reported_iff (csr : DecodedCsr) :
    Reported csr ↔ (∃ ie, csr.Absent ie) ∨ csr.pdnType = pdnIpTypeIpv4 ∨
      (csr.indicationUimsi = true ∧ csr.pdnType ≠ pdnIpTypeIpv6 ∧
        csr.pdnType ≠ pdnIpTypeIpv4v6) := by
  constructor
  · intro h
    by_contra hnot
    obtain ⟨hpresent, hv4, hflag⟩ : (∀ ie, ¬ csr.Absent ie) ∧ csr.pdnType ≠ pdnIpTypeIpv4 ∧
        ¬ (csr.indicationUimsi = true ∧ csr.pdnType ≠ pdnIpTypeIpv6 ∧
          csr.pdnType ≠ pdnIpTypeIpv4v6) := by
      rw [not_or, not_or, not_exists] at hnot
      exact hnot
    have hrejected := validateCsreqMsg_pos hv4
    obtain ⟨hmissing, hpdn⟩ := h _ (mem_rejected.mpr ⟨hrejected, rfl⟩)
    cases huimsi : csr.indicationUimsi with
    | false =>
      obtain ⟨ie, habsent, -⟩ := hmissing (validateCsreqMsg_eq huimsi hrejected)
      exact hpresent ie habsent
    | true =>
      have hv6 : csr.pdnType = pdnIpTypeIpv6 ∨ csr.pdnType = pdnIpTypeIpv4v6 := by
        by_contra hother
        exact hflag ⟨huimsi, not_or.mp hother⟩
      have hcause := hpdn hpresent hv6
      simp only [errorRsp, validateCsreqMsg_uimsi huimsi] at hcause
      exact absurd hcause (by decide)
  · intro h rsp hmem
    obtain ⟨hrejected, rfl⟩ := mem_rejected.mp hmem
    refine ⟨fun hcause => ?_, fun hpresent hv6 => ?_⟩
    · have hcause' : validateCsreqMsg csr.toCreateSessReq = causeMandatoryIeMissing := hcause
      have hoffend : (errorRsp csr (validateCsreqMsg csr.toCreateSessReq)).offendIeType =
          some csr.offending := if_pos hcause'
      rw [hoffend]
      have hflag : csr.indicationUimsi ≠ true := by
        intro huimsi
        rw [validateCsreqMsg_uimsi huimsi] at hcause'
        exact absurd hcause' (by decide)
      obtain ⟨ie, hie⟩ : ∃ ie, csr.Absent ie := by
        rcases h with hie | hv4 | ⟨huimsi, -, -⟩
        · exact hie
        · exact exists_absent_of_ipv4 hflag hv4 hrejected
        · exact absurd huimsi hflag
      obtain ⟨ie', habsent, htype⟩ := exists_absent_of_offending hie
      exact ⟨ie', habsent, by rw [htype]⟩
    · rcases h with ⟨ie, hie⟩ | hv4 | ⟨-, h6, h46⟩
      · exact absurd hie (hpresent ie)
      · rw [hv4] at hv6
        exact absurd hv6 (by decide)
      · exact absurd hv6 (not_or.mpr ⟨h6, h46⟩)

/-- A request with all the elements for IPv6. -/
def ipv6Request : DecodedCsr where
  seq := 1
  imsiDigits := 0
  imsiLen := 8
  imsi64 := 208930000000001
  apn := []
  plmn := 0
  tac := 1
  paaPdnType := pdnIpTypeIpv6
  paaAddr := 0
  ebi := 5
  indicationUimsi := false
  indicationOi := false
  bearerContextLen := 40
  senderFteidLen := 9
  apnAmbrLen := 8
  pdnTypeLen := 1
  pdnType := pdnIpTypeIpv6
  bearerQosLen := 22
  ratTypeLen := 1
  apnLen := 9
  senderTeid := 1

/-- It is rejected for a missing element of type 0. -/
theorem not_reported_ipv6Request : ¬ Reported ipv6Request ∧
    (rejected ipv6Request).map (fun rsp => (rsp.causeValue, rsp.offendIeType)) = some (70, some 0) ∧
      ∀ ie ∈ MandatoryIe.order, ¬ ipv6Request.Absent ie := by
  have hpresent : ∀ ie ∈ MandatoryIe.order, ¬ ipv6Request.Absent ie := by decide
  refine ⟨fun h => ?_, by decide, hpresent⟩
  obtain ⟨ie, habsent, -⟩ := (h _ rfl).1 rfl
  exact hpresent ie ie.mem_order habsent

end Spgw.Session
