/-
# When the handler of a Re-Auth-Request returns

`process_rar_request_handler` comes back to its caller in three situations:
* the request releases the session;
* no rule to add needs a bearer, and a rule to delete is found on a bearer;
* a rule to add needs a bearer, Gx has been switched off since the attach, the bearer activation is
  admitted at once, and its walk stops at a rule to modify that has no bearer, with a rule to delete
  and no rule in need of a bearer behind it.
-/

import Spgw.Rar.Fill

namespace Spgw.Rar

abbrev Arrival.policy (a : Arrival) : Pdn := a.parsed.pdn

def Arrival.admits (a : Arrival) : Bool :=
  startsAtOnce (a.before ++ allocRarProc a.id a.seq :: a.after)
    (rarChild (a.id + 1) a.id .dedBerActivation)

/-- The three situations. -/
def Arrival.ReturnsWhen (a : Arrival) : Prop :=
  a.msg.sessionReleaseCause = true ∨
    ((∀ r ∈ a.policy.pendingPccRules, needsBearer a.policy.epsBearers r = false) ∧
      DeleteFound a.policy.callId a.policy.epsBearers a.table a.policy.pendingPccRules) ∨
    ((∃ r ∈ a.policy.pendingPccRules, needsBearer a.policy.epsBearers r = true) ∧ a.admits = true ∧
      ∃ pre new mid stop rest, WalkSplit a.policy pre new mid stop rest ∧
        WalkFits a.gxEnabled a.policy pre new mid ∧
        (∀ r ∈ rest, needsBearer (a.policy.withNew new) r = false) ∧
        DeleteFound a.policy.callId (a.policy.withNew new) (walkTable a.policy a.table pre new mid)
          (stop :: rest))

theorem Handling.exists_nwInitDetach {s : Handling} (h : s.rar.childProcsCnt < maxChildProc) :
    ∃ t, s.nwInitDetach = .ok t := by
  obtain ⟨rar, hrar⟩ : ∃ rar, s.rar.addRarChildProc s.nextId = some rar := by
    simp [Proc.addRarChildProc, h]
  by_cases hstart : startsAtOnce s.queue (rarChild s.nextId s.rar.id .nwInitDetach) = true
  · exact ⟨_, Handling.addChild_eq_ok.mpr ⟨rar, hrar, .inl ⟨hstart, _, _, rfl, rfl⟩⟩⟩
  · exact ⟨_, Handling.addChild_eq_ok.mpr ⟨rar, hrar, .inr ⟨by simpa using hstart, rfl⟩⟩⟩

theorem childProcsCnt_of_first {id seq child : ℕ} {rar : Proc}
    (h : (allocRarProc id seq).addRarChildProc child = some rar) : rar.childProcsCnt = 1 := by
  simp only [Proc.addRarChildProc, allocRarProc, maxChildProc] at h
  cases h
  rfl

/-- **A bearer activation that leaves no rule in need of a bearer** -/
theorem Arrival.bearerCreate_iff {a : Arrival} (hneeds : a.policy.needsBearer = true) {s : Handling} :
    a.parsed.bearerCreate = .ok s ∧ s.pdn.needsBearer = false ↔
      a.admits = true ∧ ∃ pdn table rar, fillPfcpGxSessModReq a.gxEnabled a.policy a.table = .ok (pdn, table) ∧
        pdn.needsBearer = false ∧
        (allocRarProc a.id a.seq).addRarChildProc (a.id + 1) = some rar ∧
        s = { a.parsed with
          pdn, table, rar
          children := [(rarChild (a.id + 1) a.id .dedBerActivation).run]
          nextId := a.id + 2 } := by
  have hqueue : startsAtOnce a.parsed.queue (rarChild (a.id + 1) a.id .dedBerActivation) =
      a.admits := by simp [Handling.queue, Arrival.parsed, Arrival.admits]
  constructor
  · rintro ⟨hcreate, hno⟩
    obtain ⟨rar, hrar, ⟨hstart, pdn, table, hfill, rfl⟩ | ⟨_, rfl⟩⟩ :=
      Handling.addChild_eq_ok.mp hcreate
    · exact ⟨hqueue.symm.trans hstart, pdn, table, rar, hfill, hno, hrar, rfl⟩
    · change a.policy.needsBearer = false at hno
      rw [hneeds] at hno
      cases hno
  · rintro ⟨hadmits, pdn, table, rar, hfill, hno, hrar, rfl⟩
    exact ⟨Handling.addChild_eq_ok.mpr
      ⟨rar, hrar, .inl ⟨hqueue.trans hadmits, pdn, table, hfill, rfl⟩⟩, hno⟩

theorem Arrival.exists_returns_iff (a : Arrival) : (∃ t, a.Returns t) ↔ a.ReturnsWhen := by
  have hempty : a.parsed.rar.childProcsCnt < maxChildProc := by
    simp [Arrival.parsed, allocRarProc, maxChildProc]
  simp only [Arrival.returns_iff]
  cases hrelease : a.msg.sessionReleaseCause with
  | true => simpa [Arrival.ReturnsWhen, hrelease] using Handling.exists_nwInitDetach hempty
  | false =>
    simp only [Bool.false_eq_true, if_false, Arrival.ReturnsWhen, hrelease, false_or]
    cases hneeds : a.policy.needsBearer with
    | false =>
      have hno : ∀ r ∈ a.policy.pendingPccRules, needsBearer a.policy.epsBearers r = false := by
        simpa [Pdn.needsBearer] using hneeds
      constructor
      · rintro ⟨t, s, ⟨_, rfl⟩ | ⟨h, _⟩, hdelete, _⟩
        · exact .inl ⟨hno, ruleToDelete_eq_true.mp hdelete⟩
        · cases h
      · rintro (⟨_, hdelete⟩ | ⟨⟨r, hr, hrneeds⟩, _⟩)
        · obtain ⟨t, ht⟩ := Handling.exists_nwInitDetach hempty
          exact ⟨t, a.parsed, .inl ⟨rfl, rfl⟩, ruleToDelete_eq_true.mpr hdelete, ht⟩
        · rw [hno r hr] at hrneeds
          cases hrneeds
    | true =>
      have hsome : ∃ r ∈ a.policy.pendingPccRules, needsBearer a.policy.epsBearers r = true := by
        simpa [Pdn.needsBearer] using hneeds
      have hresumes := fill_resumes_iff a.gxEnabled a.table hneeds
      constructor
      · rintro ⟨t, s, ⟨h, _⟩ | ⟨_, hs⟩, hdelete, _⟩
        · cases h
        · obtain ⟨hadmits, pdn, table, rar, hfill, hno, _, rfl⟩ :=
            (Arrival.bearerCreate_iff hneeds).mp hs
          exact .inr ⟨hsome, hadmits, hresumes.mp ⟨pdn, table, hfill, hno, hdelete⟩⟩
      · rintro (⟨hno, _⟩ | ⟨_, hadmits, hwalk⟩)
        · obtain ⟨r, hr, hrneeds⟩ := hsome
          rw [hno r hr] at hrneeds
          cases hrneeds
        · obtain ⟨pdn, table, hfill, hno, hdelete⟩ := hresumes.mpr hwalk
          obtain ⟨rar, hrar⟩ :
              ∃ rar, (allocRarProc a.id a.seq).addRarChildProc (a.id + 1) = some rar := by
            simp [Proc.addRarChildProc, allocRarProc, maxChildProc]
          let s : Handling := { a.parsed with
            pdn, table, rar
            children := [(rarChild (a.id + 1) a.id .dedBerActivation).run]
            nextId := a.id + 2 }
          have hs : a.parsed.bearerCreate = .ok s ∧ s.pdn.needsBearer = false :=
            (Arrival.bearerCreate_iff hneeds).mpr ⟨hadmits, pdn, table, rar, hfill, hno, hrar, rfl⟩
          have hcnt : s.rar.childProcsCnt = 1 := childProcsCnt_of_first hrar
          obtain ⟨t, ht⟩ := Handling.exists_nwInitDetach (s := s) (by rw [hcnt]; decide)
          exact ⟨t, s, .inr ⟨rfl, hs⟩, hdelete, ht⟩

/-- **The handler of a Re-Auth-Request returns exactly under `ReturnsWhen`.** -/
theorem processRarRequestHandler_returns_iff (a : Arrival) :
    (∃ t, (processRarRequestHandler a).Yields (.ok t)) ↔ a.ReturnsWhen :=
  a.exists_returns_iff

namespace Demo

def qos : QosInformation :=
  { qosClassIdentifier := 9, priorityLevel := 8
    preEmptionCapability := 0, preEmptionVulnerability := 1 }

def pdn : Pdn :=
  { callId := 1
    defaultBearerId := 5
    numBearer := 1
    epsBearers := fun i => if (i : ℕ) = 0 then
      some { epsBearerId := 5, qos := qos.toBearerQos, pdrCount := 2 } else none }

def installOnDefault : Arrival :=
  { msg := { chargingRuleInstall := [[{ chargingRuleName := some ['r'], qosInformation := some qos }]] }
    seq := 7
    pdn
    table := [] }

end Demo

/-- **A request that only installs a rule on an existing bearer keeps the handler in its
last loop.** -/
theorem not_ends_installOnDefault : ¬ (processRarRequestHandler Demo.installOnDefault).Ends := by
  have hadd : (Comp.loop addTurn Demo.installOnDefault.parsed).Yields
      (.ok Demo.installOnDefault.parsed) := yields_addTurn.mpr (.inl ⟨by decide, rfl⟩)
  rintro ⟨r, h⟩
  obtain ⟨q, hq, hr⟩ := Comp.yields_bind.mp h
  obtain rfl := hadd.unique hq
  exact not_ends_deleteTurn (by decide) ⟨r, hr⟩

end Spgw.Rar
