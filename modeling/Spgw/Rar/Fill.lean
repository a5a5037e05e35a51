/-
# What a bearer activation takes off the list

`fill_pfcp_gx_sess_mod_req` walks through the pending rules.
-/

import Spgw.Rar.Handler

namespace Spgw.Rar

open Function

open Session (deref_some)

def SameQos (bearers bearers' : Bearers) : Prop :=
  ∀ i, (bearers i).map EpsBearer.qos = (bearers' i).map EpsBearer.qos

section SameQos

variable {bearers bearers' bearers'' : Bearers}

theorem SameQos.refl (bearers : Bearers) : SameQos bearers bearers := fun _ => rfl

theorem SameQos.trans (h : SameQos bearers bearers') (h' : SameQos bearers' bearers'') :
    SameQos bearers bearers'' := fun i => (h i).trans (h' i)

theorem sameQos_update {slot : Fin maxBearers} {bearer bearer' : EpsBearer}
    (hslot : bearers slot = some bearer) (hqos : bearer'.qos = bearer.qos) :
    SameQos (update bearers slot (some bearer')) bearers := by
  intro i
  by_cases hi : i = slot
  · subst hi
    simp [hslot, hqos]
  · simp [hi]

theorem SameQos.getBearer (h : SameQos bearers bearers') (qos : BearerQos) :
    getBearer bearers qos = getBearer bearers' qos := by
  unfold Rar.getBearer
  congr 1
  funext i
  have hi := h i
  cases hb : bearers i <;> cases hb' : bearers' i <;> simp_all

theorem SameQos.isSome (h : SameQos bearers bearers') (i : Fin maxBearers) :
    (bearers i).isSome = (bearers' i).isSome := by
  have := congrArg Option.isSome (h i)
  simpa using this

theorem SameQos.needsBearer (h : SameQos bearers bearers') (rule : PccRule) :
    needsBearer bearers rule = needsBearer bearers' rule := by
  simp [Rar.needsBearer, h.getBearer]

def HoldsBearer (bearers : Bearers) (i : ℤ) : Prop := ∃ bearer, bearerAt bearers i = .ok (some bearer)

theorem holdsBearer_iff {i : ℤ} :
    HoldsBearer bearers i ↔ ∃ slot : Fin maxBearers, (slot : ℤ) = i ∧ (bearers slot).isSome := by
  unfold HoldsBearer bearerAt
  constructor
  · rintro ⟨bearer, h⟩
    split at h
    · next hi => exact ⟨⟨i.toNat, by omega⟩, by simp; omega, by simp [Except.ok.inj h]⟩
    · cases h
  · rintro ⟨slot, rfl, h⟩
    obtain ⟨bearer, hbearer⟩ := Option.isSome_iff_exists.mp h
    have hslot : (0 : ℤ) ≤ (slot : ℕ) ∧ ((slot : ℕ) : ℤ) < maxBearers := by omega
    exact ⟨bearer, by simp [hslot, hbearer, pure, Except.pure]⟩

theorem bearerAt_eq_none_iff {i : ℤ} : bearerAt bearers i = .ok none ↔
      ∃ slot : Fin maxBearers, (slot : ℤ) = i ∧ (bearers slot).isSome = false := by
  unfold bearerAt
  constructor
  · intro h
    split at h
    · next hi => exact ⟨⟨i.toNat, by omega⟩, by simp; omega, by simp [Except.ok.inj h]⟩
    · cases h
  · rintro ⟨slot, rfl, h⟩
    have hslot : (0 : ℤ) ≤ (slot : ℕ) ∧ ((slot : ℕ) : ℤ) < maxBearers := by omega
    have hnone : bearers slot = none := by simpa using h
    simp [hslot, hnone, pure, Except.pure]

theorem SameQos.holdsBearer (h : SameQos bearers bearers') (i : ℤ) :
    HoldsBearer bearers i ↔ HoldsBearer bearers' i := by
  simp [holdsBearer_iff, h.isSome]

theorem SameQos.bearerAt_eq_none (h : SameQos bearers bearers') (i : ℤ) :
    bearerAt bearers i = .ok none ↔ bearerAt bearers' i = .ok none := by
  simp [bearerAt_eq_none_iff, h.isSome]

theorem getBearer_eq_some {qos : BearerQos} {slot : Fin maxBearers}
    (h : getBearer bearers qos = some slot) : ∃ bearer, bearers slot = some bearer := by
  have hfound := List.find?_some h
  cases hslot : bearers slot with
  | none => simp [hslot] at hfound
  | some bearer => exact ⟨bearer, rfl⟩

end SameQos

def DeletesAt (callId : ℕ) (bearers : Bearers) (table : RuleTable) (rule : PccRule) : Prop :=
  rule.opPending = false ∧ rule.action = .delete ∧
    HoldsBearer bearers (table.getRuleNameEntry (ruleKey callId rule.dynRule.ruleName))

def PassesOver (callId : ℕ) (bearers : Bearers) (table : RuleTable) (rule : PccRule) : Prop :=
  rule.opPending = true ∨ rule.action ≠ .delete ∨
    table.getRuleNameEntry (ruleKey callId rule.dynRule.ruleName) = -1 ∨
    bearerAt bearers (table.getRuleNameEntry (ruleKey callId rule.dynRule.ruleName)) = .ok none

/-- The first rule to delete whose name leads to a bearer is reached. -/
def DeleteFound (callId : ℕ) (bearers : Bearers) (table : RuleTable) (rules : List PccRule) :
    Prop :=
  ∃ skipped rule rest, rules = skipped ++ rule :: rest ∧ DeletesAt callId bearers table rule ∧
    ∀ r ∈ skipped, PassesOver callId bearers table r

section Delete

variable {callId : ℕ} {bearers bearers' : Bearers} {table : RuleTable} {rules : List PccRule}

theorem deleteFound_cons {rule : PccRule} : DeleteFound callId bearers table (rule :: rules) ↔
      DeletesAt callId bearers table rule ∨
        PassesOver callId bearers table rule ∧ DeleteFound callId bearers table rules := by
  constructor
  · rintro ⟨skipped, r, rest, hsplit, hr, hskipped⟩
    cases skipped with
    | nil =>
      obtain ⟨rfl, rfl⟩ := List.cons.inj hsplit
      exact .inl hr
    | cons s skipped =>
      obtain ⟨rfl, rfl⟩ := List.cons.inj hsplit
      exact .inr ⟨hskipped _ (by simp),
        skipped, r, rest, rfl, hr, fun x hx => hskipped x (by simp [hx])⟩
  · rintro (hr | ⟨hpass, skipped, r, rest, rfl, hr, hskipped⟩)
    · exact ⟨[], rule, rules, rfl, hr, by simp⟩
    · refine ⟨rule :: skipped, r, rest, rfl, hr, fun x hx => ?_⟩
      rcases List.mem_cons.mp hx with rfl | hx
      · exact hpass
      · exact hskipped x hx

/-- **The scan finds a rule exactly if there is one to be found.** -/
theorem ruleToDelete_eq_true : ruleToDelete callId bearers table rules = .ok true ↔
      DeleteFound callId bearers table rules := by
  induction rules with
  | nil =>
    constructor
    · intro h
      cases h
    · rintro ⟨skipped, rule, rest, hsplit, _⟩
      simp at hsplit
  | cons rule rules ih =>
    rw [deleteFound_cons, ← ih]
    simp only [ruleToDelete, DeletesAt, PassesOver, HoldsBearer]
    by_cases hwants : (!rule.opPending && rule.action = .delete) = true
    · obtain ⟨hflag, haction⟩ : rule.opPending = false ∧ rule.action = .delete := by
        simpa using hwants
      simp only [hflag, haction]
      generalize table.getRuleNameEntry (ruleKey callId rule.dynRule.ruleName) = id
      by_cases hid : id = -1
      · simp [hid, bearerAt, throw, throwThe, MonadExceptOf.throw]
      · cases hat : bearerAt bearers id with
        | error f => simp [hid, bind, Except.bind]
        | ok slot => cases slot <;> simp [hid, bind, Except.bind, pure, Except.pure]
    · rw [if_neg hwants]
      have hpass : rule.opPending = true ∨ rule.action ≠ .delete := by
        by_contra hno
        push Not at hno
        exact hwants (by simp [hno.1, hno.2])
      constructor
      · intro h
        exact .inr ⟨by tauto, h⟩
      · rintro (⟨h₁, h₂, _⟩ | ⟨_, h⟩)
        · rcases hpass with h | h
          · rw [h₁] at h
            cases h
          · exact (h h₂).elim
        · exact h

theorem SameQos.deleteFound (h : SameQos bearers bearers') :
    DeleteFound callId bearers table rules ↔ DeleteFound callId bearers' table rules := by
  simp [DeleteFound, DeletesAt, PassesOver, h.holdsBearer, h.bearerAt_eq_none]

end Delete

def served (bearers : Bearers) (rule : PccRule) : Bool :=
  rule.action = .delete || (getBearer bearers rule.dynRule.qos).isSome

def slots (bearers : Bearers) (rules : List PccRule) : List (Fin maxBearers) :=
  rules.filterMap fun rule =>
    if rule.action = .add then getBearer bearers rule.dynRule.qos else none

def addedKeys (callId : ℕ) (rules : List PccRule) : List RuleName :=
  rules.filterMap fun rule =>
    if rule.action = .add then some (ruleKey callId rule.dynRule.ruleName) else none

def unused (bearers : Bearers) (slot : Fin maxBearers) : Bool :=
  (bearers slot).any fun bearer => bearer.pdrCount = 0

theorem SameQos.served {bearers bearers' : Bearers} (h : SameQos bearers bearers')
    (rule : PccRule) : served bearers rule = served bearers' rule := by
  simp [Rar.served, h.getBearer]

theorem SameQos.slots {bearers bearers' : Bearers} (h : SameQos bearers bearers')
    (rules : List PccRule) : slots bearers rules = slots bearers' rules := by
  simp [Rar.slots, h.getBearer]

/-- `f'` is `f` after the rules to add of the list were attached to bearers it had. -/
structure Attached (callId : ℕ) (f : Fill) (rules : List PccRule) (f' : Fill) : Prop where
  sameQos : SameQos f'.bearers f.bearers
  unused : ∀ i, unused f'.bearers i = (unused f.bearers i && decide (i ∉ slots f.bearers rules))
  numBearer : f'.numBearer = f.numBearer
  bearerId : f'.bearerId = f.bearerId
  newBearer : f'.newBearer = f.newBearer
  table : f'.table = f.table.addRuleNameEntries (addedKeys callId rules) f.bearerId

theorem Attached.nil {callId : ℕ} {f : Fill} : Attached callId f [] f where
  sameQos := .refl _
  unused := by simp [slots]
  numBearer := rfl
  bearerId := rfl
  newBearer := rfl
  table := rfl

theorem Attached.append {callId : ℕ} {f f' f'' : Fill} {rules rules' : List PccRule}
    (h : Attached callId f rules f') (h' : Attached callId f' rules' f'') :
    Attached callId f (rules ++ rules') f'' where
  sameQos := h'.sameQos.trans h.sameQos
  unused i := by
    have hslots := h.sameQos.slots rules'
    rw [h'.unused, h.unused, hslots]
    simp [Rar.slots, not_or, Bool.and_assoc]
  numBearer := h'.numBearer.trans h.numBearer
  bearerId := h'.bearerId.trans h.bearerId
  newBearer := h'.newBearer.trans h.newBearer
  table := by
    rw [h'.table, h.table, h.bearerId]
    simp [RuleTable.addRuleNameEntries, addedKeys]

theorem Fill.attachRule_spec (callId : ℕ) (f : Fill) (slot : Fin maxBearers) (rule : DynamicRule)
    (hslot : (f.bearers slot).isSome) :
    if Rar.unused f.bearers slot then
      ∃ f', f.attachRule callId slot rule = .ok f' ∧ SameQos f'.bearers f.bearers ∧
        (∀ i, Rar.unused f'.bearers i = (Rar.unused f.bearers i && decide (i ≠ slot))) ∧
        f'.numBearer = f.numBearer ∧ f'.bearerId = f.bearerId ∧ f'.newBearer = f.newBearer ∧
        f'.table = f.table.addRuleNameEntry (ruleKey callId rule.ruleName) f.bearerId
    else
      f.attachRule callId slot rule = .error .badPointer := by
  obtain ⟨bearer, hbearer⟩ := Option.isSome_iff_exists.mp hslot
  have hattach : f.attachRule callId slot rule = (bearer.attach rule).map fun bearer => { f with
        bearers := update f.bearers slot (some bearer)
        table := f.table.addRuleNameEntry (ruleKey callId rule.ruleName) f.bearerId } := by
    simp only [Fill.attachRule, hbearer, deref_some, pure_bind]
    cases bearer.attach rule <;> rfl
  by_cases hpdr : bearer.pdrCount = 0
  · rw [if_pos (by simp [Rar.unused, hbearer, hpdr]), hattach, EpsBearer.attach, if_pos hpdr]
    refine ⟨_, rfl, sameQos_update hbearer rfl, fun i => ?_, rfl, rfl, rfl, rfl⟩
    by_cases hi : i = slot
    · subst hi
      simp [Rar.unused]
    · simp [Rar.unused, hi]
  · rw [if_neg (by simp [Rar.unused, hbearer, hpdr]), hattach, EpsBearer.attach, if_neg hpdr]
    rfl

theorem Attached.skip {callId : ℕ} {f f' : Fill} {rule : PccRule} {rules : List PccRule}
    (haction : rule.action ≠ .add) (h : Attached callId f rules f') :
    Attached callId f (rule :: rules) f' where
  sameQos := h.sameQos
  unused := by simpa [slots, haction] using h.unused
  numBearer := h.numBearer
  bearerId := h.bearerId
  newBearer := h.newBearer
  table := by simpa [addedKeys, haction] using h.table

/-- The rules go to different bearers without rules. -/
def Fits (bearers : Bearers) (rules : List PccRule) : Prop :=
  (slots bearers rules).Nodup ∧ ∀ i ∈ slots bearers rules, unused bearers i = true

instance (bearers : Bearers) (rules : List PccRule) : Decidable (Fits bearers rules) :=
  inferInstanceAs (Decidable (_ ∧ _))

theorem Fill.takeRules_served (gx : Bool) (callId lbi : ℕ) (rules : List PccRule) (f : Fill)
    (hserved : ∀ r ∈ rules, served f.bearers r = true) :
    if Fits f.bearers rules then
      ∃ f', Attached callId f rules f' ∧ ∀ rest,
        f.takeRules gx callId lbi (rules ++ rest) = f'.takeRules gx callId lbi rest
    else
      ∀ rest, f.takeRules gx callId lbi (rules ++ rest) = .error .badPointer := by
  induction rules generalizing f with
  | nil =>
    rw [if_pos (by simp [Fits, slots])]
    exact ⟨f, .nil, fun _ => rfl⟩
  | cons rule rules ih =>
    have hrules : ∀ r ∈ rules, served f.bearers r = true := fun r hr => hserved r (by simp [hr])
    have hrule := hserved rule (by simp)
    by_cases hadd : rule.action = .add
    · obtain ⟨slot, hslot⟩ : ∃ slot, getBearer f.bearers rule.dynRule.qos = some slot := by
        simpa [served, hadd, Option.isSome_iff_exists] using hrule
      obtain ⟨bearer, hbearer⟩ := getBearer_eq_some hslot
      have hslots : slots f.bearers (rule :: rules) = slot :: slots f.bearers rules := by
        simp [slots, hadd, hslot]
      have hstep (rest : List PccRule) : f.takeRules gx callId lbi (rule :: rules ++ rest) =
            f.attachRule callId slot rule.dynRule >>= fun f =>
              f.takeRules gx callId lbi (rules ++ rest) := by
        simp [Fill.takeRules, hadd, Fill.findBearer, hslot]
      have hspec := f.attachRule_spec callId slot rule.dynRule (by simp [hbearer])
      by_cases hunused : Rar.unused f.bearers slot = true
      · rw [if_pos hunused] at hspec
        obtain ⟨f', hattach, hqos, hunused', hnum, hid, hnew, htable⟩ := hspec
        have hone : Attached callId f [rule] f' :=
          { sameQos := hqos
            unused := by simpa [slots, hadd, hslot] using hunused'
            numBearer := hnum
            bearerId := hid
            newBearer := hnew
            table := by simpa [addedKeys, hadd, RuleTable.addRuleNameEntries] using htable }
        have hfits : Fits f'.bearers rules ↔ Fits f.bearers (rule :: rules) := by
          simp only [Fits, hqos.slots, hslots, List.nodup_cons, List.mem_cons, hunused',
            forall_eq_or_imp, hunused, Bool.and_eq_true, decide_eq_true_eq, true_and]
          constructor
          · rintro ⟨hnodup, hall⟩
            exact ⟨⟨fun hmem => (hall slot hmem).2 rfl, hnodup⟩, fun i hi => (hall i hi).1⟩
          · rintro ⟨⟨hnot, hnodup⟩, hall⟩
            exact ⟨hnodup, fun i hi => ⟨hall i hi, fun h => hnot (h ▸ hi)⟩⟩
        have hrest := ih f' fun r hr => by rw [hqos.served]; exact hrules r hr
        by_cases hfit : Fits f.bearers (rule :: rules)
        · rw [if_pos (hfits.mpr hfit)] at hrest
          obtain ⟨f'', hatt, hgo⟩ := hrest
          rw [if_pos hfit]
          refine ⟨f'', hone.append hatt, fun rest => ?_⟩
          rw [hstep, hattach]
          exact hgo rest
        · rw [if_neg (mt hfits.mp hfit)] at hrest
          rw [if_neg hfit]
          intro rest
          rw [hstep, hattach]
          exact hrest rest
      · rw [if_neg hunused] at hspec
        rw [if_neg (by simp [Fits, hslots, hunused])]
        intro rest
        rw [hstep, hspec]
        rfl
    · have hslots : slots f.bearers (rule :: rules) = slots f.bearers rules := by
        simp [slots, hadd]
      have hstep (rest : List PccRule) : f.takeRules gx callId lbi (rule :: rules ++ rest) =
            f.takeRules gx callId lbi (rules ++ rest) := by
        cases haction : rule.action with
        | add => exact (hadd haction).elim
        | delete => simp [Fill.takeRules, haction]
        | modify =>
          have : (getBearer f.bearers rule.dynRule.qos).isSome = true := by
            simpa [served, haction] using hrule
          simp [Fill.takeRules, haction, this]
      have hfits : Fits f.bearers (rule :: rules) ↔ Fits f.bearers rules := by
        simp only [Fits, hslots]
      have hrest := ih f hrules
      by_cases hfit : Fits f.bearers rules
      · rw [if_pos hfit] at hrest
        obtain ⟨f', hatt, hgo⟩ := hrest
        rw [if_pos (hfits.mpr hfit)]
        exact ⟨f', hatt.skip hadd, fun rest => (hstep rest).trans (hgo rest)⟩
      · rw [if_neg hfit] at hrest
        rw [if_neg (mt hfits.mp hfit)]
        exact fun rest => (hstep rest).trans (hrest rest)

def newBearers (bearers : Bearers) (numBearer : ℕ) (qos : BearerQos) : Bearers := fun i =>
  if (i : ℕ) = numBearer then some { qos } else bearers i

/-- The bearers with one for `new`. -/
abbrev Pdn.withNew (pdn : Pdn) (new : PccRule) : Bearers :=
  newBearers pdn.epsBearers pdn.numBearer new.dynRule.qos

theorem newBearers_eq_update (bearers : Bearers) (slot : Fin maxBearers) (qos : BearerQos) :
    newBearers bearers slot qos = update bearers slot (some { qos }) := by
  funext i
  by_cases hi : i = slot
  · subst hi
    simp [newBearers]
  · have : (i : ℕ) ≠ slot := fun h => hi (Fin.ext h)
    simp [newBearers, hi, this]

theorem SameQos.newBearers {bearers bearers' : Bearers} (h : SameQos bearers bearers')
    (numBearer : ℕ) (qos : BearerQos) :
    SameQos (newBearers bearers numBearer qos) (newBearers bearers' numBearer qos) := by
  intro i
  unfold Rar.newBearers
  split
  · rfl
  · exact h i

/-- `f'` is `f` after a new bearer was created for the rule and got the rule. -/
structure Created (callId : ℕ) (f : Fill) (rule : DynamicRule) (f' : Fill) : Prop where
  sameQos : SameQos f'.bearers (newBearers f.bearers f.numBearer rule.qos)
  unused : ∀ i : Fin maxBearers,
    unused f'.bearers i = (unused f.bearers i && decide ((i : ℕ) ≠ f.numBearer))
  bearerId : f'.bearerId = f.numBearer
  newBearer : f'.newBearer.isSome = true
  table : f'.table = f.table.addRuleNameEntry (ruleKey callId rule.ruleName) f.numBearer

/-- There is a place for a bearer, and Gx is off. -/
def CanCreate (gx : Bool) (bearers : Bearers) (numBearer lbi : ℕ) (qos : BearerQos) : Prop :=
  numBearer < maxBearers ∧
    HoldsBearer (newBearers bearers numBearer qos) ((lbi : ℤ) - 5) ∧ gx = false

theorem SameQos.canCreate {bearers bearers' : Bearers} (h : SameQos bearers bearers')
    {numBearer lbi : ℕ} {qos : BearerQos} :
    CanCreate gx bearers numBearer lbi qos ↔
      CanCreate gx bearers' numBearer lbi qos := by
  simp [CanCreate, (h.newBearers numBearer qos).holdsBearer]

theorem Fill.createBearer_of_canCreate {f : Fill} {lbi : ℕ} {qos : BearerQos}
    (h : CanCreate gx f.bearers f.numBearer lbi qos) :
    f.createBearer gx lbi qos = .ok ({ f with
          bearers := newBearers f.bearers f.numBearer qos
          numBearer := (f.numBearer + 1) % 256
          bearerId := f.numBearer
          newBearer := some ⟨f.numBearer, h.1⟩ }, ⟨f.numBearer, h.1⟩) := by
  have hroom := h.1
  obtain ⟨⟨bearer, hbearer⟩, hgx⟩ := h.2
  have hupdate : newBearers f.bearers f.numBearer qos =
      update f.bearers ⟨f.numBearer, hroom⟩ (some { qos }) :=
    newBearers_eq_update f.bearers ⟨f.numBearer, hroom⟩ qos
  simp only [Fill.createBearer, dif_pos hroom, ← hupdate, hbearer, hgx]
  rfl

theorem Fill.createBearer_of_not_canCreate {f : Fill} {lbi : ℕ} {qos : BearerQos}
    (h : ¬ CanCreate gx f.bearers f.numBearer lbi qos) :
    f.createBearer gx lbi qos = .error .badPointer := by
  unfold Fill.createBearer
  split
  · next hroom =>
      have hupdate : newBearers f.bearers f.numBearer qos =
          update f.bearers ⟨f.numBearer, hroom⟩ (some { qos }) :=
        newBearers_eq_update f.bearers ⟨f.numBearer, hroom⟩ qos
      have hdefault : ∀ bearer, bearerAt (update f.bearers ⟨f.numBearer, hroom⟩
          (some { qos })) ((lbi : ℤ) - 5) = .ok (some bearer) → gx = true := by
        rw [← hupdate]
        intro bearer hbearer
        by_contra hgx
        exact h ⟨hroom, ⟨bearer, hbearer⟩, by simpa using hgx⟩
      simp only
      cases hat : bearerAt (update f.bearers ⟨f.numBearer, hroom⟩ (some { qos }))
          ((lbi : ℤ) - 5) with
      | error e =>
        obtain rfl : e = .badPointer := by
          unfold bearerAt at hat
          split at hat
          · cases hat
          · exact (Except.error.inj hat).symm
        rfl
      | ok slot =>
        cases slot with
        | none => rfl
        | some bearer =>
          rw [hdefault bearer hat]
          rfl
  · rfl

theorem Fill.takeRules_new (gx : Bool) (callId lbi : ℕ) {rule : PccRule} (f : Fill)
    (hadd : rule.action = .add) (hlacks : getBearer f.bearers rule.dynRule.qos = none)
    (hnew : f.newBearer = none) :
    (CanCreate gx f.bearers f.numBearer lbi rule.dynRule.qos →
      ∃ f', Created callId f rule.dynRule f' ∧ ∀ rest, f.takeRules gx callId lbi (rule :: rest) =
          f'.takeRules gx callId lbi rest) ∧
    (¬ CanCreate gx f.bearers f.numBearer lbi rule.dynRule.qos → ∀ rest,
      f.takeRules gx callId lbi (rule :: rest) = .error .badPointer) := by
  have hstep (rest : List PccRule) : f.takeRules gx callId lbi (rule :: rest) =
        f.createBearer gx lbi rule.dynRule.qos >>= fun r =>
          r.1.attachRule callId r.2 rule.dynRule >>= fun f =>
            f.takeRules gx callId lbi rest := by
    simp [Fill.takeRules, hadd, Fill.findBearer, hlacks, hnew]
  constructor
  · intro hcan
    set f₁ : Fill := { f with
      bearers := newBearers f.bearers f.numBearer rule.dynRule.qos
      numBearer := (f.numBearer + 1) % 256
      bearerId := f.numBearer
      newBearer := some ⟨f.numBearer, hcan.1⟩ } with hf₁
    have hslot : f₁.bearers ⟨f.numBearer, hcan.1⟩ = some { qos := rule.dynRule.qos } := by
      simp [hf₁, newBearers]
    have hspec := f₁.attachRule_spec callId ⟨f.numBearer, hcan.1⟩ rule.dynRule (by simp [hslot])
    rw [if_pos (by simp [Rar.unused, hslot])] at hspec
    obtain ⟨f', hattach, hqos, hunused, -, hid, hnew', htable⟩ := hspec
    refine ⟨f', ⟨hqos, fun i => ?_, hid, by simp [hnew', hf₁], htable⟩, fun rest => ?_⟩
    · rw [hunused]
      by_cases hi : (i : ℕ) = f.numBearer
      · have : i = ⟨f.numBearer, hcan.1⟩ := Fin.ext hi
        simp [this]
      · have : i ≠ ⟨f.numBearer, hcan.1⟩ := fun h => hi (congrArg Fin.val h)
        simp [Rar.unused, hf₁, newBearers, hi, this]
    · rw [hstep, Fill.createBearer_of_canCreate hcan]
      change f₁.attachRule callId _ rule.dynRule >>= _ = _
      rw [hattach]
      rfl
  · intro hcan rest
    rw [hstep, Fill.createBearer_of_not_canCreate hcan]
    rfl

/-- The pending rules fall into `pre`, a rule `new` that gets a new bearer, `mid`, a rule
`stop` to modify that has no bearer, and `rest`: every rule before `stop` is taken off
the list, and `stop` ends the walk. -/
structure WalkSplit (pdn : Pdn) (pre : List PccRule) (new : PccRule) (mid : List PccRule)
    (stop : PccRule) (rest : List PccRule) : Prop where
  split : pdn.pendingPccRules = pre ++ new :: (mid ++ stop :: rest)
  served_pre : ∀ r ∈ pre, served pdn.epsBearers r = true
  new_add : new.action = .add
  new_lacks : getBearer pdn.epsBearers new.dynRule.qos = none
  served_mid : ∀ r ∈ mid, served (pdn.withNew new) r = true
  stop_modify : stop.action = .modify
  stop_lacks : getBearer (pdn.withNew new)
    stop.dynRule.qos = none

/-- The bearers that the walk fills have room for the rules. -/
structure WalkFits (gx : Bool) (pdn : Pdn) (pre : List PccRule) (new : PccRule) (mid : List PccRule) :
    Prop where
  canCreate : CanCreate gx pdn.epsBearers pdn.numBearer pdn.defaultBearerId new.dynRule.qos
  fits_pre : Fits pdn.epsBearers pre
  nodup_mid : (slots (pdn.withNew new) mid).Nodup
  unused_mid : ∀ i ∈ slots (pdn.withNew new) mid,
    unused pdn.epsBearers i = true ∧ i ∉ slots pdn.epsBearers pre ∧ (i : ℕ) ≠ pdn.numBearer

/-- The rule table after the walk. -/
def walkTable (pdn : Pdn) (table : RuleTable) (pre : List PccRule) (new : PccRule)
    (mid : List PccRule) : RuleTable :=
  (table.addRuleNameEntries (addedKeys pdn.callId pre) 0).addRuleNameEntries
    (addedKeys pdn.callId (new :: mid)) pdn.numBearer

def Fill.start (pdn : Pdn) (table : RuleTable) : Fill :=
  { bearers := pdn.epsBearers, numBearer := pdn.numBearer, table }

def Pdn.walk (pdn : Pdn) (gx : Bool) (table : RuleTable) : Except Fault (Fill × List PccRule) :=
  (Fill.start pdn table).takeRules gx pdn.callId pdn.defaultBearerId pdn.pendingPccRules

section Walk

variable {gx : Bool} {pdn : Pdn} {table : RuleTable} {pre mid post rest rules : List PccRule}
  {new stop : PccRule} {f : Fill}

/-- `f` is the walk after the rules of `pre` were attached to old bearers and `new` got a
new one. -/
structure AtNew (gx : Bool) (pdn : Pdn) (table : RuleTable) (pre : List PccRule) (new : PccRule) (f : Fill) :
    Prop where
  sameQos : SameQos f.bearers (pdn.withNew new)
  unused_iff : ∀ i, unused f.bearers i = true ↔
    unused pdn.epsBearers i = true ∧ i ∉ slots pdn.epsBearers pre ∧ (i : ℕ) ≠ pdn.numBearer
  newBearer : f.newBearer.isSome = true
  bearerId : f.bearerId = pdn.numBearer
  table_eq : f.table = (table.addRuleNameEntries (addedKeys pdn.callId pre) 0).addRuleNameEntry
      (ruleKey pdn.callId new.dynRule.ruleName) pdn.numBearer
  goes : ∀ rest,
    (Fill.start pdn table).takeRules gx pdn.callId pdn.defaultBearerId (pre ++ new :: rest) =
      f.takeRules gx pdn.callId pdn.defaultBearerId rest

theorem walk_atNew (gx : Bool) (table : RuleTable)
    (hpre : ∀ r ∈ pre, served pdn.epsBearers r = true) (hadd : new.action = .add)
    (hlacks : getBearer pdn.epsBearers new.dynRule.qos = none) :
    (Fits pdn.epsBearers pre ∧
        CanCreate gx pdn.epsBearers pdn.numBearer pdn.defaultBearerId new.dynRule.qos →
      ∃ f, AtNew gx pdn table pre new f) ∧
    (¬ (Fits pdn.epsBearers pre ∧
        CanCreate gx pdn.epsBearers pdn.numBearer pdn.defaultBearerId new.dynRule.qos) → ∀ rest,
      (Fill.start pdn table).takeRules gx pdn.callId pdn.defaultBearerId (pre ++ new :: rest) =
        .error .badPointer) := by
  have hstart : (Fill.start pdn table).bearers = pdn.epsBearers := rfl
  have hwalk := (Fill.start pdn table).takeRules_served gx pdn.callId pdn.defaultBearerId pre hpre
  rw [hstart] at hwalk
  by_cases hfits : Fits pdn.epsBearers pre
  swap
  · rw [if_neg hfits] at hwalk
    exact ⟨fun h => (hfits h.1).elim, fun _ rest => hwalk _⟩
  rw [if_pos hfits] at hwalk
  obtain ⟨f₁, hatt, hgo₁⟩ := hwalk
  have hnum : f₁.numBearer = pdn.numBearer := hatt.numBearer
  have hqos₁ : SameQos f₁.bearers pdn.epsBearers := hatt.sameQos
  have hnew := f₁.takeRules_new gx pdn.callId pdn.defaultBearerId hadd
    (by rw [hqos₁.getBearer]; exact hlacks) hatt.newBearer
  rw [hnum, hqos₁.canCreate] at hnew
  constructor
  · rintro ⟨-, hcan⟩
    obtain ⟨f₂, hcreated, hgo₂⟩ := hnew.1 hcan
    refine ⟨f₂, ?_, fun i => ?_, hcreated.newBearer, hcreated.bearerId.trans hnum, ?_,
      fun rest => (hgo₁ _).trans (hgo₂ rest)⟩
    · have hqos₂ := hcreated.sameQos
      rw [hnum] at hqos₂
      exact hqos₂.trans (hqos₁.newBearers _ _)
    · rw [hcreated.unused, hatt.unused, hnum, hstart]
      simp [and_assoc]
    · rw [hcreated.table, hatt.table, hnum]
      rfl
  · intro hnot rest
    exact (hgo₁ _).trans (hnew.2 (fun hcan => hnot ⟨hfits, hcan⟩) rest)

theorem AtNew.fits_iff {f : Fill} (h : AtNew gx pdn table pre new f) (mid : List PccRule)
    (hfits : Fits pdn.epsBearers pre)
    (hcan : CanCreate gx pdn.epsBearers pdn.numBearer pdn.defaultBearerId new.dynRule.qos) :
    Fits f.bearers mid ↔ WalkFits gx pdn pre new mid := by
  simp only [Fits, h.sameQos.slots, h.unused_iff]
  exact ⟨fun hf => ⟨hcan, hfits, hf.1, hf.2⟩, fun hw => ⟨hw.nodup_mid, hw.unused_mid⟩⟩

theorem WalkSplit.takeRules (h : WalkSplit pdn pre new mid stop rest) (table : RuleTable) :
    (WalkFits gx pdn pre new mid → ∃ f, pdn.walk gx table = .ok (f, stop :: rest) ∧
      SameQos f.bearers (pdn.withNew new) ∧ f.table = walkTable pdn table pre new mid) ∧
    (¬ WalkFits gx pdn pre new mid → ∃ e, pdn.walk gx table = .error e) := by
  rw [Pdn.walk, h.split]
  have hnew := walk_atNew gx table h.served_pre h.new_add h.new_lacks
  by_cases hcan : Fits pdn.epsBearers pre ∧
      CanCreate gx pdn.epsBearers pdn.numBearer pdn.defaultBearerId new.dynRule.qos
  swap
  · exact ⟨fun hw => (hcan ⟨hw.fits_pre, hw.canCreate⟩).elim, fun _ => ⟨_, hnew.2 hcan _⟩⟩
  obtain ⟨f₂, hat⟩ := hnew.1 hcan
  have hmid := f₂.takeRules_served gx pdn.callId pdn.defaultBearerId mid
    fun r hr => by rw [hat.sameQos.served]; exact h.served_mid r hr
  have hfits := hat.fits_iff mid hcan.1 hcan.2
  constructor
  · intro hw
    rw [if_pos (hfits.mpr hw)] at hmid
    obtain ⟨f₃, hatt, hgo⟩ := hmid
    have hqos := hatt.sameQos.trans hat.sameQos
    refine ⟨f₃, ?_, hqos, ?_⟩
    · rw [hat.goes, hgo]
      simp [Fill.takeRules, h.stop_modify, hqos.getBearer, h.stop_lacks, pure, Except.pure]
    · rw [hatt.table, hat.table_eq, hat.bearerId]
      simp [walkTable, addedKeys, h.new_add, RuleTable.addRuleNameEntries]
  · intro hw
    rw [if_neg (mt hfits.mp hw)] at hmid
    exact ⟨_, (hat.goes _).trans (hmid _)⟩

theorem exists_first_unserved (bearers : Bearers) (rules : List PccRule) :
    (∀ r ∈ rules, served bearers r = true) ∨ ∃ before rule after, rules = before ++ rule :: after ∧
        (∀ r ∈ before, served bearers r = true) ∧ served bearers rule = false := by
  cases hfind : rules.find? fun r => !served bearers r with
  | none => exact .inl (by simpa using hfind)
  | some rule =>
    obtain ⟨hrule, before, after, hsplit, hbefore⟩ := List.find?_eq_some_iff_append.mp hfind
    exact .inr ⟨before, rule, after, hsplit, by simpa using hbefore, by simpa using hrule⟩

theorem fillPfcpGxSessModReq_eq_ok {pdn' : Pdn} {table' : RuleTable} :
    fillPfcpGxSessModReq gx pdn table = .ok (pdn', table') ↔
      ∃ f rules, pdn.walk gx table = .ok (f, rules) ∧
        pdn' = { pdn with
          epsBearers := f.bearers, numBearer := f.numBearer, pendingPccRules := rules } ∧
        table' = f.table := by
  have hdef : fillPfcpGxSessModReq gx pdn table =
      (pdn.walk gx table).map
        fun r => ({ pdn with
          epsBearers := r.1.bearers, numBearer := r.1.numBearer, pendingPccRules := r.2 },
          r.1.table) := by
    simp only [fillPfcpGxSessModReq, Pdn.walk, Fill.start]
    cases Fill.takeRules gx pdn.callId pdn.defaultBearerId
      { bearers := pdn.epsBearers, numBearer := pdn.numBearer, table } pdn.pendingPccRules <;> rfl
  rw [hdef]
  cases pdn.walk gx table with
  | error e => simp [Except.map]
  | ok r => simp [Except.map, Prod.ext_iff, eq_comm]

theorem Fill.left_of_served {g : Fill} {callId lbi : ℕ} (hserved : ∀ r ∈ pre, served g.bearers r = true)
    (hg : g.takeRules gx callId lbi pre = .ok (f, rules)) : rules = [] := by
  have hwalk := g.takeRules_served gx callId lbi pre hserved
  split_ifs at hwalk
  · obtain ⟨g', -, hgo⟩ := hwalk
    have := hgo []
    rw [List.append_nil, hg] at this
    simp only [Fill.takeRules, pure, Except.pure, Except.ok.injEq, Prod.mk.injEq] at this
    exact this.2
  · have := hwalk []
    rw [List.append_nil, hg] at this
    cases this

/-- At a rule to modify the walk would end before the rule that needs a bearer. -/
theorem action_new (hneeds : pdn.needsBearer = true) (hwalk : pdn.walk gx table = .ok (f, rules))
    (hno : ∀ r ∈ rules, needsBearer f.bearers r = false)
    (hsplit : pdn.pendingPccRules = pre ++ new :: post)
    (hpre : ∀ r ∈ pre, served pdn.epsBearers r = true)
    (hnew : served pdn.epsBearers new = false) : new.action = .add := by
  cases haction : new.action with
  | add => rfl
  | delete => simp [served, haction] at hnew
  | modify =>
    obtain ⟨r, hr, hrneeds⟩ : ∃ r ∈ pdn.pendingPccRules, needsBearer pdn.epsBearers r = true := by
      simpa [Pdn.needsBearer] using hneeds
    rw [Pdn.walk, hsplit] at hwalk
    have hlacks : getBearer pdn.epsBearers new.dynRule.qos = none := by
      simpa [served, haction] using hnew
    have hserved := (Fill.start pdn table).takeRules_served gx pdn.callId pdn.defaultBearerId pre hpre
    split_ifs at hserved
    swap
    · rw [hserved] at hwalk
      cases hwalk
    obtain ⟨f₁, hatt, hgo⟩ := hserved
    have hqos : SameQos f₁.bearers pdn.epsBearers := hatt.sameQos
    rw [hgo] at hwalk
    obtain ⟨rfl, rfl⟩ : f₁ = f ∧ new :: post = rules := by
      simpa [Fill.takeRules, haction, hqos.getBearer, hlacks, pure, Except.pure] using hwalk
    rw [hsplit] at hr
    rcases List.mem_append.mp hr with hr | hr
    · have hradd : r.action = .add ∧ getBearer pdn.epsBearers r.dynRule.qos = none := by
        simp only [needsBearer, Bool.and_eq_true, decide_eq_true_eq, Option.isNone_iff_eq_none]
          at hrneeds
        exact ⟨hrneeds.1.2, hrneeds.2⟩
      have hr := hpre r hr
      simp [served, hradd.1, hradd.2] at hr
    · have hstill := hno r hr
      rw [hqos.needsBearer, hrneeds] at hstill
      cases hstill

theorem exists_walkSplit (hneeds : pdn.needsBearer = true)
    (hwalk : pdn.walk gx table = .ok (f, rules)) (hrules : rules ≠ [])
    (hno : ∀ r ∈ rules, needsBearer f.bearers r = false) :
    ∃ pre new mid stop rest, WalkSplit pdn pre new mid stop rest ∧ WalkFits gx pdn pre new mid := by
  obtain hall | ⟨pre, new, post, hsplit, hpre, hnew⟩ :=
    exists_first_unserved pdn.epsBearers pdn.pendingPccRules
  · exact absurd (Fill.left_of_served hall hwalk) hrules
  have hadd := action_new hneeds hwalk hno hsplit hpre hnew
  have hlacks : getBearer pdn.epsBearers new.dynRule.qos = none := by
    simpa [served, hadd] using hnew
  rw [Pdn.walk, hsplit] at hwalk
  have hfirst := walk_atNew gx table hpre hadd hlacks
  by_cases hcan : Fits pdn.epsBearers pre ∧
      CanCreate gx pdn.epsBearers pdn.numBearer pdn.defaultBearerId new.dynRule.qos
  swap
  · rw [hfirst.2 hcan] at hwalk
    cases hwalk
  obtain ⟨f₂, hat⟩ := hfirst.1 hcan
  rw [hat.goes] at hwalk
  obtain hall | ⟨mid, stop, rest, rfl, hmid, hstop⟩ := exists_first_unserved f₂.bearers post
  · exact absurd (Fill.left_of_served hall hwalk) hrules
  have hsecond := f₂.takeRules_served gx pdn.callId pdn.defaultBearerId mid hmid
  split_ifs at hsecond with hfits
  swap
  · rw [hsecond] at hwalk
    cases hwalk
  obtain ⟨f₃, hatt, hgo⟩ := hsecond
  rw [hgo] at hwalk
  cases haction : stop.action with
  | delete => simp [served, haction] at hstop
  | add =>
    have hlacks₃ : getBearer f₃.bearers stop.dynRule.qos = none := by
      rw [hatt.sameQos.getBearer]
      simpa [served, haction] using hstop
    have hisNew : f₃.newBearer.isSome = true := by
      rw [hatt.newBearer]
      exact hat.newBearer
    simp [Fill.takeRules, haction, Fill.findBearer, hlacks₃, hisNew, bind, Except.bind,
      throw, throwThe, MonadExceptOf.throw] at hwalk
  | modify =>
    have hserved : ∀ r ∈ mid, served (pdn.withNew new) r = true := fun r hr => by
      rw [← hat.sameQos.served]
      exact hmid r hr
    have hstays : getBearer (pdn.withNew new) stop.dynRule.qos = none := by
      rw [← hat.sameQos.getBearer]
      simpa [served, haction] using hstop
    exact ⟨pre, new, mid, stop, rest, ⟨hsplit, hpre, hadd, hlacks, hserved, haction, hstays⟩,
      (hat.fits_iff mid hcan.1 hcan.2).mp hfits⟩

theorem fill_resumes_iff (gx : Bool) (table : RuleTable) (hneeds : pdn.needsBearer = true) :
    (∃ pdn' table', fillPfcpGxSessModReq gx pdn table = .ok (pdn', table') ∧
        pdn'.needsBearer = false ∧ pdn'.ruleToDelete table' = .ok true) ↔
      ∃ pre new mid stop rest, WalkSplit pdn pre new mid stop rest ∧ WalkFits gx pdn pre new mid ∧
        (∀ r ∈ rest, needsBearer (pdn.withNew new) r = false) ∧
        DeleteFound pdn.callId (pdn.withNew new)
          (walkTable pdn table pre new mid) (stop :: rest) := by
  constructor
  · rintro ⟨pdn', table', hfill, hno, hdelete⟩
    obtain ⟨f, rules, hwalk, rfl, rfl⟩ := fillPfcpGxSessModReq_eq_ok.mp hfill
    have hfound : DeleteFound pdn.callId f.bearers f.table rules := ruleToDelete_eq_true.mp hdelete
    have hrules : rules ≠ [] := by
      rintro rfl
      obtain ⟨skipped, rule, rest, hsplit, -⟩ := hfound
      simp at hsplit
    have hno' : ∀ r ∈ rules, needsBearer f.bearers r = false := by
      simpa [Pdn.needsBearer] using hno
    obtain ⟨pre, new, mid, stop, rest, hsplit, hfits⟩ := exists_walkSplit hneeds hwalk hrules hno'
    obtain ⟨f', hwalk', hqos, htable⟩ := (hsplit.takeRules table).1 hfits
    obtain ⟨rfl, rfl⟩ : f' = f ∧ stop :: rest = rules := by
      rw [hwalk] at hwalk'
      simpa [eq_comm] using hwalk'
    refine ⟨pre, new, mid, stop, rest, hsplit, hfits, fun r hr => ?_, ?_⟩
    · rw [← hqos.needsBearer]
      exact hno' r (by simp [hr])
    · rw [← htable]
      exact hqos.deleteFound.mp hfound
  · rintro ⟨pre, new, mid, stop, rest, hsplit, hfits, hno, hdelete⟩
    obtain ⟨f, htake, hqos, htable⟩ := (hsplit.takeRules table).1 hfits
    refine ⟨_, _, fillPfcpGxSessModReq_eq_ok.mpr ⟨f, _, htake, rfl, rfl⟩, ?_, ?_⟩
    · have hstop : needsBearer f.bearers stop = false := by
        simp [needsBearer, hsplit.stop_modify]
      simp only [Pdn.needsBearer, List.any_cons, hstop, Bool.false_or, List.any_eq_false]
      intro r hr
      rw [hqos.needsBearer, hno r hr]
      simp
    · rw [htable]
      exact ruleToDelete_eq_true.mpr (hqos.deleteFound.mpr hdelete)

end Walk

end Spgw.Rar
