/-
# One UE context

What the events can do to one UE context. A context is `WellFormed` if it has no PDN connection,
because an allocation has failed, or one that is `Tied` to it: both arrays of bearers are the same,
every bearer in them is allocated, belongs to the PDN connection and stands in one slot, and its
identifier is missing or that of its slot.
-/

import Spgw.Bearer.Events

namespace Spgw.Bearer

open Machine Function
open Session (UePtr PdnPtr deref_some sat_deref_bind)
open Rar (BearerQos DynamicRule PccRule maxBearers)

variable {c c' c'' : UeContext} {p q : PdnPtr} {pdn pdn' : Pdn} {b : BearerPtr}
  {bearer bearer' : EpsBearer} {u : UePtr} {rc : Rules × UeContext}

/-- `p` is the only PDN connection of `c`, and holds the bearers of `c`. -/
structure UeContext.Tied (c : UeContext) (p : PdnPtr) (pdn : Pdn) : Prop where
  get : c.pdnHeap.get p = some pdn
  only : ∀ q pdn', c.pdnHeap.get q = some pdn' → q = p
  numPdns : c.numPdns = 1
  slots : pdn.epsBearers = c.epsBearers
  bearers : ∀ i b, c.epsBearers i = some b → ∃ bearer, c.bearerHeap.get b = some bearer ∧
    bearer.pdn = p ∧ (bearer.epsBearerId = 0 ∨ bearer.epsBearerId = i + 5)
  inj : ∀ i j b, c.epsBearers i = some b → c.epsBearers j = some b → i = j

structure UeContext.Bare (c : UeContext) : Prop where
  pdns : ∀ p, c.pdnHeap.get p = none
  slots : ∀ i, c.epsBearers i = none

def UeContext.WellFormed (c : UeContext) : Prop := c.Bare ∨ ∃ p pdn, c.Tied p pdn

namespace UeContext

theorem WellFormed.tied (h : c.WellFormed) (hp : c.pdnHeap.get p = some pdn) : c.Tied p pdn := by
  rcases h with h | ⟨q, pdn', h⟩
  · rw [h.pdns p] at hp
    cases hp
  · obtain rfl := h.only p pdn hp
    cases h.get.symm.trans hp
    exact h

theorem WellFormed.exists_tied {i : Fin maxBearers} (h : c.WellFormed)
    (hb : c.epsBearers i = some b) : ∃ p pdn, c.Tied p pdn := by
  rcases h with h | h
  · rw [h.slots i] at hb
    cases hb
  · exact h

theorem WellFormed.congr (h : c.WellFormed) (hpdns : c'.pdnHeap = c.pdnHeap)
    (hbearers : c'.bearerHeap = c.bearerHeap) (hslots : c'.epsBearers = c.epsBearers)
    (hnum : c'.numPdns = c.numPdns) : c'.WellFormed := by
  rcases h with h | ⟨p, pdn, h⟩
  · exact .inl ⟨hpdns ▸ h.pdns, hslots ▸ h.slots⟩
  · refine .inr ⟨p, pdn, hpdns ▸ h.get, hpdns ▸ h.only, hnum ▸ h.numPdns, hslots ▸ h.slots, ?_,
      hslots ▸ h.inj⟩
    rw [hslots, hbearers]
    exact h.bearers

theorem Tied.withSlots (h : c.Tied p pdn) {slots : Slots BearerPtr} {n : ℕ}
    {bearers : Heap EpsBearer}
    (hbearers : ∀ i b, slots i = some b → ∃ bearer, bearers.get b = some bearer ∧
      bearer.pdn = p ∧ (bearer.epsBearerId = 0 ∨ bearer.epsBearerId = i + 5))
    (hinj : ∀ i j b, slots i = some b → slots j = some b → i = j) :
    (c.withSlots p pdn slots n bearers).Tied p { pdn with epsBearers := slots, numBearer := n } where
  get := by
    change (c.pdnHeap.set p _).get p = _
    rw [Heap.get_set h.get, if_pos rfl]
  only := by
    intro q pdn' hq
    change (c.pdnHeap.set p _).get q = _ at hq
    rw [Heap.get_set h.get] at hq
    split_ifs at hq with hqp
    · exact hqp
    · exact h.only q pdn' hq
  numPdns := h.numPdns
  slots := rfl
  bearers := hbearers
  inj := hinj

theorem withSlots_self (h : c.Tied p pdn) :
    c.withSlots p pdn c.epsBearers pdn.numBearer c.bearerHeap = c := by
  have hpdn : ({ pdn with epsBearers := c.epsBearers } : Pdn) = pdn := by rw [← h.slots]
  simp only [UeContext.withSlots, hpdn, Heap.set_self h.get]

theorem withSlots_withSlots {slots slots' : Slots BearerPtr} {n n' : ℕ}
    {bearers bearers' : Heap EpsBearer} :
    (c.withSlots p pdn slots n bearers).withSlots p { pdn with epsBearers := slots, numBearer := n }
      slots' n' bearers' = c.withSlots p pdn slots' n' bearers' := by
  simp only [UeContext.withSlots, Heap.set_set]

end UeContext

def Pdn.record (pdn : Pdn) : Pdn := { pdn with defaultBearerQos := {}, pendingPccRules := [] }

theorem Pdn.eq_of_record {α : Type} (f : Pdn → α) (hf : ∀ pdn : Pdn, f pdn.record = f pdn)
    (h : pdn'.record = pdn.record) : f pdn' = f pdn := by
  rw [← hf, h, hf]

def EpsBearer.record (bearer : EpsBearer) : ℕ × PdnPtr := (bearer.epsBearerId, bearer.pdn)

structure UeContext.SameBearers (c c' : UeContext) : Prop where
  imsi : c'.imsi = c.imsi
  teid : c'.s11SgwGtpcTeid = c.s11SgwGtpcTeid
  epsBearers : c'.epsBearers = c.epsBearers
  numPdns : c'.numPdns = c.numPdns
  bearerBitmap : c'.bearerBitmap = c.bearerBitmap
  overwritten : c'.overwritten = c.overwritten
  pdn : ∀ p, (c'.pdnHeap.get p).map Pdn.record = (c.pdnHeap.get p).map Pdn.record
  bearer : ∀ b, (c'.bearerHeap.get b).map EpsBearer.record =
    (c.bearerHeap.get b).map EpsBearer.record

structure UeContext.RulesOnly (c c' : UeContext) : Prop extends UeContext.SameBearers c c' where
  qos : ∀ b, (c'.bearerHeap.get b).map (·.qos) = (c.bearerHeap.get b).map (·.qos)
  policyQos : ∀ p, (c'.pdnHeap.get p).map Pdn.defaultBearerQos =
    (c.pdnHeap.get p).map Pdn.defaultBearerQos

instance decidableExistsSome {α : Type} (P : α → Prop) [DecidablePred P] :
    (o : Option α) → Decidable (∃ a, o = some a ∧ P a)
  | none => isFalse (by rintro ⟨a, h, -⟩; cases h)
  | some a => decidable_of_iff (P a)
      ⟨fun h => ⟨a, rfl, h⟩, by rintro ⟨a', h, hP⟩; exact Option.some.inj h ▸ hP⟩

theorem exists_of_map_eq {α β : Type} {f : α → β} {o o' : Option α} {a : α}
    (h : o'.map f = o.map f) (ha : o = some a) : ∃ a', o' = some a' ∧ f a' = f a := by
  rw [ha, Option.map_some] at h
  exact Option.map_eq_some_iff.mp h

namespace UeContext

theorem SameBearers.refl (c : UeContext) : c.SameBearers c :=
  ⟨rfl, rfl, rfl, rfl, rfl, rfl, fun _ => rfl, fun _ => rfl⟩

theorem SameBearers.trans (h₁ : c.SameBearers c') (h₂ : c'.SameBearers c'') : c.SameBearers c'' where
  imsi := h₂.imsi.trans h₁.imsi
  teid := h₂.teid.trans h₁.teid
  epsBearers := h₂.epsBearers.trans h₁.epsBearers
  numPdns := h₂.numPdns.trans h₁.numPdns
  bearerBitmap := h₂.bearerBitmap.trans h₁.bearerBitmap
  overwritten := h₂.overwritten.trans h₁.overwritten
  pdn p := (h₂.pdn p).trans (h₁.pdn p)
  bearer b := (h₂.bearer b).trans (h₁.bearer b)

theorem SameBearers.symm (h : c.SameBearers c') : c'.SameBearers c where
  imsi := h.imsi.symm
  teid := h.teid.symm
  epsBearers := h.epsBearers.symm
  numPdns := h.numPdns.symm
  bearerBitmap := h.bearerBitmap.symm
  overwritten := h.overwritten.symm
  pdn p := (h.pdn p).symm
  bearer b := (h.bearer b).symm

theorem RulesOnly.refl (c : UeContext) : c.RulesOnly c := ⟨.refl c, fun _ => rfl, fun _ => rfl⟩

theorem RulesOnly.trans (h₁ : c.RulesOnly c') (h₂ : c'.RulesOnly c'') : c.RulesOnly c'' :=
  ⟨h₁.toSameBearers.trans h₂.toSameBearers, fun b => (h₂.qos b).trans (h₁.qos b),
    fun p => (h₂.policyQos p).trans (h₁.policyQos p)⟩

theorem SameBearers.exists_pdn (h : c.SameBearers c') (hp : c.pdnHeap.get p = some pdn) :
    ∃ pdn', c'.pdnHeap.get p = some pdn' ∧ pdn'.record = pdn.record :=
  exists_of_map_eq (h.pdn p) hp

theorem SameBearers.exists_bearer (h : c.SameBearers c') (hb : c.bearerHeap.get b = some bearer) :
    ∃ bearer', c'.bearerHeap.get b = some bearer' ∧ bearer'.record = bearer.record :=
  exists_of_map_eq (h.bearer b) hb

theorem sameBearers_setBearer (hb : c.bearerHeap.get b = some bearer)
    (hrecord : bearer'.record = bearer.record) :
    c.SameBearers { c with bearerHeap := c.bearerHeap.set b bearer' } where
  imsi := rfl
  teid := rfl
  epsBearers := rfl
  numPdns := rfl
  bearerBitmap := rfl
  overwritten := rfl
  pdn _ := rfl
  bearer _ := Heap.map_get_set hb hrecord

theorem sameBearers_setPdn (hp : c.pdnHeap.get p = some pdn) (hrecord : pdn'.record = pdn.record) :
    c.SameBearers { c with pdnHeap := c.pdnHeap.set p pdn' } where
  imsi := rfl
  teid := rfl
  epsBearers := rfl
  numPdns := rfl
  bearerBitmap := rfl
  overwritten := rfl
  pdn _ := Heap.map_get_set hp hrecord
  bearer _ := rfl

theorem rulesOnly_setBearer (hb : c.bearerHeap.get b = some bearer)
    (hrecord : bearer'.record = bearer.record) (hqos : bearer'.qos = bearer.qos) :
    c.RulesOnly { c with bearerHeap := c.bearerHeap.set b bearer' } :=
  ⟨sameBearers_setBearer hb hrecord, fun _ => Heap.map_get_set (f := fun e => e.qos) hb hqos,
    fun _ => rfl⟩

theorem rulesOnly_setPending (hp : c.pdnHeap.get p = some pdn) (rules : List PccRule) :
    c.RulesOnly (c.setPending p pdn rules) :=
  ⟨sameBearers_setPdn hp rfl, fun _ => rfl, fun _ => Heap.map_get_set hp rfl⟩

theorem RulesOnly.getBearer_eq (h : c.RulesOnly c') (hslots : pdn'.epsBearers = pdn.epsBearers)
    (qos : BearerQos) : c'.getBearer pdn' qos = c.getBearer pdn qos := by
  have hview (i : Fin maxBearers) :
      ((c'.rarBearers pdn' i).map fun e => e.qos) = (c.rarBearers pdn i).map fun e => e.qos := by
    cases hb : pdn.epsBearers i with
    | none => simp only [rarBearers, hslots, hb, Option.bind_none, Option.map_none]
    | some b =>
      simp only [rarBearers, hslots, hb, Option.bind_some, Option.map_map]
      exact h.qos b
  have hfind : Rar.getBearer (c'.rarBearers pdn') qos = Rar.getBearer (c.rarBearers pdn) qos := by
    unfold Rar.getBearer
    congr 1
    funext i
    have hi := hview i
    cases ho : c.rarBearers pdn i <;> cases ho' : c'.rarBearers pdn' i <;> rw [ho, ho'] at hi
    · cases hi
    · cases hi
    · simp only [Option.map_some, Option.some.injEq] at hi
      simp only [hi]
  rw [getBearer, getBearer, hfind, hslots]

end UeContext

/-- `c'` is `c` with a new bearer of `p`, and with rules on it. -/
def UeContext.Grows (c : UeContext) (p : PdnPtr) (c' : UeContext) : Prop :=
  ∃ (pdn : Pdn) (hn : pdn.numBearer < maxBearers) (qos : BearerQos),
    c.pdnHeap.get p = some pdn ∧ (c.addBearer p pdn ⟨pdn.numBearer, hn⟩ qos).RulesOnly c'

theorem UeContext.Grows.trans_rulesOnly (h : c.Grows p c') (h' : c'.RulesOnly c'') :
    c.Grows p c'' := by
  obtain ⟨pdn, hn, qos, hp, hadd⟩ := h
  exact ⟨pdn, hn, qos, hp, hadd.trans h'⟩

theorem sat_createBearer (gx : Bool) (c : UeContext) (p : PdnPtr) (qos : BearerQos) :
    Sat (createBearer gx c p qos) (fun r => gx = false ∧ c.Grows p r.1) AnyFault := by
  unfold createBearer
  refine sat_deref_bind fun pdn hp => ?_
  split_ifs with hn hgx
  · exact (sat_true _).bind fun i _ => (sat_true _).bind fun b _ => trivial
  · refine (sat_true _).bind fun i _ => (sat_true _).bind fun b _ => ?_
    exact ⟨Bool.eq_false_of_not_eq_true hgx, pdn, hn, qos, hp, .refl _⟩
  · trivial

theorem sat_addAmbrQer (gx : Bool) (u : UePtr) (pdn : Pdn) (rc : Rules × UeContext) :
    Sat (addAmbrQer gx u pdn rc) (fun rc' => rc.2.RulesOnly rc'.2) AnyFault := by
  unfold addAmbrQer
  split_ifs
  · exact UeContext.RulesOnly.refl _
  · refine (sat_true _).bind fun i _ => (sat_true _).bind fun b _ => ?_
    refine sat_deref_bind fun bearer hb => ?_
    split_ifs
    · exact UeContext.RulesOnly.refl _
    · trivial
    · exact UeContext.rulesOnly_setBearer hb rfl rfl

theorem sat_installRule (gx : Bool) (u : UePtr) (pdn : Pdn) (rc : Rules × UeContext)
    (b : BearerPtr) (rule : DynamicRule) :
    Sat (installRule gx u pdn rc b rule) (fun rc' => rc.2.RulesOnly rc'.2) AnyFault := by
  unfold installRule
  refine (sat_addAmbrQer ..).bind ?_
  rintro ⟨r, c⟩ hc
  refine sat_deref_bind fun bearer hb => ?_
  split_ifs
  · trivial
  · exact UeContext.RulesOnly.trans hc (UeContext.rulesOnly_setBearer hb rfl rfl)

theorem sat_attachRule (u : UePtr) (pdn : Pdn) (rc : Rules × UeContext) (b : BearerPtr)
    (bearerId : ℕ) (rule : DynamicRule) :
    Sat (attachRule u pdn rc b bearerId rule) (fun rc' => rc.2.RulesOnly rc'.2) AnyFault := by
  unfold attachRule
  refine sat_deref_bind fun bearer hb => ?_
  have hattach : Sat (bearer.toEpsBearer.attach rule)
      (fun e => e.epsBearerId = bearer.epsBearerId ∧ e.qos = bearer.qos) AnyFault := by
    unfold Rar.EpsBearer.attach
    split_ifs
    · exact ⟨rfl, rfl⟩
    · trivial
  refine hattach.bind fun attached h => ?_
  exact UeContext.rulesOnly_setBearer hb (Prod.ext h.1 rfl) h.2

def UeContext.LacksBearer (c : UeContext) (p : PdnPtr) (rule : PccRule) : Prop :=
  ∃ pdn, c.pdnHeap.get p = some pdn ∧ pdn.defaultBearerQos ≠ rule.dynRule.qos ∧
    c.getBearer pdn rule.dynRule.qos = none

instance (c : UeContext) (p : PdnPtr) (rule : PccRule) : Decidable (c.LacksBearer p rule) :=
  inferInstanceAs (Decidable (∃ pdn, c.pdnHeap.get p = some pdn ∧ _))

theorem sat_establishRule (gx : Bool) (u : UePtr) (p : PdnPtr) (rc : Rules × UeContext)
    (rule : PccRule) :
    Sat (establishRule gx u p rc rule)
      (fun rc' => (¬ rc.2.LacksBearer p rule ∧ rc.2.RulesOnly rc'.2) ∨
        (rc.2.LacksBearer p rule ∧ gx = false ∧ rc.2.Grows p rc'.2)) AnyFault := by
  unfold establishRule
  refine sat_deref_bind fun pdn hp => ?_
  have hserved (h : ¬ (pdn.defaultBearerQos ≠ rule.dynRule.qos ∧
      rc.2.getBearer pdn rule.dynRule.qos = none)) : ¬ rc.2.LacksBearer p rule := by
    rintro ⟨pdn', hp', hlacks⟩
    cases hp.symm.trans hp'
    exact h hlacks
  split_ifs with hqos
  · refine (sat_true _).bind fun i _ => (sat_true _).bind fun b _ => ?_
    refine (sat_installRule ..).mono fun rc' hrc => .inl ⟨hserved ?_, hrc⟩
    exact fun h => h.1 hqos
  · cases hb : rc.2.getBearer pdn rule.dynRule.qos with
    | some b =>
      refine (sat_installRule ..).mono fun rc' hrc => .inl ⟨hserved ?_, hrc⟩
      rw [hb]
      exact fun h => nomatch h.2
    | none =>
      refine (sat_createBearer ..).bind ?_
      rintro ⟨c, b⟩ ⟨hgx, hgrows⟩
      refine (sat_true _).bind fun pdn' _ => ?_
      refine (sat_installRule ..).mono fun rc' hrc => .inr ⟨⟨pdn, hp, hqos, hb⟩, hgx, ?_⟩
      exact UeContext.Grows.trans_rulesOnly hgrows hrc

theorem sat_takeRules (gx : Bool) (u : UePtr) (p : PdnPtr) (rules : List PccRule) (f : Fill) :
    Sat (f.takeRules gx u p rules) (fun r => (f.context.RulesOnly r.1.context ∧
          ∀ pdn, f.context.pdnHeap.get p = some pdn → ∀ rule ∈ rules, rule.action = .add →
            f.context.getBearer pdn rule.dynRule.qos = none → rule ∈ r.2) ∨
        (f.newBearer = false ∧ gx = false ∧
          ∃ c, f.context.RulesOnly c ∧ c.Grows p r.1.context)) AnyFault := by
  induction rules generalizing f with
  | nil => exact .inl ⟨.refl _, fun _ _ rule hrule => nomatch hrule⟩
  | cons rule rules ih =>
    rw [Fill.takeRules]
    refine sat_deref_bind fun pdn hp => ?_
    -- A rule that is taken off the list has a bearer, or is not to be added.
    have htail {f' : Fill} (hf : f.context.RulesOnly f'.context) (hnew : f'.newBearer = f.newBearer)
        (hrule : rule.action = .add → f.context.getBearer pdn rule.dynRule.qos ≠ none) :
        Sat (f'.takeRules gx u p rules) (fun r => (f.context.RulesOnly r.1.context ∧
              ∀ pdn, f.context.pdnHeap.get p = some pdn → ∀ rule' ∈ rule :: rules,
                rule'.action = .add → f.context.getBearer pdn rule'.dynRule.qos = none →
                rule' ∈ r.2) ∨
            (f.newBearer = false ∧ gx = false ∧
              ∃ c, f.context.RulesOnly c ∧ c.Grows p r.1.context)) AnyFault := by
      refine (ih f').mono ?_
      rintro r (⟨hr, hleft⟩ | ⟨hnew', hgx, c, hc, hgrows⟩)
      · refine .inl ⟨hf.trans hr, ?_⟩
        intro pdn₁ hp₁ rule' hmem hadd hnone
        cases hp.symm.trans hp₁
        obtain ⟨pdn', hp', hrecord⟩ := hf.exists_pdn hp
        have hslots := Pdn.eq_of_record Pdn.epsBearers (fun _ => rfl) hrecord
        rcases List.mem_cons.mp hmem with rfl | hmem
        · exact absurd hnone (hrule hadd)
        · refine hleft pdn' hp' rule' hmem hadd ?_
          rw [hf.getBearer_eq hslots, hnone]
      · exact .inr ⟨hnew ▸ hnew', hgx, c, hf.trans hc, hgrows⟩
    cases haction : rule.action with
    | add =>
      cases hb : f.context.getBearer pdn rule.dynRule.qos with
      | some b =>
        refine (sat_attachRule ..).bind ?_
        rintro ⟨r, c⟩ hc
        exact htail hc rfl fun _ => by rw [hb]; exact nofun
      | none =>
        simp only
        split_ifs with hnew
        · trivial
        · refine (sat_createBearer ..).bind ?_
          rintro ⟨c, b⟩ ⟨hgx, hgrows⟩
          refine (sat_attachRule ..).bind ?_
          rintro ⟨r, c'⟩ hc'
          refine (ih _).mono ?_
          rintro ⟨f', left⟩ (⟨hf', -⟩ | ⟨hnew', -⟩)
          · refine .inr ⟨Bool.eq_false_of_not_eq_true hnew, hgx, f.context, .refl _, ?_⟩
            exact (hgrows.trans_rulesOnly hc').trans_rulesOnly hf'
          · cases hnew'
    | modify =>
      simp only
      split_ifs with hb
      · exact htail (.refl _) rfl fun h => absurd (haction ▸ h) (by decide)
      · refine .inl ⟨.refl _, fun pdn' hp' rule' hmem _ _ => hmem⟩
    | delete => exact htail (.refl _) rfl fun h => absurd (haction ▸ h) (by decide)

/-- One of the PDN connections has the key `k`. -/
def UeContext.Names {κ : Type} (key : Pdn → κ) (c : UeContext) (k : κ) : Prop :=
  ∃ p pdn, c.pdnHeap.get p = some pdn ∧ key pdn = k

structure UeContext.Keeps (c c' : UeContext) : Prop where
  imsi : c'.imsi = c.imsi
  teid : c'.s11SgwGtpcTeid = c.s11SgwGtpcTeid
  pdn : ∀ p pdn, c.pdnHeap.get p = some pdn → ∃ pdn', c'.pdnHeap.get p = some pdn' ∧
    pdn'.seid = pdn.seid ∧ pdn'.callId = pdn.callId ∧ pdn'.gxSessId = pdn.gxSessId
  wellFormed : c.WellFormed → c'.WellFormed

namespace UeContext

theorem Keeps.refl (c : UeContext) : c.Keeps c :=
  ⟨rfl, rfl, fun _ pdn hp => ⟨pdn, hp, rfl, rfl, rfl⟩, id⟩

theorem Keeps.trans (h₁ : c.Keeps c') (h₂ : c'.Keeps c'') : c.Keeps c'' where
  imsi := h₂.imsi.trans h₁.imsi
  teid := h₂.teid.trans h₁.teid
  pdn p pdn hp := by
    obtain ⟨pdn', hp', hseid, hcall, hgx⟩ := h₁.pdn p pdn hp
    obtain ⟨pdn'', hp'', hseid', hcall', hgx'⟩ := h₂.pdn p pdn' hp'
    exact ⟨pdn'', hp'', hseid'.trans hseid, hcall'.trans hcall, hgx'.trans hgx⟩
  wellFormed := h₂.wellFormed ∘ h₁.wellFormed

theorem Tied.names_iff {κ : Type} {key : Pdn → κ} {k : κ} (h : c.Tied p pdn) :
    c.Names key k ↔ key pdn = k := by
  constructor
  · rintro ⟨q, pdn', hq, rfl⟩
    obtain rfl := h.only q pdn' hq
    rw [Option.some.inj (h.get.symm.trans hq)]
  · exact fun hk => ⟨p, pdn, h.get, hk⟩

theorem SameBearers.wellFormed (h : c.SameBearers c') (hc : c.WellFormed) : c'.WellFormed := by
  rcases hc with hc | ⟨p, pdn, hc⟩
  · refine .inl ⟨fun p => ?_, fun i => h.epsBearers ▸ hc.slots i⟩
    simpa [hc.pdns p] using h.pdn p
  · obtain ⟨pdn', hp', hrecord⟩ := h.exists_pdn hc.get
    refine .inr ⟨p, pdn', hp', ?_, h.numPdns.trans hc.numPdns, ?_, ?_, ?_⟩
    · intro q pdn₁ hq
      obtain ⟨pdn₂, hq', -⟩ := h.symm.exists_pdn hq
      exact hc.only q pdn₂ hq'
    · rw [h.epsBearers, ← hc.slots]
      exact Pdn.eq_of_record Pdn.epsBearers (fun _ => rfl) hrecord
    · intro i b hb
      rw [h.epsBearers] at hb
      obtain ⟨bearer, hget, hpdn, hebi⟩ := hc.bearers i b hb
      obtain ⟨bearer', hget', hrec⟩ := h.exists_bearer hget
      obtain ⟨hid, hown⟩ := Prod.mk.inj hrec
      exact ⟨bearer', hget', hown.trans hpdn, hid ▸ hebi⟩
    · rw [h.epsBearers]
      exact hc.inj

theorem SameBearers.keeps (h : c.SameBearers c') : c.Keeps c' where
  imsi := h.imsi
  teid := h.teid
  pdn p pdn hp := by
    obtain ⟨pdn', hp', hrecord⟩ := h.exists_pdn hp
    exact ⟨pdn', hp', Pdn.eq_of_record Pdn.seid (fun _ => rfl) hrecord,
      Pdn.eq_of_record Pdn.callId (fun _ => rfl) hrecord,
      Pdn.eq_of_record Pdn.gxSessId (fun _ => rfl) hrecord⟩
  wellFormed := h.wellFormed

theorem exists_pdn_set (hp : c.pdnHeap.get p = some pdn) (hseid : pdn'.seid = pdn.seid)
    (hcall : pdn'.callId = pdn.callId) (hgx : pdn'.gxSessId = pdn.gxSessId) (q : PdnPtr) (pdn₁ : Pdn)
    (hq : c.pdnHeap.get q = some pdn₁) : ∃ pdn₂, (c.pdnHeap.set p pdn').get q = some pdn₂ ∧
      pdn₂.seid = pdn₁.seid ∧ pdn₂.callId = pdn₁.callId ∧ pdn₂.gxSessId = pdn₁.gxSessId := by
  rw [Heap.get_set hp]
  split_ifs with hqp
  · obtain rfl := Option.some.inj (hp.symm.trans (hqp ▸ hq))
    exact ⟨pdn', rfl, hseid, hcall, hgx⟩
  · exact ⟨pdn₁, hq, rfl, rfl, rfl⟩

theorem keeps_addBearer (hp : c.pdnHeap.get p = some pdn) (slot : Fin maxBearers)
    (qos : BearerQos) : c.Keeps (c.addBearer p pdn slot qos) where
  imsi := rfl
  teid := rfl
  pdn := exists_pdn_set hp rfl rfl rfl
  wellFormed hc := by
    have h := hc.tied hp
    -- The pointer of the new bearer is in no slot yet.
    have hfresh {i : Fin maxBearers} {b : BearerPtr} (hb : c.epsBearers i = some b) :
        b ≠ c.bearerHeap.next := by
      obtain ⟨bearer, hget, -⟩ := h.bearers i b hb
      exact Nat.ne_of_lt (Heap.lt_next_of_get hget)
    have heq : c.addBearer p pdn slot qos =
        { c.withSlots p pdn (update c.epsBearers slot (some c.bearerHeap.next))
            ((pdn.numBearer + 1) % 256) (c.bearerHeap.alloc { qos, pdn := p }) with
          overwritten := c.overwritten ++ (c.epsBearers slot).toList } := by
      simp only [addBearer, withSlots, h.slots]
    suffices hwf : (c.withSlots p pdn (update c.epsBearers slot (some c.bearerHeap.next))
        ((pdn.numBearer + 1) % 256) (c.bearerHeap.alloc { qos, pdn := p })).WellFormed by
      rw [heq]
      exact hwf.congr rfl rfl rfl rfl
    refine .inr ⟨p, _, h.withSlots ?_ ?_⟩
    · intro i b hb
      rw [update_apply] at hb
      split_ifs at hb with hi
      · cases hb
        exact ⟨_, by rw [Heap.get_alloc, if_pos rfl], rfl, .inl rfl⟩
      · obtain ⟨bearer, hget, hrest⟩ := h.bearers i b hb
        exact ⟨bearer, by rw [Heap.get_alloc, if_neg (hfresh hb), hget], hrest⟩
    · intro i j b hi hj
      rw [update_apply] at hi hj
      split_ifs at hi hj with hi' hj' hj'
      · rw [hi', hj']
      · exact absurd (Option.some.inj hi).symm (hfresh hj)
      · exact absurd (Option.some.inj hj).symm (hfresh hi)
      · exact h.inj i j b hi hj

theorem Grows.keeps (h : c.Grows p c') : c.Keeps c' := by
  obtain ⟨pdn, hn, qos, hp, hrules⟩ := h
  exact (keeps_addBearer hp _ qos).trans hrules.keeps

theorem keeps_setEbi {i : Fin maxBearers} {b : BearerPtr} {bearer : EpsBearer}
    (hb : c.epsBearers i = some b) (hget : c.bearerHeap.get b = some bearer) :
    c.Keeps { c with bearerHeap := c.bearerHeap.set b { bearer with epsBearerId := i + 5 } } where
  imsi := rfl
  teid := rfl
  pdn _ pdn hp := ⟨pdn, hp, rfl, rfl, rfl⟩
  wellFormed hc := by
    obtain ⟨p, pdn, h⟩ := hc.exists_tied hb
    refine .inr ⟨p, pdn, h.get, h.only, h.numPdns, h.slots, ?_, h.inj⟩
    intro j b' hj
    obtain ⟨bearer', hget', hpdn, hebi⟩ := h.bearers j b' hj
    change ∃ bearer₁, (c.bearerHeap.set b _).get b' = some bearer₁ ∧ _
    rw [Heap.get_set hget]
    split_ifs with hbb
    · subst hbb
      obtain rfl := h.inj i j b' hb hj
      cases hget.symm.trans hget'
      exact ⟨_, rfl, hpdn, .inr rfl⟩
    · exact ⟨bearer', hget', hpdn, hebi⟩

end UeContext

def UeContext.Unnamed (c : UeContext) : Prop :=
  ∃ i b bearer, c.epsBearers i = some b ∧ c.bearerHeap.get b = some bearer ∧ bearer.epsBearerId = 0

namespace UeContext

theorem SameBearers.unnamed (h : c.SameBearers c') (hc : c.Unnamed) : c'.Unnamed := by
  obtain ⟨i, b, bearer, hb, hget, hebi⟩ := hc
  obtain ⟨bearer', hget', hrecord⟩ := h.exists_bearer hget
  exact ⟨i, b, bearer', h.epsBearers ▸ hb, hget', (Prod.mk.inj hrecord).1.trans hebi⟩

theorem Grows.unnamed (h : c.Grows p c') : c'.Unnamed := by
  obtain ⟨pdn, hn, qos, hp, hrules⟩ := h
  refine hrules.unnamed ⟨⟨pdn.numBearer, hn⟩, c.bearerHeap.next, { qos, pdn := p }, ?_, ?_, rfl⟩
  · exact update_self ..
  · change (c.bearerHeap.alloc _).get c.bearerHeap.next = _
    rw [Heap.get_alloc, if_pos rfl]

theorem RulesOnly.lacksBearer_iff (h : c.RulesOnly c') (rule : PccRule) :
    c'.LacksBearer p rule ↔ c.LacksBearer p rule := by
  constructor
  · rintro ⟨pdn', hp', hqos, hnone⟩
    obtain ⟨pdn, hp, hrecord⟩ := h.symm.exists_pdn hp'
    have hslots := Pdn.eq_of_record Pdn.epsBearers (fun _ => rfl) hrecord.symm
    have hpolicy := h.policyQos p
    rw [hp, hp', Option.map_some, Option.map_some, Option.some.injEq] at hpolicy
    exact ⟨pdn, hp, hpolicy ▸ hqos, (h.getBearer_eq hslots _).symm.trans hnone⟩
  · rintro ⟨pdn, hp, hqos, hnone⟩
    obtain ⟨pdn', hp', hrecord⟩ := h.exists_pdn hp
    have hslots := Pdn.eq_of_record Pdn.epsBearers (fun _ => rfl) hrecord
    have hpolicy := h.policyQos p
    rw [hp, hp', Option.map_some, Option.map_some, Option.some.injEq] at hpolicy
    exact ⟨pdn', hp', hpolicy ▸ hqos, (h.getBearer_eq hslots _).trans hnone⟩

end UeContext

theorem sat_establishRules (gx : Bool) (u : UePtr) (p : PdnPtr) (rules : List PccRule)
    (rc : Rules × UeContext) :
    Sat (rules.foldlM (establishRule gx u p) rc) (fun rc' => rc.2.Keeps rc'.2 ∧
        (((∀ rule ∈ rules, ¬ rc.2.LacksBearer p rule) ∧ rc.2.RulesOnly rc'.2) ∨
          ((∃ rule ∈ rules, rc.2.LacksBearer p rule) ∧ gx = false ∧ rc'.2.Unnamed)))
      AnyFault := by
  induction rules generalizing rc with
  | nil => exact ⟨.refl _, .inl ⟨fun _ h => (nomatch h), .refl _⟩⟩
  | cons rule rules ih =>
    rw [List.foldlM_cons]
    refine (sat_establishRule gx u p rc rule).bind ?_
    rintro rc₁ (⟨hrule, h₁⟩ | ⟨hrule, hgx, h₁⟩)
    · refine (ih rc₁).mono ?_
      rintro rc₂ ⟨hkeeps, ⟨hrules, h₂⟩ | ⟨⟨rule', hmem, hlacks⟩, hgx, hunnamed⟩⟩
      · refine ⟨h₁.keeps.trans hkeeps, .inl ⟨?_, h₁.trans h₂⟩⟩
        intro rule' hmem
        rcases List.mem_cons.mp hmem with rfl | hmem
        · exact hrule
        · exact fun hlacks => hrules rule' hmem ((h₁.lacksBearer_iff rule').mpr hlacks)
      · refine ⟨h₁.keeps.trans hkeeps, .inr ⟨⟨rule', ?_, ?_⟩, hgx, hunnamed⟩⟩
        · exact List.mem_cons_of_mem rule hmem
        · exact (h₁.lacksBearer_iff rule').mp hlacks
    · refine (ih rc₁).mono ?_
      rintro rc₂ ⟨hkeeps, hrest⟩
      refine ⟨h₁.keeps.trans hkeeps, .inr ⟨⟨rule, List.mem_cons_self .., hrule⟩, hgx, ?_⟩⟩
      rcases hrest with ⟨-, h₂⟩ | ⟨-, -, hunnamed⟩
      · exact h₂.unnamed h₁.unnamed
      · exact hunnamed

def UeContext.LacksPending (c : UeContext) (p : PdnPtr) : Prop :=
  ∃ pdn, c.pdnHeap.get p = some pdn ∧ ∃ rule ∈ pdn.pendingPccRules, c.LacksBearer p rule

instance (c : UeContext) (p : PdnPtr) : Decidable (c.LacksPending p) :=
  inferInstanceAs (Decidable (∃ pdn, c.pdnHeap.get p = some pdn ∧ _))

theorem sat_fillPfcpSessEstReq (gx upfFound : Bool) (u : UePtr) (p : PdnPtr)
    (rc : Rules × UeContext) :
    Sat (fillPfcpSessEstReq gx upfFound u p rc) (fun rc' => rc.2.Keeps rc'.2 ∧
        ((¬ (upfFound ∧ rc.2.LacksPending p) ∧ rc.2.RulesOnly rc'.2) ∨
          ((upfFound ∧ rc.2.LacksPending p) ∧ gx = false ∧ rc'.2.Unnamed)))
      AnyFault := by
  unfold fillPfcpSessEstReq
  split_ifs with hupf
  · exact ⟨.refl _, .inl ⟨fun h => by simp [hupf] at h, .refl _⟩⟩
  · refine sat_deref_bind fun pdn hp => ?_
    split_ifs
    · trivial
    · have hset := UeContext.rulesOnly_setPending hp []
      refine (sat_establishRules ..).mono ?_
      rintro rc' ⟨hkeeps, ⟨hrules, h⟩ | ⟨⟨rule, hmem, hlacks⟩, hgx, hunnamed⟩⟩
      · refine ⟨hset.keeps.trans hkeeps, .inl ⟨?_, hset.trans h⟩⟩
        rintro ⟨-, pdn', hp', rule, hmem, hlacks⟩
        cases hp.symm.trans hp'
        exact hrules rule hmem ((hset.lacksBearer_iff rule).mpr hlacks)
      · refine ⟨hset.keeps.trans hkeeps, .inr ⟨⟨?_, pdn, hp, rule, hmem, ?_⟩, hgx, hunnamed⟩⟩
        · simpa using hupf
        · exact (hset.lacksBearer_iff rule).mp hlacks

theorem UeContext.rarGetBearer_isNone (c : UeContext) (pdn : Pdn) (qos : BearerQos) :
    (Rar.getBearer (c.rarBearers pdn) qos).isNone ↔ c.getBearer pdn qos = none := by
  cases hfind : Rar.getBearer (c.rarBearers pdn) qos with
  | none => simp [getBearer, hfind]
  | some i =>
    have hi := List.find?_some hfind
    cases hb : pdn.epsBearers i with
    | none => simp [rarBearers, hb] at hi
    | some b => simp [getBearer, hfind, hb]

theorem UeContext.needsBearer_iff (c : UeContext) (pdn : Pdn) :
    (c.policy pdn).needsBearer = true ↔ ∃ rule ∈ pdn.pendingPccRules,
      rule.opPending = false ∧ rule.action = .add ∧ c.getBearer pdn rule.dynRule.qos = none := by
  simp only [Rar.Pdn.needsBearer, List.any_eq_true, Rar.needsBearer, Bool.and_eq_true,
    Bool.not_eq_true', decide_eq_true_eq, policy, c.rarGetBearer_isNone pdn, and_assoc]

theorem sat_activateBearers (gx admitted : Bool) (u : UePtr) (p : PdnPtr) (rc : Rules × UeContext) :
    Sat (activateBearers gx admitted u p rc)
      (fun rc' => rc.2.Keeps rc'.2 ∧ ∃ pdn, rc.2.pdnHeap.get p = some pdn ∧
        (((rc.2.policy pdn).needsBearer = false ∧ rc'.2 = rc.2) ∨
          ((rc.2.policy pdn).needsBearer = true ∧ gx = false ∧ rc'.2.Unnamed)))
      AnyFault := by
  unfold activateBearers
  refine sat_deref_bind fun pdn hp => ?_
  split_ifs with hneeds hadmitted
  · exact ⟨.refl _, pdn, hp, .inl ⟨hneeds, rfl⟩⟩
  · trivial
  · unfold fillPfcpGxSessModReq
    simp only [bind_assoc, pure_bind]
    refine sat_deref_bind fun pdn' hp' => ?_
    cases hp.symm.trans hp'
    refine (sat_takeRules ..).bind ?_
    rintro ⟨f, left⟩ hwalk
    refine sat_deref_bind fun pdn₁ hp₁ => ?_
    have hset := UeContext.rulesOnly_setPending hp₁ left
    have hp₂ : (f.context.setPending p pdn₁ left).pdnHeap.get p =
        some { pdn₁ with pendingPccRules := left } := by
      change (f.context.pdnHeap.set p _).get p = _
      rw [Heap.get_set hp₁, if_pos rfl]
    rw [hp₂, deref_some, pure_bind]
    split_ifs with hmore
    · trivial
    · rcases hwalk with ⟨h, hleft⟩ | ⟨-, hgx, c, hc, hgrows⟩
      · -- Without a new bearer the rule that needs one is still on the list.
        exfalso
        obtain ⟨rule, hmem, hop, hadd, hnone⟩ :=
          (rc.2.needsBearer_iff pdn).mp (Bool.eq_true_of_not_eq_false hneeds)
        refine hmore (((f.context.setPending p pdn₁ left).needsBearer_iff _).mpr
          ⟨rule, hleft pdn hp rule hmem hadd hnone, hop, hadd, ?_⟩)
        obtain ⟨pdn', hp', hrecord⟩ := h.exists_pdn hp
        cases hp₁.symm.trans hp'
        have hslots : ({ pdn₁ with pendingPccRules := left } : Pdn).epsBearers = pdn.epsBearers :=
          Pdn.eq_of_record Pdn.epsBearers (fun _ => rfl) hrecord
        rw [(h.trans hset).getBearer_eq hslots, hnone]
      · refine ⟨(hc.keeps.trans hgrows.keeps).trans hset.keeps, pdn, hp, .inr ⟨?_, hgx, ?_⟩⟩
        · exact Bool.eq_true_of_not_eq_false hneeds
        · exact hset.unnamed hgrows.unnamed

end Spgw.Bearer
