/-
# Which bearer holds which rule

The loop over the pending rules in `fill_pfcp_sess_est_req` is a placement of rules in the slots of
the PDN connection (`Spgw.Lib.Placement`).
-/

import Spgw.Lib.Gathered
import Spgw.Sx.Establish

namespace Spgw.Sx

open Function

open Machine
open Session (deref deref_bind_eq_ok deref_some)
open Rar (BearerQos maxBearers)

abbrev HeldRule := Placement.Entry maxBearers DynamicRule

abbrev Spread := Placement.State maxBearers BearerQos DynamicRule

namespace Attach

variable (a : Attach)

def policy : Placement.Policy maxBearers BearerQos DynamicRule where
  key rule := rule.qos
  home := a.pdn.defaultBearer
  key₀ := a.qos
  pinned := a.pdn.defaultBearerQos
  first := 1
  opens := !a.cfg.gxEnabled

def ambrCount : ℕ := if a.cfg.gxEnabled then 1 else 0

/-- The counters when the rule with number `k` is reached. -/
def idsAt (k : ℕ) : RuleIds where
  pdr := a.ids.pdr + 2 * k
  far := a.ids.far + 2 * k
  qer := a.ids.qer + a.ambrCount + 2 * k
  urr := a.ids.urr + 2 * k

def ambrQers (i : Fin maxBearers) : List ℕ :=
  if a.cfg.gxEnabled ∧ i = a.pdn.defaultBearer then [a.ids.generateQerId commonMark] else []

def made (make : RuleIds → ℕ → ℕ) (entries : List HeldRule) : List ℕ :=
  entries.flatMap fun e =>
    [make (a.idsAt e.index) SourceInterface.access.mark,
      make (a.idsAt e.index).next SourceInterface.core.mark]

def pdrOf (teid : ℕ) (qers urrs : List ℕ) (iface : SourceInterface) (ids : RuleIds)
    (rule : DynamicRule) : Pdr :=
  fillPdrEntry a.cfg a.pdn { s1uSgw := ⟨teid, 0⟩, qerIds := qers, urrIds := urrs } iface ids rule

def pdrsFrom (teid : ℕ) : List ℕ → List ℕ → List HeldRule → List Pdr
  | _, _, [] => []
  | qers, urrs, e :: entries =>
    let ids := a.idsAt e.index
    a.pdrOf teid qers urrs .access ids e.item ::
      a.pdrOf teid (qers ++ [ids.generateQerId SourceInterface.access.mark])
        (urrs ++ [ids.generateUrrId SourceInterface.access.mark]) .core ids.next e.item ::
      pdrsFrom teid (qers ++ a.made RuleIds.generateQerId [e])
        (urrs ++ a.made RuleIds.generateUrrId [e]) entries

variable {a}

theorem made_append (make : RuleIds → ℕ → ℕ) (l₁ l₂ : List HeldRule) :
    a.made make (l₁ ++ l₂) = a.made make l₁ ++ a.made make l₂ :=
  List.flatMap_append

theorem made_cons (make : RuleIds → ℕ → ℕ) (e : HeldRule) (entries : List HeldRule) :
    a.made make (e :: entries) = a.made make [e] ++ a.made make entries :=
  made_append make [e] entries

@[simp]
theorem length_made (make : RuleIds → ℕ → ℕ) (entries : List HeldRule) :
    (a.made make entries).length = 2 * entries.length := by
  induction entries with
  | nil => rfl
  | cons e entries ih =>
    rw [made_cons, List.length_append, ih, List.length_cons]
    change 2 + 2 * entries.length = _
    omega

theorem pdrsFrom_append (teid : ℕ) (l₁ l₂ : List HeldRule) (qers urrs : List ℕ) :
    a.pdrsFrom teid qers urrs (l₁ ++ l₂) = a.pdrsFrom teid qers urrs l₁ ++
        a.pdrsFrom teid (qers ++ a.made RuleIds.generateQerId l₁)
          (urrs ++ a.made RuleIds.generateUrrId l₁) l₂ := by
  induction l₁ generalizing qers urrs with
  | nil => simp [pdrsFrom, made]
  | cons e l₁ ih =>
    rw [List.cons_append, pdrsFrom, ih, pdrsFrom, made_cons _ e l₁, made_cons _ e l₁]
    simp only [List.cons_append, List.append_assoc]

@[simp]
theorem length_pdrsFrom (teid : ℕ) (entries : List HeldRule) (qers urrs : List ℕ) :
    (a.pdrsFrom teid qers urrs entries).length = 2 * entries.length := by
  induction entries generalizing qers urrs with
  | nil => rfl
  | cons e entries ih =>
    rw [pdrsFrom, List.length_cons, List.length_cons, ih, List.length_cons]
    omega

theorem idsAt_succ (k : ℕ) : a.idsAt (k + 1) = (a.idsAt k).next.next := by
  simp only [idsAt, RuleIds.next, RuleIds.mk.injEq]
  omega

def readyBearer (a : Attach) : EpsBearer :=
  { a.defaultBearer with
    qerIds := a.ambrQers a.pdn.defaultBearer
    ambrQerFlag := a.cfg.gxEnabled }

def readyQers (a : Attach) : QerTable :=
  if a.cfg.gxEnabled then
    a.qers.addQerEntry (fillAmbrQerEntry a.pdn a.defaultBearer (a.ids.generateQerId commonMark))
  else
    a.qers

def ready (a : Attach) : Fill :=
  { a.start with
    ids := a.idsAt 0
    qers := a.readyQers
    epsBearers := update (fun _ => none) a.pdn.defaultBearer (some a.readyBearer) }

end Attach

structure Holds (a : Attach) (s : Spread) (i : Fin maxBearers) (b : EpsBearer) : Prop where
  pdrs : b.pdrs = a.pdrsFrom b.s1uSgw.teid (a.ambrQers i) [] (s.inSlot i)
  qerIds : b.qerIds = a.ambrQers i ++ a.made RuleIds.generateQerId (s.inSlot i)
  urrIds : b.urrIds = a.made RuleIds.generateUrrId (s.inSlot i)
  filters : b.numDynamicFilters = (s.inSlot i).length
  flag : a.cfg.gxEnabled = true → i = a.pdn.defaultBearer → b.ambrQerFlag = true
  default : s.opened i = false → i = a.pdn.defaultBearer ∧ b.s1uSgw = a.defaultBearer.s1uSgw
  dedicated : s.opened i = true → b.s1uSgw.ipv4Address = a.upf.s1uIp.toNat ∧
    b.s1uSgw.teid % 2 ^ 24 = (a.teids.sgwGtpcBaseTeid + (a.teids.sgwGtpcTeidOffset + i)) % 2 ^ 24

structure Ready (a : Attach) (f : Fill) (s : Spread) : Prop where
  keyAt : ∀ i, s.keyAt i = (f.epsBearers i).map EpsBearer.qos
  next : f.numBearer = s.next
  last : f.bearer = s.last
  count : f.createPdrCount = 2 * s.count
  ids : f.ids = a.idsAt s.count
  base : f.teids.sgwGtpcBaseTeid = a.teids.sgwGtpcBaseTeid
  offset : f.teids.sgwGtpcTeidOffset = a.teids.sgwGtpcTeidOffset + s.next
  holds : ∀ i b, f.epsBearers i = some b → Holds a s i b
  filed : ∀ i b, f.epsBearers i = some b → ∀ q ∈ b.qerIds, (f.qers.getQerEntry q).isSome
  room : ∀ i b, f.epsBearers i = some b → b.qerIds.length ≤ maxListSize

section Bearer

variable {cfg : Config} {pdn : PdnConnection} {b b' : EpsBearer} {iface : SourceInterface}
  {ids : RuleIds} {rule : DynamicRule}

theorem EpsBearer.addPdr_eq_ok : b.addPdr cfg pdn iface ids rule = .ok b' ↔
      b.urrIds.length < maxListSize ∧ b.qerIds.length < maxListSize ∧
        ∃ h : b.pdrs.length < maxListSize, b' = b.pushPdr cfg pdn iface ids rule h := by
  unfold EpsBearer.addPdr
  by_cases h : b.pdrs.length < maxListSize
  · rw [dif_pos h, inBounds_bind_eq_ok, inBounds_bind_eq_ok]
    constructor
    · rintro ⟨hurr, hqer, heq⟩
      exact ⟨hurr, hqer, h, (Except.ok.inj heq).symm⟩
    · rintro ⟨hurr, hqer, -, rfl⟩
      exact ⟨hurr, hqer, rfl⟩
  · rw [dif_neg h]
    constructor
    · intro heq
      cases heq
    · rintro ⟨-, -, h', -⟩
      exact absurd h' h

structure EpsBearer.Added (cfg : Config) (pdn : PdnConnection) (b : EpsBearer) (ids : RuleIds)
    (rule : DynamicRule) (b' : EpsBearer) : Prop where
  pdrs : ∃ b₁ : EpsBearer, b₁.qerIds = b.qerIds ++ [ids.generateQerId SourceInterface.access.mark] ∧
    b₁.urrIds = b.urrIds ++ [ids.generateUrrId SourceInterface.access.mark] ∧
    b'.pdrs = b.pdrs ++ [fillPdrEntry cfg pdn b .access ids rule,
      fillPdrEntry cfg pdn b₁ .core ids.next rule]
  qerIds : b'.qerIds = b.qerIds ++ [ids.generateQerId SourceInterface.access.mark,
    ids.next.generateQerId SourceInterface.core.mark]
  urrIds : b'.urrIds = b.urrIds ++ [ids.generateUrrId SourceInterface.access.mark,
    ids.next.generateUrrId SourceInterface.core.mark]
  filters : b'.numDynamicFilters = b.numDynamicFilters + 1
  flag : b'.ambrQerFlag = b.ambrQerFlag
  qos : b'.qos = b.qos
  s1uSgw : b'.s1uSgw = b.s1uSgw

theorem EpsBearer.added_of_addRule (h : b.addRule cfg pdn ids rule = .ok b') :
    b.Added cfg pdn ids rule b' ∧ b.qerIds.length + 2 ≤ maxListSize := by
  obtain ⟨b₁, h₁, h⟩ := bind_eq_ok.1 h
  obtain ⟨b₂, h₂, h⟩ := bind_eq_ok.1 h
  obtain ⟨-, -, hlt₁, rfl⟩ := EpsBearer.addPdr_eq_ok.1 h₁
  obtain ⟨-, hqer, hlt₂, rfl⟩ := EpsBearer.addPdr_eq_ok.1 h₂
  cases Except.ok.inj h
  refine ⟨⟨⟨b.pushPdr cfg pdn .access ids rule hlt₁, rfl, rfl, ?_⟩, ?_, ?_, rfl, rfl, rfl, rfl⟩, ?_⟩
  · simp [EpsBearer.pushPdr]
  · simp [EpsBearer.pushPdr]
  · simp [EpsBearer.pushPdr]
  · simp only [EpsBearer.pushPdr, List.length_append, List.length_singleton] at hqer
    omega

theorem EpsBearer.exists_addRule (hpdr : b.pdrs.length + 2 ≤ maxListSize)
    (hqer : b.qerIds.length + 2 ≤ maxListSize) (hurr : b.urrIds.length + 2 ≤ maxListSize) :
    ∃ b', b.addRule cfg pdn ids rule = .ok b' := by
  have hlt₁ : b.pdrs.length < maxListSize := by omega
  have h₁ : b.addPdr cfg pdn .access ids rule = .ok (b.pushPdr cfg pdn .access ids rule hlt₁) :=
    EpsBearer.addPdr_eq_ok.2 ⟨by omega, by omega, hlt₁, rfl⟩
  have hlt₂ : (b.pushPdr cfg pdn .access ids rule hlt₁).pdrs.length < maxListSize := by
    simp only [EpsBearer.pushPdr, List.length_append, List.length_singleton]
    omega
  have h₂ : (b.pushPdr cfg pdn .access ids rule hlt₁).addPdr cfg pdn .core ids.next rule =
      .ok ((b.pushPdr cfg pdn .access ids rule hlt₁).pushPdr cfg pdn .core ids.next rule hlt₂) := by
    refine EpsBearer.addPdr_eq_ok.2 ⟨?_, ?_, hlt₂, rfl⟩
    all_goals
      simp only [EpsBearer.pushPdr, List.length_append, List.length_singleton]
      omega
  exact ⟨_, bind_eq_ok.2 ⟨_, h₁, bind_eq_ok.2 ⟨_, h₂, rfl⟩⟩⟩

end Bearer

namespace Ready

variable {a : Attach} {f f' : Fill} {s : Spread} {rule : DynamicRule} {i : Fin maxBearers}

theorem getBearer_eq (h : Ready a f s) (qos : BearerQos) :
    getBearer f.epsBearers qos = Placement.find s.keyAt qos := by
  unfold getBearer Placement.find
  congr 1
  funext i
  rw [h.keyAt]

theorem findBearer_eq_ok (h : Ready a f s) : f.findBearer a.cfg a.upf a.pdn rule.qos = .ok (f', i) ↔
      (Placement.Finds a.policy s rule i ∧ f' = f) ∨
        (Placement.Opens a.policy s rule i ∧ f' = f.putBearer a.upf a.pdn i rule.qos) := by
  unfold Fill.findBearer
  by_cases hpin : a.pdn.defaultBearerQos = rule.qos
  · rw [if_pos hpin]
    constructor
    · intro heq
      cases heq
      exact .inl ⟨.pinned hpin.symm, rfl⟩
    · rintro (⟨hpinned | ⟨hne, -⟩, rfl⟩ | ⟨hopens, -⟩)
      · rfl
      · exact absurd hpin.symm hne
      · exact absurd hpin.symm hopens.ne_pinned
  · rw [if_neg hpin, h.getBearer_eq]
    have hne : a.policy.key rule ≠ a.policy.pinned := Ne.symm hpin
    cases hfind : Placement.find s.keyAt rule.qos with
    | some j =>
      constructor
      · intro heq
        cases heq
        exact .inl ⟨.keyed hne hfind, rfl⟩
      · rintro (⟨hpinned | ⟨-, hj⟩, rfl⟩ | ⟨hopens, -⟩)
        · exact absurd hpinned hne
        · cases hfind.symm.trans hj
          rfl
        · exact absurd (Placement.keyAt_of_find hfind) (hopens.new j)
    | none =>
      have hnew := Placement.find_eq_none.1 hfind
      simp only [Fill.createBearer]
      by_cases hroom : f.numBearer < maxBearers ∧ a.cfg.gxEnabled = false
      · rw [dif_pos hroom]
        constructor
        · intro heq
          cases heq
          exact .inr ⟨⟨hne, hnew, h.next, by simp [Attach.policy, hroom.2]⟩, rfl⟩
        · rintro (⟨hpinned | ⟨-, hj⟩, -⟩ | ⟨hopens, rfl⟩)
          · exact absurd hpinned hne
          · cases hfind.symm.trans hj
          · have hi : i = ⟨f.numBearer, hroom.1⟩ := Fin.ext (hopens.slot.trans h.next.symm)
            rw [hi]
            rfl
      · rw [dif_neg hroom]
        constructor
        · intro heq
          cases heq
        · rintro (⟨hpinned | ⟨-, hj⟩, -⟩ | ⟨hopens, -⟩)
          · exact absurd hpinned hne
          · cases hfind.symm.trans hj
          · refine absurd ⟨?_, ?_⟩ hroom
            · rw [h.next, ← hopens.slot]
              exact i.isLt
            · simpa [Attach.policy] using hopens.opens

theorem putBearer (h : Ready a f s) (hopens : Placement.Opens a.policy s rule i) :
    Ready a (f.putBearer a.upf a.pdn i rule.qos) (s.openSlot i rule.qos) := by
  have hgx : a.cfg.gxEnabled = false := by simpa [Attach.policy] using hopens.opens
  have hslot : i.val = f.numBearer := hopens.slot.trans h.next.symm
  refine ⟨fun j => ?_, ?_, h.last, h.count, h.ids, h.base, ?_, fun j b hb => ?_, fun j b hb => ?_,
    fun j b hb => ?_⟩
  · by_cases hji : j = i
    · simp [Placement.State.openSlot, Fill.putBearer, hji]
    · simp [Placement.State.openSlot, Fill.putBearer, hji, h.keyAt]
  · exact congrArg (· + 1) h.next
  · change f.teids.sgwGtpcTeidOffset + 1 = _ + (s.next + 1)
    rw [h.offset]
    omega
  · by_cases hji : j = i
    · subst hji
      simp only [Fill.putBearer, update_self, Option.some.injEq] at hb
      subst hb
      have hambr : a.ambrQers j = [] := by simp [Attach.ambrQers, hgx]
      have hempty : (s.openSlot j rule.qos).inSlot j = [] := by
        rw [Placement.State.inSlot_openSlot, if_pos rfl]
      refine ⟨?_, ?_, ?_, ?_, ?_, ?_, fun _ => ⟨rfl, ?_⟩⟩
      · rw [hempty]
        rfl
      · rw [hempty, hambr]
        rfl
      · rw [hempty]
        rfl
      · rw [hempty]
        rfl
      · simp [hgx]
      · simp [Placement.State.openSlot]
      · have hoffset : f.teids.takeIndex.sgwGtpcTeidOffset = a.teids.sgwGtpcTeidOffset + j := by
          rw [hopens.slot, ← h.offset]
          rfl
        have hbase : f.teids.takeIndex.sgwGtpcBaseTeid = a.teids.sgwGtpcBaseTeid := h.base
        simp only [TeidPool.s1uSgwGtpuTeid, hoffset, hbase]
        omega
    · simp only [Fill.putBearer, update_of_ne hji] at hb
      have hholds := h.holds j b hb
      have hentries : (s.openSlot i rule.qos).inSlot j = s.inSlot j := by
        rw [Placement.State.inSlot_openSlot, if_neg hji]
      have hopened : (s.openSlot i rule.qos).opened j = s.opened j := by
        simp [Placement.State.openSlot, hji]
      exact ⟨hentries ▸ hholds.pdrs, hentries ▸ hholds.qerIds, hentries ▸ hholds.urrIds,
        hentries ▸ hholds.filters, hholds.flag, hopened ▸ hholds.default,
        hopened ▸ hholds.dedicated⟩
  · by_cases hji : j = i
    · subst hji
      simp only [Fill.putBearer, update_self, Option.some.injEq] at hb
      subst hb
      simp
    · simp only [Fill.putBearer, update_of_ne hji] at hb
      exact h.filed j b hb
  · by_cases hji : j = i
    · subst hji
      simp only [Fill.putBearer, update_self, Option.some.injEq] at hb
      subst hb
      exact Nat.zero_le _
    · simp only [Fill.putBearer, update_of_ne hji] at hb
      exact h.room j b hb

theorem install (h : Ready a f s) (hinstall : f.install a.cfg a.pdn i rule = .ok f') :
    Ready a f' (s.put i rule) := by
  obtain ⟨b, hb, hinstall⟩ := deref_bind_eq_ok.1 hinstall
  obtain ⟨b', hadd, hinstall⟩ := bind_eq_ok.1 hinstall
  obtain ⟨hadded, hroom⟩ := EpsBearer.added_of_addRule hadd
  cases Except.ok.inj hinstall
  have hholds := h.holds i b hb
  have hids := h.ids
  refine ⟨fun j => ?_, h.next, rfl, ?_, ?_, h.base, h.offset, fun j b₁ hb₁ => ?_,
    fun j b₁ hb₁ q hq => ?_, fun j b₁ hb₁ => ?_⟩
  · by_cases hji : j = i
    · subst hji
      simp [Placement.State.put, h.keyAt, hb, hadded.qos]
    · simp [Placement.State.put, h.keyAt, hji]
  · change f.createPdrCount + 2 = 2 * (s.count + 1)
    rw [h.count]
    omega
  · change f.ids.next.next = a.idsAt (s.count + 1)
    rw [Attach.idsAt_succ, hids]
  · by_cases hji : j = i
    · subst hji
      simp only [update_self, Option.some.injEq] at hb₁
      subst hb₁
      have hentries : (s.put j rule).inSlot j = s.inSlot j ++ [⟨j, s.count, rule⟩] := by
        rw [Placement.State.inSlot_put, if_pos rfl]
      refine ⟨?_, ?_, ?_, ?_, ?_, ?_, ?_⟩
      · obtain ⟨b₁, hqers, hurrs, hpdrs⟩ := hadded.pdrs
        rw [hentries, Attach.pdrsFrom_append, hadded.s1uSgw, hpdrs, hholds.pdrs, List.nil_append]
        congr 1
        simp only [Attach.pdrsFrom, Attach.pdrOf, fillPdrEntry, hqers, hurrs, hids, hholds.qerIds,
          hholds.urrIds]
      · rw [hentries, Attach.made_append, ← List.append_assoc, ← hholds.qerIds, hadded.qerIds, hids]
        rfl
      · rw [hentries, Attach.made_append, ← hholds.urrIds, hadded.urrIds, hids]
        rfl
      · rw [hentries, hadded.filters, hholds.filters, List.length_append]
        rfl
      · rw [hadded.flag]
        exact hholds.flag
      · rw [hadded.s1uSgw]
        exact hholds.default
      · rw [hadded.s1uSgw]
        exact hholds.dedicated
    · simp only [update_of_ne hji] at hb₁
      have hheld := h.holds j b₁ hb₁
      have hentries : (s.put i rule).inSlot j = s.inSlot j := by
        rw [Placement.State.inSlot_put, if_neg hji, List.append_nil]
      exact ⟨hentries ▸ hheld.pdrs, hentries ▸ hheld.qerIds, hentries ▸ hheld.urrIds,
        hentries ▸ hheld.filters, hheld.flag, hheld.default, hheld.dedicated⟩
  · by_cases hji : j = i
    · subst hji
      simp only [update_self, Option.some.injEq] at hb₁
      subst hb₁
      rw [hadded.qerIds] at hq
      rcases List.mem_append.1 hq with hq | hq
      · exact QerTable.isSome_getQerEntry_addQerEntry _
          (QerTable.isSome_getQerEntry_addQerEntry _ (h.filed j b hb q hq))
      · simp only [List.mem_cons, List.not_mem_nil, or_false] at hq
        rcases hq with rfl | rfl
        · exact QerTable.isSome_getQerEntry_addQerEntry _
            (QerTable.getQerEntry_addQerEntry_self _ (fillQerEntry b _ rule))
        · exact QerTable.getQerEntry_addQerEntry_self _ (fillQerEntry b _ rule)
    · simp only [update_of_ne hji] at hb₁
      exact QerTable.isSome_getQerEntry_addQerEntry _
        (QerTable.isSome_getQerEntry_addQerEntry _ (h.filed j b₁ hb₁ q hq))
  · by_cases hji : j = i
    · subst hji
      simp only [update_self, Option.some.injEq] at hb₁
      subst hb₁
      rw [hadded.qerIds, List.length_append]
      exact hroom
    · simp only [update_of_ne hji] at hb₁
      exact h.room j b₁ hb₁

theorem addAmbrQer (h : Ready a f s) (hhome : (s.keyAt a.pdn.defaultBearer).isSome) :
    f.addAmbrQer a.cfg a.pdn = .ok f := by
  unfold Fill.addAmbrQer
  cases hgx : a.cfg.gxEnabled with
  | false => rfl
  | true =>
    rw [h.keyAt, Option.isSome_map, Option.isSome_iff_exists] at hhome
    obtain ⟨b, hb⟩ := hhome
    have hflag := (h.holds _ b hb).flag hgx rfl
    rw [if_pos rfl, hb, deref_some, pure_bind, if_pos hflag]
    rfl

theorem addRule_eq (h : Ready a f s) (hhome : (s.keyAt a.pdn.defaultBearer).isSome)
    (hat : (s.keyAt i).isSome) (hroom : (s.inSlot i).length < maxListSize) :
    (do let bearer ← deref (f.epsBearers i)
        inBounds bearer.numDynamicFilters
        let f ← f.addAmbrQer a.cfg a.pdn
        f.install a.cfg a.pdn i rule) = f.install a.cfg a.pdn i rule := by
  rw [h.keyAt, Option.isSome_map, Option.isSome_iff_exists] at hat
  obtain ⟨b, hb⟩ := hat
  have hfilters := (h.holds i b hb).filters
  rw [hb, deref_some, pure_bind, inBounds_of_lt (hfilters ▸ hroom), h.addAmbrQer hhome]
  rfl

theorem addRule (h : Ready a f s) (hhome : (s.keyAt a.pdn.defaultBearer).isSome)
    (hadd : f.addRule a.cfg a.upf a.pdn rule = .ok f') :
    ∃ s', s.place a.policy rule = some s' ∧ Ready a f' s' := by
  obtain ⟨⟨f₁, i⟩, hfind, hrest⟩ := bind_eq_ok.1 hadd
  obtain ⟨b, -, hrest⟩ := deref_bind_eq_ok.1 hrest
  obtain ⟨-, hrest⟩ := inBounds_bind_eq_ok.1 hrest
  rcases h.findBearer_eq_ok.1 hfind with ⟨hfinds, rfl⟩ | ⟨hopens, rfl⟩
  · rw [h.addAmbrQer hhome] at hrest
    exact ⟨_, Placement.place_eq_some.2 (.inl ⟨i, hfinds, rfl⟩), h.install hrest⟩
  · have hput := h.putBearer hopens
    rw [hput.addAmbrQer (Placement.State.isSome_keyAt_openSlot hhome _ _)] at hrest
    exact ⟨_, Placement.place_eq_some.2 (.inr ⟨i, hopens, rfl⟩), hput.install hrest⟩

theorem exists_install (h : Ready a f s) (hat : (s.keyAt i).isSome)
    (hroom : a.ambrCount + 2 * ((s.inSlot i).length + 1) ≤ maxListSize) :
    ∃ f', f.install a.cfg a.pdn i rule = .ok f' := by
  rw [h.keyAt, Option.isSome_map, Option.isSome_iff_exists] at hat
  obtain ⟨b, hb⟩ := hat
  have hholds := h.holds i b hb
  have hambr : (a.ambrQers i).length ≤ a.ambrCount := by
    unfold Attach.ambrQers Attach.ambrCount
    split_ifs with hgx hgx'
    · exact Nat.le_refl 1
    · exact absurd hgx.1 hgx'
    · exact Nat.zero_le _
    · exact Nat.zero_le _
  have hadd : ∃ b', b.addRule a.cfg a.pdn f.ids rule = .ok b' := by
    apply EpsBearer.exists_addRule
    · rw [hholds.pdrs, Attach.length_pdrsFrom]
      omega
    · rw [hholds.qerIds, List.length_append, Attach.length_made]
      omega
    · rw [hholds.urrIds, Attach.length_made]
      omega
  obtain ⟨b', hadd⟩ := hadd
  exact ⟨_, deref_bind_eq_ok.2 ⟨b, hb, bind_eq_ok.2 ⟨b', hadd, rfl⟩⟩⟩

theorem exists_addRule (h : Ready a f s) (hhome : (s.keyAt a.pdn.defaultBearer).isSome)
    {s' : Spread} (hplace : s.place a.policy rule = some s')
    (hroom : a.ambrCount + 2 * s'.held.length ≤ maxListSize) :
    ∃ f', f.addRule a.cfg a.upf a.pdn rule = .ok f' ∧ Ready a f' s' := by
  -- The rest of the turn, from the state in which the slot has its bearer.
  have hrest : ∀ {f₁ : Fill} {s₁ : Spread} {i : Fin maxBearers}, Ready a f₁ s₁ →
      (s₁.keyAt a.pdn.defaultBearer).isSome → (s₁.keyAt i).isSome →
      a.ambrCount + 2 * (s₁.put i rule).held.length ≤ maxListSize →
      f.findBearer a.cfg a.upf a.pdn rule.qos = .ok (f₁, i) →
      ∃ f', f.addRule a.cfg a.upf a.pdn rule = .ok f' ∧ Ready a f' (s₁.put i rule) := by
    intro f₁ s₁ i h₁ hhome₁ hat hroom₁ hfind
    have hlength := s₁.length_inSlot_le i
    simp only [Placement.State.put, List.length_append, List.length_singleton] at hroom₁
    have hexists : ∃ f', f₁.install a.cfg a.pdn i rule = .ok f' := h₁.exists_install hat (by omega)
    obtain ⟨f', hinstall⟩ := hexists
    refine ⟨f', bind_eq_ok.2 ⟨_, hfind, ?_⟩, h₁.install hinstall⟩
    rw [← hinstall]
    exact h₁.addRule_eq hhome₁ hat (by omega)
  obtain ⟨i, hfinds, rfl⟩ | ⟨i, hopens, rfl⟩ := Placement.place_eq_some.1 hplace
  · exact hrest h hhome (hfinds.isSome_keyAt hhome) hroom (h.findBearer_eq_ok.2 (.inl ⟨hfinds, rfl⟩))
  · refine hrest (h.putBearer hopens) (Placement.State.isSome_keyAt_openSlot hhome _ _) ?_ hroom
      (h.findBearer_eq_ok.2 (.inr ⟨hopens, rfl⟩))
    simp [Placement.State.openSlot]

end Ready

section Loop

variable {a : Attach} {f : Fill} {s : Spread} {rules : List DynamicRule}

theorem epsBearers_ready {i : Fin maxBearers} {b : EpsBearer}
    (hb : a.ready.epsBearers i = some b) : i = a.pdn.defaultBearer ∧ b = a.readyBearer := by
  by_cases hi : i = a.pdn.defaultBearer
  · subst hi
    simp only [Attach.ready, update_self, Option.some.injEq] at hb
    exact ⟨rfl, hb.symm⟩
  · simp only [Attach.ready, update_of_ne hi] at hb
    cases hb

theorem ready_ready : Ready a a.ready a.policy.initial := by
  have hinitial : ∀ i, (a.policy.initial).inSlot i = [] := fun _ => rfl
  refine ⟨fun i => ?_, rfl, rfl, rfl, rfl, rfl, rfl, fun i b hb => ?_, fun i b hb q hq => ?_,
    fun i b hb => ?_⟩
  · rw [a.policy.keyAt_initial]
    by_cases hi : i = a.pdn.defaultBearer
    · subst hi
      simp [Attach.ready, Attach.policy, Attach.readyBearer, Attach.defaultBearer]
    · simp [Attach.ready, Attach.policy, hi]
  · obtain ⟨rfl, rfl⟩ := epsBearers_ready hb
    refine ⟨?_, ?_, ?_, rfl, fun hgx _ => hgx, fun _ => ⟨rfl, rfl⟩, fun hopened => by cases hopened⟩
    · rw [hinitial]
      rfl
    · rw [hinitial]
      exact (List.append_nil _).symm
    · rw [hinitial]
      rfl
  · obtain ⟨rfl, rfl⟩ := epsBearers_ready hb
    simp only [Attach.readyBearer, Attach.ambrQers] at hq
    split_ifs at hq with hgx
    · rw [List.mem_singleton.1 hq]
      simp only [Attach.ready, Attach.readyQers, hgx.1, if_true]
      exact QerTable.getQerEntry_addQerEntry_self _ (fillAmbrQerEntry a.pdn a.defaultBearer _)
    · exact absurd hq List.not_mem_nil
  · obtain ⟨rfl, rfl⟩ := epsBearers_ready hb
    simp only [Attach.readyBearer, Attach.ambrQers]
    split_ifs
    · exact Nat.succ_le_succ (Nat.zero_le _)
    · exact Nat.zero_le _

theorem addAmbrQer_start : a.start.addAmbrQer a.cfg a.pdn = .ok a.ready := by
  cases hgx : a.cfg.gxEnabled with
  | false =>
    simp [Fill.addAmbrQer, hgx, Attach.ready, Attach.start, Attach.readyQers, Attach.readyBearer,
      Attach.ambrQers, Attach.idsAt, Attach.ambrCount, Attach.defaultBearer]
    rfl
  | true =>
    simp [Fill.addAmbrQer, hgx, Attach.ready, Attach.start, Attach.readyQers, Attach.readyBearer,
      Attach.ambrQers, Attach.idsAt, Attach.ambrCount, Attach.defaultBearer]
    rfl

theorem map_qos_start (i : Fin maxBearers) :
    (a.start.epsBearers i).map EpsBearer.qos = (a.ready.epsBearers i).map EpsBearer.qos := by
  by_cases hi : i = a.pdn.defaultBearer
  · subst hi
    simp [Attach.start, Attach.ready, Attach.readyBearer]
  · simp [Attach.start, Attach.ready, hi]

theorem addRule_start (rule : DynamicRule) :
    a.start.addRule a.cfg a.upf a.pdn rule = a.ready.addRule a.cfg a.upf a.pdn rule := by
  have hget : getBearer a.start.epsBearers rule.qos = getBearer a.ready.epsBearers rule.qos := by
    unfold getBearer
    congr 1
    funext i
    rw [map_qos_start]
  have hhome : (a.policy.initial.keyAt a.pdn.defaultBearer).isSome := by
    rw [a.policy.keyAt_initial]
    simp [Attach.policy]
  -- The rest of the turn on the default bearer, from either state.
  have hrest : (do
      let bearer ← deref (a.start.epsBearers a.pdn.defaultBearer)
      inBounds bearer.numDynamicFilters
      let f ← a.start.addAmbrQer a.cfg a.pdn
      f.install a.cfg a.pdn a.pdn.defaultBearer rule) = (do
      let bearer ← deref (a.ready.epsBearers a.pdn.defaultBearer)
      inBounds bearer.numDynamicFilters
      let f ← a.ready.addAmbrQer a.cfg a.pdn
      f.install a.cfg a.pdn a.pdn.defaultBearer rule) := by
    have hbearer : a.start.epsBearers a.pdn.defaultBearer = some a.defaultBearer := by
      simp [Attach.start]
    have hbound : inBounds a.defaultBearer.numDynamicFilters = .ok () := rfl
    rw [ready_ready.addRule_eq hhome hhome (by decide : (0 : ℕ) < 16), addAmbrQer_start, hbearer,
      deref_some, pure_bind, hbound]
    rfl
  unfold Fill.addRule Fill.findBearer
  by_cases hpin : a.pdn.defaultBearerQos = rule.qos
  · simp only [if_pos hpin, pure_bind]
    exact hrest
  · simp only [if_neg hpin, hget]
    cases hfind : getBearer a.ready.epsBearers rule.qos with
    | some j =>
      have hj : j = a.pdn.defaultBearer := by
        rw [ready_ready.getBearer_eq] at hfind
        have hkey := Placement.keyAt_of_find hfind
        rw [a.policy.keyAt_initial] at hkey
        by_contra hne
        rw [if_neg (show j ≠ a.policy.home from hne)] at hkey
        cases hkey
      subst hj
      simp only [pure_bind]
      exact hrest
    | none =>
      cases hgx : a.cfg.gxEnabled with
      | false =>
        have hsame : a.start = a.ready := by
          have hambr := addAmbrQer_start (a := a)
          rw [Fill.addAmbrQer, hgx, if_neg Bool.false_ne_true] at hambr
          exact Except.ok.inj hambr
        rw [hsame]
      | true =>
        have hthrow : ∀ f : Fill, f.createBearer a.cfg a.upf a.pdn rule.qos =
            .error .badPointer := fun f => dif_neg (by simp [hgx])
        simp only [hthrow]

theorem ready_of_foldlM {rules : List DynamicRule} {f : Fill}
    (h : rules.foldlM (Fill.addRule a.cfg a.upf a.pdn) a.ready = .ok f) :
    ∃ s, Placement.Places a.policy rules s ∧ Ready a f s := by
  induction rules using List.reverseRecOn generalizing f with
  | nil =>
    cases Except.ok.inj h
    exact ⟨_, .nil, ready_ready⟩
  | append_singleton rules rule ih =>
    obtain ⟨f₁, h₁, h⟩ := foldlM_concat_eq_ok.1 h
    obtain ⟨s, hs, hready⟩ := ih h₁
    obtain ⟨s', hplace, hready'⟩ := hready.addRule hs.isSome_keyAt.1 h
    exact ⟨s', hs.snoc hplace, hready'⟩

end Loop

end Spgw.Sx
