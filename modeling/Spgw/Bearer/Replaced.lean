/-
# Context replacement

`context_replacement.md` asks that a Create Session Request for an IMSI that has a UE context
replaces the context.
-/

import Spgw.Bearer.Agree
import Spgw.Bearer.Dropped

namespace Spgw.Bearer

open Machine Function
open Session (UePtr PdnPtr Service CreateSessReq deref_some deref_bind_eq_ok imsiKey ueSessId)
open Rar (RuleName ruleKey)
open Spgw.Trans (Kind TransKey)

variable {s s' : State} {c : UeContext} {p : PdnPtr} {pdn : Pdn} {u : UePtr} {csr : CreateSessReq}
  {w : Procedures} {queue : List ProcId} {upf : Option Service}

def UeContext.HasRuleKey (c : UeContext) (key : RuleName) : Prop :=
  ∃ p pdn rule, c.pdnHeap.get p = some pdn ∧ key = ruleKey pdn.callId rule.ruleName ∧
    ((∃ pending ∈ pdn.pendingPccRules, pending.dynRule = rule) ∨
      ∃ i b bearer, c.epsBearers i = some b ∧ c.bearerHeap.get b = some bearer ∧
        rule ∈ bearer.dynamicRules)

structure Rules.Without (r : Rules) (u : UePtr) (c : UeContext) : Prop where
  pdrs : ∀ k b, r.pdrs k ≠ some (u, b)
  qers : ∀ k b, r.qers k ≠ some (u, b)
  ruleNames : ∀ key, c.HasRuleKey key → r.ruleNames.lookup key = none

structure Procedures.Without (w : Procedures) (queue : List ProcId) : Prop where
  trans : ∀ kind key, ∀ q ∈ queue, w.trans kind key ≠ some q
  pending : ∀ service, ∀ q ∈ queue, q ∉ w.pending service

/-- Nothing leads to the context any more. -/
structure State.Gone (s : State) (u : UePtr) (c : UeContext) : Prop where
  freed : s.ues.get u = none
  imsi : ∀ k, s.ueByImsi k ≠ some u
  teid : ∀ k, s.ueByTeid k ≠ some u
  seid : ∀ k, s.ueBySeid k ≠ some u
  gxSessId : ∀ k, s.ueByGxSessId k ≠ some u
  pdnTeid : ∀ k p, s.pdnByTeid k ≠ some (u, p)
  callId : ∀ k p, s.pdnByCallId k ≠ some (u, p)
  rules : s.rules.Without u c
  procedures : s.procedures.Without c.pendingSubProcs

/-- The old context is gone before the new attach is started. -/
def State.Replaces (s : State) (u : UePtr) (c : UeContext) (csr : CreateSessReq) : Prop :=
  ∃ s', replaceOldContext s csr = .ok s' ∧ s'.Gone u c ∧
    (∀ k, imsiKey csr = .ok k → s'.ueByImsi k = none) ∧
    ∀ env key, handleCreateSessionRequest env s key csr = startAttach env s' key csr

def UeContext.HasBearer (c : UeContext) (ebi : ℕ) : Prop :=
  ∃ i, slotIndex ebi = .ok i ∧ (c.epsBearers i).isSome

structure Procedures.DropsAll (w : Procedures) (upf : Option Service) (queue : List ProcId) : Prop
    extends w.Droppable queue where
  held : ∀ kind key, ∀ q ∈ queue, w.trans kind key = some q → (w.firstHolder queue kind key).isSome
  pendingOnce : ∀ service, ∀ q ∈ queue,
    (w.pending service).count q ≤ if upf = some service then 1 else 0

/-- The request finds the old context, whose release takes all its entries away. -/
structure State.Replaceable (s : State) (u : UePtr) (c : UeContext) (csr : CreateSessReq) : Prop where
  found : ∃ v d, s.ueByImsi csr.imsiDigits = some v ∧ s.ues.get v = some d ∧
    s.ueByTeid d.s11SgwGtpcTeid = some u ∧ d.HasBearer csr.ebi
  bearer : c.HasBearer csr.ebi
  pdn : ∀ p pdn, c.pdnHeap.get p = some pdn → pdn.numBearer ≤ occupied c.epsBearers ∧
    c.s11SgwGtpcTeid = ueSessId pdn.seid ∧
    (s.gxEnabled → ∀ v, s.ueByGxSessId pdn.gxSessId = some v → v = u)
  rules : s.rules.Without u c
  queue : s.procedures.DropsAll c.upfContext c.pendingSubProcs

theorem UeContext.hasBearer_of_getPdn {ebi : ℕ} (h : c.getPdn ebi = .ok p) : c.HasBearer ebi := by
  obtain ⟨i, hi, h⟩ := bind_eq_ok.mp h
  obtain ⟨b, hb, -⟩ := deref_bind_eq_ok.mp h
  exact ⟨i, hi, by rw [hb]; rfl⟩

theorem UeContext.Tied.getPdn_eq {ebi : ℕ} (h : c.Tied p pdn) (hb : c.HasBearer ebi) :
    c.getPdn ebi = .ok p := by
  obtain ⟨i, hi, hsome⟩ := hb
  obtain ⟨b, hb⟩ := Option.isSome_iff_exists.mp hsome
  obtain ⟨bearer, hget, hpdn, -⟩ := h.bearers i b hb
  refine bind_eq_ok.mpr ⟨i, hi, ?_⟩
  simp only [hb, hget, deref_some, pure_bind, hpdn]
  rfl

theorem UeContext.WellFormed.exists_tied_of_hasBearer {ebi : ℕ} (h : c.WellFormed)
    (hb : c.HasBearer ebi) : ∃ p pdn, c.Tied p pdn := by
  obtain ⟨i, -, hsome⟩ := hb
  obtain ⟨b, hb⟩ := Option.isSome_iff_exists.mp hsome
  exact h.exists_tied hb

theorem Procedures.without_dropped_iff (hnodup : queue.Nodup) :
    (w.dropped upf queue).Without queue ↔ (∀ kind key, ∀ q ∈ queue, w.trans kind key = some q →
        (w.firstHolder queue kind key).isSome) ∧
      ∀ service, ∀ q ∈ queue,
        (w.pending service).count q ≤ if upf = some service then 1 else 0 := by
  have htrans (kind : Kind) (key : TransKey) (q : ProcId) :
      (w.dropped upf queue).trans kind key ≠ some q ↔
        (w.trans kind key = some q → (w.firstHolder queue kind key).isSome) := by
    cases hfirst : w.firstHolder queue kind key <;> simp [dropped, hfirst]
  have hpend (service : Service) (q : ProcId) (hq : q ∈ queue) :
      q ∉ (w.dropped upf queue).pending service ↔
        (w.pending service).count q ≤ if upf = some service then 1 else 0 := by
    have hone : queue.count q = 1 := List.count_eq_one_of_mem hnodup hq
    by_cases hupf : upf = some service
    · simp only [dropped, if_pos hupf]
      rw [← List.count_eq_zero, List.count_diff, hone]
      omega
    · simp only [dropped, if_neg hupf]
      rw [← List.count_eq_zero]
      omega
  constructor
  · intro h
    exact ⟨fun kind key q hq => (htrans kind key q).mp (h.trans kind key q hq),
      fun service q hq => (hpend service q hq).mp (h.pending service q hq)⟩
  · rintro ⟨hheld, honce⟩
    exact ⟨fun kind key q hq => (htrans kind key q).mpr (hheld kind key q hq),
      fun service q hq => (hpend service q hq).mpr (honce service q hq)⟩

theorem State.Linked.gone_forget (hs : s.Linked) (hc : s.ues.get u = some c) (h : c.Tied p pdn)
    (hrules : s.rules.Without u c) (hw : w.Without c.pendingSubProcs) :
    ({ s.forget u c pdn with procedures := w } : State).Gone u c where
  freed := by
    change (s.ues.free u).get u = none
    rw [Heap.get_free, if_pos rfl]
  imsi _ hk := hs.imsi.owner_ne_of_erase hc (fun _ h => h.symm) hk rfl
  teid _ hk := hs.teid.owner_ne_of_erase hc (fun _ h => h.symm) hk rfl
  seid _ hk := hs.seid.owner_ne_of_erase hc (fun _ hl => (h.names_iff.mp hl).symm) hk rfl
  gxSessId _ hk := hs.gxSessId.owner_ne_of_erase hc (fun _ hl => (h.names_iff.mp hl).symm) hk rfl
  pdnTeid _ _ hk := hs.pdnTeid.owner_ne_of_erase hc (fun _ h => h.symm) hk rfl
  callId _ _ hk := hs.callId.owner_ne_of_erase hc (fun _ hl => (h.names_iff.mp hl).symm) hk rfl
  rules := hrules
  procedures := hw

theorem exists_of_gone (hs : s.Linked) (hc : s.ues.get u = some c)
    (hok : replaceOldContext s csr = .ok s') (hfreed : s'.ues.get u = none) :
    ∃ v d, s.ueByImsi csr.imsiDigits = some v ∧ s.ues.get v = some d ∧
      s.ueByTeid d.s11SgwGtpcTeid = some u ∧ d.HasBearer csr.ebi ∧
      processErrorOccuredHandlerNew s d.s11SgwGtpcTeid csr.ebi = .ok s' := by
  have hstays (h : s' = s) : False := by
    rw [h, hc] at hfreed
    cases hfreed
  unfold replaceOldContext at hok
  cases hv : s.ueByImsi csr.imsiDigits with
  | none =>
    rw [hv] at hok
    exact (hstays (Except.ok.inj hok).symm).elim
  | some v =>
    rw [hv] at hok
    obtain ⟨d, hd, hok⟩ := deref_bind_eq_ok.mp hok
    obtain ⟨q, hq, hok⟩ := bind_eq_ok.mp hok
    refine ⟨v, d, rfl, hd, ?_, UeContext.hasBearer_of_getPdn hq, hok⟩
    cases hu : s.ueByTeid d.s11SgwGtpcTeid with
    | none =>
      simp only [processErrorOccuredHandlerNew, hu] at hok
      exact (hstays (Except.ok.inj hok).symm).elim
    | some t =>
      -- The handler frees or writes the context `t` only.
      by_contra hne
      have hut : u ≠ t := fun h => hne (h ▸ rfl)
      obtain ⟨e, p, pdn, he, hp, htied⟩ := exists_tied_of_processErrorOccuredHandlerNew hs hu hok
      obtain ⟨bearers, hiff⟩ := processErrorOccuredHandlerNew_eq_ok hu he hp htied
      obtain ⟨-, w, -, ⟨-, -, rfl⟩ | ⟨-, rfl⟩⟩ := (hiff s').mp hok
      · change (s.ues.free t).get u = none at hfreed
        rw [Heap.get_free, if_neg hut, hc] at hfreed
        cases hfreed
      · change ((s.withoutGx pdn).ues.set t _).get u = none at hfreed
        rw [withoutGx_ues, Heap.get_set he, if_neg hut, hc] at hfreed
        cases hfreed

/-- **When a Create Session Request replaces the context of its subscriber** -/
theorem replaces_iff {gx : Bool} {es : List Event}
    (hrun : final next (initial gx) es = some s) (hc : s.ues.get u = some c)
    (hkey : imsiKey csr = .ok c.imsi) : s.Replaces u c csr ↔ s.Replaceable u c csr := by
  have hs := linked_of_run hrun
  constructor
  · rintro ⟨s', hok, hgone, -, -⟩
    obtain ⟨v, d, hv, hd, hu, hb, hok⟩ := exists_of_gone hs hc hok hgone.freed
    obtain ⟨c', p, pdn, hc', hp, htied⟩ := exists_tied_of_processErrorOccuredHandlerNew hs hu hok
    cases hc.symm.trans hc'
    obtain ⟨bearers, hiff⟩ := processErrorOccuredHandlerNew_eq_ok hu hc hp htied
    obtain ⟨hgx, w, hw, ⟨hnum, hteid, rfl⟩ | ⟨-, rfl⟩⟩ := (hiff s').mp hok
    · obtain ⟨hdrop, rfl⟩ := Procedures.dropProcs_eq_ok.mp hw
      obtain ⟨hheld, honce⟩ := (Procedures.without_dropped_iff hdrop.nodup).mp hgone.procedures
      refine ⟨⟨v, d, hv, hd, hu, hb⟩, UeContext.hasBearer_of_getPdn hp, ?_, hgone.rules,
        hdrop, hheld, honce⟩
      intro q pdn' hq
      obtain rfl := htied.only q pdn' hq
      cases htied.get.symm.trans hq
      exact ⟨hnum, hteid, hgx⟩
    · have hfreed := hgone.freed
      change ((s.withoutGx pdn).ues.set u _).get u = none at hfreed
      rw [withoutGx_ues, Heap.get_set hc, if_pos rfl] at hfreed
      cases hfreed
  · rintro ⟨⟨v, d, hv, hd, hu, hb⟩, hbearer, hpdn, hrules, hdrop, hheld, honce⟩
    obtain ⟨p, pdn, htied⟩ := (hs.context u c hc).exists_tied_of_hasBearer hbearer
    obtain ⟨q, pdn', htied'⟩ := (hs.context v d hd).exists_tied_of_hasBearer hb
    obtain ⟨hnum, hteid, hgx⟩ := hpdn p pdn htied.get
    obtain ⟨bearers, hiff⟩ := processErrorOccuredHandlerNew_eq_ok hu hc (htied.getPdn_eq hbearer) htied
    have hw : s.procedures.dropProcs c.upfContext c.pendingSubProcs =
        .ok (s.procedures.dropped c.upfContext c.pendingSubProcs) :=
      Procedures.dropProcs_eq_ok.mpr ⟨hdrop, rfl⟩
    have hwithout : (s.procedures.dropped c.upfContext c.pendingSubProcs).Without c.pendingSubProcs :=
      (Procedures.without_dropped_iff hdrop.nodup).mpr ⟨hheld, honce⟩
    have hhandler : replaceOldContext s csr =
        processErrorOccuredHandlerNew s d.s11SgwGtpcTeid csr.ebi := by
      simp only [replaceOldContext, hv, hd, deref_some, pure_bind, htied'.getPdn_eq hb]
      rfl
    have hreplace := hhandler.trans ((hiff _).mpr ⟨hgx, _, hw, .inl ⟨hnum, hteid, rfl⟩⟩)
    refine ⟨_, hreplace, hs.gone_forget hc htied hrules hwithout, ?_, fun env key => ?_⟩
    · intro k hk
      obtain rfl := Except.ok.inj (hkey.symm.trans hk)
      exact update_self ..
    · rw [handleCreateSessionRequest, hreplace]
      rfl

namespace Demo

/-- The request of `Demo.attach`. -/
def again : CreateSessReq := { Session.Demo.request 1 8 0 with ebi := 5 }

end Demo

/-- A context whose attach waits for the PCRF is replaced: it has no rule yet. -/
theorem replaces_iff_attaching :
    ∃ s c, final next (initial true) [Demo.attach 5] = some s ∧ s.ues.get 0 = some c ∧
      s.Replaceable 0 c Demo.again ∧ s.Replaces 0 c Demo.again := by
  have hentry (kind : Kind) (key : TransKey) (v : ProcId)
      (hv : update (fun _ _ => none : Kind → Session.Table TransKey ProcId) .gtp
        (Session.Table.insert (fun _ => none) ⟨1, ⟨0x0A000001, 2123⟩⟩ 0) kind key = some v) :
      kind = .gtp ∧ key = ⟨1, ⟨0x0A000001, 2123⟩⟩ ∧ v = 0 := by
    rw [update_apply] at hv
    split_ifs at hv with hkind
    rcases mem_of_insert hv with hv | ⟨hkey, hv⟩
    · cases hv
    · exact ⟨hkind, hkey, hv⟩
  obtain ⟨s, c, hrun, hc, hkey, hcond⟩ : ∃ s c, final next (initial true) [Demo.attach 5] = some s ∧
      s.ues.get 0 = some c ∧ imsiKey Demo.again = .ok c.imsi ∧ s.Replaceable 0 c Demo.again := by
    refine ⟨_, _, rfl, rfl, rfl, ⟨0, _, rfl, rfl, rfl, _, rfl, rfl⟩, ⟨_, rfl, rfl⟩, ?_, ?_, ?_⟩
    · intro p pdn hp
      cases p with
      | zero =>
        cases hp
        exact ⟨by decide, by decide +kernel, fun _ v hv => (Option.some.inj hv).symm⟩
      | succ p =>
        change none = some pdn at hp
        cases hp
    · refine ⟨fun _ _ h => ?_, fun _ _ h => ?_, fun _ _ => rfl⟩
      · cases h
      · cases h
    · -- The procedure of the attach is the only one, and has the only transaction.
      refine ⟨⟨by decide, by decide, ?_⟩, ?_, fun _ _ _ => Nat.zero_le _⟩
      · intro kind key q v hfirst hv
        obtain ⟨-, -, rfl⟩ := hentry kind key v hv
        exact (List.mem_singleton.mp (List.mem_of_find?_eq_some hfirst)).symm
      · intro kind key q _ hv
        obtain ⟨rfl, rfl, rfl⟩ := hentry kind key q hv
        rfl
  exact ⟨s, c, hrun, hc, hcond, (replaces_iff hrun hc hkey).mpr hcond⟩

/-- **An established session is not replaced completely** -/
theorem not_replaces_established :
    ∃ s c, final next (initial true) (Demo.session 5) = some s ∧ s.ues.get 0 = some c ∧
      imsiKey Demo.again = .ok c.imsi ∧ ¬ s.Replaces 0 c Demo.again := by
  have hpdr : ((final next (initial true) (Demo.session 5)).bind fun s =>
      (replaceOldContext s Demo.again).toOption.bind fun s' => s'.rules.pdrs 1) = some (0, 0) := by
    decide +kernel
  obtain ⟨s, c, hs, hc, hkey⟩ : ∃ s c, final next (initial true) (Demo.session 5) = some s ∧
      s.ues.get 0 = some c ∧ imsiKey Demo.again = .ok c.imsi := ⟨_, _, rfl, rfl, rfl⟩
  refine ⟨s, c, hs, hc, hkey, ?_⟩
  rintro ⟨s', hok, hgone, -, -⟩
  rw [hs, Option.bind_some, hok] at hpdr
  exact hgone.rules.pdrs 1 0 hpdr

/-- **In every state of every run each entry of a table leads to the UE context that it names, and
no subscriber has two UE contexts.** -/
theorem tables_sound (gx : Bool) (es : List Event) :
    ∀ s ∈ trace next (initial gx) es, s.Linked ∧ ∀ u v c c', s.ues.get u = some c →
      s.ues.get v = some c' → c'.imsi = c.imsi → v = u := by
  intro s hs
  have hguarded : Guarded next (fun _ _ => True) (initial gx) es :=
    guarded_of_forall (fun _ _ => trivial) _
  have hlinked : s.Linked :=
    (linked_and_of_guarded (I := fun _ => True) (fun _ _ _ _ _ _ _ => trivial) trivial
      hguarded s hs).1
  exact ⟨hlinked, fun u v c c' hc hc' => hlinked.eq_of_imsi hc hc'⟩

theorem tables_sound_attaching : (final next (initial true) [Demo.attach 5]).isSome ∧
      ∀ s ∈ trace next (initial true) [Demo.attach 5], s.Linked :=
  ⟨by decide +kernel, fun s hs => (tables_sound true _ s hs).1⟩

end Spgw.Bearer
