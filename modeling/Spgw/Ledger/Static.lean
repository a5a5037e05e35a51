/-
# Static addresses and their flags

A static address is marked used exactly while a live PDN holds it, and no two live PDNs hold the
same one.
-/

import Spgw.Ledger.Dynamic

namespace Spgw.Session

open Machine

def staticAddrOf (pdn : Pdn) : Option Ipv4 := if pdn.staticAddr then some pdn.ipv4 else none

theorem staticAddrOf_eq_some {pdn : Pdn} (h : pdn.staticAddr = true) :
    staticAddrOf pdn = some pdn.ipv4 := if_pos h

theorem staticAddrOf_eq_none {pdn : Pdn} (h : pdn.staticAddr = false) : staticAddrOf pdn = none :=
  if_neg (by simp [h])

/-- The marked addresses are those of the sessions, each of one. -/
def Ledger.StaticExact (l : Ledger) : Prop :=
  (l.pdns.held staticAddrOf).Nodup ∧
    ∀ a, l.staticPool.used? a = some true ↔ a ∈ l.pdns.held staticAddrOf

def Ledger.StaticAct (l : Ledger) : Act → Prop
  | .failStatic _ => False
  | .earlyRelease _ => False
  | .handOver q =>
    ∀ pdn, l.pdns.get q = some pdn → pdn.allocControl = true → pdn.staticAddr = false
  | .upfAddress q a => ∀ pdn, l.pdns.get q = some pdn → ∀ b ∈ staticAddrOf pdn, a = b
  | a => l.Valid a

section Acts

variable {l : Ledger}

theorem Ledger.StaticExact.of_perm {l' : Ledger} (h : l.StaticExact)
    (hpool : l'.staticPool = l.staticPool)
    (hheld : (l'.pdns.held staticAddrOf).Perm (l.pdns.held staticAddrOf)) : l'.StaticExact := by
  refine ⟨hheld.nodup_iff.mpr h.1, fun a => ?_⟩
  rw [hpool, hheld.mem_iff]
  exact h.2 a

theorem staticExact_openStatic {pdn : Pdn} (h : l.StaticExact) (hok : l.Valid (.openStatic pdn)) :
    (l.act (.openStatic pdn)).StaticExact := by
  obtain ⟨hfree, hstatic⟩ := hok
  have hnew : pdn.ipv4 ∉ l.pdns.held staticAddrOf := by
    intro hmem
    rw [(h.2 pdn.ipv4).mpr hmem] at hfree
    cases hfree
  simp only [Ledger.StaticExact, Ledger.act, Heap.held_alloc, staticAddrOf_eq_some hstatic,
    Option.toList_some]
  refine ⟨?_, fun a => ?_⟩
  · rw [List.nodup_append]
    refine ⟨h.1, List.nodup_singleton _, ?_⟩
    rintro a ha b hb rfl
    rw [List.mem_singleton] at hb
    exact hnew (hb ▸ ha)
  · rw [StaticPool.used?_setUsed, List.mem_append, List.mem_singleton]
    split_ifs with heq
    · subst heq
      simp [hfree]
    · rw [h.2 a]
      constructor
      · exact Or.inl
      · rintro (ha | rfl)
        · exact ha
        · exact absurd rfl heq

theorem staticExact_cleanup (h : l.StaticExact) (p : PdnPtr) :
    (l.act (.cleanup p)).StaticExact := by
  cases hp : l.pdns.get p with
  | none =>
    simp only [Ledger.act, hp]
    exact h
  | some pdn =>
    obtain ⟨rest, hheld, -, hfree⟩ := Heap.exists_held_perm staticAddrOf hp
    cases hstatic : pdn.staticAddr with
    | false =>
      rw [staticAddrOf_eq_none hstatic, Option.toList_none, List.nil_append] at hheld
      refine h.of_perm ?_ ?_
      · simp only [Ledger.act, hp, Ledger.release, hstatic, Bool.false_eq_true, if_false]
        split_ifs <;> rfl
      · simp only [Ledger.act, hp]
        exact hfree.trans hheld.symm
    | true =>
      rw [staticAddrOf_eq_some hstatic] at hheld
      have hnodup : (pdn.ipv4 :: rest).Nodup := hheld.nodup_iff.mp h.1
      have hused : l.staticPool.used? pdn.ipv4 = some true :=
        (h.2 _).mpr (hheld.mem_iff.mpr List.mem_cons_self)
      have hpool : (l.release pdn).staticPool = l.staticPool.setUsed pdn.ipv4 false := by
        simp [Ledger.release, hstatic, StaticPool.releaseIpNode, hused]
      simp only [Ledger.StaticExact, Ledger.act, hp, hpool]
      refine ⟨hfree.nodup_iff.mpr (List.nodup_cons.mp hnodup).2, fun a => ?_⟩
      rw [StaticPool.used?_setUsed, hfree.mem_iff]
      split_ifs with heq
      · rw [← heq, hused]
        simp [(List.nodup_cons.mp hnodup).1]
      · rw [h.2 a, hheld.mem_iff]
        have hne : a ≠ pdn.ipv4 := fun h => heq h.symm
        simp [hne]

theorem staticExact_act {a : Act} (h : l.StaticExact) (hok : l.StaticAct a) :
    (l.act a).StaticExact := by
  cases a with
  | depleted => exact h
  | openDynamic pdn =>
    refine h.of_perm rfl ?_
    simp only [Ledger.act, Heap.held_alloc, staticAddrOf_eq_none hok.2.2.2, Option.toList_none,
      List.append_nil]
    exact .refl _
  | openStatic pdn => exact staticExact_openStatic h hok
  | openUpf pdn =>
    refine h.of_perm rfl ?_
    simp only [Ledger.act, Heap.held_alloc, staticAddrOf_eq_none hok.2, Option.toList_none,
      List.append_nil]
    exact .refl _
  | failDynamic => exact h
  | failStatic a => exact hok.elim
  | failUpf => exact h
  | cleanup p => exact staticExact_cleanup h p
  | handOver p =>
    cases hp : l.pdns.get p with
    | none =>
      simp only [Ledger.act, hp]
      exact h
    | some pdn =>
      simp only [Ledger.act, hp]
      split_ifs with hcontrol
      · obtain ⟨rest, hheld, hset, -⟩ := Heap.exists_held_perm staticAddrOf hp
        have hstatic := hok pdn hp hcontrol
        rw [staticAddrOf_eq_none hstatic] at hheld
        have hnone : staticAddrOf { pdn with ipv4 := 0, allocControl := false, allocUpf := true } =
            none := staticAddrOf_eq_none hstatic
        exact h.of_perm rfl ((hnone ▸ hset _).trans hheld.symm)
      · exact h
  | upfAddress p a =>
    cases hp : l.pdns.get p with
    | none =>
      simp only [Ledger.act, hp]
      exact h
    | some pdn =>
      obtain ⟨rest, hheld, hset, -⟩ := Heap.exists_held_perm staticAddrOf hp
      have hsame : staticAddrOf { pdn with ipv4 := a } = staticAddrOf pdn := by
        have hname := hok pdn hp
        unfold staticAddrOf at hname ⊢
        split_ifs at hname ⊢
        · rw [hname pdn.ipv4 rfl]
        · rfl
      simp only [Ledger.act, hp]
      exact h.of_perm rfl ((hsame ▸ hset _).trans hheld.symm)
  | earlyRelease p => exact hok.elim

end Acts

/-- The event marks no static address that it does not hold. -/
def StaticOk (cfg : Config) (s : State) : Event → Prop
  | .createSessionRequest env peer csr => Processed cfg s peer csr → DirectOk cfg env s csr ∧
      (requestKind cfg env s csr = some .static → createFails env (imsiTable s csr) csr = false)
  | .ccaInitial p accepted _ => accepted = true → ∀ proc ∈ s.procs.get p, proc.gxTrans = true →
      HandOverOk s proc proc.pdnContext
  | .sessionEstResponse p rsp => rsp.accepted = true → ∀ proc ∈ s.procs.get p,
      proc.pfcpTrans ≠ none → waitingEarly s (queueBehind s p proc) = none ∧
        ∀ pdn ∈ proc.pdnContext.bind s.pdns.get, ∀ b ∈ staticAddrOf pdn,
          ∀ a ∈ rsp.ueIpAddress, ntohl a = b
  | .deleteSessionRequest _ dsr => requestEarly s dsr = none
  | .assocSetupSuccess service =>
    ∀ upf ∈ s.upfs service, ∀ p ∈ upf.pendingSubProcs, ResumeOk s p
  | _ => True

instance (cfg : Config) (s : State) : ∀ e, Decidable (StaticOk cfg s e)
  | .createSessionRequest .. => inferInstanceAs (Decidable (_ → _))
  | .ccaInitial .. => inferInstanceAs (Decidable (_ → _))
  | .sessionEstResponse .. => inferInstanceAs (Decidable (_ → _))
  | .deleteSessionRequest .. => inferInstanceAs (Decidable (_ = _))
  | .assocSetupSuccess service => inferInstanceAs (Decidable (∀ upf ∈ s.upfs service, _))
  | .gxTimeout .. | .sessionDeleteResponse .. | .pfcpTimeout .. | .nwInitDetachEnd ..
  | .assocSetupResponse .. | .assocSetupFailure .. | .discover .. | .assocTimer .. | .upfDown .. =>
    isTrue trivial

theorem Cleans.staticAct {l : Ledger} {a : Act} (h : Cleans l a) : l.StaticAct a := by
  obtain ⟨p, rfl⟩ := h
  exact trivial

theorem Settles.staticAct {l : Ledger} {a : Act} (h : Settles l a) : l.StaticAct a := by
  rcases h with h | ⟨q, rfl, hq⟩
  · exact h.staticAct
  · exact hq

theorem Attaches.staticAct {csr : CreateSessReq} {kind : Option AddrKind} {fails : Bool}
    {l : Ledger} {a : Act} (h : Attaches csr kind fails l a)
    (hok : kind = some .static → fails = false) : l.StaticAct a := by
  rcases h with h | ⟨hvalid, k, hk, rfl | ⟨hfails, rfl⟩ | ⟨pdn, rfl⟩⟩
  · exact h.staticAct
  · exact hvalid
  · cases k with
    | static =>
      rw [hok hk] at hfails
      cases hfails
    | upf => exact hvalid
    | dynamic => exact hvalid
  · cases k <;> exact hvalid

theorem StaticOk.eventOk {cfg : Config} {s : State} {e : Event} (hok : StaticOk cfg s e) :
    EventOk Ledger.StaticAct cfg s e := by
  cases e with
  | createSessionRequest env peer csr =>
    intro hproc
    obtain ⟨hdirect, hfails⟩ := hok hproc
    exact ⟨hdirect, fun l a h => h.staticAct hfails⟩
  | sessionEstResponse p rsp =>
    intro hacc proc hproc htrans
    obtain ⟨hwaiting, haddrs⟩ := hok hacc proc hproc htrans
    refine ⟨fun r hr => ?_, fun q hq a ha pdn hpdn b hb => ?_⟩
    · rw [hwaiting] at hr
      cases hr
    · exact haddrs pdn (Option.bind_eq_some_iff.mpr ⟨q, hq, hpdn⟩) b hb a ha
  | deleteSessionRequest peer dsr =>
    intro r hr
    have hnone : requestEarly s dsr = none := hok
    rw [hnone] at hr
    cases hr
  | ccaInitial | assocSetupSuccess => exact hok
  | gxTimeout | sessionDeleteResponse | pfcpTimeout | nwInitDetachEnd | assocSetupResponse
  | assocSetupFailure | discover | assocTimer | upfDown => exact trivial

theorem staticExact_step {cfg : Config} {s : State} {e : Event} (hs : s.ledger.StaticExact)
    (hok : StaticOk cfg s e) : Sat (step cfg s e) (·.ledger.StaticExact) AnyFault :=
  (step_performs (fun _ _ h => h.staticAct) hok.eventOk).mono fun _ ht =>
    ht.invariant hs fun _ _ => staticExact_act

/-- **Static addresses are used exactly while a live PDN holds them** -/
theorem staticExact_of_eventsOk (cfg : Config) {net mask : Ipv4} {staticPool : StaticPool}
    (hpool : StaticPool.gen net mask = some staticPool) (pool : List Ipv4) {es : List Event}
    (hok : Guarded (failStep (step cfg)) (failGuard (StaticOk cfg))
      (.ok (initial pool staticPool)) es) :
    ∀ w ∈ trace (failStep (step cfg)) (.ok (initial pool staticPool)) es,
      Sat w (·.ledger.StaticExact) AnyFault := by
  refine failTrace_invariant (fun s e hs he => staticExact_step hs he) ?_ hok
  have hstart : (initial pool staticPool).ledger.pdns.held staticAddrOf = [] := rfl
  refine ⟨hstart ▸ List.nodup_nil, fun a => ?_⟩
  rw [hstart]
  exact ⟨fun h => absurd h (StaticPool.used?_gen hpool a), fun h => by cases h⟩

/-- `10.2.0.0/30`. -/
def Demo.staticPool : StaticPool := ⟨some (StaticPool.addIpaddrs (StaticPool.hosts 0x0A020000 4))⟩

def Demo.staticAttach : List Event :=
  [.createSessionRequest Demo.env Demo.mme (Demo.request 1 8 (htonl 0x0A020001)),
    .ccaInitial 0 true 0x0A000002, .assocSetupResponse 1 true false, .assocSetupSuccess 1,
    .sessionEstResponse 0 { accepted := true, seid := 0xC0FFEE5 }]

def Demo.deleteSession : Event :=
  .deleteSessionRequest Demo.mme
    { seq := 2, teid := 0xC0FFEE, lbiLen := 1, lbi := 5, indicationSi := false }

theorem gen_staticPool : StaticPool.gen 0x0A020000 0xFFFFFFFC = some Demo.staticPool := by
  have htotal : totalAddress 0xFFFFFFFC = some 4 := by decide
  rw [StaticPool.gen, htotal]
  rfl

/-- The Delete Session Request frees the address, and the PDN still holds it. -/
theorem not_staticExact_detach : StaticPool.gen 0x0A020000 0xFFFFFFFC = some Demo.staticPool ∧
      ¬ ∀ w ∈ trace (failStep (step Demo.controlAddresses))
          (.ok (initial Demo.pool Demo.staticPool)) (Demo.staticAttach ++ [Demo.deleteSession]),
        Sat w (·.ledger.StaticExact) AnyFault := by
  refine ⟨gen_staticPool, fun h => ?_⟩
  have hfree : ∃ w ∈ trace (failStep (step Demo.controlAddresses))
      (.ok (initial Demo.pool Demo.staticPool)) (Demo.staticAttach ++ [Demo.deleteSession]),
      Sat w (fun s => s.ledger.staticPool.used? 0x0A020001 = some false ∧
        0x0A020001 ∈ s.ledger.pdns.held staticAddrOf) (fun _ => False) := by
    decide
  obtain ⟨w, hw, hs⟩ := hfree
  cases w with
  | error f => exact hs
  | ok s =>
    have hused := (h (.ok s) hw).2 0x0A020001
    rw [hs.1] at hused
    cases hused.mpr hs.2

theorem staticExact_nwInitDetach :
    Guarded (failStep (step Demo.controlAddresses)) (failGuard (StaticOk Demo.controlAddresses))
      (.ok (initial Demo.pool Demo.staticPool)) (Demo.staticAttach ++ [.nwInitDetachEnd 0]) ∧
      ∀ w ∈ trace (failStep (step Demo.controlAddresses))
          (.ok (initial Demo.pool Demo.staticPool)) (Demo.staticAttach ++ [.nwInitDetachEnd 0]),
        Sat w (·.ledger.StaticExact) AnyFault := by
  have hok : Guarded (failStep (step Demo.controlAddresses)) (failGuard (StaticOk Demo.controlAddresses))
      (.ok (initial Demo.pool Demo.staticPool)) (Demo.staticAttach ++ [.nwInitDetachEnd 0]) := by
    decide +kernel
  exact ⟨hok, staticExact_of_eventsOk Demo.controlAddresses gen_staticPool Demo.pool hok⟩

end Spgw.Session
