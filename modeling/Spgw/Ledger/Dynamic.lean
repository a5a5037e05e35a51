/-
# The dynamic pool loses and invents nothing

The queue of free addresses and the addresses that control plane PDNs hold are, together, what
`gen_pool` put in, each address once.
-/

import Spgw.Ledger.Detach

namespace Spgw.Session

open Machine

def controlAddr (pdn : Pdn) : Option Ipv4 :=
  if pdn.allocControl = true ∧ pdn.staticAddr = false then some pdn.ipv4 else none

def Ledger.dynamicAddrs (l : Ledger) : List Ipv4 := l.dynamicPool ++ l.pdns.held controlAddr

def Ledger.DynamicAct (l : Ledger) : Act → Prop
  | .failUpf => False
  | .handOver q =>
    ∀ pdn, l.pdns.get q = some pdn → pdn.allocControl = true → pdn.staticAddr = false
  | .upfAddress q a => ∀ pdn, l.pdns.get q = some pdn → ∀ b ∈ controlAddr pdn, a = b
  | a => l.Valid a

section Acts

variable {l : Ledger} {pool : List Ipv4}

theorem controlAddr_eq_none {pdn : Pdn} (h : pdn.allocControl = true → pdn.staticAddr = true) :
    controlAddr pdn = none := by
  unfold controlAddr
  rw [if_neg]
  rintro ⟨hcontrol, hstatic⟩
  rw [h hcontrol] at hstatic
  cases hstatic

theorem controlAddr_eq_some {pdn : Pdn} (hcontrol : pdn.allocControl = true)
    (hstatic : pdn.staticAddr = false) : controlAddr pdn = some pdn.ipv4 :=
  if_pos ⟨hcontrol, hstatic⟩

theorem dynamicAddrs_alloc (l : Ledger) (dynamicPool : List Ipv4) (staticPool : StaticPool)
    (pdn : Pdn) : Ledger.dynamicAddrs ⟨dynamicPool, staticPool, l.pdns.alloc pdn⟩ =
      dynamicPool ++ l.pdns.held controlAddr ++ (controlAddr pdn).toList := by
  rw [Ledger.dynamicAddrs, Heap.held_alloc, List.append_assoc]

theorem dynamicAddrs_cleanup (l : Ledger) (p : PdnPtr) :
    (l.act (.cleanup p)).dynamicAddrs.Perm l.dynamicAddrs := by
  cases hp : l.pdns.get p with
  | none =>
    simp only [Ledger.act, hp]
    exact .refl _
  | some pdn =>
    obtain ⟨rest, hheld, -, hfree⟩ := Heap.exists_held_perm controlAddr hp
    have hpool : (l.release pdn).dynamicPool = l.dynamicPool ++ (controlAddr pdn).toList := by
      unfold Ledger.release controlAddr
      split_ifs <;> simp_all
    simp only [Ledger.act, hp, Ledger.dynamicAddrs, hpool, List.append_assoc]
    refine List.Perm.append_left l.dynamicPool ?_
    exact (List.Perm.append_left _ hfree).trans hheld.symm

theorem dynamicAddrs_handOver {p : PdnPtr} (hok : l.DynamicAct (.handOver p)) :
    (l.act (.handOver p)).dynamicAddrs.Perm l.dynamicAddrs := by
  cases hp : l.pdns.get p with
  | none =>
    simp only [Ledger.act, hp]
    exact .refl _
  | some pdn =>
    simp only [Ledger.act, hp]
    split_ifs with hcontrol
    · obtain ⟨rest, hheld, hset, -⟩ := Heap.exists_held_perm controlAddr hp
      rw [controlAddr_eq_some hcontrol (hok pdn hp hcontrol)] at hheld
      have hgone := hset { pdn with ipv4 := 0, allocControl := false, allocUpf := true }
      rw [controlAddr_eq_none (fun h => by cases h)] at hgone
      simp only [Ledger.dynamicAddrs, List.append_assoc]
      refine List.Perm.append_left l.dynamicPool ?_
      exact (List.Perm.append_left _ hgone).trans hheld.symm
    · exact .refl _

theorem dynamicAddrs_upfAddress {p : PdnPtr} {a : Ipv4} (hok : l.DynamicAct (.upfAddress p a)) :
    (l.act (.upfAddress p a)).dynamicAddrs.Perm l.dynamicAddrs := by
  cases hp : l.pdns.get p with
  | none =>
    simp only [Ledger.act, hp]
    exact .refl _
  | some pdn =>
    obtain ⟨rest, hheld, hset, -⟩ := Heap.exists_held_perm controlAddr hp
    have hsame : controlAddr { pdn with ipv4 := a } = controlAddr pdn := by
      have hname := hok pdn hp
      unfold controlAddr at hname ⊢
      split_ifs at hname ⊢
      · rw [hname pdn.ipv4 rfl]
      · rfl
    simp only [Ledger.act, hp, Ledger.dynamicAddrs]
    refine List.Perm.append_left l.dynamicPool ?_
    exact (hsame ▸ hset _).trans hheld.symm

/-- **Every allowed act keeps the dynamic addresses together.** -/
theorem dynamicAddrs_act {a : Act} (h0 : 0 ∉ l.dynamicPool) (hok : l.DynamicAct a) :
    (l.act a).dynamicAddrs.Perm l.dynamicAddrs := by
  cases a with
  | depleted =>
    -- The pool has no `0`, so it is empty.
    have hempty : l.dynamicPool = [] := by
      have hhead : l.dynamicPool.head?.getD 0 = 0 := hok
      cases hpool : l.dynamicPool with
      | nil => rfl
      | cons b rest =>
        rw [hpool] at hhead h0
        exact absurd (hhead ▸ List.mem_cons_self) h0
    simp only [Ledger.act, hempty, Ledger.dynamicAddrs, List.tail_nil]
    exact .refl _
  | openDynamic pdn =>
    obtain ⟨hhead, -, hcontrol, hstatic⟩ := hok
    obtain ⟨rest, hpool⟩ := List.head?_eq_some_iff.mp hhead
    simp only [Ledger.act, hpool, List.tail_cons]
    rw [dynamicAddrs_alloc, controlAddr_eq_some hcontrol hstatic, Ledger.dynamicAddrs, hpool]
    exact List.perm_append_comm
  | openStatic pdn =>
    simp only [Ledger.act]
    rw [dynamicAddrs_alloc, controlAddr_eq_none fun _ => hok.2, Option.toList_none, List.append_nil]
    exact .refl _
  | openUpf pdn =>
    simp only [Ledger.act]
    rw [dynamicAddrs_alloc, controlAddr_eq_none fun h => by simp [hok.1] at h,
      Option.toList_none, List.append_nil]
    exact .refl _
  | failDynamic =>
    simp only [Ledger.act, Ledger.dynamicAddrs]
    refine List.Perm.append_right _ ?_
    cases l.dynamicPool with
    | nil => exact .refl _
    | cons b rest => exact List.perm_append_comm
  | failStatic a => exact .refl _
  | failUpf => exact hok.elim
  | cleanup p => exact dynamicAddrs_cleanup l p
  | handOver p => exact dynamicAddrs_handOver hok
  | upfAddress p a => exact dynamicAddrs_upfAddress hok
  | earlyRelease p =>
    simp only [Ledger.act]
    split <;> exact .refl _

end Acts

/-- The event takes no address for another than the one it came from. -/
def DynamicOk (cfg : Config) (s : State) : Event → Prop
  | .createSessionRequest env peer csr => Processed cfg s peer csr → DirectOk cfg env s csr ∧
      (requestKind cfg env s csr = some .upf → createFails env (imsiTable s csr) csr = false)
  | .ccaInitial p accepted _ => accepted = true → ∀ proc ∈ s.procs.get p, proc.gxTrans = true →
      HandOverOk s proc proc.pdnContext
  | .sessionEstResponse p rsp => rsp.accepted = true → ∀ proc ∈ s.procs.get p,
      proc.pfcpTrans ≠ none → ∀ pdn ∈ proc.pdnContext.bind s.pdns.get, ∀ b ∈ controlAddr pdn,
        ∀ a ∈ rsp.ueIpAddress, ntohl a = b
  | .assocSetupSuccess service =>
    ∀ upf ∈ s.upfs service, ∀ p ∈ upf.pendingSubProcs, ResumeOk s p
  | _ => True

instance (cfg : Config) (s : State) : ∀ e, Decidable (DynamicOk cfg s e)
  | .createSessionRequest .. => inferInstanceAs (Decidable (_ → _))
  | .ccaInitial .. => inferInstanceAs (Decidable (_ → _))
  | .sessionEstResponse .. => inferInstanceAs (Decidable (_ → _))
  | .assocSetupSuccess service => inferInstanceAs (Decidable (∀ upf ∈ s.upfs service, _))
  | .gxTimeout .. | .deleteSessionRequest .. | .sessionDeleteResponse .. | .pfcpTimeout ..
  | .nwInitDetachEnd .. | .assocSetupResponse .. | .assocSetupFailure .. | .discover ..
  | .assocTimer .. | .upfDown .. => isTrue trivial

theorem Cleans.dynamicAct {l : Ledger} {a : Act} (h : Cleans l a) : l.DynamicAct a := by
  obtain ⟨p, rfl⟩ := h
  exact trivial

theorem Settles.dynamicAct {l : Ledger} {a : Act} (h : Settles l a) : l.DynamicAct a := by
  rcases h with h | ⟨q, rfl, hq⟩
  · exact h.dynamicAct
  · exact hq

theorem Attaches.dynamicAct {csr : CreateSessReq} {kind : Option AddrKind} {fails : Bool}
    {l : Ledger} {a : Act} (h : Attaches csr kind fails l a) (hok : kind = some .upf → fails = false) :
    l.DynamicAct a := by
  rcases h with h | ⟨hvalid, k, hk, rfl | ⟨hfails, rfl⟩ | ⟨pdn, rfl⟩⟩
  · exact h.dynamicAct
  · exact hvalid
  · cases k with
    | upf =>
      rw [hok hk] at hfails
      cases hfails
    | static => exact hvalid
    | dynamic => exact hvalid
  · cases k <;> exact hvalid

theorem DynamicOk.eventOk {cfg : Config} {s : State} {e : Event} (hok : DynamicOk cfg s e) :
    EventOk Ledger.DynamicAct cfg s e := by
  cases e with
  | createSessionRequest env peer csr =>
    intro hproc
    obtain ⟨hdirect, hfails⟩ := hok hproc
    exact ⟨hdirect, fun l a h => h.dynamicAct hfails⟩
  | sessionEstResponse p rsp =>
    intro hacc proc hproc htrans
    refine ⟨fun _ _ _ => trivial, fun q hq a ha pdn hpdn b hb => ?_⟩
    exact hok hacc proc hproc htrans pdn (Option.bind_eq_some_iff.mpr ⟨q, hq, hpdn⟩) b hb a ha
  | deleteSessionRequest peer dsr => exact fun _ _ _ => trivial
  | ccaInitial | assocSetupSuccess => exact hok
  | gxTimeout | sessionDeleteResponse | pfcpTimeout | nwInitDetachEnd | assocSetupResponse
  | assocSetupFailure | discover | assocTimer | upfDown => exact trivial

/-- Pool and sessions together have each address of the pool once. -/
def DynamicPoolIntact (pool : List Ipv4) (s : State) : Prop :=
  s.ledger.dynamicAddrs.Perm pool ∧ s.ledger.dynamicAddrs.Nodup

instance (pool : List Ipv4) (s : State) : Decidable (DynamicPoolIntact pool s) :=
  inferInstanceAs (Decidable (_ ∧ _))

theorem dynamicPoolIntact_step {cfg : Config} {pool : List Ipv4} (h0 : 0 ∉ pool)
    {s : State} {e : Event} (hs : DynamicPoolIntact pool s) (hok : DynamicOk cfg s e) :
    Sat (step cfg s e) (DynamicPoolIntact pool) AnyFault := by
  refine (step_performs (fun _ _ h => h.dynamicAct) hok.eventOk).mono fun t ht => ?_
  have hperm : t.ledger.dynamicAddrs.Perm pool := by
    refine Path.invariant (I := fun l : Ledger => l.dynamicAddrs.Perm pool) ht hs.1 ?_
    intro l a hl ha
    refine (dynamicAddrs_act (fun hmem => h0 ?_) ha).trans hl
    exact hl.subset (List.mem_append_left _ hmem)
  exact ⟨hperm, hperm.nodup_iff.mpr (hs.1.nodup_iff.mp hs.2)⟩

/-- **The dynamic pool stays intact along every run** -/
theorem dynamicPoolIntact_of_eventsOk (cfg : Config) {net mask : Ipv4} {pool : List Ipv4}
    (hpool : genPool net mask = some pool) (h0 : 0 ∉ pool) (staticPool : StaticPool)
    {es : List Event}
    (hok : Guarded (failStep (step cfg)) (failGuard (DynamicOk cfg))
      (.ok (initial pool staticPool)) es) :
    ∀ w ∈ trace (failStep (step cfg)) (.ok (initial pool staticPool)) es,
      Sat w (DynamicPoolIntact pool) AnyFault := by
  refine failTrace_invariant (fun s e hs he => dynamicPoolIntact_step h0 hs he) ?_ hok
  have hstart : (initial pool staticPool).ledger.dynamicAddrs = pool := by
    simp [initial, State.ledger, Ledger.dynamicAddrs, Heap.held, Heap.live]
  exact ⟨by rw [hstart], by rw [hstart]; exact nodup_genPool hpool⟩

/-! ### A run that pushes `0`

Two attaches with one IMSI of fourteen digits, which the table has under a key with the eighth byte
`0xff`: the second request does not find the context to replace, and `create_ue_context` does. -/

def Demo.sameImsi : List Event :=
  [.createSessionRequest Demo.env Demo.mme (Demo.request 1 7 0),
    .createSessionRequest Demo.env Demo.mme (Demo.request 2 7 0)]

theorem not_dynamicPoolIntact_sameImsi : genPool 0x0A010000 0xFFFFFFFC = some Demo.pool ∧
      ¬ ∀ w ∈ trace (failStep (step Demo.upfAddresses)) (.ok (initial Demo.pool {})) Demo.sameImsi,
        Sat w (DynamicPoolIntact Demo.pool) AnyFault := by
  decide

theorem dynamicPoolIntact_sameImsi :
    Guarded (failStep (step Demo.controlAddresses)) (failGuard (DynamicOk Demo.controlAddresses))
      (.ok (initial Demo.pool {})) Demo.sameImsi ∧
      ∀ w ∈ trace (failStep (step Demo.controlAddresses)) (.ok (initial Demo.pool {})) Demo.sameImsi,
        Sat w (DynamicPoolIntact Demo.pool) AnyFault :=
  ⟨by decide, dynamicPoolIntact_of_eventsOk Demo.controlAddresses
    (by decide : genPool 0x0A010000 0xFFFFFFFC = some Demo.pool) (by decide) {} (by decide)⟩

end Spgw.Session
