/-
# The ledger of addresses

What the handlers do to the two pools and to the PDN connections, and nothing else.
-/

import Spgw.Session.Frame

namespace Spgw.Session

open Machine

structure Ledger where
  dynamicPool : List Ipv4
  staticPool : StaticPool
  pdns : Heap Pdn

def State.ledger (s : State) : Ledger := ⟨s.dynamicPool, s.staticPool, s.pdns⟩

/-- What can happen to the ledger. -/
inductive Act
  | depleted
  | openDynamic (pdn : Pdn)
  | openStatic (pdn : Pdn)
  | openUpf (pdn : Pdn)
  | failDynamic
  | failStatic (a : Ipv4)
  | failUpf
  | cleanup (p : PdnPtr)
  | handOver (p : PdnPtr)
  | upfAddress (p : PdnPtr) (a : Ipv4)
  | earlyRelease (p : PdnPtr)

namespace Ledger

def release (l : Ledger) (pdn : Pdn) : Ledger :=
  if pdn.staticAddr then { l with staticPool := (l.staticPool.releaseIpNode pdn.ipv4).2 }
  else if pdn.allocControl then { l with dynamicPool := l.dynamicPool ++ [pdn.ipv4] }
  else l

def act (l : Ledger) : Act → Ledger
  | .depleted => { l with dynamicPool := l.dynamicPool.tail }
  | .openDynamic pdn => { l with dynamicPool := l.dynamicPool.tail, pdns := l.pdns.alloc pdn }
  | .openStatic pdn =>
    { l with staticPool := l.staticPool.setUsed pdn.ipv4 true, pdns := l.pdns.alloc pdn }
  | .openUpf pdn => { l with pdns := l.pdns.alloc pdn }
  | .failDynamic => { l with dynamicPool := l.dynamicPool.tail ++ l.dynamicPool.head?.toList }
  | .failStatic a => { l with staticPool := l.staticPool.setUsed a true }
  | .failUpf => { l with dynamicPool := l.dynamicPool ++ [0] }
  | .cleanup p => match l.pdns.get p with
    | some pdn => { l.release pdn with pdns := l.pdns.free p }
    | none => l
  | .handOver p => match l.pdns.get p with
    | some pdn => if pdn.allocControl then
        { l with
          dynamicPool := l.dynamicPool ++ [pdn.ipv4]
          pdns := l.pdns.set p { pdn with ipv4 := 0, allocControl := false, allocUpf := true } }
      else l
    | none => l
  | .upfAddress p a => match l.pdns.get p with
    | some pdn => { l with pdns := l.pdns.set p { pdn with ipv4 := a } }
    | none => l
  | .earlyRelease p => match l.pdns.get p with
    | some pdn => { l with staticPool := (l.staticPool.releaseIpNode pdn.ipv4).2 }
    | none => l

def Valid (l : Ledger) : Act → Prop
  | .depleted => l.dynamicPool.head?.getD 0 = 0
  | .openDynamic pdn => l.dynamicPool.head? = some pdn.ipv4 ∧ pdn.ipv4 ≠ 0 ∧
      pdn.allocControl = true ∧ pdn.staticAddr = false
  | .openStatic pdn => l.staticPool.used? pdn.ipv4 = some false ∧ pdn.staticAddr = true
  | .openUpf pdn => pdn.allocControl = false ∧ pdn.staticAddr = false
  | .failStatic a => l.staticPool.used? a = some false
  | _ => True

end Ledger

/-- The ledger of `t` is reached from `l` by acts that meet `A`. -/
abbrev Performs (A : Ledger → Act → Prop) (l : Ledger) (t : State) : Prop :=
  Path Ledger.act A l t.ledger

def Cleans (_ : Ledger) (a : Act) : Prop := ∃ p, a = .cleanup p

theorem ledger_releaseAddress (s : State) (pdn : Pdn) :
    (releaseAddress s pdn).ledger = s.ledger.release pdn := by
  unfold releaseAddress Ledger.release
  split_ifs
  · rfl
  · rw [releaseIp_eq]
    rfl
  · rfl

theorem cleanupPdnContext_ledger (s : State) (p : PdnPtr) :
    Sat (cleanupPdnContext s p) (·.ledger = s.ledger.act (.cleanup p)) AnyFault := by
  refine (cleanupPdnContext_spec trivial (Or.inr trivial)).mono ?_
  rintro t ⟨pdn, u, context, hpdn, -, -, rfl⟩
  have hget : s.ledger.pdns.get p = some pdn := hpdn
  simp only [Ledger.act, hget, ← ledger_releaseAddress]
  rfl

theorem cleanupUeContext_ledger (s : State) (u : UePtr) :
    Sat (cleanupUeContext s u) (·.ledger = s.ledger) AnyFault := by
  refine (cleanupUeContext_spec trivial (Or.inr trivial)).mono ?_
  rintro t ⟨context, procs, gtpTrans, -, -, rfl⟩
  rfl

theorem releaseSession_ledger (s : State) (u : UePtr) (p : PdnPtr) :
    Sat (releaseSession s u p) (·.ledger = s.ledger.act (.cleanup p)) AnyFault :=
  (cleanupPdnContext_ledger s p).bind fun t ht =>
    (cleanupUeContext_ledger t u).mono fun _ hu => hu.trans ht

theorem releaseSession_cleans (s : State) (u : UePtr) (p : PdnPtr) :
    Sat (releaseSession s u p) (Performs Cleans s.ledger) AnyFault := by
  refine (releaseSession_ledger s u p).mono fun t ht => ?_
  rw [Performs, ht]
  exact .single ⟨p, rfl⟩

theorem unlinkProc_ledger (s : State) (p : ProcId) (proc : Procedure) :
    Sat (unlinkProc s p proc) (·.ledger = s.ledger) AnyFault := by
  refine (unlinkProc_spec trivial (Or.inr trivial)).mono ?_
  rintro t (⟨-, rfl⟩ | ⟨u, context, -, -, rfl⟩) <;> rfl

theorem endAttachFailure_cleans (s : State) (p : ProcId) :
    Sat (endAttachFailure s p) (Performs Cleans s.ledger) AnyFault := by
  unfold endAttachFailure
  refine sat_deref_bind fun proc _ => ?_
  refine (unlinkProc_ledger s p proc).bind fun t ht => ?_
  rw [← ht]
  split
  · exact releaseSession_cleans _ _ _
  · exact sat_pure .refl

theorem csErrorResponse_ledger (s : State) (p : ProcId) (proc : Procedure) (cause : ℕ) :
    Sat (csErrorResponse s p proc cause) (·.ledger = s.ledger) AnyFault := by
  unfold csErrorResponse
  refine (sat_true (getErrorCsrspInfo s proc)).bind fun ⟨peer, seq⟩ _ => ?_
  refine sat_assert_bind ?_
  dsimp only
  split
  · exact sat_pure rfl
  · exact sat_assert_bind (sat_pure rfl)

theorem procInitialAttachFailure_cleans (s : State) (p : ProcId) (cause : ℕ) :
    Sat (procInitialAttachFailure s p cause) (Performs Cleans s.ledger) AnyFault := by
  unfold procInitialAttachFailure
  refine sat_deref_bind fun proc _ => ?_
  refine (csErrorResponse_ledger s p proc cause).bind fun t ht => ?_
  rw [← ht]
  exact endAttachFailure_cleans t p

theorem endDetach_cleans (s : State) (p : ProcId) :
    Sat (endDetach s p) (Performs Cleans s.ledger) AnyFault := by
  unfold endDetach
  refine sat_deref_bind fun proc _ => ?_
  refine (unlinkProc_ledger s p proc).bind fun t ht => ?_
  refine (sat_assertSome fun _ => trivial).bind fun u _ => ?_
  refine (sat_assertSome fun _ => trivial).bind fun pdn _ => ?_
  rw [← ht]
  exact releaseSession_cleans _ _ _

end Spgw.Session
