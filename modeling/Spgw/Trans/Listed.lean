/-
# The tables list live transactions

In every state the entries of the tables point to transactions that are not marked for delayed
delete, and every cleanup takes exactly the entries of its transaction out of its table.
-/

import Spgw.Trans.Machine

namespace Spgw.Trans

open Machine
open Session (deref deref_some deref_bind_eq_ok assert)

/-- The tables lead only to transactions that are not marked for deletion. -/
def State.Listed (s : State) : Prop :=
  ∀ kind key t, s.tables kind key = some t → ∃ d, s.trans.get t = some d ∧ d.delayedDelete = false

/-- A cleanup takes the transaction out of its table, and nothing else. -/
def Exact (my : Socks) (s : State) (op : Op) : Prop :=
  match op with
  | .cleanup call p => ∀ c t, s.procs.get p = some c → c.trans call.slot = some t →
      ∃ s', step my s op = .ok s' ∧ s'.tables call.table = (s.tables call.table).without t ∧
        ∀ k, k ≠ call.table → s'.tables k = s.tables k
  | _ => True

/-- No procedure has a transaction with the key. -/
def State.Unheld (my : Socks) (s : State) (kind : Kind) (key : TransKey) : Prop :=
  ∀ c ∈ s.procs.live, ∀ t ∈ c.trans kind, ∀ d ∈ s.trans.get t, d.key my kind ≠ key

instance (my : Socks) (s : State) (kind : Kind) (key : TransKey) :
    Decidable (s.Unheld my kind key) := by
  unfold State.Unheld
  infer_instance

/-- The key is neither in the table nor with a procedure. -/
def State.Free (my : Socks) (s : State) (kind : Kind) (key : TransKey) : Prop :=
  s.tables kind key = none ∧ s.Unheld my kind key

instance (my : Socks) (s : State) (kind : Kind) (key : TransKey) :
    Decidable (s.Free my kind key) := inferInstanceAs (Decidable (_ ∧ _))

/-- The procedure has no transaction in the slot. -/
def State.NoTrans (s : State) (p : ProcId) (kind : Kind) : Prop :=
  ∀ c ∈ s.procs.get p, c.trans kind = none

instance (s : State) (p : ProcId) (kind : Kind) : Decidable (s.NoTrans p kind) := by
  unfold State.NoTrans
  infer_instance

/-- A new key is free, and a cleanup looks into the table of the slot. -/
def Allowed (my : Socks) (s : State) : Op → Prop
  | .handleRequest node peer seq _ =>
    s.tables node.kind ⟨seq, peer⟩ = none → s.Unheld my node.kind ⟨seq, peer⟩
  | .send r _ _ => s.Free my r.kind ⟨r.transSeq (s.sequence r.kind), my.own r.kind⟩
  | .sendCcrInitial _ => s.Free my .gx ⟨s.sequence .gx, my.own .gx⟩
  | .ccaInitial p => s.NoTrans p .gx
  | .cleanup call p => call.table = call.slot ∨ s.NoTrans p call.slot
  | _ => True

instance (my : Socks) (s : State) : ∀ op, Decidable (Allowed my s op)
  | .handleRequest node peer seq _ =>
    inferInstanceAs (Decidable
      (s.tables node.kind ⟨seq, peer⟩ = none → s.Unheld my node.kind ⟨seq, peer⟩))
  | .send _ _ _ => inferInstanceAs (Decidable (s.Free my _ _))
  | .sendCcrInitial _ => inferInstanceAs (Decidable (s.Free my _ _))
  | .ccaInitial p => inferInstanceAs (Decidable (s.NoTrans p .gx))
  | .cleanup call p => inferInstanceAs (Decidable (_ ∨ s.NoTrans p call.slot))
  | .allocProc _ | .useSequence _ | .gtpResponse _ _ | .pfcpResponse _
  | .csErrorResponse _ _ _ | .freeProc _ => isTrue trivial

def TransData.Current (kind : Kind) (d : TransData) : Prop :=
  d.delayedDelete = false ∧ d.origin.kind = kind

/-- A transaction that the procedure `p` points to: it points back, and its key is used by
no other transaction. -/
def State.Held (my : Socks) (s : State) (p : ProcId) (kind : Kind) (t : TransId) : Prop :=
  ∃ d, s.trans.get t = some d ∧ d.procContext = some p ∧ d.origin.kind = kind ∧
    ∀ q, s.tables kind (d.key my kind) = some q → q = t

structure Inv (my : Socks) (s : State) : Prop where
  indexed : ∀ kind, Indexed (TransData.key my kind) (TransData.Current kind) s.trans (s.tables kind)
  held : ∀ p c kind t, s.procs.get p = some c → c.trans kind = some t → s.Held my p kind t

theorem Inv.listed {my : Socks} {s : State} (hs : Inv my s) : s.Listed := by
  intro kind key t ht
  obtain ⟨d, hd, ⟨hdelay, -⟩, -⟩ := hs.indexed kind key t ht
  exact ⟨d, hd, hdelay⟩

theorem inv_initial (my : Socks) : Inv my {} where
  indexed _ _ _ h := by cases h
  held p _ _ _ h := by simp [Heap.get] at h

def State.Unlisted (s : State) (t : TransId) : Prop := ∀ kind key, s.tables kind key ≠ some t

section Preserved

variable {my : Socks} {s s' : State} {kind : Kind} {key : TransKey} {p : ProcId} {t : TransId}
  {d : TransData} {c : ProcContext}

theorem Inv.deleteTransaction (hs : Inv my s) (kind : Kind) (key : TransKey) :
    Inv my (s.deleteTransaction kind key) where
  indexed k l q hl := hs.indexed k l q (by grind)
  held p c k t hp ht := by
    obtain ⟨d, hd, hproc, hk, huniq⟩ := hs.held p c k t hp ht
    exact ⟨d, hd, hproc, hk, by grind⟩

/-- **A transaction whose key has been deleted from its table is in no entry** -/
theorem Inv.unlisted_deleteTransaction (hs : Inv my s) (ht : s.trans.get t = some d) :
    (s.deleteTransaction d.origin.kind (d.key my d.origin.kind)).Unlisted t := by
  intro k l hl
  obtain ⟨d', hd', ⟨-, hkind⟩, hkey⟩ := hs.indexed k l t (by grind)
  grind

theorem Inv.modify (hs : Inv my s) (ht : s.Unlisted t) {f : TransData → TransData}
    (hf : FlagsOnly f) : Inv my { s with trans := s.trans.modify t f } where
  indexed k := (hs.indexed k).modify (ht k) f
  held p c k q hp hq := by
    obtain ⟨d, hd, hproc, hk, huniq⟩ := hs.held p c k q hp hq
    by_cases hqt : q = t
    · obtain ⟨-, -, hproc', horigin⟩ := hf d
      refine ⟨f d, ?_, hproc'.trans hproc, by rw [horigin, hk], ?_⟩
      · show (s.trans.modify t f).get q = some (f d)
        rw [Heap.get_modify, if_pos hqt, hd, Option.map_some]
      · rw [hf.key]
        exact huniq
    · refine ⟨d, ?_, hproc, hk, huniq⟩
      show (s.trans.modify t f).get q = some d
      rw [Heap.get_modify, if_neg hqt, hd]

theorem Inv.stopTransactionTimer (hs : Inv my s) (ht : s.Unlisted t) :
    Inv my (s.stopTransactionTimer t) := hs.modify ht flagsOnly_stop

theorem Inv.delayedFree (hs : Inv my s) (ht : s.Unlisted t) : Inv my (s.delayedFree t) :=
  hs.modify ht flagsOnly_mark

theorem Inv.setTrans_none (hs : Inv my s) (p : ProcId) (kind : Kind) :
    Inv my (s.setTrans p kind none) where
  indexed := hs.indexed
  held q c k t hq ht := by
    obtain ⟨c', hc', ht'⟩ | ⟨-, -, ho⟩ := trans_setTrans hq ht
    · exact hs.held q c' k t hc' ht'
    · cases ho

theorem Inv.freeProc (hs : Inv my s) (p : ProcId) : Inv my { s with procs := s.procs.free p } where
  indexed := hs.indexed
  held q c k t hq ht := hs.held q c k t (Heap.get_of_get_free hq) ht

theorem Inv.allocProc (hs : Inv my s) (ueContext : Option Session.UePtr) :
    Inv my (s.allocProc ueContext) where
  indexed := hs.indexed
  held q c k t hq ht := by
    obtain ⟨c', hc', ht'⟩ := trans_allocProc hq ht
    exact hs.held q c' k t hc' ht'

theorem Inv.useSequence (hs : Inv my s) (kind : Kind) : Inv my (s.useSequence kind) where
  indexed := hs.indexed
  held := hs.held

theorem Inv.openTransaction (hs : Inv my s) (hfree : s.Free my kind key)
    (hkind : d.origin.kind = kind) (hkey : d.key my kind = key) (hdelay : d.delayedDelete = false)
    (hproc : d.procContext = some p) : Inv my (s.openTransaction kind key p d) := by
  obtain ⟨hnone, hunheld⟩ := hfree
  have hnew : (s.openTransaction kind key p d).trans.get s.trans.next = some d := by
    rw [trans_openTransaction, if_pos rfl]
  constructor
  · intro k
    rw [tables_openTransaction]
    split_ifs with hk
    · subst hk
      exact (hs.indexed k).alloc.insertNew hnew ⟨hdelay, hkind⟩ hkey
    · exact (hs.indexed k).alloc
  · intro q c k t hq ht
    rcases trans_openTransaction_slot hq ht with ⟨c', hc', ht'⟩ | ⟨rfl, rfl, rfl⟩
    · obtain ⟨d', hd', hproc', hkind', huniq⟩ := hs.held q c' k t hc' ht'
      have hne : t ≠ s.trans.next := Nat.ne_of_lt (Heap.lt_next_of_get hd')
      have hkey' : k = kind → d'.key my k ≠ key := by
        rintro rfl
        exact hunheld c' (Heap.mem_live_iff.mpr ⟨q, hc'⟩) t ht' d' hd'
      exact ⟨d', by grind, hproc', hkind', by grind⟩
    · exact ⟨d, hnew, hproc, hkind, by grind⟩

theorem Inv.handleRequest (hs : Inv my s) {node : Node} {peer : SockAddr} {seq : ℕ}
    (ueContext : Option Session.UePtr)
    (hunheld : s.tables node.kind ⟨seq, peer⟩ = none → s.Unheld my node.kind ⟨seq, peer⟩) :
    Inv my (s.handleRequest node peer seq ueContext) := by
  unfold State.handleRequest
  split_ifs with hdup
  · exact hs
  · have hnone : s.tables node.kind ⟨seq, peer⟩ = none := Option.not_isSome_iff_eq_none.mp hdup
    refine (hs.allocProc ueContext).openTransaction ⟨hnone, ?_⟩ rfl ?_ rfl rfl
    · intro c hc t ht d hd
      obtain ⟨q, hq⟩ := Heap.mem_live_iff.mp hc
      obtain ⟨c', hc', ht'⟩ := trans_allocProc hq ht
      exact hunheld hnone c' (Heap.mem_live_iff.mpr ⟨q, hc'⟩) t ht' d hd
    · cases node <;> rfl

theorem Inv.send (hs : Inv my s) {r : Request} {peer : SockAddr}
    (hfree : s.Free my r.kind ⟨r.transSeq (s.sequence r.kind), my.own r.kind⟩)
    (h : s.send my r p peer = .ok s') : Inv my s' := by
  obtain rfl := send_eq h
  refine (hs.useSequence r.kind).openTransaction hfree rfl ?_ rfl rfl
  cases r <;> rfl

theorem Inv.sendCcrInitial (hs : Inv my s) (hfree : s.Free my .gx ⟨s.sequence .gx, my.own .gx⟩)
    (h : s.sendCcrInitial my p = .ok s') : Inv my s' := by
  obtain rfl := sendCcrInitial_eq h
  exact (hs.useSequence .gx).openTransaction hfree rfl rfl rfl rfl

theorem Inv.unlisted_entry (hs : Inv my s) (ht : s.tables kind key = some t) :
    (s.deleteTransaction kind key).Unlisted t := by
  obtain ⟨d, hd, ⟨-, rfl⟩, rfl⟩ := hs.indexed kind key t ht
  exact hs.unlisted_deleteTransaction hd

theorem Inv.gtpResponse (hs : Inv my s) {r : Request} {o : SeqOctets}
    (h : s.gtpResponse my r o = .ok s') : Inv my s' := by
  obtain rfl | ⟨t, ht, rfl⟩ := gtpResponse_cases h
  · exact hs
  · exact (hs.deleteTransaction ..).stopTransactionTimer (hs.unlisted_entry ht)

theorem Inv.pfcpResponse (hs : Inv my s) {o : SeqOctets} (h : s.pfcpResponse my o = .ok s') :
    Inv my s' := by
  obtain rfl | ⟨t, p, ht, rfl⟩ := pfcpResponse_cases h
  · exact hs
  · have hunlisted := hs.unlisted_entry ht
    exact ((((hs.deleteTransaction ..).setTrans_none p .pfcp).stopTransactionTimer
      hunlisted).delayedFree hunlisted)

theorem Inv.ccaInitial (hs : Inv my s) (hno : s.NoTrans p .gx) (h : s.ccaInitial p = .ok s') :
    Inv my s' := by
  obtain ⟨c, hc, h⟩ := deref_bind_eq_ok.mp h
  simp only [hno c hc] at h
  cases h
  exact hs

theorem Inv.csErrorResponse (hs : Inv my s) {peer : SockAddr} {seq : ℕ} {msgProc : Option ProcId}
    (h : s.csErrorResponse peer seq msgProc = .ok s') : Inv my s' := by
  obtain ⟨rfl, -⟩ | ⟨t, ht, h⟩ := csErrorResponse_cases h
  · exact hs
  · have hunlisted := hs.unlisted_entry ht
    have hdel := hs.deleteTransaction .gtp ⟨seq, peer⟩
    rcases h with rfl | ⟨p, rfl⟩
    · exact hdel.delayedFree hunlisted
    · exact (hdel.setTrans_none p .gtp).delayedFree hunlisted

/-- **The cleanup of a transaction that its procedure points to** -/
theorem Inv.cleanupTrans (hs : Inv my s) (hc : s.procs.get p = some c) (ht : c.trans kind = some t) :
    ∃ s', State.cleanupTrans my kind s t = .ok s' ∧ Inv my s' ∧
      s'.tables kind = (s.tables kind).without t ∧ ∀ k, k ≠ kind → s'.tables k = s.tables k := by
  obtain ⟨d, hd, hproc, hkind, huniq⟩ := hs.held p c kind t hc ht
  have hassert : s.tables kind (d.key my kind) = none ∨ s.tables kind (d.key my kind) = some t := by
    cases hq : s.tables kind (d.key my kind) with
    | none => exact .inl rfl
    | some q => exact .inr (by rw [huniq q hq])
  have hunlisted : (s.deleteTransaction kind (d.key my kind)).Unlisted t := by
    subst hkind
    exact hs.unlisted_deleteTransaction hd
  refine ⟨(((s.deleteTransaction kind (d.key my kind)).stopTransactionTimer t).delayedFree
    t).setTrans p kind none, ?_, ?_, ?_, ?_⟩
  · rw [cleanupTrans_eq hc ht hd hproc hkind, State.unlinkTransaction, assert, if_pos hassert]
    simp only [hproc]
    change (deref (s.procs.get p) >>= _) = _
    rw [hc]
    rfl
  · exact (((hs.deleteTransaction ..).stopTransactionTimer hunlisted).delayedFree
      hunlisted).setTrans_none p kind
  · change (s.deleteTransaction kind (d.key my kind)).tables kind = _
    rw [tables_deleteTransaction, if_pos rfl]
    exact (hs.indexed kind).erase_eq_without hd huniq
  · intro k hk
    change (s.deleteTransaction kind (d.key my kind)).tables k = _
    rw [tables_deleteTransaction, if_neg hk]

theorem Inv.cleanupSlot (hs : Inv my s) {call : CleanupCall}
    (hcall : call.table = call.slot ∨ s.NoTrans p call.slot)
    (h : s.cleanupSlot my call p = .ok s') : Inv my s' := by
  obtain ⟨c, hc, h⟩ := deref_bind_eq_ok.mp h
  cases ht : c.trans call.slot with
  | none =>
    simp only [ht] at h
    cases h
    exact hs
  | some t =>
    rcases hcall with htable | hno
    · simp only [ht, htable] at h
      obtain ⟨s'', hs'', hinv, -⟩ := hs.cleanupTrans hc ht
      obtain rfl := Except.ok.inj (h.symm.trans hs'')
      exact hinv
    · rw [hno c hc] at ht
      cases ht

end Preserved

theorem inv_next (my : Socks) (s : State) (op : Op) (s' : State) (hs : Inv my s)
    (hop : Allowed my s op) (h : next my s op = some s') : Inv my s' := by
  rw [next_eq_some] at h
  cases op with
  | allocProc ueContext =>
    cases h
    exact hs.allocProc ueContext
  | handleRequest node peer seq ueContext =>
    cases h
    exact hs.handleRequest ueContext hop
  | send r p peer => exact hs.send hop h
  | sendCcrInitial p => exact hs.sendCcrInitial hop h
  | useSequence kind =>
    cases h
    exact hs.useSequence kind
  | gtpResponse r o => exact hs.gtpResponse h
  | pfcpResponse o => exact hs.pfcpResponse h
  | ccaInitial p => exact hs.ccaInitial hop h
  | csErrorResponse peer seq msgProc => exact hs.csErrorResponse h
  | cleanup call p => exact hs.cleanupSlot hop h
  | freeProc p =>
    cases h
    exact hs.freeProc p

theorem Inv.exact {my : Socks} {s : State} {op : Op} (hs : Inv my s) (hop : Allowed my s op) :
    Exact my s op := by
  cases op with
  | cleanup call p =>
    intro c t hc ht
    rcases hop with htable | hno
    · obtain ⟨s', hs', -, hown, hother⟩ := hs.cleanupTrans hc ht
      rw [htable]
      refine ⟨s', ?_, hown, hother⟩
      simp only [step, State.cleanupSlot, hc, ht, htable, deref_some, pure_bind]
      exact hs'
    · rw [hno c hc] at ht
      cases ht
  | _ => trivial

/-- **The tables list live transactions, and every cleanup is exact** -/
theorem listed_and_exact_of_allowed (my : Socks) (events : List Event)
    (h : Guarded (next my) (Allowed my) {} (events.flatMap Event.ops)) :
    (∀ s ∈ trace (next my) {} (events.flatMap Event.ops), s.Listed) ∧
      Guarded (next my) (Exact my) {} (events.flatMap Event.ops) := by
  constructor
  · intro s hs
    exact (trace_invariant (I := Inv my) (inv_next my) (inv_initial my) h s hs).listed
  · exact Guarded.of_invariant (inv_next my) (fun s op hs hop => hs.exact hop) (inv_initial my) h

def sampleSocks : Socks := ⟨⟨10, 2123⟩, ⟨10, 8805⟩⟩

def attachWithoutGx : List Event :=
  [.single (.handleRequest .mme ⟨20, 2123⟩ 7 none), .single (.send .pfcp 0 ⟨30, 8805⟩),
    .single (.pfcpResponse (.encodeBits 1)), .endProcedure 0]

theorem listed_and_exact_attachWithoutGx :
    (∀ s ∈ trace (next sampleSocks) {} (attachWithoutGx.flatMap Event.ops), s.Listed) ∧
      Guarded (next sampleSocks) (Exact sampleSocks) {} (attachWithoutGx.flatMap Event.ops) :=
  listed_and_exact_of_allowed sampleSocks attachWithoutGx (by decide +kernel)

def attachWithGx : List Event :=
  [.single (.handleRequest .mme ⟨20, 2123⟩ 7 none), .single (.sendCcrInitial 0),
    .single (.ccaInitial 0)]

/-- **After the Credit-Control-Answer of an attach the Gx table lists a transaction that is
marked for delayed delete.** -/
theorem not_listed_attachWithGx :
    ∃ s ∈ trace (next sampleSocks) {} (attachWithGx.flatMap Event.ops), ¬ s.Listed := by
  have hrun : ∃ s ∈ trace (next sampleSocks) {} (attachWithGx.flatMap Event.ops),
      s.tables .gx ⟨1, ⟨0, 0⟩⟩ = some 1 ∧ ∀ d ∈ s.trans.get 1, d.delayedDelete = true := by
    decide +kernel
  obtain ⟨s, hs, htable, hmarked⟩ := hrun
  refine ⟨s, hs, fun hlisted => ?_⟩
  obtain ⟨d, hd, hdelay⟩ := hlisted .gx _ 1 htable
  rw [hmarked d hd] at hdelay
  cases hdelay

end Spgw.Trans
