/-
# The keys of outstanding requests

The gateway draws the number of a request from a 32-bit counter, the header carries 24 bits of it,
and the table is asked for a key that is read from the response in one of two byte orders.
-/

import Spgw.Trans.Machine

namespace Spgw.Trans

open Machine Function
open Session (deref_some deref_bind_eq_ok assert_bind_eq_ok)

namespace SeqOctets

theorem decodeBits_encodeBits (n : ℕ) : (encodeBits n).decodeBits = n % 2 ^ 24 := by
  simp only [decodeBits, encodeBits, Fin.val_ofNat]
  omega

theorem bitField_ofBitField (n : ℕ) : (ofBitField n).bitField = n % 2 ^ 24 := by
  simp only [bitField, ofBitField, Fin.val_ofNat]
  omega

end SeqOctets

def swapBytes (n : ℕ) : ℕ := (SeqOctets.encodeBits n).bitField

theorem swapBytes_eq (n : ℕ) :
    swapBytes n = n / 65536 % 256 + 256 * (n / 256 % 256) + 65536 * (n % 256) := by
  simp only [swapBytes, SeqOctets.bitField, SeqOctets.encodeBits, Fin.val_ofNat]

theorem swapBytes_octets {a b c : ℕ} (ha : a < 256) (hb : b < 256) (hc : c < 256) :
    swapBytes (65536 * a + 256 * b + c) = 65536 * c + 256 * b + a := by
  have h1 : (65536 * a + 256 * b + c) / 65536 = a := by omega
  have h2 : (65536 * a + 256 * b + c) / 256 = 256 * a + b := by omega
  rw [swapBytes_eq, h1, h2]
  omega

theorem swapBytes_swapBytes {n : ℕ} (h : n < 2 ^ 24) : swapBytes (swapBytes n) = n := by
  have ha : n / 65536 < 256 := by omega
  have hb : n / 256 % 256 < 256 := by omega
  have hc : n % 256 < 256 := by omega
  have hn : n = 65536 * (n / 65536) + 256 * (n / 256 % 256) + n % 256 := by omega
  calc swapBytes (swapBytes n)
      = swapBytes (65536 * (n % 256) + 256 * (n / 256 % 256) + n / 65536) := by
        rw [← swapBytes_octets ha hb hc, ← hn]
    _ = n := by rw [swapBytes_octets hc hb ha, ← hn]

namespace Request

def swapped : Request → Bool
  | .createBearer => true
  | .deleteBearer | .downlinkDataNotification | .pfcp => false

theorem transSeq_eq (r : Request) (n : ℕ) :
    r.transSeq n = if r.swapped then swapBytes n else n := by
  cases r <;> rfl

/-- **The handler of the response computes the key of the request.** -/
theorem answerSeq_wire (r : Request) {n : ℕ} (h : n < 2 ^ 24) :
    r.answerSeq (r.wire n) = r.transSeq n := by
  cases r with
  | createBearer => rfl
  | deleteBearer => exact (SeqOctets.decodeBits_encodeBits n).trans (Nat.mod_eq_of_lt h)
  | downlinkDataNotification => exact (SeqOctets.bitField_ofBitField n).trans (Nat.mod_eq_of_lt h)
  | pfcp => exact (SeqOctets.decodeBits_encodeBits n).trans (Nat.mod_eq_of_lt h)

theorem eq_or_swapped {r r' : Request} {n m : ℕ} (hn : n < 2 ^ 24) (hm : m < 2 ^ 24)
    (h : r'.transSeq m = r.transSeq n) : m = n ∨ (r'.swapped ≠ r.swapped ∧ m = swapBytes n) := by
  rw [transSeq_eq, transSeq_eq] at h
  cases hr : r.swapped <;> cases hr' : r'.swapped <;>
    simp only [hr, hr', Bool.false_eq_true, if_false, if_true] at h
  · exact .inl h
  · exact .inr ⟨by decide, by rw [← h, swapBytes_swapBytes hm]⟩
  · exact .inr ⟨by decide, h⟩
  · left
    calc m = swapBytes (swapBytes m) := (swapBytes_swapBytes hm).symm
      _ = n := by rw [h, swapBytes_swapBytes hn]

theorem kind_ne_gx (r : Request) : r.kind ≠ .gx := by
  cases r <;> decide

end Request

/-- The request `r` with the number `n`, which is neither answered nor cleaned up. -/
def TransData.Outstanding (d : TransData) (r : Request) (n : ℕ) : Prop :=
  d.origin = .sent r n ∧ d.stopped = false

/-- No two outstanding requests on an interface have the same key. -/
def State.Distinct (my : Socks) (s : State) : Prop :=
  ∀ t t' d d' r r' n n', s.trans.get t = some d → s.trans.get t' = some d' →
    d.Outstanding r n → d'.Outstanding r' n' → r.kind = r'.kind →
    d.key my r.kind = d'.key my r'.kind → t = t'

/-- The answer to an outstanding request finds its transaction. -/
def State.Matched (my : Socks) (s : State) : Prop :=
  ∀ t d r n, s.trans.get t = some d → d.Outstanding r n →
    s.tables r.kind ⟨r.answerSeq (r.wire n), my.own r.kind⟩ = some t

/-- An outstanding request of the other byte order, whose number is `n` with the octets
exchanged. -/
def TransData.Clashes (r : Request) (n : ℕ) (d : TransData) : Prop :=
  match d.origin with
  | .sent r' m => d.stopped = false ∧ r'.kind = r.kind ∧ r'.swapped ≠ r.swapped ∧ m = swapBytes n
  | _ => False

instance (r : Request) (n : ℕ) : DecidablePred (TransData.Clashes r n) := fun d => by
  unfold TransData.Clashes
  split <;> infer_instance

/-- No sequence number is too large, or taken in the other byte order. -/
def NumbersOk (my : Socks) (s : State) : Op → Prop
  | .handleRequest node peer _ _ => peer ≠ my.own node.kind
  | .send r _ _ => s.sequence r.kind < 2 ^ 24 ∧
      ∀ d ∈ s.trans.live, ¬ d.Clashes r (s.sequence r.kind)
  | .useSequence kind => kind = .gx ∨ s.sequence kind < 2 ^ 24
  | .csErrorResponse peer _ _ => peer ≠ my.s11
  | _ => True

instance (my : Socks) (s : State) : ∀ op, Decidable (NumbersOk my s op)
  | .handleRequest _ _ _ _ => inferInstanceAs (Decidable (_ ≠ _))
  | .send _ _ _ => inferInstanceAs (Decidable (_ ∧ ∀ d ∈ s.trans.live, ¬ _))
  | .useSequence _ => inferInstanceAs (Decidable (_ ∨ _))
  | .csErrorResponse _ _ _ => inferInstanceAs (Decidable (_ ≠ _))
  | .allocProc _ | .sendCcrInitial _ | .gtpResponse _ _ | .pfcpResponse _ | .ccaInitial _
  | .cleanup _ _ | .freeProc _ => isTrue trivial

structure Keyed (my : Socks) (s : State) : Prop where
  held : ∀ p c kind t, s.procs.get p = some c → c.trans kind = some t →
    ∃ d, s.trans.get t = some d ∧ d.procContext = some p ∧ d.origin.kind = kind
  peer : ∀ t d node, s.trans.get t = some d → d.origin = .received node → d.peer ≠ my.own node.kind
  drawn : ∀ t d r n, s.trans.get t = some d → d.origin = .sent r n → d.sequence = r.transSeq n
  outstanding : ∀ t d r n, s.trans.get t = some d → d.Outstanding r n →
    n < 2 ^ 24 ∧ n < s.sequence r.kind ∧ s.tables r.kind ⟨r.transSeq n, my.own r.kind⟩ = some t
  entry : ∀ kind seq t, kind ≠ .gx → s.tables kind ⟨seq, my.own kind⟩ = some t →
    ∃ d r n, s.trans.get t = some d ∧ d.Outstanding r n ∧ r.kind = kind ∧ r.transSeq n = seq

theorem keyed_initial (my : Socks) : Keyed my {} where
  held p _ _ _ h := by simp [Heap.get] at h
  peer t _ _ h := by simp [Heap.get] at h
  drawn t _ _ _ h := by simp [Heap.get] at h
  outstanding t _ _ _ h := by simp [Heap.get] at h
  entry _ _ _ _ h := by cases h

section Preserved

variable {my : Socks} {s s' : State} {kind : Kind} {key : TransKey} {p : ProcId} {t : TransId}
  {d : TransData} {c : ProcContext} {r : Request} {n : ℕ}

theorem Keyed.matched (hs : Keyed my s) : s.Matched my := by
  intro t d r n ht hd
  obtain ⟨hn, -, htable⟩ := hs.outstanding t d r n ht hd
  rw [r.answerSeq_wire hn]
  exact htable

theorem Keyed.key_eq (hs : Keyed my s) (ht : s.trans.get t = some d) (hd : d.Outstanding r n) :
    d.key my r.kind = ⟨r.transSeq n, my.own r.kind⟩ := by
  have hseq := hs.drawn t d r n ht hd.1
  cases r <;> simp only [TransData.key, Request.kind, hseq, hd.1, Origin.selfInitiated, if_true]

theorem Keyed.distinct (hs : Keyed my s) : s.Distinct my := by
  intro t t' d d' r r' n n' ht ht' hd hd' hkind hkey
  rw [hs.key_eq ht hd, hs.key_eq ht' hd'] at hkey
  obtain ⟨-, -, htable⟩ := hs.outstanding t d r n ht hd
  obtain ⟨-, -, htable'⟩ := hs.outstanding t' d' r' n' ht' hd'
  rw [hkey, hkind] at htable
  exact Option.some.inj (htable.symm.trans htable')

theorem Keyed.unlisted_of_not_sent (hs : Keyed my s) (ht : s.trans.get t = some d)
    (hsent : ∀ r n, d.origin ≠ .sent r n) (seq : ℕ) (hkind : kind ≠ .gx) :
    s.tables kind ⟨seq, my.own kind⟩ ≠ some t := by
  intro h
  obtain ⟨d', r, n, ht', ⟨hd', -⟩, -⟩ := hs.entry kind seq t hkind h
  grind

theorem Keyed.setProcs (hs : Keyed my s) {procs : Heap ProcContext}
    (h : ∀ p c kind t, procs.get p = some c → c.trans kind = some t →
      ∃ c', s.procs.get p = some c' ∧ c'.trans kind = some t) :
    Keyed my { s with procs } where
  held p c kind t hp ht := by
    obtain ⟨c', hc', ht'⟩ := h p c kind t hp ht
    exact hs.held p c' kind t hc' ht'
  peer := hs.peer
  drawn := hs.drawn
  outstanding := hs.outstanding
  entry := hs.entry

theorem Keyed.setTrans_none (hs : Keyed my s) (p : ProcId) (kind : Kind) :
    Keyed my (s.setTrans p kind none) :=
  hs.setProcs fun _ _ _ _ hq ht => (trans_setTrans hq ht).resolve_right (by simp)

theorem Keyed.freeProc (hs : Keyed my s) (p : ProcId) :
    Keyed my { s with procs := s.procs.free p } :=
  hs.setProcs fun _ c _ _ hq ht => ⟨c, Heap.get_of_get_free hq, ht⟩

theorem Keyed.allocProc (hs : Keyed my s) (ueContext : Option Session.UePtr) :
    Keyed my (s.allocProc ueContext) :=
  hs.setProcs fun _ _ _ _ hq ht => trans_allocProc hq ht

theorem sequence_useSequence_of_lt (h : s.sequence kind < 2 ^ 24) :
    (s.useSequence kind).sequence kind = s.sequence kind + 1 := by
  change update s.sequence kind _ kind = _
  rw [update_self]
  exact Nat.mod_eq_of_lt (by omega)

theorem sequence_useSequence_of_ne {k : Kind} (h : k ≠ kind) :
    (s.useSequence kind).sequence k = s.sequence k := update_of_ne h ..

theorem Keyed.useSequence (hs : Keyed my s) (h : kind = .gx ∨ s.sequence kind < 2 ^ 24) :
    Keyed my (s.useSequence kind) where
  held := hs.held
  peer := hs.peer
  drawn := hs.drawn
  outstanding t d r n ht hd := by
    obtain ⟨hn, hlt, htable⟩ := hs.outstanding t d r n ht hd
    refine ⟨hn, ?_, htable⟩
    by_cases hk : r.kind = kind
    · have hseq : s.sequence kind < 2 ^ 24 := h.resolve_left (hk ▸ r.kind_ne_gx)
      rw [hk, sequence_useSequence_of_lt hseq]
      rw [hk] at hlt
      omega
    · rw [sequence_useSequence_of_ne hk]
      exact hlt
  entry := hs.entry

theorem Keyed.touch (hs : Keyed my s) {f : TransData → TransData} (hf : FlagsOnly f)
    {tables : Kind → Table TransKey} (hstop : ∀ d, (f d).stopped = false → d.stopped = false)
    (hkeep : ∀ q d r n, s.trans.get q = some d → d.Outstanding r n →
      (q = t → (f d).stopped = false) → tables r.kind ⟨r.transSeq n, my.own r.kind⟩ = some q)
    (hsub : ∀ k seq q, k ≠ .gx → tables k ⟨seq, my.own k⟩ = some q →
      s.tables k ⟨seq, my.own k⟩ = some q ∧
        ∀ d, s.trans.get q = some d → q = t → (f d).stopped = false) :
    Keyed my { s with trans := s.trans.modify t f, tables } := by
  -- A transaction after the change comes from one before it.
  have hget {q : TransId} {d : TransData} (hq : (s.trans.modify t f).get q = some d) :
      ∃ d', s.trans.get q = some d' ∧ d.sequence = d'.sequence ∧ d.peer = d'.peer ∧
        d.origin = d'.origin ∧ (d.stopped = false → d'.stopped = false) ∧
        (q = t → d = f d') := by
    rw [Heap.get_modify] at hq
    split_ifs at hq with hqt
    · obtain ⟨d', hd', rfl⟩ := Option.map_eq_some_iff.mp hq
      obtain ⟨hseq, hpeer, -, horigin⟩ := hf d'
      exact ⟨d', hd', hseq, hpeer, horigin, hstop d', fun _ => rfl⟩
    · exact ⟨d, hq, rfl, rfl, rfl, id, fun h => absurd h hqt⟩
  constructor
  · intro p c k q hp hq
    obtain ⟨d, hd, hproc, hkind⟩ := hs.held p c k q hp hq
    have hd' := hf d
    grind
  · intro q d node hq hnode
    grind [hget hq, hs.peer q]
  · intro q d r n hq hsent
    grind [hget hq, hs.drawn q]
  · intro q d r n hq hout
    obtain ⟨d', hd', -, -, horigin, hstop', hqt⟩ := hget hq
    have hout' : d'.Outstanding r n := ⟨horigin.symm.trans hout.1, hstop' hout.2⟩
    obtain ⟨hn, hlt, -⟩ := hs.outstanding q d' r n hd' hout'
    refine ⟨hn, hlt, hkeep q d' r n hd' hout' fun h => ?_⟩
    rw [← hqt h]
    exact hout.2
  · intro k seq q hk hq
    obtain ⟨hold, hopen⟩ := hsub k seq q hk hq
    obtain ⟨d, r, n, hd, hout, hrk, hseq⟩ := hs.entry k seq q hk hold
    have hd' := hf d
    have hflag := hopen d hd
    refine ⟨if q = t then f d else d, r, n, ?_, ?_, hrk, hseq⟩
    · grind
    · unfold TransData.Outstanding at hout ⊢
      grind

theorem Keyed.delayedFree (hs : Keyed my s) (t : TransId) : Keyed my (s.delayedFree t) := by
  refine hs.touch flagsOnly_mark (fun _ h => h) (fun q d r n hq hd _ => ?_) fun k seq q hk hq => ?_
  · exact (hs.outstanding q d r n hq hd).2.2
  · refine ⟨hq, fun d hd _ => ?_⟩
    obtain ⟨d', r, n, hd', hout, -⟩ := hs.entry k seq q hk hq
    cases hd.symm.trans hd'
    exact hout.2

/-- **The deletion of a key with the stop of its transaction** -/
theorem Keyed.close (hs : Keyed my s) (hkey : ∀ q, s.tables kind key = some q → q = t)
    (hun : ∀ k seq, k ≠ .gx → (s.deleteTransaction kind key).tables k ⟨seq, my.own k⟩ ≠ some t) :
    Keyed my ((s.deleteTransaction kind key).stopTransactionTimer t) := by
  refine hs.touch flagsOnly_stop (fun _ h => by cases h) (fun q d r n hq hd hqt => ?_)
    fun k seq q hk hq => ?_
  · have hne : q ≠ t := fun h => by cases hqt h
    have hold := (hs.outstanding q d r n hq hd).2.2
    grind
  · refine ⟨by grind, fun d _ hqt => ?_⟩
    subst hqt
    exact absurd hq (hun k seq hk)

theorem Keyed.deleteTransaction (hs : Keyed my s) (h : key.src ≠ my.own kind) :
    Keyed my (s.deleteTransaction kind key) := by
  have hsame (k : Kind) (seq : ℕ) :
      (s.deleteTransaction kind key).tables k ⟨seq, my.own k⟩ = s.tables k ⟨seq, my.own k⟩ := by
    grind
  constructor
  · exact hs.held
  · exact hs.peer
  · exact hs.drawn
  · intro t d r n ht hd
    rw [hsame]
    exact hs.outstanding t d r n ht hd
  · intro k seq t hk ht
    rw [hsame] at ht
    exact hs.entry k seq t hk ht

theorem Keyed.unlisted_request (hs : Keyed my s) (ht : s.trans.get t = some d)
    (hsent : d.origin = .sent r n) (k : Kind) (seq : ℕ) (hk : k ≠ .gx) :
    (s.deleteTransaction r.kind ⟨r.transSeq n, my.own r.kind⟩).tables k ⟨seq, my.own k⟩ ≠
      some t := by
  intro h
  obtain ⟨d', r', n', hd', ⟨hout, -⟩, hkind, hseq⟩ := hs.entry k seq t hk (by grind)
  grind

theorem Keyed.unlisted_entry (hs : Keyed my s) {seq : ℕ} (hkind : kind ≠ .gx)
    (ht : s.tables kind ⟨seq, my.own kind⟩ = some t) (k : Kind) (l : ℕ) (hk : k ≠ .gx) :
    (s.deleteTransaction kind ⟨seq, my.own kind⟩).tables k ⟨l, my.own k⟩ ≠ some t := by
  obtain ⟨d, r, n, hd, hout, rfl, rfl⟩ := hs.entry kind seq t hkind ht
  exact hs.unlisted_request hd hout.1 k l hk

theorem Keyed.gtpResponse (hs : Keyed my s) {o : SeqOctets}
    (h : s.gtpResponse my r o = .ok s') : Keyed my s' := by
  obtain rfl | ⟨t, ht, rfl⟩ := gtpResponse_cases h
  · exact hs
  · refine hs.close (fun q hq => Option.some.inj (hq.symm.trans ht)) ?_
    exact hs.unlisted_entry (by decide) ht

theorem Keyed.pfcpResponse (hs : Keyed my s) {o : SeqOctets} (h : s.pfcpResponse my o = .ok s') :
    Keyed my s' := by
  obtain rfl | ⟨t, p, ht, rfl⟩ := pfcpResponse_cases h
  · exact hs
  · have hclose := hs.close (fun q hq => Option.some.inj (hq.symm.trans ht))
      (hs.unlisted_entry (by decide) ht)
    exact (hclose.setTrans_none p .pfcp).delayedFree t

theorem Keyed.stop_of_not_sent (hs : Keyed my s) (ht : s.trans.get t = some d)
    (hsent : ∀ r n, d.origin ≠ .sent r n) : Keyed my (s.stopTransactionTimer t) := by
  refine hs.touch flagsOnly_stop (fun _ h => by cases h) (fun q d' r n hq hd' _ => ?_)
    fun k seq q hk hq => ?_
  · exact (hs.outstanding q d' r n hq hd').2.2
  · refine ⟨hq, fun d' _ hqt => ?_⟩
    subst hqt
    exact absurd hq (hs.unlisted_of_not_sent ht hsent seq hk)

theorem Keyed.ccaInitial (hs : Keyed my s) (h : s.ccaInitial p = .ok s') : Keyed my s' := by
  obtain ⟨c, hc, h⟩ := deref_bind_eq_ok.mp h
  cases ht : c.trans .gx with
  | none =>
    simp only [ht] at h
    cases h
    exact hs
  | some t =>
    simp only [ht] at h
    cases h
    obtain ⟨d, hd, -, hkind⟩ := hs.held p c .gx t hc ht
    have hsent (r : Request) (n : ℕ) : d.origin ≠ .sent r n := by
      intro horigin
      rw [horigin] at hkind
      exact r.kind_ne_gx hkind
    exact ((hs.setTrans_none p .gx).stop_of_not_sent hd hsent).delayedFree t

theorem Keyed.csErrorResponse (hs : Keyed my s) {peer : SockAddr} {seq : ℕ}
    {msgProc : Option ProcId} (hpeer : peer ≠ my.s11)
    (h : s.csErrorResponse peer seq msgProc = .ok s') : Keyed my s' := by
  obtain ⟨rfl, -⟩ | ⟨t, -, h⟩ := csErrorResponse_cases h
  · exact hs
  · have hdel : Keyed my (s.deleteTransaction .gtp ⟨seq, peer⟩) := hs.deleteTransaction hpeer
    rcases h with rfl | ⟨p, rfl⟩
    · exact hdel.delayedFree t
    · exact (hdel.setTrans_none p .gtp).delayedFree t

theorem Keyed.unlinkTransaction (hs : Keyed my s)
    (hun : ∀ k seq, k ≠ .gx → (s.deleteTransaction kind key).tables k ⟨seq, my.own k⟩ ≠ some t)
    (h : s.unlinkTransaction kind key t d = .ok s') : Keyed my s' := by
  obtain ⟨hassert, h⟩ := assert_bind_eq_ok.mp h
  have hkey (q : TransId) (hq : s.tables kind key = some q) : q = t := by
    rcases hassert with hnone | hsome
    · rw [hnone] at hq
      cases hq
    · exact Option.some.inj (hq.symm.trans hsome)
  have hclosed := (hs.close hkey hun).delayedFree t
  cases hproc : d.procContext with
  | none =>
    simp only [hproc] at h
    cases h
    exact hclosed
  | some p =>
    simp only [hproc] at h
    obtain ⟨c, -, h⟩ := deref_bind_eq_ok.mp h
    cases h
    exact hclosed.setTrans_none p kind

theorem Keyed.cleanupSlot (hs : Keyed my s) {call : CleanupCall}
    (h : s.cleanupSlot my call p = .ok s') : Keyed my s' := by
  obtain ⟨c, hc, h⟩ := deref_bind_eq_ok.mp h
  cases ht : c.trans call.slot with
  | none =>
    simp only [ht] at h
    cases h
    exact hs
  | some t =>
    simp only [ht] at h
    obtain ⟨d, hd, hproc, hkind⟩ := hs.held p c call.slot t hc ht
    by_cases hsent : ∃ r n, d.origin = .sent r n
    · -- A request of the gateway is cleaned up by the function of its own table.
      obtain ⟨r, n, horigin⟩ := hsent
      have hslot : call.slot = r.kind := by rw [← hkind, horigin, Origin.kind]
      have htable : call.table = r.kind := by
        rw [← hslot]
        cases call with
        | gxAsPfcp => exact absurd hslot.symm r.kind_ne_gx
        | _ => rfl
      rw [hslot] at ht hkind
      rw [htable, cleanupTrans_eq hc ht hd hproc hkind] at h
      have hkey : d.key my r.kind = ⟨r.transSeq n, my.own r.kind⟩ := by
        have hseq := hs.drawn t d r n hd horigin
        cases r <;>
          simp only [TransData.key, Request.kind, hseq, horigin, Origin.selfInitiated, if_true]
      rw [hkey] at h
      exact hs.unlinkTransaction (hs.unlisted_request hd horigin) h
    · -- Any other transaction is in no entry under the gateway's own addresses.
      have hun (kind : Kind) (key : TransKey) (k : Kind) (seq : ℕ) (hk : k ≠ .gx) :
          (s.deleteTransaction kind key).tables k ⟨seq, my.own k⟩ ≠ some t := by
        have hne := hs.unlisted_of_not_sent hd (fun r n h => hsent ⟨r, n, h⟩) seq hk
        grind
      cases call with
      | gxAsPfcp =>
        simp only [CleanupCall.table, State.cleanupTrans, State.cleanupPfcpTrans, hd, deref_some,
          pure_bind] at h
        exact hs.unlinkTransaction (hun _ _) h
      | gtpc | pfcp | gx =>
        exact hs.unlinkTransaction (hun _ _) ((cleanupTrans_eq hc ht hd hproc hkind).symm.trans h)

theorem Keyed.openTransaction (hs : Keyed my s) (hproc : d.procContext = some p)
    (hkind : d.origin.kind = kind)
    (hpeer : ∀ node, d.origin = .received node → d.peer ≠ my.own node.kind)
    (hdrawn : ∀ r n, d.origin = .sent r n → d.sequence = r.transSeq n)
    (hout : ∀ r n, d.origin = .sent r n → n < 2 ^ 24 ∧ n < s.sequence r.kind ∧
      key = ⟨r.transSeq n, my.own r.kind⟩ ∧ s.tables kind key = none)
    (hentry : kind ≠ .gx → key.src = my.own kind →
      ∃ r n, d.Outstanding r n ∧ key.msgSeq = r.transSeq n) :
    Keyed my (s.openTransaction kind key p d) := by
  have hold {q : TransId} {d' : TransData} (hd' : s.trans.get q = some d') :
      (s.openTransaction kind key p d).trans.get q = some d' := by
    grind
  have hnew : (s.openTransaction kind key p d).trans.get s.trans.next = some d := by grind
  have hcases {q : TransId} {d' : TransData}
      (hd' : (s.openTransaction kind key p d).trans.get q = some d') :
      s.trans.get q = some d' ∨ (q = s.trans.next ∧ d' = d) := by
    grind
  constructor
  · intro q c k t hq ht
    rcases trans_openTransaction_slot hq ht with ⟨c', hc', ht'⟩ | ⟨rfl, rfl, rfl⟩
    · obtain ⟨d', hd', hproc', hkind'⟩ := hs.held q c' k t hc' ht'
      exact ⟨d', hold hd', hproc', hkind'⟩
    · exact ⟨d, hnew, hproc, hkind⟩
  · intro q d' node hq hnode
    grind [hcases hq, hs.peer q d' node]
  · intro q d' r n hq hsent
    grind [hcases hq, hs.drawn q d' r n]
  · intro q d' r n hq hd'
    rcases hcases hq with hq | ⟨rfl, rfl⟩
    · obtain ⟨hn, hlt, htable⟩ := hs.outstanding q d' r n hq hd'
      exact ⟨hn, hlt, by grind⟩
    · obtain ⟨hn, hlt, rfl, hnone⟩ := hout r n hd'.1
      have hrk : r.kind = kind := by rw [← hkind, hd'.1, Origin.kind]
      exact ⟨hn, hlt, by grind⟩
  · intro k seq q hk hq
    by_cases hq' : s.tables k ⟨seq, my.own k⟩ = some q
    · obtain ⟨d', r, n, hd', hrest⟩ := hs.entry k seq q hk hq'
      exact ⟨d', r, n, hold hd', hrest⟩
    · obtain ⟨rfl, rfl, rfl⟩ : k = kind ∧ key = ⟨seq, my.own k⟩ ∧ q = s.trans.next := by grind
      obtain ⟨r, n, hd, hseq⟩ := hentry hk rfl
      exact ⟨d, r, n, hnew, hd, by rw [← hkind, hd.1, Origin.kind], hseq.symm⟩

theorem Keyed.handleRequest (hs : Keyed my s) {node : Node} {peer : SockAddr} {seq : ℕ}
    (ueContext : Option Session.UePtr) (hpeer : peer ≠ my.own node.kind) :
    Keyed my (s.handleRequest node peer seq ueContext) := by
  unfold State.handleRequest
  split_ifs
  · exact hs
  · refine (hs.allocProc ueContext).openTransaction rfl rfl ?_ (by simp) (by simp) fun _ hsrc =>
      absurd hsrc hpeer
    intro node' hnode
    obtain rfl := Origin.received.inj hnode
    exact hpeer

theorem Keyed.send (hs : Keyed my s) {peer : SockAddr} (hlt : s.sequence r.kind < 2 ^ 24)
    (hclash : ∀ d ∈ s.trans.live, ¬ d.Clashes r (s.sequence r.kind))
    (h : s.send my r p peer = .ok s') : Keyed my s' := by
  obtain rfl := send_eq h
  -- The key is free: its entry would be an outstanding request with an earlier number.
  have hnone : s.tables r.kind ⟨r.transSeq (s.sequence r.kind), my.own r.kind⟩ = none := by
    cases ht : s.tables r.kind ⟨r.transSeq (s.sequence r.kind), my.own r.kind⟩ with
    | none => rfl
    | some t =>
      obtain ⟨d, r', m, hd, hout, hkind, hseq⟩ := hs.entry _ _ t r.kind_ne_gx ht
      obtain ⟨hm, hmlt, -⟩ := hs.outstanding t d r' m hd hout
      rcases Request.eq_or_swapped hlt hm hseq with heq | ⟨hswap, heq⟩
      · rw [hkind, heq] at hmlt
        exact absurd hmlt (Nat.lt_irrefl _)
      · refine absurd ?_ (hclash d (Heap.mem_live_iff.mpr ⟨t, hd⟩))
        simp only [TransData.Clashes, hout.1]
        exact ⟨hout.2, hkind, hswap, heq⟩
  refine (hs.useSequence (.inr hlt)).openTransaction rfl rfl (by simp) ?_ ?_ ?_
  · intro r' n hsent
    obtain ⟨rfl, rfl⟩ := Origin.sent.inj hsent
    rfl
  · intro r' n hsent
    obtain ⟨rfl, rfl⟩ := Origin.sent.inj hsent
    refine ⟨hlt, ?_, rfl, hnone⟩
    rw [sequence_useSequence_of_lt hlt]
    exact Nat.lt_succ_self _
  · intro _ _
    exact ⟨r, s.sequence r.kind, ⟨rfl, rfl⟩, rfl⟩

theorem Keyed.sendCcrInitial (hs : Keyed my s) (h : s.sendCcrInitial my p = .ok s') :
    Keyed my s' := by
  obtain rfl := sendCcrInitial_eq h
  exact (hs.useSequence (.inl rfl)).openTransaction rfl rfl (by simp) (by simp) (by simp)
    fun hgx => absurd rfl hgx

end Preserved

theorem keyed_next (my : Socks) (s : State) (op : Op) (s' : State) (hs : Keyed my s)
    (hop : NumbersOk my s op) (h : next my s op = some s') : Keyed my s' := by
  rw [next_eq_some] at h
  cases op with
  | allocProc ueContext =>
    cases h
    exact hs.allocProc ueContext
  | handleRequest node peer seq ueContext =>
    cases h
    exact hs.handleRequest ueContext hop
  | send r p peer => exact hs.send hop.1 hop.2 h
  | sendCcrInitial p => exact hs.sendCcrInitial h
  | useSequence kind =>
    cases h
    exact hs.useSequence hop
  | gtpResponse r o => exact hs.gtpResponse h
  | pfcpResponse o => exact hs.pfcpResponse h
  | ccaInitial p => exact hs.ccaInitial h
  | csErrorResponse peer seq msgProc => exact hs.csErrorResponse hop h
  | cleanup call p => exact hs.cleanupSlot h
  | freeProc p =>
    cases h
    exact hs.freeProc p

/-- **Outstanding requests have different keys, and a response finds the request it echoes** -/
theorem distinct_and_matched_of_numbersOk (my : Socks) (events : List Event)
    (h : Guarded (next my) (NumbersOk my) {} (events.flatMap Event.ops)) :
    ∀ s ∈ trace (next my) {} (events.flatMap Event.ops), s.Distinct my ∧ s.Matched my := by
  intro s hs
  have hkeyed := trace_invariant (I := Keyed my) (keyed_next my) (keyed_initial my) h s hs
  exact ⟨hkeyed.distinct, hkeyed.matched⟩

def bearerAndPaging : List Event :=
  [.single (.allocProc none), .single (.allocProc none), .single (.send .createBearer 0 ⟨20, 2123⟩),
    .single (.send .downlinkDataNotification 1 ⟨20, 2123⟩),
    .single (.gtpResponse .createBearer (Request.createBearer.wire 1))]

theorem distinct_and_matched_bearerAndPaging :
    Guarded (next ⟨⟨10, 2123⟩, ⟨10, 8805⟩⟩) (NumbersOk ⟨⟨10, 2123⟩, ⟨10, 8805⟩⟩) {}
        (bearerAndPaging.flatMap Event.ops) ∧
      ∀ s ∈ trace (next ⟨⟨10, 2123⟩, ⟨10, 8805⟩⟩) {} (bearerAndPaging.flatMap Event.ops),
        s.Distinct ⟨⟨10, 2123⟩, ⟨10, 8805⟩⟩ ∧ s.Matched ⟨⟨10, 2123⟩, ⟨10, 8805⟩⟩ := by
  have hok : Guarded (next ⟨⟨10, 2123⟩, ⟨10, 8805⟩⟩) (NumbersOk ⟨⟨10, 2123⟩, ⟨10, 8805⟩⟩) {}
      (bearerAndPaging.flatMap Event.ops) := by decide +kernel
  exact ⟨hok, distinct_and_matched_of_numbersOk _ bearerAndPaging hok⟩

theorem final_useSequence (my : Socks) (s : State) (kind : Kind) (k : ℕ)
    (h : s.sequence kind + k < 2 ^ 32) :
    final (next my) s (List.replicate k (.useSequence kind)) =
      some { s with sequence := update s.sequence kind (s.sequence kind + k) } := by
  induction k generalizing s with
  | zero => simp [final]
  | succ k ih =>
    have hseq : (s.useSequence kind).sequence kind = s.sequence kind + 1 := by
      change update s.sequence kind _ kind = _
      rw [update_self]
      exact Nat.mod_eq_of_lt (by omega)
    have hrest := ih (s.useSequence kind) (by rw [hseq]; omega)
    rw [hseq] at hrest
    calc final (next my) s (List.replicate (k + 1) (.useSequence kind))
        = final (next my) (s.useSequence kind) (List.replicate k (.useSequence kind)) := rfl
      _ = _ := by
        rw [hrest]
        simp only [State.useSequence, update_idem, Option.some.injEq, State.mk.injEq, true_and]
        congr 1
        omega

def lateNotification : TransData :=
  ⟨65536, ⟨20, 2123⟩, some 1, .sent .downlinkDataNotification 65536, false, false⟩

def collidingRequests : List Event :=
  [.single (.allocProc none), .single (.allocProc none),
    .single (.send .createBearer 0 ⟨20, 2123⟩)] ++
  List.replicate 65534 (.single (.useSequence .gtp)) ++
  [.single (.send .downlinkDataNotification 1 ⟨20, 2123⟩)]

/-- **The Create Bearer Request with number 1 and the Downlink Data Notification with number
65536 share a key.** -/
theorem not_distinct_collidingRequests :
    ∃ s ∈ trace (next ⟨⟨10, 2123⟩, ⟨10, 8805⟩⟩) {} (collidingRequests.flatMap Event.ops),
      ¬ s.Distinct ⟨⟨10, 2123⟩, ⟨10, 8805⟩⟩ := by
  have hops : collidingRequests.flatMap Event.ops =
      [.allocProc none, .allocProc none, .send .createBearer 0 ⟨20, 2123⟩] ++
      List.replicate 65534 (.useSequence .gtp) ++
      [.send .downlinkDataNotification 1 ⟨20, 2123⟩] := by
    simp only [collidingRequests, List.flatMap_append, List.flatMap_replicate, Event.ops,
      List.flatten_replicate_singleton]
    rfl
  let my : Socks := ⟨⟨10, 2123⟩, ⟨10, 8805⟩⟩
  -- The states after the Create Bearer Request, after the numbers, and at the end.
  obtain ⟨s₁, h₁, hseq₁, hget₁, hnext₁, c, hc⟩ : ∃ s₁,
      final (next my) {} [.allocProc none, .allocProc none, .send .createBearer 0 ⟨20, 2123⟩] =
        some s₁ ∧ s₁.sequence .gtp = 2 ∧
      s₁.trans.get 0 = some ⟨Request.createBearer.transSeq 1, ⟨20, 2123⟩, some 0,
        .sent .createBearer 1, false, false⟩ ∧ s₁.trans.next = 1 ∧ ∃ c, s₁.procs.get 1 = some c :=
    ⟨_, rfl, rfl, rfl, rfl, _, rfl⟩
  have h₂ := final_useSequence my s₁ .gtp 65534 (by rw [hseq₁]; decide)
  rw [hseq₁] at h₂
  generalize hs₂ : ({ s₁ with sequence := update s₁.sequence .gtp (2 + 65534) } : State) = s₂ at h₂
  have hseq₂ : s₂.sequence .gtp = 65536 := by
    rw [← hs₂]
    show update s₁.sequence .gtp (2 + 65534) .gtp = 65536
    rw [update_self]
  have hproc₂ : s₂.procs.get 1 = some c := by rw [← hs₂]; exact hc
  have h₃ : next my s₂ (.send .downlinkDataNotification 1 ⟨20, 2123⟩) =
      some ((s₂.useSequence .gtp).openTransaction .gtp ⟨65536, ⟨10, 2123⟩⟩ 1 lateNotification) := by
    rw [next_eq_some]
    simp only [step, State.send, hproc₂, deref_some, pure_bind, Request.kind, hseq₂,
      Request.transSeq]
    rfl
  generalize hs₃ : (s₂.useSequence .gtp).openTransaction .gtp ⟨65536, ⟨10, 2123⟩⟩ 1 lateNotification =
    s₃ at h₃
  have hfinal : final (next my) {} (collidingRequests.flatMap Event.ops) = some s₃ := by
    rw [hops, final_append, final_append, h₁, Option.bind_some, h₂, Option.bind_some, final, h₃]
    rfl
  have htrans (t : TransId) : s₃.trans.get t =
      if t = 1 then some lateNotification else s₁.trans.get t := by
    rw [← hs₃, trans_openTransaction, ← hs₂]
    change (if t = s₁.trans.next then _ else s₁.trans.get t) = _
    rw [hnext₁]
  refine ⟨s₃, mem_trace_of_final hfinal, fun hdistinct => ?_⟩
  have heq : (0 : TransId) = 1 :=
    hdistinct 0 1 _ _ .createBearer .downlinkDataNotification 1 65536
      ((htrans 0).trans hget₁) (htrans 1) ⟨rfl, rfl⟩ ⟨rfl, rfl⟩ rfl (by decide +kernel)
  cases heq

end Spgw.Trans
