/-
# Resolving the name of a user plane

`upf_name_resolve` and `dns_handler` of `cp/upf.c`: the calling thread writes the address of a
request to a pair of sockets and polls; the DNS thread resolves the name and writes a copy back.
-/

import Spgw.Lib.Heap
import Spgw.Lib.Run

namespace Spgw.Upf.Resolver

structure DnsMsg where
  reqValid : Bool
  rspSent : Bool
  name : List UInt8
  ipAddr : UInt32
  deriving DecidableEq

/-- An address for the name of the request `req`. -/
structure Answer where
  req : ℕ
  name : List UInt8
  addr : UInt32
  deriving DecidableEq

/-- Where the calling thread is; `ready` says that the poll reported a response. -/
inductive Caller where
  | idle
  | polling (req : ℕ) (name : List UInt8)
  | locking (req : ℕ) (name : List UInt8) (ready : Bool)
  | freeing (req : ℕ) (name : List UInt8) (rsp : DnsMsg)
  deriving DecidableEq

/-- Where the DNS thread is; it holds the mutex of `rsp` while it is `answering`. -/
inductive DnsThread where
  | reading
  | resolving (rsp : ℕ)
  | locking (rsp : ℕ)
  | answering (rsp : ℕ)
  | freeing (rsp : ℕ)
  deriving DecidableEq

structure State where
  heap : Heap DnsMsg := {}
  caller : Caller := .idle
  dns : DnsThread := .reading
  requests : List ℕ := []
  responses : List DnsMsg := []
  resolved : List Answer := []
  returned : List Answer := []
  freed : List ℕ := []

/-- What happens next: a call, whose write succeeds or not, a step of the calling thread,
whose poll reports a response or not, or a step of the DNS thread, whose resolver answers
`addr`. -/
inductive Event where
  | call (name : List UInt8) (sent : Bool)
  | caller (ready : Bool)
  | dns (addr : UInt32)

def State.free (s : State) (p : ℕ) : Option State :=
  (s.heap.get p).map fun _ => { s with heap := s.heap.free p, freed := p :: s.freed }

def State.ret (s : State) (req : ℕ) (name : List UInt8) (addr : UInt32) : State :=
  { s with caller := .idle, returned := ⟨req, name, addr⟩ :: s.returned }

/-- `upf_name_resolve` up to the poll. -/
def call (s : State) (name : List UInt8) (sent : Bool) : Option State :=
  match s.caller with
  | .idle =>
    if 64 ≤ name.length then none
    else
      let req := s.heap.next
      let s' := { s with heap := s.heap.alloc ⟨true, false, name, 0⟩ }
      if sent then some { s' with requests := s.requests ++ [req], caller := .polling req name }
      else (s'.free req).map (·.ret req name 0)
  | _ => some s

/-- `upf_name_resolve` from the poll on. -/
def callerStep (s : State) (ready : Bool) : Option State :=
  match s.caller with
  | .idle => some s
  | .polling req name =>
    if ready = true ∧ s.responses = [] then some s
    else some { s with caller := .locking req name ready }
  | .locking req name ready =>
    if s.dns = .answering req then some s
    else (s.heap.get req).bind fun msg =>
      if ready = false ∧ msg.rspSent = false then
        some ({ s with heap := s.heap.set req { msg with reqValid := false } }.ret req name 0)
      else
        match s.responses with
        | [] => none
        | rsp :: rest => some { s with responses := rest, caller := .freeing req name rsp }
  | .freeing req name rsp => (s.free req).map (·.ret req name rsp.ipAddr)

/-- `dns_handler`. -/
def dnsStep (s : State) (addr : UInt32) : Option State :=
  match s.dns with
  | .reading =>
    match s.requests with
    | [] => some s
    | rsp :: rest => some { s with requests := rest, dns := .resolving rsp }
  | .resolving rsp =>
    (s.heap.get rsp).map fun msg =>
      { s with
        heap := s.heap.set rsp { msg with ipAddr := addr }
        dns := .locking rsp
        resolved := ⟨rsp, msg.name, addr⟩ :: s.resolved }
  | .locking rsp =>
    (s.heap.get rsp).map fun msg =>
      if msg.reqValid then { s with responses := s.responses ++ [msg], dns := .answering rsp }
      else { s with dns := .freeing rsp }
  | .answering rsp =>
    (s.heap.get rsp).map fun msg =>
      { s with heap := s.heap.set rsp { msg with rspSent := true }, dns := .reading }
  | .freeing rsp => (s.free rsp).map fun s' => { s' with dns := .reading }

def step (s : State) : Event → Option State
  | .call name sent => call s name sent
  | .caller ready => callerStep s ready
  | .dns addr => dnsStep s addr

def Caller.awaits : Caller → Option ℕ
  | .polling req _ | .locking req _ _ => some req
  | _ => none

def Caller.holds : Caller → Option ℕ
  | .polling req _ | .locking req _ _ | .freeing req _ _ => some req
  | .idle => none

def State.pending (s : State) : List ℕ :=
  match s.dns with
  | .resolving rsp | .locking rsp => rsp :: s.requests
  | _ => s.requests

/-- **Where the record of each request is.** A pending request is valid exactly while the caller
waits for it, and nothing has been written for it. -/
structure Inv (s : State) : Prop where
  nodup : s.pending.Nodup
  live : ∀ p, s.heap.get p ≠ none ↔ p ∈ s.pending ∨ s.caller.holds = some p ∨ s.dns = .freeing p
  pending : ∀ p ∈ s.pending, ∀ m, s.heap.get p = some m →
    m.rspSent = false ∧ (m.reqValid = true ↔ s.caller.awaits = some p)
  freeing : ∀ p, s.dns = .freeing p → p ∉ s.requests ∧ s.caller.holds ≠ some p
  quiet : (∀ p, s.caller.awaits = some p → p ∈ s.pending) →
    s.responses = [] ∧ ∀ q, s.dns ≠ .answering q
  answered : ∀ p m, s.caller.awaits = some p → p ∉ s.pending → s.heap.get p = some m →
    (∃ rsp, s.responses = [rsp] ∧ ⟨p, m.name, rsp.ipAddr⟩ ∈ s.resolved) ∧
      (s.dns = .answering p ∨ m.rspSent = true ∧ ∀ q, s.dns ≠ .answering q)
  ready : ∀ p n, s.caller = .locking p n true → s.responses ≠ []
  named : ∀ p n m, s.heap.get p = some m →
    (s.caller = .polling p n ∨ ∃ r, s.caller = .locking p n r) → m.name = n
  taken : ∀ p n rsp, s.caller = .freeing p n rsp → p ∉ s.pending ∧ ⟨p, n, rsp.ipAddr⟩ ∈ s.resolved
  decided : ∀ p m, s.dns = .locking p → s.heap.get p = some m → ⟨p, m.name, m.ipAddr⟩ ∈ s.resolved
  freed : ∀ p, p ∈ s.freed ↔ p < s.heap.next ∧ s.heap.get p = none
  freedOnce : s.freed.Nodup
  returned : ∀ a ∈ s.returned, a.addr = 0 ∨ a ∈ s.resolved
  returns : ∀ p < s.heap.next, s.caller.holds ≠ some p → ∃ a ∈ s.returned, a.req = p

theorem inv_init : Inv {} := by
  constructor <;> simp [State.pending, Heap.get, Heap.next, Caller.holds, Caller.awaits]

section Actions

variable {s t : State} {p : ℕ} {n : List UInt8} {m rsp : DnsMsg} {ready : Bool}

attribute [local grind =] State.pending Caller.awaits Caller.holds State.ret Heap.get_alloc
  Heap.get_free Heap.next_alloc Heap.next_free Heap.next_set
attribute [local grind →] Heap.lt_next_of_get

theorem Caller.holds_of_awaits {c : Caller} (h : c.awaits = some p) : c.holds = some p := by
  cases c <;> first | exact h | cases h

theorem Inv.awaited_of_answering (h : Inv s) (hd : s.dns = .answering p) :
    s.caller.awaits = some p ∧ p ∉ s.pending := by
  -- The socket is not quiet, so the caller waits for a request that is not pending.
  have hloud : ¬∀ q, s.caller.awaits = some q → q ∈ s.pending := fun hq => (h.quiet hq).2 p hd
  push Not at hloud
  obtain ⟨q, hq, hqp⟩ := hloud
  obtain ⟨m, hm⟩ := Option.ne_none_iff_exists'.mp ((h.live q).mpr (.inr (.inl (Caller.holds_of_awaits hq))))
  rcases (h.answered q m hq hqp hm).2 with hd' | ⟨-, hd'⟩
  · obtain rfl := DnsThread.answering.inj (hd.symm.trans hd')
    exact ⟨hq, hqp⟩
  · exact absurd hd (hd' p)

theorem Inv.returns_ret (h : Inv s) (n : List UInt8) (addr : UInt32) {bound : ℕ}
    (hp : ∀ q < bound, q ≠ p → q < s.heap.next ∧ s.caller.holds ≠ some q) :
    ∀ q < bound, ∃ a ∈ (⟨p, n, addr⟩ :: s.returned : List Answer), a.req = q := by
  intro q hq
  rcases eq_or_ne q p with rfl | hqp
  · exact ⟨_, List.mem_cons_self .., rfl⟩
  · obtain ⟨a, ha, haq⟩ := h.returns q (hp q hq hqp).1 (hp q hq hqp).2
    exact ⟨a, List.mem_cons_of_mem _ ha, haq⟩

theorem Inv.send (h : Inv s) (hc : s.caller = .idle) : Inv { s with
      heap := s.heap.alloc ⟨true, false, n, 0⟩
      requests := s.requests ++ [s.heap.next]
      caller := .polling s.heap.next n } := by
  have hnew : s.heap.get s.heap.next = none := Heap.get_next
  have hreq : s.heap.next ∉ s.pending := fun hp => (h.live _).mpr (.inl hp) hnew
  cases h
  constructor <;> grind

theorem Inv.unsent (h : Inv s) (hc : s.caller = .idle) : Inv ({ s with
      heap := (s.heap.alloc ⟨true, false, n, 0⟩).free s.heap.next
      freed := s.heap.next :: s.freed }.ret s.heap.next n 0) := by
  have hnew : s.heap.get s.heap.next = none := Heap.get_next
  have hret : ∀ q < s.heap.next + 1, _ := h.returns_ret n 0 (p := s.heap.next) (by grind)
  cases h
  constructor
  case returns => exact fun q hq _ => hret q (by simpa [State.ret] using hq)
  all_goals grind

theorem Inv.poll (h : Inv s) (hc : s.caller = .polling p n)
    (hr : ready = true → s.responses ≠ []) : Inv { s with caller := .locking p n ready } := by
  cases h
  constructor <;> grind

theorem Inv.giveUp (h : Inv s) (hc : s.caller = .locking p n ready) (hd : s.dns ≠ .answering p)
    (hm : s.heap.get p = some m) (hsent : m.rspSent = false) :
    Inv ({ s with heap := s.heap.set p { m with reqValid := false } }.ret p n 0) := by
  have hset := fun q b => @Heap.get_set _ _ _ q _ b hm
  have hret : ∀ q < s.heap.next, _ := h.returns_ret n 0 (p := p) (by grind)
  cases h
  constructor <;> grind

theorem Inv.take {rest : List DnsMsg} (h : Inv s) (hc : s.caller = .locking p n ready)
    (hd : s.dns ≠ .answering p) (hm : s.heap.get p = some m) (hr : s.responses = rsp :: rest) :
    Inv { s with responses := rest, caller := .freeing p n rsp } := by
  have hp : p ∉ s.pending := by
    intro hp
    have hquiet := (h.quiet (by grind)).1
    grind
  have hrsp := h.answered p m (by grind) hp hm
  have hname := h.named p n m hm (.inr ⟨ready, hc⟩)
  cases h
  constructor <;> grind

theorem Inv.finish (h : Inv s) (hc : s.caller = .freeing p n rsp) (hm : s.heap.get p = some m) :
    Inv ({ s with heap := s.heap.free p, freed := p :: s.freed }.ret p n rsp.ipAddr) := by
  have hret : ∀ q < s.heap.next, _ := h.returns_ret n rsp.ipAddr (p := p) (by grind)
  cases h
  constructor <;> grind

theorem Inv.read {rest : List ℕ} (h : Inv s) (hd : s.dns = .reading)
    (hr : s.requests = p :: rest) : Inv { s with requests := rest, dns := .resolving p } := by
  cases h
  constructor <;> grind

theorem Inv.resolve {addr : UInt32} (h : Inv s) (hd : s.dns = .resolving p)
    (hm : s.heap.get p = some m) :
    Inv { s with
      heap := s.heap.set p { m with ipAddr := addr }
      dns := .locking p
      resolved := ⟨p, m.name, addr⟩ :: s.resolved } := by
  have hset := fun q b => @Heap.get_set _ _ _ q _ b hm
  cases h
  constructor <;> grind

theorem Inv.answer (h : Inv s) (hd : s.dns = .locking p) (hm : s.heap.get p = some m)
    (hv : m.reqValid = true) :
    Inv { s with responses := s.responses ++ [m], dns := .answering p } := by
  have hawait : s.caller.awaits = some p := ((h.pending p (by grind) m hm).2).mp hv
  have hhold := Caller.holds_of_awaits hawait
  cases h
  constructor <;> grind

theorem Inv.discard (h : Inv s) (hd : s.dns = .locking p) (hm : s.heap.get p = some m)
    (hv : m.reqValid = false) : Inv { s with dns := .freeing p } := by
  have hawait : s.caller.awaits ≠ some p := fun hw =>
    Bool.false_ne_true (hv.symm.trans ((h.pending p (by grind) m hm).2.mpr hw))
  have hhold : s.caller.holds ≠ some p := by
    intro hc
    cases hs : s.caller with
    | freeing q n rsp => exact (h.taken q n rsp hs).1 (by grind)
    | _ => grind
  cases h
  constructor <;> grind

theorem Inv.mark (h : Inv s) (hd : s.dns = .answering p) (hm : s.heap.get p = some m) :
    Inv { s with heap := s.heap.set p { m with rspSent := true }, dns := .reading } := by
  have hset := fun q b => @Heap.get_set _ _ _ q _ b hm
  have hawait := h.awaited_of_answering hd
  cases h
  constructor <;> grind

theorem Inv.release (h : Inv s) (hd : s.dns = .freeing p) (hm : s.heap.get p = some m) :
    Inv { s with heap := s.heap.free p, freed := p :: s.freed, dns := .reading } := by
  cases h
  constructor <;> grind

end Actions

def State.work (s : State) : ℕ :=
  (match s.caller with | .idle => 0 | .freeing .. => 1 | .locking .. => 2 | .polling .. => 3) +
  (match s.dns with | .reading => 0 | .resolving _ => 3 | .locking _ => 2 | _ => 1) +
  4 * s.requests.length

/-- The names the callers pass fit a `dnsMsg_t`. -/
def Event.Fits : Event → Prop
  | .call name _ => name.length < 64
  | _ => True

section Runs

variable {s t : State}

theorem exists_call (h : Inv s) {name : List UInt8} {sent : Bool} (hn : name.length < 64) :
    ∃ t, call s name sent = some t ∧ Inv t := by
  unfold call
  split
  next hc =>
    rw [if_neg (Nat.not_le.mpr hn)]
    cases sent with
    | true => exact ⟨_, rfl, h.send hc⟩
    | false =>
      have hget : (s.heap.alloc ⟨true, false, name, 0⟩).get s.heap.next =
          some ⟨true, false, name, 0⟩ := by rw [Heap.get_alloc, if_pos rfl]
      exact ⟨_, by rw [if_neg Bool.false_ne_true, State.free, hget]; rfl, h.unsent hc⟩
  next => exact ⟨s, rfl, h⟩

theorem exists_callerStep (h : Inv s) (ready : Bool) : ∃ t, callerStep s ready = some t ∧ Inv t ∧
      (t = s ∧ (ready = true ∨ s.caller = .idle ∨ s.dns ≠ .reading) ∨ t.work < s.work) := by
  have hget : ∀ p, s.caller.holds = some p → ∃ m, s.heap.get p = some m := fun p hp =>
    Option.ne_none_iff_exists'.mp ((h.live p).mpr (.inr (.inl hp)))
  cases hc : s.caller with
  | idle => exact ⟨s, by simp only [callerStep, hc], h, .inl ⟨rfl, .inr (.inl rfl)⟩⟩
  | polling p n =>
    simp only [callerStep, hc]
    split_ifs with hr
    · exact ⟨s, rfl, h, .inl ⟨rfl, .inl hr.1⟩⟩
    · refine ⟨_, rfl, h.poll hc (by grind), .inr ?_⟩
      simp [State.work, hc]
  | locking p n r =>
    obtain ⟨m, hm⟩ := hget p (by rw [hc]; rfl)
    simp only [callerStep, hc, hm, Option.bind_some]
    split_ifs with hd hr
    · exact ⟨s, rfl, h, .inl ⟨rfl, .inr (.inr (by rw [hd]; nofun))⟩⟩
    · refine ⟨_, rfl, h.giveUp hc hd hm hr.2, .inr ?_⟩
      simp [State.work, State.ret, hc]
    · cases hrs : s.responses with
      | nil =>
        -- The poll reported a response or the DNS thread marked one, and nobody has read it.
        exfalso
        cases r with
        | true => exact h.ready p n hc hrs
        | false =>
          have hp : p ∉ s.pending := fun hp =>
            hr ⟨rfl, (h.pending p hp m hm).1⟩
          obtain ⟨⟨rsp, hrsp, -⟩, -⟩ := h.answered p m (by rw [hc]; rfl) hp hm
          rw [hrs] at hrsp
          cases hrsp
      | cons rsp rest =>
        refine ⟨_, rfl, h.take hc hd hm hrs, .inr ?_⟩
        simp [State.work, hc]
  | freeing p n rsp =>
    obtain ⟨m, hm⟩ := hget p (by rw [hc]; rfl)
    refine ⟨_, by simp only [callerStep, hc, State.free, hm]; rfl, h.finish hc hm, .inr ?_⟩
    simp [State.work, State.ret, hc]

theorem exists_dnsStep (h : Inv s) (addr : UInt32) : ∃ t, dnsStep s addr = some t ∧ Inv t ∧
      (t = s ∧ s.dns = .reading ∧ s.requests = [] ∨ t.work < s.work) := by
  have hget : ∀ p, (p ∈ s.pending ∨ s.caller.holds = some p ∨ s.dns = .freeing p) →
      ∃ m, s.heap.get p = some m := fun p hp => Option.ne_none_iff_exists'.mp ((h.live p).mpr hp)
  cases hd : s.dns with
  | reading =>
    simp only [dnsStep, hd]
    cases hr : s.requests with
    | nil => exact ⟨s, rfl, h, .inl ⟨rfl, trivial, rfl⟩⟩
    | cons p rest =>
      refine ⟨_, rfl, h.read hd hr, .inr ?_⟩
      simp [State.work, hd, hr]
      omega
  | resolving p =>
    obtain ⟨m, hm⟩ := hget p (.inl (by simp [State.pending, hd]))
    refine ⟨_, by simp only [dnsStep, hd, hm]; rfl, h.resolve hd hm, .inr ?_⟩
    simp [State.work, hd]
  | locking p =>
    obtain ⟨m, hm⟩ := hget p (.inl (by simp [State.pending, hd]))
    simp only [dnsStep, hd, hm, Option.map_some]
    cases hv : m.reqValid with
    | true =>
      refine ⟨_, rfl, h.answer hd hm hv, .inr ?_⟩
      simp [State.work, hd]
    | false =>
      refine ⟨_, rfl, h.discard hd hm hv, .inr ?_⟩
      simp [State.work, hd]
  | answering p =>
    have hawait := (h.awaited_of_answering hd).1
    obtain ⟨m, hm⟩ := hget p (.inr (.inl (Caller.holds_of_awaits hawait)))
    refine ⟨_, by simp only [dnsStep, hd, hm]; rfl, h.mark hd hm, .inr ?_⟩
    simp [State.work, hd]
  | freeing p =>
    obtain ⟨m, hm⟩ := hget p (.inr (.inr hd))
    refine ⟨_, by simp only [dnsStep, hd, State.free, hm]; rfl, h.release hd hm, .inr ?_⟩
    simp [State.work, hd]

theorem exists_step (h : Inv s) {e : Event} (he : e.Fits) : ∃ t, step s e = some t ∧ Inv t := by
  cases e with
  | call name sent => exact exists_call h he
  | caller ready =>
    obtain ⟨t, ht, hi, -⟩ := exists_callerStep h ready
    exact ⟨t, ht, hi⟩
  | dns addr =>
    obtain ⟨t, ht, hi, -⟩ := exists_dnsStep h addr
    exact ⟨t, ht, hi⟩

theorem exists_final {es : List Event} (h : Inv s) (hes : ∀ e ∈ es, e.Fits) :
    ∃ t, Machine.final step s es = some t ∧ Inv t := by
  induction es generalizing s with
  | nil => exact ⟨s, rfl, h⟩
  | cons e es ih =>
    obtain ⟨u, hu, hi⟩ := exists_step h (hes e (List.mem_cons_self ..))
    obtain ⟨t, ht, hit⟩ := ih hi fun e' he' => hes e' (List.mem_cons_of_mem e he')
    exact ⟨t, by rw [Machine.final, hu, Option.bind_some, ht], hit⟩

/-- Neither thread has anything to do. -/
def State.AtRest (s : State) : Prop :=
  (∀ ready, callerStep s ready = some s) ∧ ∀ addr, dnsStep s addr = some s

theorem Inv.of_atRest (h : Inv s) (hs : s.AtRest) :
    s.caller = .idle ∧ ∀ p < s.heap.next, p ∈ s.freed ∧ ∃ a ∈ s.returned, a.req = p := by
  obtain ⟨t, ht, -, hdns⟩ := exists_dnsStep h 0
  cases (hs.2 0).symm.trans ht
  obtain ⟨t, ht, -, hcaller⟩ := exists_callerStep h false
  cases (hs.1 false).symm.trans ht
  obtain ⟨-, hd, hr⟩ := hdns.resolve_right (Nat.lt_irrefl _)
  have hc : s.caller = .idle := by
    rcases (hcaller.resolve_right (Nat.lt_irrefl _)).2 with hf | hc | hd'
    · cases hf
    · exact hc
    · exact absurd hd hd'
  have hlive : ∀ p, s.heap.get p = none := by
    intro p
    by_contra hp
    rcases (h.live p).mp hp with hp | hp | hp
    · simp [State.pending, hd, hr] at hp
    · simp [hc, Caller.holds] at hp
    · simp [hd] at hp
  refine ⟨hc, fun p hp => ⟨(h.freed p).mpr ⟨hp, hlive p⟩, h.returns p hp ?_⟩⟩
  rw [hc]
  simp [Caller.holds]

end Runs

/-- **No answer is made up, no request is freed twice, the threads never block each other, and at
rest every request has been answered and freed.** -/
theorem resolves_names (es : List Event) (hes : ∀ e ∈ es, e.Fits) :
    ∃ s, Machine.final step {} es = some s ∧ (∀ a ∈ s.returned, a.addr = 0 ∨ a ∈ s.resolved) ∧
      s.freed.Nodup ∧
      (∀ ready, ∃ t, callerStep s ready = some t ∧ (t = s ∨ t.work < s.work)) ∧
      (∀ addr, ∃ t, dnsStep s addr = some t ∧ (t = s ∨ t.work < s.work)) ∧
      (s.AtRest → s.caller = .idle ∧
        ∀ p < s.heap.next, p ∈ s.freed ∧ ∃ a ∈ s.returned, a.req = p) := by
  obtain ⟨s, hs, h⟩ := exists_final inv_init hes
  refine ⟨s, hs, h.returned, h.freedOnce, fun ready => ?_, fun addr => ?_, h.of_atRest⟩
  · obtain ⟨t, ht, -, hw⟩ := exists_callerStep h ready
    exact ⟨t, ht, hw.imp_left And.left⟩
  · obtain ⟨t, ht, -, hw⟩ := exists_dnsStep h addr
    exact ⟨t, ht, hw.imp_left And.left⟩

def lateAnswer : List Event :=
  [.call [97] true, .caller false, .caller false, .call [98] true, .dns 0, .dns 1, .dns 0,
    .dns 0, .dns 0, .dns 2, .dns 0, .caller true, .dns 0, .caller true, .caller true]

theorem resolves_names_lateAnswer : ∃ s, Machine.final step {} lateAnswer = some s ∧ s.AtRest ∧
      s.returned = [⟨1, [98], 2⟩, ⟨0, [97], 0⟩] ∧ s.freed.Nodup ∧
      ∀ p < s.heap.next, p ∈ s.freed := by
  have hfits : ∀ e ∈ lateAnswer, e.Fits := by simp [lateAnswer, Event.Fits]
  obtain ⟨s, hs, -, hfreed, -, -, hrest⟩ := resolves_names lateAnswer hfits
  have hend : (Machine.final step {} lateAnswer).map
      (fun s => (s.caller, s.dns, s.requests, s.returned)) =
      some (.idle, .reading, [], [⟨1, [98], 2⟩, ⟨0, [97], 0⟩]) := by decide +kernel
  rw [hs] at hend
  obtain ⟨hc, hd, hr, hret⟩ : s.caller = .idle ∧ s.dns = .reading ∧ s.requests = [] ∧
      s.returned = [⟨1, [98], 2⟩, ⟨0, [97], 0⟩] := by simpa using hend
  have hat : s.AtRest :=
    ⟨fun _ => by simp only [callerStep, hc], fun _ => by simp only [dnsStep, hd, hr]⟩
  exact ⟨s, hs, hat, hret, hfreed, fun p hp => ((hrest hat).2 p hp).1⟩

end Spgw.Upf.Resolver
