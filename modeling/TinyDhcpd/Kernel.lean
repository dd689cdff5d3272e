import TinyDhcpd.Refinement

/-!
The loop together with the socket in the kernel: nothing is slept on, and the loop catches up,
but for a flood of packets.

The socket is registered with `EPOLLET`. The kernel is a parameter here, and what is relied on of
it are the rules of edge-triggered readiness: when the socket becomes readable or writable
`epoll_wait` is going to report it, once, and calls only answer that they would block when it is
not. The loop sees no second report of the same packet, so it has to read until `recvmsg` would
block.
-/

namespace TinyDhcpd.Kernel

open Bytes Receive Transmit Epoll Socket Shutdown Run

/-- What is used of the kernel in a state of type `κ`: the number of packets that can be received,
whether the socket is writable in the sense of `EPOLLOUT`, and which of the two flags `epoll_wait`
is going to report. -/
structure Readiness (κ : Type) where
  unread : κ → ℕ
  writable : κ → Bool
  epollin : κ → Bool
  epollout : κ → Bool

structure System (κ : Type) where
  loop : State (SocketState LeaseTable)
  kernel : κ

/-- Something happens in the kernel, a signal arrives, or the loop makes its next test or call,
which answers as given and leaves the kernel in another state. -/
inductive Event (κ : Type)
  | outside (k : κ)
  | signal (signum : Signal)
  | proceed (answer : Answer Arrival Output) (k : κ)

variable {κ : Type}

namespace Readiness

/-- There is something to report. -/
def reports (K : Readiness κ) (k : κ) : Bool := K.epollin k || K.epollout k

/-- The rule for what happens in the kernel, with and without a call of the loop: a flag that comes
up is going to be reported, and so is one that was going to be and is still up. -/
structure Change (K : Readiness κ) (k k' : κ) : Prop where
  epollin : K.unread k' ≠ 0 → K.unread k = 0 ∨ K.epollin k = true → K.epollin k' = true
  epollout : K.writable k' = true → K.writable k = false ∨ K.epollout k = true →
    K.epollout k' = true

/-- The rule for a report: it has the flags that were going to be reported, and what comes up from
then on is going to be reported again. -/
structure Report (K : Readiness κ) (k : κ) (epollin epollout : Bool) (k' : κ) : Prop where
  epollin : K.epollin k = true → epollin = true
  epollout : K.epollout k = true → epollout = true
  readable : K.unread k' ≠ 0 → K.unread k = 0 → K.epollin k' = true
  writable : K.writable k' = true → K.writable k = false → K.epollout k' = true

structure Registered (K : Readiness κ) (k : κ) : Prop where
  epollin : K.unread k ≠ 0 → K.epollin k = true
  epollout : K.writable k = true → K.epollout k = true

end Readiness

variable (K : Readiness κ) (host : ByteOrder) (cfg : SubnetConfiguration) (serverIp : UInt32)

/-- `epoll_wait` blocks as long as it has nothing to report. -/
def step (x : System κ) : Event κ → System κ
  | .outside k => { x with kernel := k }
  | .signal signum => { x with loop := sighandler x.loop signum }
  | .proceed answer k =>
    if x.loop.pc = .blocked ∧ K.reports x.kernel = false ∧
        (answer.epollWait ≠ .interrupted ∧ answer.epollWait ≠ .failed) then { x with kernel := k }
    else ⟨Epoll.proceed (socket host (daemon host cfg serverIp)) x.loop answer, k⟩

/-- The rules for the calls: `epoll_wait` reports, `recvmsg` answers `EWOULDBLOCK` only if there is
no packet, and `sendto` only if the socket is not writable. -/
def RuledCall (x : System κ) (answer : Answer Arrival Output) (k : κ) : Pc → Prop
  | .blocked =>
    (∃ epollin epollout, answer.epollWait = .ready epollin epollout ∧
      K.reports x.kernel = true ∧ K.Report x.kernel epollin epollout k) ∨
    (∀ epollin epollout, answer.epollWait = .ready epollin epollout →
      K.reports x.kernel = false) ∧ K.Change x.kernel k
  | .input _ => K.Change x.kernel k ∧ (idle answer.input = true → K.unread k = 0)
  | .drain false =>
    K.Change x.kernel k ∧ (answer.output.result = .wouldBlock →
      x.loop.subject.sendQueue ≠ [] → K.writable k = false)
  | _ => K.Change x.kernel k

def Ruled (x : System κ) : Event κ → Prop
  | .outside k => K.Change x.kernel k
  | .signal _ => True
  | .proceed answer k => RuledCall K x answer k x.loop.pc

instance (k k' : κ) : Decidable (K.Change k k') :=
  decidable_of_iff ((K.unread k' ≠ 0 → K.unread k = 0 ∨ K.epollin k = true →
    K.epollin k' = true) ∧ (K.writable k' = true → K.writable k = false ∨ K.epollout k = true →
      K.epollout k' = true)) ⟨fun h => ⟨h.1, h.2⟩, fun h => ⟨h.1, h.2⟩⟩

instance (k k' : κ) (epollin epollout : Bool) : Decidable (K.Report k epollin epollout k') :=
  decidable_of_iff ((K.epollin k = true → epollin = true) ∧
    (K.epollout k = true → epollout = true) ∧
      (K.unread k' ≠ 0 → K.unread k = 0 → K.epollin k' = true) ∧
        (K.writable k' = true → K.writable k = false → K.epollout k' = true))
    ⟨fun h => ⟨h.1, h.2.1, h.2.2.1, h.2.2.2⟩, fun h => ⟨h.1, h.2, h.3, h.4⟩⟩

instance (x : System κ) (answer : Answer Arrival Output) (k : κ) :
    (pc : Pc) → Decidable (RuledCall K x answer k pc)
  | .blocked => inferInstanceAs (Decidable (_ ∨ _))
  | .input _ => inferInstanceAs (Decidable (_ ∧ _))
  | .drain false => inferInstanceAs (Decidable (_ ∧ _))
  | .drain true | .testInt | .testTerm | .testReady | .enterWait | .testOut _ | .returned
  | .threw _ => inferInstanceAs (Decidable (K.Change x.kernel k))

instance (x : System κ) : (e : Event κ) → Decidable (Ruled K x e)
  | .outside k => inferInstanceAs (Decidable (K.Change x.kernel k))
  | .signal _ => .isTrue trivial
  | .proceed answer k => inferInstanceAs (Decidable (RuledCall K x answer k x.loop.pc))

def init (lastSignal : Option Signal) (leases : LeaseTable) (k : κ) : System κ :=
  ⟨start lastSignal ⟨[], leases⟩, k⟩

/-! ### Nothing is slept on -/

/-- The loop is receiving, or has been left by an exception. -/
def takes : Pc → Bool
  | .input _ => true
  | .threw _ => true
  | _ => false

/-- The loop knows that it can send. -/
def Knows (s : State (SocketState LeaseTable)) : Prop :=
  s.readyToSend = true ∧ s.pc ≠ .drain true ∨ carries s.pc = true

/-- What the loop has not taken note of, the kernel is still going to report. -/
structure Vigilant (x : System κ) : Prop where
  input : K.unread x.kernel ≠ 0 → K.epollin x.kernel = true ∨ takes x.loop.pc = true
  output : K.writable x.kernel = true → K.epollout x.kernel = true ∨ Knows x.loop
  idle : x.loop.pc = .enterWait ∨ x.loop.pc = .blocked →
    x.loop.subject.sendQueue = [] ∨ x.loop.readyToSend = false

variable {K host cfg serverIp} {x : System κ} {s : State (SocketState LeaseTable)} {k k' : κ}

lemma vigilant_init (lastSignal : Option Signal) (leases : LeaseTable) (hk : K.Registered k) :
    Vigilant K (init lastSignal leases k) where
  input h := Or.inl (hk.epollin h)
  output h := Or.inl (hk.epollout h)
  idle h := by simp [init, start] at h

lemma Vigilant.change (h : Vigilant K ⟨s, k⟩) (hc : K.Change k k') : Vigilant K ⟨s, k'⟩ where
  input hunread := by
    by_cases hn : K.unread k = 0
    · exact Or.inl (hc.epollin hunread (Or.inl hn))
    · exact (h.input hn).imp_left fun he => hc.epollin hunread (Or.inr he)
  output hwritable := by
    by_cases hn : K.writable k = true
    · exact (h.output hn).imp_left fun he => hc.epollout hwritable (Or.inr he)
    · exact Or.inl (hc.epollout hwritable (Or.inl (by simpa using hn)))
  idle := h.idle

lemma Vigilant.sighandler (h : Vigilant K ⟨s, k⟩) (signum : Signal) :
    Vigilant K ⟨Epoll.sighandler s signum, k⟩ := by
  by_cases hb : s.pc = .blocked
  · have hpc := sighandler_pc_of_blocked hb signum
    refine ⟨fun hn => Or.inl ((h.input hn).resolve_right (by simp [hb, takes])), fun hw => ?_,
      by simp [hpc]⟩
    refine (h.output hw).imp_right fun hk => ?_
    have hready : s.readyToSend = true := by simpa [Knows, hb, carries] using hk
    exact Or.inl ⟨hready, by simp [hpc]⟩
  · have hpc := sighandler_pc_of_ne hb signum
    refine ⟨fun hn => by simpa only [hpc] using h.input hn, fun hw => ?_,
      fun hi => h.idle (hpc ▸ hi)⟩
    unfold Knows
    rw [hpc]
    exact h.output hw

lemma Vigilant.move (h : Vigilant K ⟨s, k⟩) {pc : Pc} (hin : takes s.pc = false)
    (hc : carries s.pc = false) (hd : pc ≠ .drain true)
    (hi : pc = .enterWait ∨ pc = .blocked → s.subject.sendQueue = [] ∨ s.readyToSend = false) :
    Vigilant K ⟨{ s with pc := pc }, k⟩ where
  input hn := Or.inl ((h.input hn).resolve_right (by simp [hin]))
  output hw := (h.output hw).imp_right fun hk =>
    Or.inl ⟨(hk.resolve_right (by simp [hc])).1, hd⟩
  idle := hi

lemma idle_of_exhausted {t : SocketState LeaseTable} {a : Arrival}
    (h : ((socket host (daemon host cfg serverIp)).handleEpollin t a).2 = .ok true) :
    idle a = true := by
  simp only [socket, daemon] at h
  unfold idle
  cases hr : a.received with
  | wouldBlock => rfl
  | failed => simp [hr, handleEpollin, Outcome.ret, Except.map] at h
  | packet data iface =>
    simp only [hr, handleEpollin] at h
    revert h
    cases (caught (receive host cfg serverIp a.uninit a.env data iface t.observer)).result <;>
      simp [Except.map]

lemma result_of_wouldBlock {t : SocketState LeaseTable} {o : Output}
    (h : ((socket host (daemon host cfg serverIp)).handleEpollout t o).2 = true) :
    o.result = .wouldBlock := by
  simp only [socket, handleEpollout] at h
  cases hq : t.sendQueue with
  | nil => simp [hq] at h
  | cons reply rest => cases hr : o.result <;> simp_all

lemma Vigilant.report (h : Vigilant K ⟨s, k⟩) (hpc : s.pc = .blocked) {epollin epollout : Bool}
    (hr : K.Report k epollin epollout k') :
    Vigilant K ⟨{ s with pc := if epollin then .input epollout else .testOut epollout }, k'⟩ where
  input hn := by
    by_cases hu : K.unread k = 0
    · exact Or.inl (hr.readable hn hu)
    · have he := (h.input hu).resolve_right (by simp [hpc, takes])
      exact Or.inr (by simp [hr.epollin he, takes])
  output hw := by
    by_cases hn : K.writable k = true
    · rcases h.output hn with he | hk
      · refine Or.inr (Or.inr ?_)
        cases epollin <;> simp [hr.epollout he, carries]
      · have hready : s.readyToSend = true := by simpa [Knows, hpc, carries] using hk
        refine Or.inr (Or.inl ⟨hready, ?_⟩)
        cases epollin <;> simp
    · exact Or.inl (hr.writable hw (by simpa using hn))
  idle hi := by cases epollin <;> simp at hi

lemma Vigilant.send (h : Vigilant K ⟨s, k⟩) (hpc : s.pc = .drain false) {subject : SocketState
    LeaseTable} {wouldBlock : Bool} (hw : wouldBlock = true → K.writable k = false) :
    Vigilant K ⟨{ s with pc := .drain wouldBlock, subject := subject }, k⟩ where
  input hn := Or.inl ((h.input hn).resolve_right (by simp [hpc, takes]))
  output hwritable := (h.output hwritable).imp_right fun hk => by
    have hready : s.readyToSend = true := by simpa [Knows, hpc, carries] using hk
    refine Or.inl ⟨hready, fun hd => ?_⟩
    simp [hw (Pc.drain.inj hd)] at hwritable
  idle hi := by simp at hi

lemma Vigilant.suspend (h : Vigilant K ⟨s, k⟩) (hpc : s.pc = .drain true) :
    Vigilant K ⟨{ s with pc := .enterWait, readyToSend := false }, k⟩ where
  input hn := Or.inl ((h.input hn).resolve_right (by simp [hpc, takes]))
  output hw := Or.inl ((h.output hw).resolve_right (by simp [Knows, hpc, carries]))
  idle _ := Or.inr rfl

lemma Vigilant.exhaust (h : Vigilant K ⟨s, k⟩) {epollout : Bool} (hpc : s.pc = .input epollout)
    (hn : K.unread k = 0) {subject : SocketState LeaseTable} :
    Vigilant K ⟨{ s with pc := .testOut epollout, subject := subject }, k⟩ where
  input hno := absurd hn hno
  output hw := by simpa [Knows, hpc, carries] using h.output hw
  idle hi := by simp at hi

lemma vigilant_threw {fault : Fault} (hpc : s.pc = .threw fault) : Vigilant K ⟨s, k⟩ where
  input _ := Or.inr (by simp [hpc, takes])
  output _ := Or.inr (Or.inr (by simp [hpc, carries]))
  idle hi := by simp [hpc] at hi

/-- A test or call other than a report. `k` is the kernel after it. -/
lemma Vigilant.proceed (h : Vigilant K ⟨s, k⟩) {answer : Answer Arrival Output}
    (hwait : s.pc = .blocked → ∀ epollin epollout, answer.epollWait ≠ .ready epollin epollout)
    (hrecv : (∃ epollout, s.pc = .input epollout) → Shutdown.idle answer.input = true →
      K.unread k = 0)
    (hsend : s.pc = .drain false → answer.output.result = .wouldBlock →
      s.subject.sendQueue ≠ [] → K.writable k = false) :
    Vigilant K ⟨Epoll.proceed (socket host (daemon host cfg serverIp)) s answer, k⟩ := by
  have hp := proceeds (socket host (daemon host cfg serverIp)) s answer
  generalize Epoll.proceed (socket host (daemon host cfg serverIp)) s answer = s' at hp ⊢
  cases hp with
  | caughtInt hpc _ | passInt hpc _ | caughtTerm hpc _ | passTerm hpc _ | ready hpc _
  | unwritable hpc | interrupted hpc _ =>
    exact h.move (by simp [hpc, takes]) (by simp [hpc, carries]) (by simp) (by simp)
  | unready hpc hr =>
    exact h.move (by simp [hpc, takes]) (by simp [hpc, carries]) (by simp) fun _ => Or.inr hr
  | drained hpc hw =>
    exact h.move (by simp [hpc, takes]) (by simp [hpc, carries]) (by simp)
      fun _ => Or.inl (sendQueue_eq_nil hw)
  | enter hpc =>
    exact h.move (by simp [hpc, takes]) (by simp [hpc, carries]) (by simp)
      fun _ => h.idle (Or.inl hpc)
  | send hpc hw =>
    obtain ⟨reply, rest, hq⟩ := exists_front hw
    exact h.send hpc fun hb => hsend hpc (result_of_wouldBlock hb) (by simp [hq])
  | suspended hpc => exact h.suspend hpc
  | failed hpc _ | escaped hpc _ => exact vigilant_threw rfl
  | readable hpc hw | unreadable hpc hw => exact absurd hw (hwait hpc _ _)
  | received hpc _ =>
    exact ⟨fun _ => Or.inr (by simp [hpc, takes]), fun hw => h.output hw, by simp [hpc]⟩
  | exhausted hpc hw => exact h.exhaust hpc (hrecv ⟨_, hpc⟩ (idle_of_exhausted hw))
  | writable hpc =>
    refine ⟨fun hn => Or.inl ((h.input hn).resolve_right (by simp [hpc, takes])), fun _ => ?_,
      by simp⟩
    exact Or.inr (Or.inl ⟨rfl, by simp⟩)
  | returned hpc | threw hpc => exact h

lemma proceed_ready {T : Subject (SocketState LeaseTable) Arrival Output} (hpc : s.pc = .blocked)
    {answer : Answer Arrival Output} {epollin epollout : Bool}
    (hw : answer.epollWait = .ready epollin epollout) : Epoll.proceed T s answer =
      { s with pc := if epollin then .input epollout else .testOut epollout } := by
  simp only [Epoll.proceed, hpc, hw]

lemma vigilant_step (h : Vigilant K x) {e : Event κ} (he : Ruled K x e) :
    Vigilant K (step K host cfg serverIp x e) := by
  obtain ⟨s, k⟩ := x
  cases e with
  | outside k' => exact h.change he
  | signal signum => exact h.sighandler signum
  | proceed answer k' =>
    simp only [step]
    cases hpc : s.pc with
    | blocked =>
      simp only [Ruled, RuledCall, hpc] at he
      rcases he with ⟨epollin, epollout, hw, hr, hreport⟩ | ⟨hno, hc⟩
      · rw [if_neg (by simp [hr]), proceed_ready hpc hw]
        exact h.report hpc hreport
      · split_ifs with hstill
        · exact h.change hc
        · refine (h.change hc).proceed (fun _ epollin epollout hw => ?_) (by simp [hpc])
            (by simp [hpc])
          exact hstill ⟨rfl, hno epollin epollout hw, by simp [hw]⟩
    | input epollout =>
      simp only [Ruled, RuledCall, hpc] at he
      rw [if_neg (by simp)]
      exact (h.change he.1).proceed (by simp [hpc]) (fun _ => he.2) (by simp [hpc])
    | drain wouldBlock =>
      rw [if_neg (by simp)]
      cases wouldBlock with
      | false =>
        simp only [Ruled, RuledCall, hpc] at he
        exact (h.change he.1).proceed (by simp [hpc]) (by simp [hpc]) (fun _ => he.2)
      | true =>
        simp only [Ruled, RuledCall, hpc] at he
        exact (h.change he).proceed (by simp [hpc]) (by simp [hpc]) (by simp [hpc])
    | _ =>
      simp only [Ruled, RuledCall, hpc] at he
      rw [if_neg (by simp)]
      exact (h.change he).proceed (by simp [hpc]) (by simp [hpc]) (by simp [hpc])

lemma Vigilant.reports (h : Vigilant K x) (hpc : x.loop.pc = .blocked)
    (hwork : K.unread x.kernel ≠ 0 ∨ x.loop.subject.sendQueue ≠ [] ∧ K.writable x.kernel = true) :
    K.reports x.kernel = true := by
  rcases hwork with hn | ⟨hq, hw⟩
  · have he := (h.input hn).resolve_right (by simp [hpc, takes])
    simp [Readiness.reports, he]
  · have hready := (h.idle (Or.inr hpc)).resolve_left hq
    have he := (h.output hw).resolve_right (by simp [Knows, hready, hpc, carries])
    simp [Readiness.reports, he]

lemma vigilant_run (host : ByteOrder) (cfg : SubnetConfiguration) (serverIp : UInt32)
    {lastSignal : Option Signal} {leases : LeaseTable} (hk : K.Registered k) {es : List (Event κ)}
    (h : Meets (step K host cfg serverIp) (Ruled K) (init lastSignal leases k) es) :
    Vigilant K (run (step K host cfg serverIp) (init lastSignal leases k) es) :=
  invariant (I := Vigilant K) (fun _ _ hv he => vigilant_step hv he)
    (vigilant_init lastSignal leases hk) h

lemma unblocked_of_reports (hr : K.reports x.kernel = true) (hpc : x.loop.pc = .blocked)
    (answer : Answer Arrival Output) (k : κ) :
    (step K host cfg serverIp x (.proceed answer k)).loop.pc ≠ .blocked := by
  simp only [step, hr, Bool.true_eq_false, false_and, and_false, if_false]
  have hp := proceeds (socket host (daemon host cfg serverIp)) x.loop answer
  generalize Epoll.proceed (socket host (daemon host cfg serverIp)) x.loop answer = s' at hp ⊢
  cases hp <;> simp_all

/-- **Nothing is slept on.** On every kernel that keeps the rules, in every interleaving of what
happens in it, signals and the calls of the loop, with any failures of the calls: when the loop is
blocked in `epoll_wait` although a packet waits to be received, or a reply waits and the socket is
writable, then `epoll_wait` has something to report and the wait ends. -/
theorem nothing_slept_on (K : Readiness κ) (host : ByteOrder) (cfg : SubnetConfiguration)
    (serverIp : UInt32) (lastSignal : Option Signal) (leases : LeaseTable) (k : κ)
    (hk : K.Registered k) (es : List (Event κ))
    (h : Meets (step K host cfg serverIp) (Ruled K) (init lastSignal leases k) es) :
    let x := run (step K host cfg serverIp) (init lastSignal leases k) es
    x.loop.pc = .blocked →
      (K.unread x.kernel ≠ 0 ∨ x.loop.subject.sendQueue ≠ [] ∧ K.writable x.kernel = true) →
      K.reports x.kernel = true ∧
        ∀ answer k, (step K host cfg serverIp x (.proceed answer k)).loop.pc ≠ .blocked := by
  intro x hpc hwork
  have hr := (vigilant_run host cfg serverIp hk h).reports hpc hwork
  exact ⟨hr, unblocked_of_reports hr hpc⟩

/-! ### A kernel -/

/-- A socket with the number of packets in its receive buffer, and a place on the ready list of an
epoll instance. -/
structure Buffers where
  unread : ℕ
  writable : Bool
  armed : Bool

def buffers : Readiness Buffers where
  unread k := k.unread
  writable k := k.writable
  epollin k := k.armed && k.unread ≠ 0
  epollout k := k.armed && k.writable

def still : Buffers := ⟨0, false, false⟩

def going (k : Buffers) : Event Buffers :=
  .proceed ⟨.ready true true, ⟨.blank, Daemon.at100, .wouldBlock⟩, ⟨[], .sent⟩⟩ k

def arrivalWhileBlocked : List (Event Buffers) :=
  List.replicate 4 (going still) ++ [.outside ⟨1, false, true⟩]

theorem nothing_slept_on_arrival :
    let x := run (step buffers .little Config.exampleConfig 0) (init none .empty still)
      arrivalWhileBlocked
    (x.loop.pc = .blocked ∧ buffers.unread x.kernel ≠ 0) ∧ buffers.reports x.kernel = true := by
  intro x
  have hpc : x.loop.pc = .blocked := by decide +kernel
  have hn : buffers.unread x.kernel ≠ 0 := by decide +kernel
  exact ⟨⟨hpc, hn⟩, (nothing_slept_on buffers .little Config.exampleConfig 0 none .empty still
    ⟨by decide, by decide⟩ arrivalWhileBlocked (by decide +kernel) hpc (Or.inl hn)).1⟩

/-! ### The loop catches up -/

lemma length_enqueued_le (env : Env) (d : DhcpDatagram) (leases : LeaseTable) :
    (Daemon.handleRecv host cfg env d leases).enqueued.length ≤ 1 := by
  have h := Daemon.handled host cfg env d leases
  generalize Daemon.handleRecv host cfg env d leases = o at h ⊢
  cases h with
  | overread _ | ignored _ | untyped _ _ | unknown _ _ | release _ => exact Nat.zero_le 1
  | discover _ =>
    have h := Daemon.discovered host cfg env d leases
    generalize Daemon.handleDiscovery host cfg env d leases = o at h ⊢
    cases h <;> simp [Outcome.throw, Outcome.ret]
  | request _ =>
    have h := Daemon.requested host cfg env d leases
    generalize Daemon.handleRequest host cfg env d leases = o at h ⊢
    cases h <;> simp [Outcome.throw]
  | inform _ =>
    have h := Daemon.informed host cfg env d leases
    generalize Daemon.handleInform host cfg env d leases = o at h ⊢
    cases h <;> simp [Outcome.throw]
  | decline _ => simp [Daemon.enqueued_decline]

lemma length_handleEpollin_le (host : ByteOrder) (cfg : SubnetConfiguration) (serverIp : UInt32)
    (t : SocketState LeaseTable) (a : Arrival) :
    ((socket host (daemon host cfg serverIp)).handleEpollin t a).1.sendQueue.length ≤
      t.sendQueue.length + 1 := by
  have h : ((daemon host cfg serverIp).handleEpollin t.observer a).2.2.length ≤ 1 := by
    rcases Refinement.handleEpollin_handed host cfg serverIp a t.observer with
      ⟨ev, -, ho⟩ | ⟨-, -, hq⟩
    · simp only [daemon, ho, Echo.caught_enqueued]
      exact length_enqueued_le _ _ _
    · simp [daemon, hq]
  simp only [socket, List.length_append]
  omega

/-- The calls the loop makes succeed, but for `sendto`, which may fail; nothing else happens, and
the socket stays writable. -/
def CalmCall (K : Readiness κ) (x : System κ) (answer : Answer Arrival Output) (k : κ) : Pc → Prop
  | .blocked =>
    (∃ epollin epollout, answer.epollWait = .ready epollin epollout) ∧
      K.unread k = K.unread x.kernel
  | .input _ =>
    if K.unread x.kernel = 0 then idle answer.input = true ∧ K.unread k = 0
    else idle answer.input = false ∧ K.unread k + 1 = K.unread x.kernel
  | _ => K.unread k = K.unread x.kernel

@[inherit_doc CalmCall]
def Calm (K : Readiness κ) (x : System κ) : Event κ → Prop
  | .proceed answer k => K.writable k = true ∧ CalmCall K x answer k x.loop.pc
  | _ => False

instance (x : System κ) (answer : Answer Arrival Output) (k : κ) :
    (pc : Pc) → Decidable (CalmCall K x answer k pc)
  | .blocked => inferInstanceAs (Decidable (_ ∧ _))
  | .input _ => inferInstanceAs (Decidable (if K.unread x.kernel = 0 then _ else _))
  | .drain _ | .testInt | .testTerm | .testReady | .enterWait | .testOut _ | .returned
  | .threw _ => inferInstanceAs (Decidable (K.unread k = K.unread x.kernel))

instance (x : System κ) : (e : Event κ) → Decidable (Calm K x e)
  | .outside _ => .isFalse id
  | .signal _ => .isFalse id
  | .proceed _ _ => inferInstanceAs (Decidable (_ ∧ _))

/-- Everything has been received and has left, or the loop has ended. -/
def Settled (K : Readiness κ) (x : System κ) : Prop :=
  K.unread x.kernel = 0 ∧ x.loop.subject.sendQueue = [] ∨ x.loop.pc = .returned ∨
    ∃ fault, x.loop.pc = .threw fault

/-- The tests and calls before a packet is received, or, if there is none, before a reply is
sent. -/
def distance (unread ready : Bool) : Pc → ℕ
  | .input epollout => if unread then 1 else if epollout || ready then 5 else 12
  | .testOut epollout => if unread then 8 else if epollout || ready then 4 else 11
  | .testInt => if unread then 7 else if ready then 3 else 10
  | .testTerm => if unread then 6 else if ready then 2 else 9
  | .testReady => if unread then 5 else if ready then 1 else 8
  | .drain wouldBlock => if unread then 4 else if wouldBlock then 8 else 0
  | .enterWait => if unread then 3 else 7
  | .blocked => if unread then 2 else 6
  | .returned => 0
  | .threw _ => 0

lemma distance_le (unread ready : Bool) (pc : Pc) : distance unread ready pc ≤ 12 := by
  cases pc <;> simp only [distance] <;> first | omega | split_ifs <;> omega

/-- The work that is left: a packet may become a reply. -/
def work (K : Readiness κ) (x : System κ) : ℕ :=
  14 * K.unread x.kernel + x.loop.subject.sendQueue.length +
    distance (K.unread x.kernel ≠ 0) x.loop.readyToSend x.loop.pc

lemma work_move {s' : State (SocketState LeaseTable)} (hn : K.unread k' = K.unread k)
    (hq : s'.subject.sendQueue = s.subject.sendQueue)
    (hd : ∀ unread : Bool, decide (K.unread k ≠ 0) = unread →
      distance unread s'.readyToSend s'.pc < distance unread s.readyToSend s.pc) :
    work K ⟨s', k'⟩ < work K ⟨s, k⟩ := by
  have hlt := hd _ rfl
  simp only [work, hn, hq]
  omega

lemma work_proceed {answer : Answer Arrival Output}
    (hx : ¬ Settled K ⟨s, k⟩) (hn : K.unread k' = K.unread k) (hb : s.pc ≠ .blocked)
    (hi : ∀ epollout, s.pc ≠ .input epollout)
    (hs : s.pc = .drain false → answer.output.result = .wouldBlock →
      s.subject.sendQueue ≠ [] → False) :
    let s' := Epoll.proceed (socket host (daemon host cfg serverIp)) s answer
    Settled K ⟨s', k'⟩ ∨ work K ⟨s', k'⟩ < work K ⟨s, k⟩ := by
  intro s'
  have hp : Proceeds (socket host (daemon host cfg serverIp)) s answer s' := proceeds _ s answer
  generalize s' = t at hp ⊢
  cases hp with
  | caughtInt hpc _ | caughtTerm hpc _ => exact Or.inl (Or.inr (Or.inl rfl))
  | passInt hpc _ | passTerm hpc _ | suspended hpc | enter hpc | writable hpc | unwritable hpc =>
    refine Or.inr (work_move hn rfl fun unread _ => ?_)
    cases unread <;> cases hr : s.readyToSend <;> simp [distance, hpc]
  | ready hpc hr | unready hpc hr =>
    refine Or.inr (work_move hn rfl fun unread _ => ?_)
    cases unread <;> simp [distance, hpc, hr]
  | send hpc hw =>
    -- one reply less is waiting
    obtain ⟨reply, rest, hq⟩ := exists_front hw
    have hgo : ((socket host (daemon host cfg serverIp)).handleEpollout s.subject
        answer.output).2 = false := by
      by_contra hb
      exact hs hpc (result_of_wouldBlock (by simpa using hb)) (by simp [hq])
    have hqueue : ((socket host (daemon host cfg serverIp)).handleEpollout s.subject
        answer.output).1.sendQueue = rest := by
      simp only [socket, handleEpollout, hq] at hgo ⊢
      revert hgo
      cases answer.output.result <;> simp
    refine Or.inr ?_
    simp only [work, hn, hgo, hqueue, hpc, hq, List.length_cons]
    omega
  | drained hpc hw =>
    -- nothing is left to send, so there is something to receive: the wait will end
    have hq := sendQueue_eq_nil hw
    refine Or.inr (work_move hn rfl fun unread hu => ?_)
    have hunread : unread = true := by
      rw [← hu]
      simpa using fun h0 => hx (Or.inl ⟨h0, hq⟩)
    simp [distance, hpc, hunread]
  | interrupted hpc _ | failed hpc _ | readable hpc _ | unreadable hpc _ => exact absurd hpc hb
  | escaped hpc _ | received hpc _ | exhausted hpc _ => exact absurd hpc (hi _)
  | returned hpc => exact absurd (Or.inr (Or.inl hpc)) hx
  | threw hpc => exact absurd (Or.inr (Or.inr ⟨_, hpc⟩)) hx

lemma work_report (h : Vigilant K ⟨s, k⟩) (hpc : s.pc = .blocked) (hw : K.writable k = true)
    (hwork : K.unread k ≠ 0 ∨ s.subject.sendQueue ≠ []) (hn : K.unread k' = K.unread k)
    {epollin epollout : Bool} (hr : K.Report k epollin epollout k') :
    work K ⟨{ s with pc := if epollin then .input epollout else .testOut epollout }, k'⟩ <
      work K ⟨s, k⟩ := by
  refine work_move hn rfl fun unread hu => ?_
  cases unread with
  | true =>
    have he := (h.input (by simpa using hu)).resolve_right (by simp [hpc, takes])
    simp [distance, hpc, hr.epollin he]
  | false =>
    have hq := hwork.resolve_left (by simpa using hu)
    have hready : s.readyToSend = false := (h.idle (Or.inr hpc)).resolve_left hq
    have he := (h.output hw).resolve_right (by simp [Knows, hready, hpc, carries])
    cases epollin <;> simp [distance, hpc, hr.epollout he]

lemma work_input {answer : Answer Arrival Output} {epollout : Bool} (hpc : s.pc = .input epollout)
    (hc : if K.unread k = 0 then idle answer.input = true ∧ K.unread k' = 0
      else idle answer.input = false ∧ K.unread k' + 1 = K.unread k) :
    let s' := Epoll.proceed (socket host (daemon host cfg serverIp)) s answer
    Settled K ⟨s', k'⟩ ∨ work K ⟨s', k'⟩ < work K ⟨s, k⟩ := by
  intro s'
  have hp : Proceeds (socket host (daemon host cfg serverIp)) s answer s' := proceeds _ s answer
  generalize s' = t at hp ⊢
  cases hp with
  | escaped _ _ => exact Or.inl (Or.inr (Or.inr ⟨_, rfl⟩))
  | received hpc' hw =>
    split_ifs at hc with hn
    · rw [handleEpollin_idle host cfg serverIp (received_of_idle hc.1)] at hw
      cases hw
    · -- a packet is gone, and there may be a reply more
      refine Or.inr ?_
      have hq := length_handleEpollin_le host cfg serverIp s.subject answer.input
      have hd := distance_le (K.unread k' ≠ 0) s.readyToSend s.pc
      have hone : distance (K.unread k ≠ 0) s.readyToSend s.pc = 1 := by simp [distance, hpc, hn]
      simp only [work, hone]
      omega
  | @exhausted epollout' hpc' hw =>
    cases hpc.symm.trans hpc'
    -- it has asked to wait, so no packet was there
    have hblock := idle_of_exhausted hw
    split_ifs at hc with hn
    · refine Or.inr (work_move (hc.2.trans hn.symm) ?_ fun unread hu => ?_)
      · rw [handleEpollin_idle host cfg serverIp (received_of_idle hblock)]
      · have hunread : unread = false := by simpa [hn] using hu.symm
        simp only [distance, hpc, hunread, Bool.false_eq_true, if_false]
        split_ifs <;> omega
    · simp [hblock] at hc
  | _ => simp_all

lemma work_step (host : ByteOrder) (cfg : SubnetConfiguration) (serverIp : UInt32)
    (hv : Vigilant K x) (hw : K.writable x.kernel = true) (hx : ¬ Settled K x) {e : Event κ}
    (he : Ruled K x e) (hc : Calm K x e) :
    let x' := step K host cfg serverIp x e
    Settled K x' ∨ K.writable x'.kernel = true ∧ work K x' + 1 ≤ work K x := by
  obtain ⟨s, k⟩ := x
  cases e with
  | outside k' => exact hc.elim
  | signal signum => exact hc.elim
  | proceed answer k' =>
    obtain ⟨hw', hc⟩ := hc
    simp only [step]
    cases hpc : s.pc with
    | blocked =>
      simp only [Ruled, RuledCall, CalmCall, hpc] at he hc
      obtain ⟨⟨epollin, epollout, hready⟩, hn⟩ := hc
      have hwork : K.unread k ≠ 0 ∨ s.subject.sendQueue ≠ [] := by
        by_contra hno
        simp only [not_or, not_not] at hno
        exact hx (Or.inl hno)
      have hrep : K.reports k = true := hv.reports hpc (hwork.imp_right fun hq => ⟨hq, hw⟩)
      rcases he with ⟨epollin', epollout', hready', -, hreport⟩ | ⟨hno, -⟩
      · cases hready.symm.trans hready'
        rw [if_neg (by simp [hrep]), proceed_ready hpc hready]
        exact Or.inr ⟨hw', work_report hv hpc hw hwork hn hreport⟩
      · simp [hno _ _ hready] at hrep
    | input epollout =>
      simp only [CalmCall, hpc] at hc
      rw [if_neg (by simp)]
      exact (work_input hpc hc).imp_right fun hlt => ⟨hw', hlt⟩
    | drain wouldBlock =>
      -- while the socket is writable no reply is put off
      have hn : K.unread k' = K.unread k := by
        simp only [CalmCall, hpc] at hc
        exact hc
      rw [if_neg (by simp)]
      refine (work_proceed hx hn (by simp [hpc]) (by simp [hpc]) fun hd hb hq => ?_).imp_right
        fun hlt => ⟨hw', hlt⟩
      simp only [Ruled, RuledCall, hd] at he
      simp [he.2 hb hq] at hw'
    | _ =>
      simp only [CalmCall, hpc] at hc
      rw [if_neg (by simp)]
      exact (work_proceed hx hc (by simp [hpc]) (by simp [hpc]) (by simp [hpc])).imp_right
        fun hlt => ⟨hw', hlt⟩

/-- **The loop catches up.** On every kernel that keeps the rules, from every state the program can
get into, with any number of packets and replies waiting: if the socket is writable and stays so,
no more packets or signals arrive and the calls do not fail, then within fourteen steps a packet
and one a reply, and thirteen more, every packet has been handled and every reply has left the
queue, or the loop has ended. -/
theorem catches_up (K : Readiness κ) (host : ByteOrder) (cfg : SubnetConfiguration)
    (serverIp : UInt32) (lastSignal : Option Signal) (leases : LeaseTable) (k : κ)
    (hk : K.Registered k) (es rest : List (Event κ))
    (h : Meets (step K host cfg serverIp) (Ruled K) (init lastSignal leases k) es) :
    let x := run (step K host cfg serverIp) (init lastSignal leases k) es
    K.writable x.kernel = true →
      Meets (step K host cfg serverIp) (fun x e => Ruled K x e ∧ Calm K x e) x rest →
      14 * K.unread x.kernel + x.loop.subject.sendQueue.length + 12 < rest.length →
      ∃ p, p <+: rest ∧ Settled K (run (step K host cfg serverIp) x p) := by
  intro x hw hrest hlen
  have hv : Vigilant K x := vigilant_run host cfg serverIp hk h
  refine exists_prefix_of_variant (I := fun x => Vigilant K x ∧ K.writable x.kernel = true)
    (G := Settled K) (c := fun _ => true) (work K) (fun x e hI he hG => ?_) ⟨hv, hw⟩ hrest ?_
  · rcases work_step host cfg serverIp hI.1 hI.2 hG he.1 he.2 with hs | ⟨hw, hlt⟩
    · exact Or.inl hs
    · exact Or.inr ⟨⟨vigilant_step hI.1 he.1, hw⟩, hlt⟩
  · have hd := distance_le (K.unread x.kernel ≠ 0) x.loop.readyToSend x.loop.pc
    have hcount : rest.countP (fun _ => true) = rest.length :=
      List.countP_eq_length.mpr fun _ _ => rfl
    rw [work, hcount]
    omega

/-- `recvmsg` finds a packet, an INFORM of a known interface. -/
def taking (k : Buffers) : Event Buffers :=
  .proceed ⟨.ready true true, ⟨.blank, Daemon.at100,
    .packet informPacket (.ok (0x7f000a01, "eth0"))⟩, ⟨[], .sent⟩⟩ k

/-- The loop waits, is told of the packet, receives it, and answers it. -/
def answered : List (Event Buffers) :=
  List.replicate 4 (going ⟨1, true, true⟩) ++ [going ⟨1, true, false⟩, taking ⟨0, true, false⟩] ++
    List.replicate 21 (going ⟨0, true, false⟩)

/-- A packet has arrived before the loop is entered. -/
theorem catches_up_inform :
    ∃ p, p <+: answered ∧
      Settled buffers (run (step buffers .little Config.exampleConfig 0)
        (init none .empty ⟨1, true, true⟩) p) := by
  refine catches_up buffers .little Config.exampleConfig 0 none .empty ⟨1, true, true⟩
    ⟨by decide, by decide⟩ [] answered trivial rfl ?_ (by decide)
  decide +kernel

/-! ### A flood -/

/-- `recvmsg` does not come back with `EWOULDBLOCK`: there is a packet, or the call fails in
another way. -/
def Flooded (_ : System κ) : Event κ → Prop
  | .proceed answer _ => idle answer.input = false
  | _ => True

/-- The loop is between two calls of `handle_epollin`, or has been left by an exception. -/
def Receiving (epollout : Bool) (s : State (SocketState LeaseTable)) : Prop :=
  s.pc = .input epollout ∨ ∃ fault, s.pc = .threw fault

lemma Receiving.not_blocked {epollout : Bool} (h : Receiving epollout s) : s.pc ≠ .blocked := by
  rcases h with h | ⟨fault, h⟩ <;> simp [h]

lemma receiving_step (K : Readiness κ) (host : ByteOrder) (cfg : SubnetConfiguration)
    (serverIp : UInt32) {epollout : Bool} {queue : SendQueue} (h : Receiving epollout x.loop)
    (hq : queue <+: x.loop.subject.sendQueue) {e : Event κ} (he : Flooded x e) :
    let x' := step K host cfg serverIp x e
    Receiving epollout x'.loop ∧ queue <+: x'.loop.subject.sendQueue := by
  cases e with
  | outside k => exact ⟨h, hq⟩
  | signal signum =>
    have hpc := sighandler_pc_of_ne h.not_blocked signum
    exact ⟨by simpa only [step, Receiving, hpc] using h, hq⟩
  | proceed answer k =>
    have hp := proceeds (socket host (daemon host cfg serverIp)) x.loop answer
    simp only [step, h.not_blocked, false_and, if_false]
    generalize Epoll.proceed (socket host (daemon host cfg serverIp)) x.loop answer = s' at hp ⊢
    rcases h with hpc | ⟨fault, hpc⟩
    · cases hp with
      | escaped _ _ => exact ⟨Or.inr ⟨_, rfl⟩, hq.trans (List.prefix_append _ _)⟩
      | received _ _ => exact ⟨Or.inl hpc, hq.trans (List.prefix_append _ _)⟩
      | exhausted _ hw => simp [Flooded, idle_of_exhausted hw] at he
      | _ => simp_all
    · cases hp with
      | threw _ => exact ⟨Or.inr ⟨fault, hpc⟩, hq⟩
      | _ => simp_all

/-- **A flood holds the loop**, on any kernel. Once the loop receives, it does nothing else before
`recvmsg` would block: as long as each call finds a packet or fails in another way, however many
calls that are and whatever happens or is signalled meanwhile, no reply leaves the queue, and
`SIGINT` and `SIGTERM` are not acted on. -/
theorem flood_holds_loop (K : Readiness κ) (host : ByteOrder) (cfg : SubnetConfiguration)
    (serverIp : UInt32) (x : System κ) (epollout : Bool) (hpc : x.loop.pc = .input epollout)
    (es : List (Event κ)) (h : Meets (step K host cfg serverIp) Flooded x es) :
    let x' := run (step K host cfg serverIp) x es
    x.loop.subject.sendQueue <+: x'.loop.subject.sendQueue ∧ x'.loop.pc ≠ .returned ∧
      (x'.loop.pc = .input epollout ∨ ∃ fault, x'.loop.pc = .threw fault) := by
  intro x'
  have hI : Receiving epollout x'.loop ∧
      x.loop.subject.sendQueue <+: x'.loop.subject.sendQueue :=
    invariant (I := fun y => Receiving epollout y.loop ∧
        x.loop.subject.sendQueue <+: y.loop.subject.sendQueue)
      (fun _ _ hI he => receiving_step K host cfg serverIp hI.1 hI.2 he)
      ⟨Or.inl hpc, List.prefix_rfl⟩ h
  refine ⟨hI.2, ?_, hI.1⟩
  rcases hI.1 with hr | ⟨fault, hr⟩ <;> simp [hr]

/-- The loop is told to end, and each time a packet has been handled there is another one. -/
def toldInFlood : List (Event Buffers) :=
  [.signal .SIGTERM, .outside ⟨2, true, true⟩, taking ⟨1, true, true⟩,
    .outside ⟨2, true, true⟩, taking ⟨1, true, true⟩]

/-- It has begun to receive. -/
theorem flood_holds_loop_sigterm :
    let x := run (step buffers .little Config.exampleConfig 0) (init none .empty ⟨1, true, true⟩)
      (List.replicate 5 (going ⟨1, true, true⟩))
    x.loop.pc = .input true ∧
      (run (step buffers .little Config.exampleConfig 0) x toldInFlood).loop.pc ≠ .returned := by
  intro x
  have hpc : x.loop.pc = .input true := by decide +kernel
  refine ⟨hpc, (flood_holds_loop buffers .little Config.exampleConfig 0 x true hpc toldInFlood
    ?_).2.1⟩
  exact ⟨trivial, trivial, rfl, trivial, rfl, trivial⟩

end TinyDhcpd.Kernel
