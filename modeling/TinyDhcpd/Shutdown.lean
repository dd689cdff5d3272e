import TinyDhcpd.LeaseFile
import TinyDhcpd.Socket

/-!
The end of the program: a termination signal, and the leases that are written after it.

`sighandler` only stores the signal. The loop looks at it before it sends and waits, and not
again until `epoll_wait` returns; a signal that arrives in between is found when something
else has ended the wait, and one that another signal has overwritten is not found at all.
-/

namespace TinyDhcpd.Shutdown

open Bytes Receive Epoll Socket Run

/-- The signals that end the program. -/
def terminating : Signal → Bool
  | .SIGHUP => false
  | .SIGINT => true
  | .SIGTERM => true

/-- `last_signal` is a termination signal. -/
def Pending {τ : Type} (s : State τ) : Prop := ∃ signum ∈ s.lastSignal, terminating signum = true

instance {τ : Type} (s : State τ) : Decidable (Pending s) :=
  inferInstanceAs (Decidable (∃ signum ∈ s.lastSignal, terminating signum = true))

/-- The loop is blocked although it has been told to end. -/
def Asleep {τ : Type} (s : State τ) : Prop := s.pc = .blocked ∧ Pending s

instance {τ : Type} (s : State τ) : Decidable (Asleep s) := inferInstanceAs (Decidable (_ ∧ _))

/-- Between the comparison that would have found the signal and the call of `epoll_wait`. -/
def inWindow (signum : Signal) : Pc → Bool
  | .testTerm => signum = .SIGINT
  | .testReady => true
  | .drain _ => true
  | .enterWait => true
  | _ => false

/-- No termination signal arrives in the window. -/
def Noticed {τ ι ο : Type} (s : State τ) : Event ι ο → Prop
  | .signal signum => terminating signum = true → inWindow signum s.pc = false
  | .proceed _ => True

/-- No `SIGHUP` takes the place of a termination signal the loop has not looked at. -/
def Unreplaced {τ ι ο : Type} (s : State τ) : Event ι ο → Prop
  | .signal signum => terminating signum = false → Pending s → s.pc = .returned
  | .proceed _ => True

/-- No exception leaves the loop, by itself or out of `handle_epollin`. -/
def Unharmed {τ ι ο : Type} (T : Subject τ ι ο) (s : State τ) : Event ι ο → Prop
  | .signal _ => True
  | .proceed answer =>
    (s.pc = .blocked → answer.epollWait ≠ .failed) ∧
      (s.pc = .input true ∨ s.pc = .input false →
        (T.handleEpollin s.subject answer.input).2.isOk = true)

/-- The condition on the steps. -/
def Heeded {τ ι ο : Type} (T : Subject τ ι ο) (s : State τ) (e : Event ι ο) : Prop :=
  Noticed s e ∧ Unreplaced s e ∧ Unharmed T s e

instance {τ ι ο : Type} (s : State τ) (e : Event ι ο) : Decidable (Noticed s e) :=
  match e with
  | .signal signum => inferInstanceAs (Decidable (terminating signum = true → _))
  | .proceed _ => .isTrue trivial

instance {τ ι ο : Type} (s : State τ) (e : Event ι ο) : Decidable (Unreplaced s e) :=
  match e with
  | .signal signum => inferInstanceAs (Decidable (terminating signum = false → Pending s → _))
  | .proceed _ => .isTrue trivial

instance {τ ι ο : Type} (T : Subject τ ι ο) (s : State τ) (e : Event ι ο) :
    Decidable (Unharmed T s e) :=
  match e with
  | .signal _ => .isTrue trivial
  | .proceed _ => inferInstanceAs (Decidable (_ ∧ _))

instance {τ ι ο : Type} (T : Subject τ ι ο) (s : State τ) (e : Event ι ο) :
    Decidable (Heeded T s e) := inferInstanceAs (Decidable (_ ∧ _))

/-! ### The loop, whatever its subject -/

variable {τ ι ο : Type} {T : Subject τ ι ο}

/-- A pending signal has not been passed by. -/
def Awake (s : State τ) : Prop :=
  ∀ signum, s.lastSignal = some signum → terminating signum = true →
    inWindow signum s.pc = false ∧ s.pc ≠ .blocked

lemma Awake.not_asleep {s : State τ} (h : Awake s) : ¬ Asleep s := by
  rintro ⟨hpc, signum, hsig, hterm⟩
  exact (h signum hsig hterm).2 hpc

lemma awake_sighandler {s : State τ} {signum : Signal}
    (hn : terminating signum = true → inWindow signum s.pc = false) :
    Awake (sighandler s signum) := by
  intro signum' hsig hterm
  obtain rfl : signum = signum' := Option.some.inj hsig
  unfold sighandler
  split_ifs with hb
  · exact ⟨rfl, by simp⟩
  · exact ⟨hn hterm, hb⟩

lemma awake_proceed {s : State τ} (hs : Awake s) (answer : Answer ι ο) :
    Awake (proceed T s answer) := by
  have h := proceeds T s answer
  generalize proceed T s answer = s' at h ⊢
  cases h with
  | passInt hpc h =>
    intro signum hsig hterm
    have hne : signum ≠ .SIGINT := fun hc => h (hc ▸ hsig)
    exact ⟨by simp [inWindow, hne], by simp⟩
  | passTerm hpc h =>
    intro signum hsig hterm
    have hin := (hs signum hsig hterm).1
    rw [hpc] at hin
    -- the signal is not `SIGTERM`, and `SIGINT` would have been passed by
    cases signum with
    | SIGHUP => cases hterm
    | SIGINT => simp [inWindow] at hin
    | SIGTERM => exact absurd hsig h
  | ready hpc h | unready hpc h | send hpc h | drained hpc h | suspended hpc | enter hpc =>
    exact fun signum hsig hterm => absurd (hs signum hsig hterm).1 (by simp [hpc, inWindow])
  | interrupted hpc h | failed hpc h | readable hpc h | unreadable hpc h =>
    exact fun signum hsig hterm => absurd hpc (hs signum hsig hterm).2
  | received hpc h | returned hpc | threw hpc => exact hs
  | caughtInt hpc h | caughtTerm hpc h | escaped hpc h | exhausted hpc h | writable hpc
  | unwritable hpc => exact fun _ _ _ => ⟨rfl, by simp⟩

/-- The loop is not blocked on a signal, and no exception has left it. -/
structure Going (s : State τ) : Prop where
  awake : Awake s
  running : ∀ fault, s.pc ≠ .threw fault

lemma going_start (lastSignal : Option Signal) (subject : τ) : Going (start lastSignal subject) :=
  ⟨fun _ _ _ => ⟨rfl, by simp [start]⟩, by simp [start]⟩

lemma running_proceed {s : State τ} (hs : ∀ fault, s.pc ≠ .threw fault) {answer : Answer ι ο}
    (he : Unharmed T s (.proceed answer)) (fault : Fault) :
    (proceed T s answer).pc ≠ .threw fault := by
  obtain ⟨hwait, hin⟩ := he
  have h := proceeds T s answer
  generalize proceed T s answer = s' at h ⊢
  cases h with
  | failed hpc h => exact absurd h (hwait hpc)
  | @escaped epollout hpc fault' h =>
    have hok := hin (by cases epollout <;> simp [hpc])
    rw [h] at hok
    cases hok
  | received hpc h | returned hpc => exact hs fault
  | threw hpc => exact absurd hpc (hs _)
  | _ => simp

/-- **The loop keeps going** where the condition is met. -/
lemma Going.step {s : State τ} (hs : Going s) {e : Event ι ο} (he : Heeded T s e) :
    Going (step T s e) := by
  obtain ⟨hnoticed, -, hunharmed⟩ := he
  cases e with
  | signal signum =>
    refine ⟨awake_sighandler hnoticed, fun fault => ?_⟩
    show (sighandler s signum).pc ≠ .threw fault
    unfold sighandler
    split_ifs
    · simp
    · exact hs.running fault
  | proceed answer => exact ⟨awake_proceed hs.awake answer, running_proceed hs.running hunharmed⟩

/-- The tests and calls before the one that returns. -/
def stepsLeft : Pc → ℕ
  | .input _ => 3
  | .testOut _ => 2
  | .testInt => 1
  | _ => 0

/-- The loop takes a step, and would receive nothing. -/
def quiet (idle : ι → Bool) : Event ι ο → Bool
  | .signal _ => false
  | .proceed answer => idle answer.input

/-- The loop has been told to end, and goes on towards it. -/
structure Ending (s : State τ) : Prop extends Going s where
  pending : Pending s

lemma Ending.signal {s : State τ} (hs : Ending s) {signum : Signal}
    (he : Heeded T s (.signal signum)) (hpc : s.pc ≠ .returned) :
    Ending (Epoll.step T s (.signal signum)) ∧
      (Epoll.step T s (.signal signum)).pc = s.pc := by
  obtain ⟨signum', hsig, hterm⟩ := hs.pending
  have hblocked : s.pc ≠ .blocked := (hs.awake signum' hsig hterm).2
  refine ⟨⟨hs.toGoing.step he, signum, rfl, ?_⟩, sighandler_pc_of_ne hblocked signum⟩
  -- a signal that does not end the program would have taken the place of one that does
  by_contra hno
  exact hpc (he.2.1 (by simpa using hno) hs.pending)

lemma Ending.proceed {s : State τ} (hs : Ending s) {idle : ι → Bool}
    (hidle : ∀ t i, idle i = true → (T.handleEpollin t i).2 = .ok true) {answer : Answer ι ο}
    (he : Heeded T s (.proceed answer)) (hpc : s.pc ≠ .returned) :
    (Epoll.proceed T s answer).pc = .returned ∨ Ending (Epoll.proceed T s answer) ∧
      stepsLeft (Epoll.proceed T s answer).pc + (if idle answer.input then 1 else 0) ≤
        stepsLeft s.pc := by
  obtain ⟨signum, hsig, hterm⟩ := hs.pending
  have hawake := hs.awake signum hsig hterm
  have hone : (if idle answer.input then 1 else 0) ≤ 1 := by split <;> omega
  have hgoing : Going (Epoll.proceed T s answer) := hs.toGoing.step he
  have h := proceeds T s answer
  generalize Epoll.proceed T s answer = s' at h hgoing ⊢
  cases h with
  | caughtInt hpc h | caughtTerm hpc h => exact Or.inl rfl
  | passInt hpc h | writable hpc | unwritable hpc | exhausted hpc h =>
    refine Or.inr ⟨⟨hgoing, hs.pending⟩, ?_⟩
    simp only [stepsLeft, hpc]
    omega
  | received hpc h =>
    -- a packet does not bring the end closer
    refine Or.inr ⟨⟨hgoing, hs.pending⟩, ?_⟩
    have hno : idle answer.input = false := by
      by_contra hi
      rw [hidle _ _ (by simpa using hi)] at h
      cases h
    simp [hno]
  | passTerm hpc h => exact absurd (hgoing.awake signum hsig hterm).1 (by simp [inWindow])
  | ready hpc h | unready hpc h | send hpc h | drained hpc h | suspended hpc | enter hpc =>
    exact absurd hawake.1 (by simp [hpc, inWindow])
  | interrupted hpc h | failed hpc h | readable hpc h | unreadable hpc h =>
    exact absurd hpc hawake.2
  | escaped hpc h => exact absurd rfl (hgoing.running _)
  | returned hret => exact absurd hret hpc
  | threw hthrew => exact absurd hthrew (hs.running _)

/-- **A loop that is told to end returns**, within four steps at which nothing is received. -/
theorem Ending.returns {s : State τ} (hs : Ending s) {idle : ι → Bool}
    (hidle : ∀ t i, idle i = true → (T.handleEpollin t i).2 = .ok true) {es : List (Event ι ο)}
    (h : Meets (Epoll.step T) (Heeded T) s es) (hlen : 4 ≤ es.countP (quiet idle)) :
    (run (Epoll.step T) s es).pc = .returned := by
  have hle : stepsLeft s.pc ≤ 3 := by
    unfold stepsLeft
    split <;> omega
  obtain ⟨p, ⟨rest, rfl⟩, hp⟩ : ∃ p, p <+: es ∧ (run (Epoll.step T) s p).pc = .returned := by
    -- signals leave the distance as it is, and steps without a packet shorten it
    refine exists_prefix_of_variant (I := Ending) (G := fun s => s.pc = .returned)
      (c := quiet idle) (fun s => stepsLeft s.pc) (fun s e hI he hpc => ?_) hs h (by omega)
    cases e with
    | signal signum =>
      obtain ⟨hend, hsame⟩ := hI.signal he hpc
      exact Or.inr ⟨hend, by simp [hsame, quiet]⟩
    | proceed answer => exact hI.proceed hidle he hpc
  rw [run_append]
  exact pc_of_returned T hp rest

/-- A termination signal has arrived, before the loop or in it. -/
def Told (lastSignal : Option Signal) (es : List (Event ι ο)) : Prop :=
  (∃ signum ∈ lastSignal, terminating signum = true) ∨
    ∃ signum, Event.signal signum ∈ es ∧ terminating signum = true

lemma ending_run {s : State τ} (hs : Ending s ∨ s.pc = .returned) {es : List (Event ι ο)}
    (h : Meets (step T) (Heeded T) s es) :
    Ending (run (step T) s es) ∨ (run (step T) s es).pc = .returned := by
  refine invariant (I := fun s => Ending s ∨ s.pc = .returned) (fun s e hI he => ?_) hs h
  by_cases hpc : s.pc = .returned
  · exact Or.inr (pc_of_returned T hpc [e])
  have hend := hI.resolve_right hpc
  cases e with
  | signal signum => exact Or.inl (hend.signal he hpc).1
  | proceed answer =>
    let never : ι → Bool := fun _ => false
    have hnever : ∀ t i, never i = true → (T.handleEpollin t i).2 = .ok true :=
      fun _ _ hfalse => absurd hfalse Bool.false_ne_true
    exact (hend.proceed hnever he hpc).symm.imp_left And.left

/-- **A loop that has been told** is going to end, or has ended. -/
lemma ending_of_told {lastSignal : Option Signal} {subject : τ} {es : List (Event ι ο)}
    (h : Meets (step T) (Heeded T) (start lastSignal subject) es) (ht : Told lastSignal es) :
    Ending (run (step T) (start lastSignal subject) es) ∨
      (run (step T) (start lastSignal subject) es).pc = .returned := by
  rcases ht with hbefore | ⟨signum, hmem, hterm⟩
  · exact ending_run (Or.inl ⟨going_start lastSignal subject, hbefore⟩) h
  · obtain ⟨before, after, rfl⟩ := List.append_of_mem hmem
    obtain ⟨hb, he, ha⟩ := meets_append.mp h
    have hgoing : Going (run (step T) (start lastSignal subject) before) :=
      invariant (I := Going) (fun _ _ hI he => hI.step he) (going_start lastSignal subject) hb
    rw [run_append, run_cons]
    exact ending_run (Or.inl ⟨hgoing.step he, signum, rfl, hterm⟩) ha

/-! ### The program -/

variable {host : ByteOrder} {cfg : SubnetConfiguration} {serverIp : UInt32}

/-- The lease file `main` leaves behind: `write_leases` is called once `poll_loop` has
returned. -/
def leaseFile (host : ByteOrder) (time : UInt64) (s : State (SocketState LeaseTable)) :
    Option (List Char) :=
  if s.pc = .returned then some (LeaseFile.writeLeases host time s.subject.observer) else none

def idle (a : Arrival) : Bool :=
  match a.received with
  | .wouldBlock => true
  | _ => false

lemma handleEpollin_idle (host : ByteOrder) (cfg : SubnetConfiguration) (serverIp : UInt32)
    {a : Arrival} (h : a.received = .wouldBlock) (t : SocketState LeaseTable) :
    (socket host (daemon host cfg serverIp)).handleEpollin t a = (t, .ok true) := by
  simp only [socket, daemon, handleEpollin, h, Outcome.ret, List.append_nil]
  rfl

lemma received_of_idle {a : Arrival} (h : idle a = true) : a.received = .wouldBlock := by
  unfold idle at h
  split at h
  · assumption
  · cases h

/-- **A termination signal is not slept through** in a run whose steps meet the condition: none
arrives in the window, no `SIGHUP` takes its place, and no exception leaves the loop. Then the loop
is never blocked while such a signal is pending, and once one has arrived, whatever happens on
this condition, the loop returns after four steps at most that find no packet to receive; the
leases it has then are written. -/
theorem never_slept_through (host : ByteOrder) (cfg : SubnetConfiguration) (serverIp : UInt32)
    (lastSignal : Option Signal) (leases : LeaseTable) (es : List (Event Arrival Output))
    (h : Meets (step (socket host (daemon host cfg serverIp)))
      (Heeded (socket host (daemon host cfg serverIp))) (start lastSignal ⟨[], leases⟩) es) :
    let loop := step (socket host (daemon host cfg serverIp))
    let s := run loop (start lastSignal ⟨[], leases⟩) es
    ¬ Asleep s ∧ (Told lastSignal es → ∀ rest : List (Event Arrival Output),
      Meets loop (Heeded (socket host (daemon host cfg serverIp))) s rest →
        4 ≤ rest.countP (quiet idle) → ∀ time, leaseFile host time (run loop s rest) =
          some (LeaseFile.writeLeases host time (run loop s rest).subject.observer)) := by
  intro loop s
  have hgoing : Going s :=
    invariant (I := Going) (fun _ _ hI he => hI.step he) (going_start lastSignal _) h
  refine ⟨hgoing.awake.not_asleep, fun htold rest hrest hlen time => ?_⟩
  have hidle : ∀ t a, idle a = true →
      ((socket host (daemon host cfg serverIp)).handleEpollin t a).2 = .ok true :=
    fun t a ha => by rw [handleEpollin_idle host cfg serverIp (received_of_idle ha)]
  have hret : (run loop s rest).pc = .returned := by
    rcases ending_of_told h htold with hend | hret
    · exact hend.returns hidle hrest hlen
    · exact pc_of_returned _ hret rest
  rw [leaseFile, if_pos hret]

def interruptedWait : List (Event Arrival Output) :=
  List.replicate 4 (proceeding .interrupted .wouldBlock) ++ [.signal .SIGTERM]

theorem never_slept_through_interruptedWait :
    let loop := step (socket .little (daemon .little Config.exampleConfig 0))
    let s := run loop (start none ⟨[], .empty⟩) interruptedWait
    let s' := run loop s (List.replicate 4 (proceeding .interrupted .wouldBlock))
    ¬ Asleep s ∧ leaseFile .little 100 s' =
      some (LeaseFile.writeLeases .little 100 s'.subject.observer) := by
  intro loop s s'
  have h := never_slept_through .little Config.exampleConfig 0 none .empty interruptedWait
    (by decide +kernel)
  refine ⟨h.1, h.2 (Or.inr ⟨.SIGTERM, by simp [interruptedWait], rfl⟩) _ ?_ ?_ 100⟩
  · decide +kernel
  · decide +kernel

/-- The signal arrives after both comparisons, and the loop goes to sleep. -/
def missedSignal : List (Event Arrival Output) :=
  List.replicate 2 (proceeding .interrupted .wouldBlock) ++ .signal .SIGINT ::
    List.replicate 2 (proceeding .interrupted .wouldBlock)

theorem missed_signal_asleep :
    Asleep (run (step (socket .little (daemon .little Config.exampleConfig 0)))
      (start none ⟨[], .empty⟩) missedSignal) := by
  decide +kernel

/-- A `SIGHUP` follows the `SIGTERM` that has ended the wait: the loop waits again. -/
example :
    (run (step (socket .little (daemon .little Config.exampleConfig 0)))
      (start none ⟨[], .empty⟩) (interruptedWait ++ .signal .SIGHUP ::
        List.replicate 4 (proceeding .interrupted .wouldBlock))).pc = .blocked := by
  decide +kernel

end TinyDhcpd.Shutdown
