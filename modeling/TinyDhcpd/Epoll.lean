import TinyDhcpd.Bytes
import TinyDhcpd.Run

/-!
`Epoll<T>::poll_loop` as a machine that is interrupted by signals.

The loop is a template over the class of its subject; what it calls of it is `Subject`. A step
of the machine is one test of the loop or one call it makes, and a signal can arrive before
any of them. What the system calls answer comes from outside, with the event that lets the
loop proceed.
-/

namespace TinyDhcpd.Epoll

/-- The signals `sighandler` is installed for. -/
inductive Signal
  | SIGHUP
  | SIGINT
  | SIGTERM
  deriving DecidableEq

/-- What `poll_loop` uses of its subject: the outcome of `handle_epollin` and `handle_epollout`
depends on what the system calls in them answer, `ι` and `ο`. -/
structure Subject (τ ι ο : Type) where
  hasWaitingMessages : τ → Bool
  handleEpollin : τ → ι → τ × Except Fault Bool
  handleEpollout : τ → ο → τ × Bool

/-- What `epoll_wait` returns: `EINTR`, another error, or the flags of `events[0]`. -/
inductive WaitResult
  | interrupted
  | failed
  | ready (epollin epollout : Bool)
  deriving DecidableEq

/-- Where the loop is. The comparisons of `last_signal` read it twice. -/
inductive Pc
  | testInt
  | testTerm
  | testReady
  | drain (wouldBlock : Bool)
  | enterWait
  | blocked
  | input (epollout : Bool)
  | testOut (epollout : Bool)
  | returned
  | threw (fault : Fault)
  deriving DecidableEq

structure State (τ : Type) where
  pc : Pc
  readyToSend : Bool
  lastSignal : Option Signal
  subject : τ

/-- What the system calls answer, whichever of them is next. -/
structure Answer (ι ο : Type) where
  epollWait : WaitResult
  input : ι
  output : ο

inductive Event (ι ο : Type)
  | signal (signum : Signal)
  | proceed (answer : Answer ι ο)

def Event.isProceed {ι ο : Type} : Event ι ο → Bool
  | signal _ => false
  | proceed _ => true

/-- The loop when it is called. The handlers are installed before, so a signal may have
arrived already. -/
def start {τ : Type} (lastSignal : Option Signal) (subject : τ) : State τ :=
  ⟨.testInt, false, lastSignal, subject⟩

variable {τ ι ο : Type} (T : Subject τ ι ο)

/-- The next test or call of the loop. -/
def proceed (s : State τ) (answer : Answer ι ο) : State τ :=
  match s.pc with
  | .testInt => { s with pc := if s.lastSignal = some .SIGINT then .returned else .testTerm }
  | .testTerm => { s with pc := if s.lastSignal = some .SIGTERM then .returned else .testReady }
  | .testReady => { s with pc := if s.readyToSend then .drain false else .enterWait }
  | .drain wouldBlock =>
    if T.hasWaitingMessages s.subject && !wouldBlock then
      let result := T.handleEpollout s.subject answer.output
      { s with pc := .drain result.2, subject := result.1 }
    else { s with pc := .enterWait, readyToSend := if wouldBlock then false else s.readyToSend }
  | .enterWait => { s with pc := .blocked }
  | .blocked =>
    match answer.epollWait with
    | .interrupted => { s with pc := .testInt }
    | .failed => { s with pc := .threw (.runtimeError "epoll_wait failed") }
    | .ready epollin epollout =>
      { s with pc := if epollin then .input epollout else .testOut epollout }
  | .input epollout =>
    let result := T.handleEpollin s.subject answer.input
    match result.2 with
    | .error fault => { s with pc := .threw fault, subject := result.1 }
    | .ok finished =>
      { s with
        pc := if finished then .testOut epollout else .input epollout
        subject := result.1 }
  | .testOut epollout =>
    { s with pc := .testInt, readyToSend := if epollout then true else s.readyToSend }
  | .returned => s
  | .threw _ => s

/-- `sighandler`. A signal ends `epoll_wait` with `EINTR`. -/
def sighandler (s : State τ) (signum : Signal) : State τ :=
  { s with
    pc := if s.pc = .blocked then .testInt else s.pc
    lastSignal := some signum }

def step (s : State τ) : Event ι ο → State τ
  | .signal signum => sighandler s signum
  | .proceed answer => proceed T s answer

/-! ### What a step can do -/

inductive Proceeds (s : State τ) (answer : Answer ι ο) : State τ → Prop
  | caughtInt (hpc : s.pc = .testInt) (h : s.lastSignal = some .SIGINT) :
    Proceeds s answer { s with pc := .returned }
  | passInt (hpc : s.pc = .testInt) (h : s.lastSignal ≠ some .SIGINT) :
    Proceeds s answer { s with pc := .testTerm }
  | caughtTerm (hpc : s.pc = .testTerm) (h : s.lastSignal = some .SIGTERM) :
    Proceeds s answer { s with pc := .returned }
  | passTerm (hpc : s.pc = .testTerm) (h : s.lastSignal ≠ some .SIGTERM) :
    Proceeds s answer { s with pc := .testReady }
  | ready (hpc : s.pc = .testReady) (h : s.readyToSend = true) :
    Proceeds s answer { s with pc := .drain false }
  | unready (hpc : s.pc = .testReady) (h : s.readyToSend = false) :
    Proceeds s answer { s with pc := .enterWait }
  | send (hpc : s.pc = .drain false) (h : T.hasWaitingMessages s.subject = true) :
    Proceeds s answer
      { s with
        pc := .drain (T.handleEpollout s.subject answer.output).2
        subject := (T.handleEpollout s.subject answer.output).1 }
  | drained (hpc : s.pc = .drain false) (h : T.hasWaitingMessages s.subject = false) :
    Proceeds s answer { s with pc := .enterWait }
  | suspended (hpc : s.pc = .drain true) :
    Proceeds s answer { s with pc := .enterWait, readyToSend := false }
  | enter (hpc : s.pc = .enterWait) : Proceeds s answer { s with pc := .blocked }
  | interrupted (hpc : s.pc = .blocked) (h : answer.epollWait = .interrupted) :
    Proceeds s answer { s with pc := .testInt }
  | failed (hpc : s.pc = .blocked) (h : answer.epollWait = .failed) :
    Proceeds s answer { s with pc := .threw (.runtimeError "epoll_wait failed") }
  | readable (hpc : s.pc = .blocked) {epollout : Bool}
    (h : answer.epollWait = .ready true epollout) :
    Proceeds s answer { s with pc := .input epollout }
  | unreadable (hpc : s.pc = .blocked) {epollout : Bool}
    (h : answer.epollWait = .ready false epollout) :
    Proceeds s answer { s with pc := .testOut epollout }
  | escaped {epollout : Bool} (hpc : s.pc = .input epollout) {fault : Fault}
    (h : (T.handleEpollin s.subject answer.input).2 = .error fault) :
    Proceeds s answer
      { s with pc := .threw fault, subject := (T.handleEpollin s.subject answer.input).1 }
  | received {epollout : Bool} (hpc : s.pc = .input epollout)
    (h : (T.handleEpollin s.subject answer.input).2 = .ok false) :
    Proceeds s answer { s with subject := (T.handleEpollin s.subject answer.input).1 }
  | exhausted {epollout : Bool} (hpc : s.pc = .input epollout)
    (h : (T.handleEpollin s.subject answer.input).2 = .ok true) :
    Proceeds s answer
      { s with pc := .testOut epollout, subject := (T.handleEpollin s.subject answer.input).1 }
  | writable (hpc : s.pc = .testOut true) :
    Proceeds s answer { s with pc := .testInt, readyToSend := true }
  | unwritable (hpc : s.pc = .testOut false) : Proceeds s answer { s with pc := .testInt }
  | returned (hpc : s.pc = .returned) : Proceeds s answer s
  | threw {fault : Fault} (hpc : s.pc = .threw fault) : Proceeds s answer s

theorem proceeds (s : State τ) (answer : Answer ι ο) :
    Proceeds T s answer (proceed T s answer) := by
  unfold proceed
  split <;> rename_i hpc
  · split_ifs with h
    · exact .caughtInt hpc h
    · exact .passInt hpc h
  · split_ifs with h
    · exact .caughtTerm hpc h
    · exact .passTerm hpc h
  · split_ifs with h
    · exact .ready hpc h
    · exact .unready hpc (by simpa using h)
  · rename_i wouldBlock
    cases wouldBlock with
    | true => simpa using .suspended hpc
    | false =>
      cases h : T.hasWaitingMessages s.subject with
      | true => exact .send hpc h
      | false => exact .drained hpc h
  · exact .enter hpc
  · split <;> rename_i h
    · exact .interrupted hpc h
    · exact .failed hpc h
    · rename_i epollin epollout
      cases epollin with
      | true => exact .readable hpc h
      | false => exact .unreadable hpc h
  · dsimp only
    split <;> rename_i h
    · exact .escaped hpc h
    · rename_i finished
      cases finished with
      | true => exact .exhausted hpc h
      | false =>
        have hr : Proceeds T s answer
            { s with subject := (T.handleEpollin s.subject answer.input).1 } := .received hpc h
        simpa [← hpc] using hr
  · rename_i epollout
    cases epollout with
    | true => exact .writable hpc
    | false => exact .unwritable hpc
  · exact .returned hpc
  · exact .threw hpc

lemma sighandler_pc_of_blocked {s : State τ} (h : s.pc = .blocked) (signum : Signal) :
    (sighandler s signum).pc = .testInt := if_pos h

lemma sighandler_pc_of_ne {s : State τ} (h : s.pc ≠ .blocked) (signum : Signal) :
    (sighandler s signum).pc = s.pc := if_neg h

lemma pc_of_returned {s : State τ} (hpc : s.pc = .returned) (es : List (Event ι ο)) :
    (Run.run (step T) s es).pc = .returned := by
  induction es generalizing s with
  | nil => exact hpc
  | cons e es ih =>
    refine ih ?_
    cases e with
    | signal signum => exact (sighandler_pc_of_ne (by simp [hpc]) signum).trans hpc
    | proceed answer => simp [step, proceed, hpc]

end TinyDhcpd.Epoll
