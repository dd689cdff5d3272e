import TinyDhcpd.Echo
import TinyDhcpd.Effect
import TinyDhcpd.Shutdown

/-!
The event loop and the daemon of the handlers: two levels of one design.

Above, the daemon is a machine that takes a packet a step. Below, it is the observer of a socket
that is polled in a loop, between signals, system calls that fail and replies that wait to be
sent. The loop refines the machine: the packets it hands to `handle_recv`, in their order, are a
run of the machine with the same leases and the same replies.
-/

namespace TinyDhcpd.Refinement

open Bytes DhcpDatagram Receive Transmit Epoll Socket Echo Effect Shutdown Run

variable {host : ByteOrder} {cfg : SubnetConfiguration} {serverIp : UInt32}

/-- The packet `handle_epollin` hands to `handle_recv`: one that can be decoded, of a known
interface. -/
def handed (host : ByteOrder) (serverIp : UInt32) (a : Arrival) : List Daemon.Event :=
  match a.received with
  | .packet data (.ok iface) =>
    match fromBuffer host a.uninit data.bytes with
    | .ok d => [⟨a.env, delivered serverIp iface d⟩]
    | .error _ => []
  | _ => []

/-- The packets a step of the loop stands for. -/
def packets (host : ByteOrder) (serverIp : UInt32) (s : State (SocketState LeaseTable)) :
    Event Arrival Output → List Daemon.Event
  | .signal _ => []
  | .proceed answer =>
    match s.pc with
    | .input _ => handed host serverIp answer.input
    | _ => []

/-- The replies to a packet. -/
def replies (host : ByteOrder) (cfg : SubnetConfiguration) (s : Daemon.State)
    (ev : Daemon.Event) : SendQueue :=
  (Daemon.handle host cfg s ev).enqueued

/-- No exception gets out of `handle_epollin` at this packet. -/
def Survives (host : ByteOrder) (cfg : SubnetConfiguration) (s : Daemon.State)
    (ev : Daemon.Event) : Prop :=
  Caught (Daemon.handle host cfg s ev).result

/-! ### One call of `handle_epollin` -/

/-- What is handed to `handle_recv` has its outcome, behind the `catch` clause; what is not
leaves the leases as they are and is not answered. -/
lemma handleEpollin_handed (host : ByteOrder) (cfg : SubnetConfiguration) (serverIp : UInt32)
    (a : Arrival) (leases : LeaseTable) :
    (∃ ev, handed host serverIp a = [ev] ∧
      (handleEpollin host cfg serverIp a.uninit a.env a.received leases).1 =
        caught (Daemon.handleRecv host cfg ev.env ev.datagram leases)) ∨
      handed host serverIp a = [] ∧
        (handleEpollin host cfg serverIp a.uninit a.env a.received leases).1.leases = leases ∧
        (handleEpollin host cfg serverIp a.uninit a.env a.received leases).1.enqueued = [] := by
  have hthrow (fault : Fault) : (caught (.throw fault leases)).leases = leases ∧
      (caught (.throw fault leases)).enqueued = [] := by
    cases fault <;> exact ⟨rfl, rfl⟩
  unfold handed handleEpollin
  cases a.received with
  | wouldBlock => exact Or.inr ⟨rfl, rfl, rfl⟩
  | failed => exact Or.inr ⟨rfl, rfl, rfl⟩
  | packet data iface =>
    cases iface with
    | error fault =>
      simp only [receive]
      refine Or.inr ⟨trivial, ?_⟩
      cases fromBuffer host a.uninit data.bytes with
      | error fault => exact hthrow fault
      | ok d => exact hthrow fault
    | ok info =>
      simp only [receive]
      cases fromBuffer host a.uninit data.bytes with
      | error fault => exact Or.inr ⟨rfl, hthrow fault⟩
      | ok d => exact Or.inl ⟨_, rfl, rfl⟩

lemma caught_leases (o : Outcome) : (caught o).leases = o.leases := by
  unfold caught
  split <;> rfl

lemma daemon_handed (host : ByteOrder) (cfg : SubnetConfiguration) (serverIp : UInt32)
    (a : Arrival) (t : Daemon.State) :
    ((daemon host cfg serverIp).handleEpollin t.leases a).1 =
        (run (Daemon.step host cfg) t (handed host serverIp a)).leases ∧
      ((daemon host cfg serverIp).handleEpollin t.leases a).2.2 =
        (outs (Daemon.step host cfg) (replies host cfg) t (handed host serverIp a)).flatten := by
  rcases handleEpollin_handed host cfg serverIp a t.leases with ⟨ev, hev, ho⟩ | ⟨hnil, hl, hq⟩
  · simp only [daemon, hev, ho, caught_leases, caught_enqueued]
    exact ⟨rfl, (List.append_nil _).symm⟩
  · simp only [daemon, hnil, hl, hq]
    exact ⟨rfl, rfl⟩

lemma survives_of_ok {a : Arrival} {t : Daemon.State} {finished : Bool}
    (h : ((daemon host cfg serverIp).handleEpollin t.leases a).2.1 = .ok finished) :
    Meets (Daemon.step host cfg) (Survives host cfg) t (handed host serverIp a) := by
  rcases handleEpollin_handed host cfg serverIp a t.leases with ⟨ev, hev, ho⟩ | ⟨hnil, -⟩
  · rw [hev]
    simp only [daemon, ho] at h
    refine ⟨(caught_result _).mp ?_, trivial⟩
    show (caught (Daemon.handleRecv host cfg ev.env ev.datagram t.leases)).result = .ok ()
    revert h
    cases (caught (Daemon.handleRecv host cfg ev.env ev.datagram t.leases)).result with
    | ok _ => exact fun _ => rfl
    | error fault => simp [Except.map]
  · rw [hnil]
    trivial

/-! ### One step of the loop -/

def Represents (s : State (SocketState LeaseTable)) (t : Daemon.State) : Prop :=
  s.subject.observer = t.leases

/-- **A step of the loop is a run of the machine** on the packet it takes, if it takes one. -/
theorem step_refines (s : State (SocketState LeaseTable)) (t : Daemon.State)
    (e : Event Arrival Output) (h : Represents s t) :
    Represents (step (socket host (daemon host cfg serverIp)) s e)
        (run (Daemon.step host cfg) t (packets host serverIp s e)) ∧
      (action (daemon host cfg serverIp) s e).replies =
        (outs (Daemon.step host cfg) (replies host cfg) t (packets host serverIp s e)).flatten := by
  cases e with
  | signal signum => exact ⟨h, rfl⟩
  | proceed answer =>
    obtain ⟨hl, hq⟩ := daemon_handed host cfg serverIp answer.input t
    rw [← h] at hl hq
    have hp := proceeds (socket host (daemon host cfg serverIp)) s answer
    show Represents (proceed (socket host (daemon host cfg serverIp)) s answer) _ ∧ _
    generalize proceed (socket host (daemon host cfg serverIp)) s answer = s' at hp ⊢
    cases hp with
    | escaped hpc _ | received hpc _ | exhausted hpc _ =>
      -- these are the steps that handle a packet; the others leave the leases alone
      simp only [packets, action, hpc, Action.replies]
      exact ⟨hl, hq⟩
    | send hpc hw =>
      obtain ⟨reply, rest, hqueue⟩ := exists_front hw
      rw [action_send hpc hqueue]
      simp only [packets, hpc]
      refine ⟨h, ?_⟩
      cases answer.output.result <;> rfl
    | readable hpc hw | unreadable hpc hw =>
      rename_i epollout
      simp only [packets, action, hpc, hw]
      refine ⟨h, ?_⟩
      cases epollout <;> rfl
    | drained hpc hw =>
      simp only [packets, action, hpc, sendQueue_eq_nil hw]
      exact ⟨h, rfl⟩
    | interrupted hpc hw | failed hpc hw =>
      simp only [packets, action, hpc, hw]
      exact ⟨h, rfl⟩
    | caughtInt hpc _ | passInt hpc _ | caughtTerm hpc _ | passTerm hpc _ | ready hpc _
    | unready hpc _ | suspended hpc | enter hpc | writable hpc | unwritable hpc | returned hpc
    | threw hpc =>
      simp only [packets, action, hpc]
      exact ⟨h, rfl⟩

lemma pc_of_threw {τ ι ο : Type} (T : Subject τ ι ο) {s : State τ} {fault : Fault}
    (hpc : s.pc = .threw fault) (e : Event ι ο) : (step T s e).pc = .threw fault := by
  cases e with
  | signal signum => exact (sighandler_pc_of_ne (by simp [hpc]) signum).trans hpc
  | proceed answer => simp [step, proceed, hpc]

lemma threw_of_threw {τ ι ο : Type} (T : Subject τ ι ο) {s : State τ} {fault : Fault}
    (hpc : s.pc = .threw fault) (es : List (Event ι ο)) :
    (run (step T) s es).pc = .threw fault := by
  induction es generalizing s with
  | nil => exact hpc
  | cons e es ih => exact ih (pc_of_threw T hpc e)

lemma survives_of_step {s : State (SocketState LeaseTable)} {t : Daemon.State}
    {e : Event Arrival Output} (h : Represents s t)
    (hrun : ∀ fault, (step (socket host (daemon host cfg serverIp)) s e).pc ≠ .threw fault) :
    Meets (Daemon.step host cfg) (Survives host cfg) t (packets host serverIp s e) := by
  cases e with
  | signal signum => trivial
  | proceed answer =>
    have hp := proceeds (socket host (daemon host cfg serverIp)) s answer
    simp only [step] at hrun
    generalize proceed (socket host (daemon host cfg serverIp)) s answer = s' at hp hrun
    cases hp with
    | escaped hpc _ => exact absurd rfl (hrun _)
    | received hpc hw | exhausted hpc hw =>
      rw [Represents] at h
      simp only [socket, h] at hw
      simp only [packets, hpc]
      exact survives_of_ok hw
    | send hpc _ | readable hpc _ | unreadable hpc _ | drained hpc _ | interrupted hpc _
    | failed hpc _ | caughtInt hpc _ | passInt hpc _ | caughtTerm hpc _ | passTerm hpc _
    | ready hpc _ | unready hpc _ | suspended hpc | enter hpc | writable hpc | unwritable hpc
    | returned hpc | threw hpc =>
      simp only [packets, hpc]
      trivial

/-! ### Whole runs -/

/-- The packets a run of the loop hands to `handle_recv`, in their order. -/
def taken (host : ByteOrder) (cfg : SubnetConfiguration) (serverIp : UInt32)
    (s : State (SocketState LeaseTable)) (es : List (Event Arrival Output)) :
    List Daemon.Event :=
  (outs (step (socket host (daemon host cfg serverIp))) (packets host serverIp) s es).flatten

lemma run_refines (host : ByteOrder) (cfg : SubnetConfiguration) (serverIp : UInt32)
    {s : State (SocketState LeaseTable)} {t : Daemon.State} (h : Represents s t)
    (es : List (Event Arrival Output)) :
    Represents (run (step (socket host (daemon host cfg serverIp))) s es)
        (run (Daemon.step host cfg) t (taken host cfg serverIp s es)) ∧
      (outs (step (socket host (daemon host cfg serverIp))) (action (daemon host cfg serverIp)) s
          es).flatMap Action.replies =
        (outs (Daemon.step host cfg) (replies host cfg) t
          (taken host cfg serverIp s es)).flatten := by
  have hall : Meets (step (socket host (daemon host cfg serverIp))) (fun _ _ => True) s es :=
    meets_true s es
  rw [List.flatMap_def, map_outs]
  exact refinement (fun s t e hR _ => step_refines s t e hR) h hall

lemma run_survives {s : State (SocketState LeaseTable)} {t : Daemon.State} (h : Represents s t)
    {es : List (Event Arrival Output)} (hrun : ∀ fault,
      (run (step (socket host (daemon host cfg serverIp))) s es).pc ≠ .threw fault) :
    Meets (Daemon.step host cfg) (Survives host cfg) t (taken host cfg serverIp s es) := by
  induction es generalizing s t with
  | nil => trivial
  | cons e es ih =>
    rw [taken, outs, List.flatten_cons, meets_append]
    refine ⟨survives_of_step h fun fault hpc => hrun fault ?_, ih (step_refines s t e h).1 hrun⟩
    exact threw_of_threw _ hpc es

/-- **The loop refines the daemon.** At every point of a run of `poll_loop`, whatever signals
arrive, whatever the system calls answer and however far the replies have got: the leases are
those of the daemon after the packets that were taken, in their order; the replies that have left
the queue and those still in it are the daemon's replies to these packets; and unless an
exception has ended the loop, the daemon has got over all of them. -/
theorem poll_loop_refines (host : ByteOrder) (cfg : SubnetConfiguration) (serverIp : UInt32)
    (lastSignal : Option Signal) (leases : LeaseTable) (clock : UInt64)
    (es : List (Event Arrival Output)) :
    let loop := step (socket host (daemon host cfg serverIp))
    let s := run loop (start lastSignal ⟨[], leases⟩) es
    let history := outs loop (action (daemon host cfg serverIp)) (start lastSignal ⟨[], leases⟩) es
    let packets := taken host cfg serverIp (start lastSignal ⟨[], leases⟩) es
    s.subject.observer = (run (Daemon.step host cfg) ⟨leases, clock⟩ packets).leases ∧
      history.flatMap Action.settled ++ s.subject.sendQueue =
        (outs (Daemon.step host cfg) (replies host cfg) ⟨leases, clock⟩ packets).flatten ∧
      ((∀ fault, s.pc ≠ .threw fault) →
        Meets (Daemon.step host cfg) (Survives host cfg) ⟨leases, clock⟩ packets) := by
  intro loop s history packets
  have hstart : Represents (start lastSignal ⟨[], leases⟩) ⟨leases, clock⟩ := rfl
  obtain ⟨hleases, hreplies⟩ := run_refines host cfg serverIp hstart es
  refine ⟨hleases, ?_, run_survives hstart⟩
  exact (run_queue host (daemon host cfg serverIp) rfl es).trans hreplies

end TinyDhcpd.Refinement
