import TinyDhcpd.Epoll
import TinyDhcpd.Transmit

/-!
The socket under `poll_loop`: what becomes of the replies in its send queue.

The socket is polled together with an observer that handles its packets and enqueues replies;
here that is the daemon. The readiness of the socket is reported once, when it changes, so
the loop remembers it in `ready_to_send` until a `sendto` would block.
-/

namespace TinyDhcpd.Socket

open Bytes Receive Transmit Epoll Run

/-- The socket with its observer, in a state of type `σ`. -/
structure SocketState (σ : Type) where
  sendQueue : SendQueue
  observer : σ

/-- What a call of `handle_epollin` does through its observer, given what it receives: the next
state, the value returned or the exception, and the replies that are enqueued. -/
structure Observer (σ ι : Type) where
  handleEpollin : σ → ι → σ × Except Fault Bool × SendQueue

/-- What a call of `handle_epollout` depends on: the order in which the options of the reply
are visited, and the result of `sendto`. -/
structure Output where
  entries : List ((_ : OptionTag) × List UInt8)
  result : SendResult

/-- `Epoll<Socket>`. -/
def socket {σ ι : Type} (host : ByteOrder) (O : Observer σ ι) :
    Subject (SocketState σ) ι Output where
  hasWaitingMessages t := 0 < t.sendQueue.length
  handleEpollin t input :=
    let result := O.handleEpollin t.observer input
    (⟨t.sendQueue ++ result.2.2, result.1⟩, result.2.1)
  handleEpollout t output :=
    let result := handleEpollout host output.entries output.result t.sendQueue
    (⟨result.queue, t.observer⟩, result.wouldBlock)

structure Arrival where
  uninit : DhcpDatagram
  env : Env
  received : Received

/-- The daemon behind the socket. -/
def daemon (host : ByteOrder) (cfg : SubnetConfiguration) (serverIp : UInt32) :
    Observer LeaseTable Arrival where
  handleEpollin leases a :=
    let result := handleEpollin host cfg serverIp a.uninit a.env a.received leases
    (result.1.leases, result.1.result.map fun _ => result.2, result.1.enqueued)

/-! ### The history of a run -/

/-- What can be seen of a step from outside. -/
inductive Action
  | internal
  | epollout
  | enqueued (replies : SendQueue)
  | sent (reply : SockaddrIn × DhcpDatagram)
  | dropped (reply : SockaddrIn × DhcpDatagram)
  | wouldBlock

/-- What `sendto` does with the reply at the front of the queue. -/
def transmission (reply : SockaddrIn × DhcpDatagram) : SendResult → Action
  | .sent => .sent reply
  | .wouldBlock => .wouldBlock
  | .failed => .dropped reply

variable {σ ι : Type} (host : ByteOrder) (O : Observer σ ι)

def action (s : State (SocketState σ)) : Event ι Output → Action
  | .signal _ => .internal
  | .proceed answer =>
    match s.pc with
    | .drain false =>
      match s.subject.sendQueue with
      | [] => .internal
      | reply :: _ => transmission reply answer.output.result
    | .blocked =>
      match answer.epollWait with
      | .ready _ true => .epollout
      | _ => .internal
    | .input _ => .enqueued (O.handleEpollin s.subject.observer answer.input).2.2
    | _ => .internal

namespace Action

@[simp] def replies : Action → SendQueue
  | enqueued rs => rs
  | _ => []

@[simp] def settled : Action → SendQueue
  | sent r => [r]
  | dropped r => [r]
  | _ => []

def delivered : Action → SendQueue
  | sent r => [r]
  | _ => []

lemma delivered_sublist (a : Action) : a.delivered.Sublist a.settled := by
  cases a with
  | sent r => exact List.Sublist.refl _
  | _ => exact List.nil_sublist _

end Action

variable {host O}

lemma handleEpollout_queue (host : ByteOrder) (output : Output)
    (reply : SockaddrIn × DhcpDatagram) (rest : SendQueue) :
    (transmission reply output.result).settled ++
        (handleEpollout host output.entries output.result (reply :: rest)).queue =
      reply :: rest := by
  unfold handleEpollout
  cases output.result <;> rfl

lemma exists_front {t : SocketState σ} (h : (socket host O).hasWaitingMessages t = true) :
    ∃ reply rest, t.sendQueue = reply :: rest := by
  have hpos : 0 < t.sendQueue.length := by simpa [socket] using h
  exact List.exists_cons_of_length_pos hpos

lemma sendQueue_eq_nil {t : SocketState σ} (h : (socket host O).hasWaitingMessages t = false) :
    t.sendQueue = [] := by
  simpa [socket] using h

lemma action_send {s : State (SocketState σ)} (hpc : s.pc = .drain false)
    {reply : SockaddrIn × DhcpDatagram} {rest : SendQueue}
    (hq : s.subject.sendQueue = reply :: rest) (answer : Answer ι Output) :
    action O s (.proceed answer) = transmission reply answer.output.result := by
  simp only [action, hpc, hq]

/-- **One step of the loop** moves replies from the front of the queue to the history and from
the history to its back. -/
lemma step_queue (s : State (SocketState σ)) (e : Event ι Output) :
    (action O s e).settled ++ (step (socket host O) s e).subject.sendQueue =
      s.subject.sendQueue ++ (action O s e).replies := by
  cases e with
  | signal signum => simp [action, step, sighandler]
  | proceed answer =>
    have h := proceeds (socket host O) s answer
    show (action O s (.proceed answer)).settled ++
      (proceed (socket host O) s answer).subject.sendQueue = _
    generalize proceed (socket host O) s answer = s' at h ⊢
    cases h with
    | send hpc h =>
      obtain ⟨reply, rest, hq⟩ := exists_front h
      rw [action_send hpc hq]
      simp only [hq, socket, handleEpollout_queue]
      cases answer.output.result <;> simp [transmission]
    | readable hpc h | unreadable hpc h =>
      rename_i epollout
      cases epollout <;> simp [action, hpc, h]
    | escaped hpc h | received hpc h | exhausted hpc h =>
      simp [action, hpc, socket]
    | drained hpc h => simp [action, hpc, sendQueue_eq_nil h]
    | interrupted hpc h | failed hpc h =>
      simp [action, hpc, h]
    | caughtInt hpc h | passInt hpc h | caughtTerm hpc h | passTerm hpc h | ready hpc h
    | unready hpc h | suspended hpc | enter hpc | writable hpc | unwritable hpc | returned hpc
    | threw hpc => simp [action, hpc]

lemma run_queue (host : ByteOrder) (O : Observer σ ι) {s : State (SocketState σ)}
    (hs : s.subject.sendQueue = []) (es : List (Event ι Output)) :
    (outs (step (socket host O)) (action O) s es).flatMap Action.settled ++
        (run (step (socket host O)) s es).subject.sendQueue =
      (outs (step (socket host O)) (action O) s es).flatMap Action.replies := by
  refine invariant_outs (action O)
    (I := fun past s => past.flatMap Action.settled ++ s.subject.sendQueue =
      past.flatMap Action.replies) (fun past s e hI _ => ?_) hs (meets_true _ _)
  simp only [List.flatMap_append, List.flatMap_singleton, List.append_assoc]
  rw [step_queue, ← hI, List.append_assoc]

/-! ### The drain loop -/

/-- The rounds the drain loop can still make before its last test. -/
def rounds (s : State (SocketState σ)) : ℕ :=
  if s.pc = .drain true then 0 else s.subject.sendQueue.length

lemma rounds_send {s : State (SocketState σ)} (answer : Answer ι Output)
    (hpc : s.pc = .drain false) (h : (socket host O).hasWaitingMessages s.subject = true) :
    rounds
        { s with
          pc := .drain ((socket host O).handleEpollout s.subject answer.output).2
          subject := ((socket host O).handleEpollout s.subject answer.output).1 } + 1 ≤
      rounds s := by
  obtain ⟨reply, rest, hq⟩ := exists_front h
  simp only [rounds, hpc, hq, socket, handleEpollout]
  cases answer.output.result <;> simp

/-- **The drain loop ends**: it takes at most one step more than there are replies. -/
lemma drain_ends (host : ByteOrder) (O : Observer σ ι) {s : State (SocketState σ)}
    {wouldBlock : Bool} (hpc : s.pc = .drain wouldBlock) {es : List (Event ι Output)}
    (hes : s.subject.sendQueue.length < es.countP Event.isProceed) :
    ∃ p, p <+: es ∧ (run (step (socket host O)) s p).pc = .enterWait := by
  have hle : rounds s ≤ s.subject.sendQueue.length := by
    unfold rounds
    split_ifs <;> omega
  refine exists_prefix_of_variant (I := fun s => ∃ wouldBlock, s.pc = .drain wouldBlock)
    (G := fun s => s.pc = .enterWait) rounds (fun s e hI _ _ => ?_) ⟨wouldBlock, hpc⟩
    (meets_true _ _) (lt_of_le_of_lt hle hes)
  obtain ⟨wouldBlock, hpc⟩ := hI
  cases e with
  | signal signum =>
    have hb : s.pc ≠ .blocked := by simp [hpc]
    have hpc' := sighandler_pc_of_ne hb signum
    refine Or.inr ⟨⟨wouldBlock, hpc'.trans hpc⟩, ?_⟩
    simp only [step, rounds, hpc', Event.isProceed]
    exact Nat.le_refl _
  | proceed answer =>
    have h := proceeds (socket host O) s answer
    show (proceed (socket host O) s answer).pc = .enterWait ∨
      (∃ wouldBlock, (proceed (socket host O) s answer).pc = .drain wouldBlock) ∧
        rounds (proceed (socket host O) s answer) + 1 ≤ rounds s
    generalize proceed (socket host O) s answer = s' at h ⊢
    cases h with
    | send hpc h => exact Or.inr ⟨⟨_, rfl⟩, rounds_send answer hpc h⟩
    | drained hpc h => exact Or.inl rfl
    | suspended hpc => exact Or.inl rfl
    | _ => simp_all

/-- No `EPOLLOUT` has been reported yet, or a `sendto` would have blocked since the last. -/
def EdgeSpent (history : List Action) : Prop :=
  Action.epollout ∉ history ∨
    ∃ before after, history = before ++ Action.wouldBlock :: after ∧ Action.epollout ∉ after

lemma EdgeSpent.append {past : List Action} (h : EdgeSpent past) {a : Action}
    (ha : a ≠ .epollout) : EdgeSpent (past ++ [a]) := by
  rcases h with h | ⟨before, after, rfl, h⟩
  · exact Or.inl (by simp [h, ha.symm])
  · exact Or.inr ⟨before, after ++ [a], by simp, by simp [h, ha.symm]⟩

lemma edgeSpent_wouldBlock (past : List Action) : EdgeSpent (past ++ [.wouldBlock]) :=
  Or.inr ⟨past, [], rfl, by simp⟩

/-- Where a reported edge is still on its way to `ready_to_send`, or no longer matters. -/
def carries : Pc → Bool
  | .input epollout => epollout
  | .testOut epollout => epollout
  | .threw _ => true
  | _ => false

/-- The loop knows of every edge that is not spent, and does not wait on replies when it could
send. -/
structure Watchful (past : List Action) (s : State (SocketState σ)) : Prop where
  edge : EdgeSpent past ∨ s.readyToSend = true ∨ carries s.pc = true
  spent : s.pc = .drain true → EdgeSpent past
  idle : s.pc = .enterWait ∨ s.pc = .blocked →
    s.subject.sendQueue = [] ∨ s.readyToSend = false

lemma Watchful.edge_append {past : List Action} {s s' : State (SocketState σ)}
    (h : Watchful past s) {a : Action} (ha : a ≠ .epollout)
    (hr : s.readyToSend = true → s'.readyToSend = true)
    (hc : carries s.pc = true → s'.readyToSend = true ∨ carries s'.pc = true) :
    EdgeSpent (past ++ [a]) ∨ s'.readyToSend = true ∨ carries s'.pc = true := by
  rcases h.edge with he | he | he
  · exact Or.inl (he.append ha)
  · exact Or.inr (Or.inl (hr he))
  · exact Or.inr (hc he)

lemma Watchful.move {past : List Action} {s : State (SocketState σ)} (h : Watchful past s)
    {a : Action} (ha : a = .internal) {pc : Pc} (hc : carries s.pc = true → carries pc = true)
    (hd : pc ≠ .drain true) (hi : pc = .enterWait ∨ pc = .blocked →
      s.subject.sendQueue = [] ∨ s.readyToSend = false) :
    Watchful (past ++ [a]) { s with pc := pc } where
  edge := h.edge_append (by simp [ha]) id fun hs => Or.inr (hc hs)
  spent hpc := absurd hpc hd
  idle := hi

lemma Watchful.signal {past : List Action} {s : State (SocketState σ)} (hw : Watchful past s)
    (signum : Signal) : Watchful (past ++ [.internal]) (sighandler s signum) := by
  by_cases hb : s.pc = .blocked
  · have hpc := sighandler_pc_of_blocked hb signum
    exact ⟨hw.edge_append (by simp) id (by simp [hb, carries]), fun h => by simp [hpc] at h,
      fun h => by simp [hpc] at h⟩
  · have hpc := sighandler_pc_of_ne hb signum
    exact ⟨hw.edge_append (by simp) id fun hc => Or.inr (hpc ▸ hc),
      fun h => (hw.spent (hpc ▸ h)).append (by simp), fun h => hw.idle (hpc ▸ h)⟩

lemma Watchful.send {past : List Action} {s : State (SocketState σ)} (hw : Watchful past s)
    (hpc : s.pc = .drain false) {reply : SockaddrIn × DhcpDatagram} {rest : SendQueue}
    (hq : s.subject.sendQueue = reply :: rest) (output : Output) :
    Watchful (past ++ [transmission reply output.result])
      { s with
        pc := .drain ((socket host O).handleEpollout s.subject output).2
        subject := ((socket host O).handleEpollout s.subject output).1 } := by
  constructor
  · refine hw.edge_append ?_ id (by simp [hpc, carries])
    cases output.result <;> simp [transmission]
  · intro hd
    cases hr : output.result with
    | wouldBlock => exact edgeSpent_wouldBlock past
    | sent | failed => simp [socket, handleEpollout, hq, hr] at hd
  · simp

lemma Watchful.suspend {past : List Action} {s : State (SocketState σ)} (hw : Watchful past s)
    (hpc : s.pc = .drain true) : Watchful (past ++ [.internal])
      { s with pc := .enterWait, readyToSend := false } := by
  have hspent : EdgeSpent (past ++ [.internal]) := (hw.spent hpc).append (by simp)
  exact ⟨Or.inl hspent, fun _ => hspent, fun _ => Or.inr rfl⟩

lemma Watchful.receive {past : List Action} {s : State (SocketState σ)} (hw : Watchful past s)
    {epollout : Bool} (hpc : s.pc = .input epollout) {a : Action} (ha : a ≠ .epollout) {pc : Pc}
    (hnext : pc = .input epollout ∨ pc = .testOut epollout) (subject : SocketState σ) :
    Watchful (past ++ [a]) { s with pc := pc, subject := subject } := by
  refine ⟨hw.edge_append ha id fun hc => Or.inr ?_, ?_, ?_⟩
  · rw [hpc] at hc
    rcases hnext with rfl | rfl <;> exact hc
  · rcases hnext with rfl | rfl <;> simp
  · rcases hnext with rfl | rfl <;> simp

lemma watchful_step {past : List Action} {s : State (SocketState σ)} (hw : Watchful past s)
    (e : Event ι Output) :
    Watchful (past ++ [action O s e]) (step (socket host O) s e) := by
  cases e with
  | signal signum => exact hw.signal signum
  | proceed answer =>
    have h := proceeds (socket host O) s answer
    show Watchful _ (proceed (socket host O) s answer)
    generalize proceed (socket host O) s answer = s' at h ⊢
    cases h with
    | caughtInt hpc h | passInt hpc h | caughtTerm hpc h | passTerm hpc h | ready hpc h =>
      exact hw.move (by simp [action, hpc]) (by simp [hpc, carries]) (by simp) (by simp)
    | unready hpc h =>
      exact hw.move (by simp [action, hpc]) (by simp [hpc, carries]) (by simp) fun _ => Or.inr h
    | send hpc h =>
      obtain ⟨reply, rest, hq⟩ := exists_front h
      rw [action_send hpc hq]
      exact hw.send hpc hq answer.output
    | drained hpc h =>
      have hq := sendQueue_eq_nil h
      exact hw.move (by simp [action, hpc, hq]) (by simp [hpc, carries]) (by simp)
        fun _ => Or.inl hq
    | suspended hpc =>
      have ha : action O s (.proceed answer) = .internal := by simp [action, hpc]
      rw [ha]
      exact hw.suspend hpc
    | enter hpc =>
      exact hw.move (by simp [action, hpc]) (by simp [hpc, carries]) (by simp)
        fun _ => hw.idle (Or.inl hpc)
    | interrupted hpc h | failed hpc h =>
      exact hw.move (by simp [action, hpc, h]) (by simp [hpc, carries]) (by simp) (by simp)
    | @readable hpc epollout h | @unreadable hpc epollout h =>
      cases epollout with
      | true => exact ⟨Or.inr (Or.inr rfl), by simp, by simp⟩
      | false =>
        exact hw.move (by simp [action, hpc, h]) (by simp [hpc, carries]) (by simp) (by simp)
    | escaped hpc h => exact ⟨Or.inr (Or.inr rfl), by simp, by simp⟩
    | received hpc h =>
      have hr := hw.receive hpc (a := action O s (.proceed answer)) (by simp [action, hpc])
        (Or.inl hpc)
      exact hr _
    | exhausted hpc h => exact hw.receive hpc (by simp [action, hpc]) (Or.inr rfl) _
    | writable hpc => exact ⟨Or.inr (Or.inl rfl), by simp, by simp⟩
    | unwritable hpc =>
      exact hw.move (by simp [action, hpc]) (by simp [hpc, carries]) (by simp) (by simp)
    | returned hpc | threw hpc =>
      exact hw.move (by simp [action, hpc]) id (by simp [hpc]) (by simp [hpc])

/-- **No wake-up is lost.** Whenever the loop waits while replies are queued, it does not think
that it could send, and no edge of readiness is unused. -/
theorem no_lost_wakeup (host : ByteOrder) (O : Observer σ ι) (lastSignal : Option Signal)
    (observer : σ) (es : List (Event ι Output)) :
    let s := run (step (socket host O)) (start lastSignal ⟨[], observer⟩) es
    let history := outs (step (socket host O)) (action O) (start lastSignal ⟨[], observer⟩) es
    s.pc = .enterWait ∨ s.pc = .blocked → s.subject.sendQueue ≠ [] →
      s.readyToSend = false ∧ (Action.epollout ∉ history ∨
        ∃ before after, history = before ++ Action.wouldBlock :: after ∧
          Action.epollout ∉ after) := by
  intro s history hwait hqueue
  have hstart : Watchful [] (start lastSignal (⟨[], observer⟩ : SocketState σ)) :=
    ⟨Or.inl (Or.inl (by simp)), by simp [start], fun _ => Or.inl rfl⟩
  have hw : Watchful history s :=
    invariant_outs (action O) (I := Watchful) (fun past s e hI _ => watchful_step hI e) hstart
      (meets_true _ _)
  have hready : s.readyToSend = false := (hw.idle hwait).resolve_left hqueue
  refine ⟨hready, ?_⟩
  rcases hw.edge with he | he | he
  · exact he
  · rw [hready] at he
    cases he
  · rcases hwait with hpc | hpc
    · simp [hpc, carries] at he
    · simp [hpc, carries] at he

def proceeding (epollWait : WaitResult) (received : Received) : Event Arrival Output :=
  .proceed ⟨epollWait, ⟨.blank, Daemon.at100, received⟩, ⟨[], .sent⟩⟩

def informPacket : RawData :=
  ⟨[1, 1, 6, 0] ++ List.replicate 232 0 ++ toByteArray DhcpDatagram.DHCP_MAGIC_COOKIE.toBitVec ++
    [OptionTag.DHCP_MESSAGE_TYPE, 1, Daemon.DHCP_TYPE_INFORM, OptionTag.OPTIONS_END] ++
    List.replicate 332 0, by decide +kernel⟩

/-- It arrives before the socket has been reported writable, and the loop waits again. -/
def queuedEarly : List (Event Arrival Output) :=
  List.replicate 4 (proceeding .interrupted .wouldBlock) ++
    [proceeding (.ready true false) .wouldBlock,
     proceeding .interrupted (.packet informPacket (.ok (0x7f000a01, "eth0")))] ++
    List.replicate 5 (proceeding .interrupted .wouldBlock)

theorem no_lost_wakeup_queuedEarly :
    let O := daemon .little Config.exampleConfig 0
    let s := run (step (socket .little O)) (start none ⟨[], .empty⟩) queuedEarly
    let history := outs (step (socket .little O)) (action O) (start none ⟨[], .empty⟩) queuedEarly
    (s.pc = .enterWait ∧ s.subject.sendQueue ≠ []) ∧ s.readyToSend = false ∧
      (Action.epollout ∉ history ∨
        ∃ before after, history = before ++ Action.wouldBlock :: after ∧
          Action.epollout ∉ after) := by
  have hpc : (run (step (socket .little (daemon .little Config.exampleConfig 0)))
      (start none ⟨[], .empty⟩) queuedEarly).pc = .enterWait := by decide +kernel
  have hqueue : (run (step (socket .little (daemon .little Config.exampleConfig 0)))
      (start none ⟨[], .empty⟩) queuedEarly).subject.sendQueue ≠ [] := by decide +kernel
  exact ⟨⟨hpc, hqueue⟩, no_lost_wakeup .little (daemon .little Config.exampleConfig 0) none .empty
    queuedEarly (Or.inl hpc) hqueue⟩

end TinyDhcpd.Socket
