import TinyDhcpd.Refinement

/-!
The hardware address a reply goes out to.

A client that has no address yet cannot be asked for its hardware address. When a reply is going
to be sent by unicast, `get_reply_destination` therefore puts the hardware address of the request
into the ARP cache of the system with `SIOCSARP`, for the address and the interface of the reply,
to be found there when the reply is sent. In between the reply waits in the send queue, and the
loop handles other packets. What the system makes of these calls is not part of the model, only
which of them succeed.
-/

namespace TinyDhcpd.Arp

open Bytes OptionTag DhcpDatagram Daemon Receive Transmit Epoll Socket Echo Refinement Run

/-- What `arpreq` says about an address: the family and the 14 bytes of `arp_ha`, and `arp_dev`. -/
structure ArpEntry where
  family : UInt8
  data : List UInt8
  dev : String
  deriving DecidableEq

/-- A call of `SIOCSARP`: the address in network order, and what is put into the cache about it. -/
abbrev Siocsarp := UInt32 × ArpEntry

/-- The `sa_data` of the hardware address: `_hwaddr_len` bytes, filled up with zeros. -/
def saData (d : DhcpDatagram) : List UInt8 :=
  d.hwAddr.bytes.take d.hwaddrLen.toNat ++ List.replicate (14 - d.hwaddrLen.toNat) 0

/-- The call `get_reply_destination` makes, if any. -/
def injection (request : DhcpDatagram) (unicastAddress : UInt32) : Option Siocsarp :=
  if request.flags &&& 0x8000 ≠ 0 ∨ request.hwaddrLen = 0 ∨
      request.hwAddr.bytes.all (· = 0) ∨ unicastAddress = INADDR_ANY then none
  else if 14 < request.hwaddrLen then none
  else some (unicastAddress, ⟨request.hwaddrType, saData request, request.recvIface⟩)

variable (host : ByteOrder) (cfg : SubnetConfiguration)

/-- The calls of `get_reply_destination` in the handlers. -/
def discoveryInjection (env : Env) (datagram : DhcpDatagram) (leases : LeaseTable) :
    Option Siocsarp :=
  match requestHwaddr datagram with
  | .error _ => none
  | .ok hwaddr =>
    let leases := updateLeases env.purge leases
    match wantedAddress host cfg env datagram leases with
    | .error _ => none
    | .ok (wanted, _) =>
      match offerAddress host cfg hwaddr wanted leases with
      | none => none
      | some offer => injection datagram (htonl host offer)

@[inherit_doc discoveryInjection]
def requestInjection (datagram : DhcpDatagram) : Option Siocsarp :=
  match requestedAddress datagram with
  | .error _ => none
  | .ok _ => injection datagram INADDR_ANY

@[inherit_doc discoveryInjection]
def informInjection (datagram : DhcpDatagram) : Option Siocsarp :=
  injection datagram datagram.clientIp

/-- The call made while `handle_recv` handles a packet. -/
def recvInjection (env : Env) (datagram : DhcpDatagram) (leases : LeaseTable) : Option Siocsarp :=
  if 16 < datagram.hwaddrLen then none
  else if datagram.opcode ≠ 1 then none
  else
    match (datagram.options.lookup DHCP_MESSAGE_TYPE).getD [] with
    | [] => none
    | messageType :: _ =>
      if messageType = DHCP_TYPE_DISCOVER then discoveryInjection host cfg env datagram leases
      else if messageType = DHCP_TYPE_REQUEST then requestInjection datagram
      else if messageType = DHCP_TYPE_RELEASE then none
      else if messageType = DHCP_TYPE_INFORM then informInjection datagram
      else none

def epollinInjection (serverIp : UInt32) (a : Arrival) (leases : LeaseTable) : Option Siocsarp :=
  (handed host serverIp a).head?.bind fun ev => recvInjection host cfg ev.env ev.datagram leases

/-- The daemon with the calls of `SIOCSARP` that have succeeded so far. An arrival comes with the
success of its call; where that fails, the error is logged. -/
def station (serverIp : UInt32) : Observer (LeaseTable × List Siocsarp) (Arrival × Bool) where
  handleEpollin t a :=
    let result := (daemon host cfg serverIp).handleEpollin t.1 a.1
    let made := if a.2 then epollinInjection host cfg serverIp a.1 t.1 else none
    ((result.1, t.2 ++ made.toList), result.2)

/-! ### One packet -/

structure ArpEntry.Reaches (entry : ArpEntry) (reply : DhcpDatagram) : Prop where
  family : entry.family = reply.hwaddrType
  data : entry.data = saData reply

variable {host cfg} {env : Env} {d : DhcpDatagram} {leases : LeaseTable} {serverIp : UInt32}

/-- A call is made only for a reply, about its destination and its client. -/
def Explained (enqueued : SendQueue) (i : Option Siocsarp) : Prop :=
  enqueued = [] ∧ i = none ∨ ∃ reply, enqueued = [reply] ∧ ∀ address entry,
    i = some (address, entry) → reply.1.sinAddr = address ∧ entry.Reaches reply.2

lemma explained_nil : Explained [] none := Or.inl ⟨rfl, rfl⟩

lemma explained_enqueue (leases : LeaseTable) {reply : DhcpDatagram} (address : UInt32)
    (ht : reply.hwaddrType = d.hwaddrType) (hs : saData reply = saData d) :
    Explained (Outcome.enqueue leases (getReplyDestination host cfg env d address) reply).enqueued
      (injection d address) := by
  unfold getReplyDestination injection
  split_ifs with hb hlen
  · cases env.brdaddr with
    | none => exact Or.inr ⟨_, rfl, by simp⟩
    | some brdaddr => exact Or.inr ⟨_, rfl, by simp⟩
  · exact explained_nil
  · refine Or.inr ⟨_, rfl, fun a entry h => ?_⟩
    cases h
    exact ⟨rfl, ht.symm, hs.symm⟩

lemma explained_discovery :
    Explained (handleDiscovery host cfg env d leases).enqueued
      (discoveryInjection host cfg env d leases) := by
  unfold handleDiscovery discoveryInjection
  cases requestHwaddr d with
  | error fault => exact explained_nil
  | ok hwaddr =>
    dsimp only
    cases wantedAddress host cfg env d (updateLeases env.purge leases) with
    | error fault => exact explained_nil
    | ok x =>
      dsimp only
      cases offerAddress host cfg hwaddr x.1 (updateLeases env.purge leases) with
      | none => exact explained_nil
      | some offer => exact explained_enqueue _ _ rfl rfl

lemma explained_request :
    Explained (handleRequest host cfg env d leases).enqueued (requestInjection d) := by
  unfold handleRequest requestInjection
  cases requestedAddress d with
  | error fault => exact explained_nil
  | ok requested =>
    dsimp only
    split_ifs
    · cases (updateLeases env.purge leases).find? d.hwAddr with
      | none => exact explained_enqueue _ _ rfl rfl
      | some lease =>
        dsimp only
        split_ifs
        · exact explained_enqueue _ _ rfl rfl
        · exact explained_enqueue _ _ rfl rfl
    · exact explained_enqueue _ _ rfl rfl

lemma explained_handleRecv (host : ByteOrder) (cfg : SubnetConfiguration) (env : Env)
    (d : DhcpDatagram) (leases : LeaseTable) :
    Explained (handleRecv host cfg env d leases).enqueued
      (recvInjection host cfg env d leases) := by
  unfold handleRecv recvInjection
  split_ifs with hlen hop
  · exact explained_nil
  · exact explained_nil
  · cases (d.options.lookup DHCP_MESSAGE_TYPE).getD [] with
    | nil => exact explained_nil
    | cons type rest =>
      dsimp only
      split_ifs
      · exact explained_discovery
      · exact explained_request
      · exact explained_nil
      · exact explained_enqueue _ _ rfl rfl
      · rw [enqueued_decline]
        exact explained_nil
      · exact explained_nil

lemma explained_handleEpollin (host : ByteOrder) (cfg : SubnetConfiguration) (serverIp : UInt32)
    (a : Arrival) (leases : LeaseTable) :
    Explained ((daemon host cfg serverIp).handleEpollin leases a).2.2
      (epollinInjection host cfg serverIp a leases) := by
  unfold epollinInjection
  rcases handleEpollin_handed host cfg serverIp a leases with ⟨ev, hev, ho⟩ | ⟨hnil, -, hq⟩
  · simp only [daemon, hev, ho, caught_enqueued]
    exact explained_handleRecv host cfg ev.env ev.datagram leases
  · simp only [daemon, hnil, hq]
    exact explained_nil

/-! ### The replies and the calls along a run -/

/-- A reply, and the call that has succeeded for it. -/
abbrev Logged := (SockaddrIn × DhcpDatagram) × Option Siocsarp

variable (host cfg serverIp) in
/-- The reply a step of the loop has enqueued. -/
def logged (s : State (SocketState (LeaseTable × List Siocsarp))) :
    Epoll.Event (Arrival × Bool) Output → List Logged
  | .signal _ => []
  | .proceed answer =>
    match s.pc with
    | .input _ =>
      let leases := s.subject.observer.1
      ((daemon host cfg serverIp).handleEpollin leases answer.input.1).2.2.map fun reply =>
        (reply, if answer.input.2 then epollinInjection host cfg serverIp answer.input.1 leases
          else none)
    | _ => []

def about (address : UInt32) (dev : String) (calls : List Siocsarp) : List Siocsarp :=
  calls.filter fun call => call.1 = address ∧ call.2.dev = dev

lemma observer_step {σ ι : Type} (host : ByteOrder) (O : Observer σ ι) (s : State (SocketState σ))
    (e : Epoll.Event ι Output) :
    (∃ answer epollout, e = .proceed answer ∧ s.pc = .input epollout ∧
        (step (socket host O) s e).subject.observer =
          (O.handleEpollin s.subject.observer answer.input).1) ∨
      (∀ answer, e = .proceed answer → ∀ epollout, s.pc ≠ .input epollout) ∧
        (step (socket host O) s e).subject.observer = s.subject.observer := by
  cases e with
  | signal signum => exact Or.inr ⟨by simp, rfl⟩
  | proceed answer =>
    have h := proceeds (socket host O) s answer
    show (∃ a epollout, Event.proceed answer = .proceed a ∧ s.pc = .input epollout ∧
      (proceed (socket host O) s answer).subject.observer = _) ∨
      _ ∧ (proceed (socket host O) s answer).subject.observer = _
    generalize proceed (socket host O) s answer = s' at h ⊢
    cases h with
    | escaped hpc _ | received hpc _ | exhausted hpc _ =>
      exact Or.inl ⟨answer, _, rfl, hpc, rfl⟩
    | _ => exact Or.inr ⟨by simp_all, rfl⟩

/-- What the log says of the state of the loop. `calls` are the calls before. -/
structure Tracks (calls : List Siocsarp) (past : List (List Logged))
    (s : State (SocketState (LeaseTable × List Siocsarp))) : Prop where
  queue : ∃ settled pending, past.flatten = settled ++ pending ∧
    s.subject.sendQueue = pending.map Prod.fst
  calls : s.subject.observer.2 = calls ++ past.flatten.filterMap Prod.snd
  entries : ∀ x ∈ past.flatten, ∀ address entry, x.2 = some (address, entry) →
    x.1.1.sinAddr = address ∧ entry.Reaches x.1.2

lemma map_logged (s : State (SocketState (LeaseTable × List Siocsarp)))
    (e : Epoll.Event (Arrival × Bool) Output) :
    (logged host cfg serverIp s e).map Prod.fst =
      (action (station host cfg serverIp) s e).replies := by
  cases e with
  | signal signum => rfl
  | proceed answer =>
    cases hpc : s.pc with
    | input epollout =>
      simp only [logged, action, hpc, station, Action.replies, List.map_map]
      exact List.map_id _
    | drain wouldBlock =>
      cases wouldBlock with
      | true => simp [logged, action, hpc]
      | false =>
        simp only [logged, action, hpc]
        cases s.subject.sendQueue with
        | nil => rfl
        | cons reply rest => cases answer.output.result <;> rfl
    | blocked =>
      simp only [logged, action, hpc]
      split <;> rfl
    | _ => simp [logged, action, hpc]

lemma map_drop_of_append {α β : Type} {f : α → β} {front rest : List β} {l : List α}
    (h : front ++ rest = l.map f) : rest = (l.drop front.length).map f := by
  rw [List.map_drop, ← h, List.drop_left]

lemma logged_input (host : ByteOrder) (cfg : SubnetConfiguration) (serverIp : UInt32)
    {s : State (SocketState (LeaseTable × List Siocsarp))} {epollout : Bool}
    (hpc : s.pc = .input epollout) (answer : Answer (Arrival × Bool) Output) :
    ((station host cfg serverIp).handleEpollin s.subject.observer answer.input).1.2 =
        s.subject.observer.2 ++
          (logged host cfg serverIp s (.proceed answer)).filterMap Prod.snd ∧
      ∀ x ∈ logged host cfg serverIp s (.proceed answer), ∀ address entry,
        x.2 = some (address, entry) → x.1.1.sinAddr = address ∧ entry.Reaches x.1.2 := by
  have hexp := explained_handleEpollin host cfg serverIp answer.input.1 s.subject.observer.1
  constructor
  · simp only [logged, hpc, station]
    rcases hexp with ⟨hq, hi⟩ | ⟨reply, hq, -⟩
    · simp [hq, hi]
    · rw [hq, List.map_singleton]
      cases (if answer.input.2 then epollinInjection host cfg serverIp answer.input.1
        s.subject.observer.1 else none) with
      | none => rfl
      | some call => rfl
  · intro x hx address entry hentry
    simp only [logged, hpc, List.mem_map] at hx
    obtain ⟨reply, hreply, rfl⟩ := hx
    rcases hexp with ⟨hq, -⟩ | ⟨reply', hq, hreach⟩
    · rw [hq] at hreply
      cases hreply
    · rw [hq, List.mem_singleton] at hreply
      subst hreply
      refine hreach address entry ?_
      dsimp only at hentry
      split_ifs at hentry
      exact hentry

lemma logged_of_not_input {s : State (SocketState (LeaseTable × List Siocsarp))}
    {e : Epoll.Event (Arrival × Bool) Output}
    (h : ∀ answer, e = .proceed answer → ∀ epollout, s.pc ≠ .input epollout) :
    logged host cfg serverIp s e = [] := by
  cases e with
  | signal signum => rfl
  | proceed answer =>
    simp only [logged]
    split
    · rename_i epollout hpc
      exact absurd hpc (h answer rfl epollout)
    · rfl

lemma tracks_step {calls : List Siocsarp} {past : List (List Logged)}
    {s : State (SocketState (LeaseTable × List Siocsarp))} (h : Tracks calls past s)
    (e : Epoll.Event (Arrival × Bool) Output) :
    Tracks calls (past ++ [logged host cfg serverIp s e])
      (step (socket host (station host cfg serverIp)) s e) := by
  have hflat : (past ++ [logged host cfg serverIp s e]).flatten =
      past.flatten ++ logged host cfg serverIp s e := by simp
  -- what leaves the queue is settled, from the front of what was pending
  have hqueue : ∃ settled pending, past.flatten ++ logged host cfg serverIp s e =
      settled ++ pending ∧ (step (socket host (station host cfg serverIp)) s e).subject.sendQueue =
        pending.map Prod.fst := by
    obtain ⟨settled, pending, hpast, hq⟩ := h.queue
    have hstep : (action (station host cfg serverIp) s e).settled ++
        (step (socket host (station host cfg serverIp)) s e).subject.sendQueue =
          (pending ++ logged host cfg serverIp s e).map Prod.fst := by
      rw [step_queue, hq, List.map_append, map_logged]
    refine ⟨settled ++ (pending ++ logged host cfg serverIp s e).take
      (action (station host cfg serverIp) s e).settled.length, _, ?_, map_drop_of_append hstep⟩
    rw [hpast, List.append_assoc, List.append_assoc, List.take_append_drop]
  rcases observer_step host (station host cfg serverIp) s e with
    ⟨answer, epollout, rfl, hpc, hobs⟩ | ⟨hno, hobs⟩
  · obtain ⟨hcalls, hentries⟩ := logged_input host cfg serverIp hpc answer
    refine ⟨hflat ▸ hqueue, ?_, ?_⟩
    · calc (step (socket host (station host cfg serverIp)) s (.proceed answer)).subject.observer.2
          = s.subject.observer.2 ++
              (logged host cfg serverIp s (.proceed answer)).filterMap Prod.snd := by
            rw [hobs, hcalls]
        _ = calls ++ (past.flatten ++ logged host cfg serverIp s (.proceed answer)).filterMap
              Prod.snd := by
            rw [h.calls, List.filterMap_append, List.append_assoc]
        _ = calls ++ (past ++ [logged host cfg serverIp s (.proceed answer)]).flatten.filterMap
              Prod.snd := by rw [hflat]
    · intro x hx
      rw [hflat, List.mem_append] at hx
      exact hx.elim (h.entries x) (hentries x)
  · rw [logged_of_not_input hno] at hflat hqueue ⊢
    rw [List.append_nil] at hflat hqueue
    refine ⟨hflat ▸ hqueue, ?_, ?_⟩
    · rw [hobs, hflat]
      exact h.calls
    · rw [hflat]
      exact h.entries

/-- **The hardware address for a reply.** In every run of the loop, whatever packets are handled
while replies wait in the queue: if a call of `SIOCSARP` has succeeded for the reply that is to be
sent next, it was about the destination and the client of the reply. It is the last one so far
about this address on its interface, unless a reply that waits behind it has made another one;
then the last of these is. -/
theorem frame_of_next_reply (host : ByteOrder) (cfg : SubnetConfiguration) (serverIp : UInt32)
    (lastSignal : Option Signal) (leases : LeaseTable) (calls : List Siocsarp)
    (es : List (Epoll.Event (Arrival × Bool) Output)) :
    let loop := step (socket host (station host cfg serverIp))
    let s := run loop (start lastSignal ⟨[], (leases, calls)⟩) es
    let log := (outs loop (logged host cfg serverIp) (start lastSignal ⟨[], (leases, calls)⟩)
      es).flatten
    ∃ settled pending, log = settled ++ pending ∧ s.subject.sendQueue = pending.map Prod.fst ∧
      ∀ x later, pending = x :: later → ∀ address entry, x.2 = some (address, entry) →
        x.1.1.sinAddr = address ∧ entry.Reaches x.1.2 ∧
          (about address entry.dev s.subject.observer.2).getLast? =
            some ((about address entry.dev (later.filterMap Prod.snd)).getLastD
              (address, entry)) := by
  intro loop s log
  have htracks : Tracks calls (outs loop (logged host cfg serverIp)
      (start lastSignal ⟨[], (leases, calls)⟩) es) s :=
    invariant_outs (logged host cfg serverIp) (I := Tracks calls)
      (fun _ _ e h _ => tracks_step h e) ⟨⟨[], [], rfl, rfl⟩, by simp [start], by simp⟩
      (meets_true _ _)
  obtain ⟨settled, pending, hlog, hqueue⟩ := htracks.queue
  refine ⟨settled, pending, hlog, hqueue, fun x later hpending address entry hx => ?_⟩
  subst hpending
  obtain ⟨haddr, hreach⟩ := htracks.entries x (by simp [hlog]) address entry hx
  refine ⟨haddr, hreach, ?_⟩
  have hcalls : s.subject.observer.2 = calls ++ (settled.filterMap Prod.snd ++
      (address, entry) :: later.filterMap Prod.snd) := by
    rw [htracks.calls, hlog, List.filterMap_append, List.filterMap_cons_some hx]
  have hown : about address entry.dev ((address, entry) :: later.filterMap Prod.snd) =
      (address, entry) :: about address entry.dev (later.filterMap Prod.snd) :=
    List.filter_cons_of_pos (by simp)
  have habout (l l' : List Siocsarp) : about address entry.dev (l ++ l') =
      about address entry.dev l ++ about address entry.dev l' := List.filter_append _ _
  -- what was called before the reply was enqueued plays no part
  have hsplit : about address entry.dev s.subject.observer.2 =
      (about address entry.dev calls ++ about address entry.dev (settled.filterMap Prod.snd)) ++
        (address, entry) :: about address entry.dev (later.filterMap Prod.snd) := by
    rw [hcalls, habout, habout, hown, List.append_assoc]
  rw [hsplit, List.getLast?_append, List.getLast?_cons, List.getLastD_eq_getLast?, Option.some_or]

end TinyDhcpd.Arp
