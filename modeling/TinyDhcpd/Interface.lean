import TinyDhcpd.Refinement

/-!
The interface a packet came in on, and what the client is told about it.

The socket listens on all interfaces. The kernel says in a control message of type `IP_PKTINFO`
where a packet came in; `extract_interface_info` asks for the name and the address of that
interface, and the handlers put the address into their replies as the identifier of the server.
Whether the interface has an address is not tested.
-/

namespace TinyDhcpd.Interface

open Bytes OptionTag DhcpDatagram Daemon Receive Transmit Epoll Socket Effect Echo Answer Run

def IPPROTO_IP : ℤ := 0
def IP_PKTINFO : ℤ := 8

/-- A control message. What follows its header is read as an `in_pktinfo`, of which the index of
the interface is used. -/
structure ControlMessage where
  cmsgLevel : ℤ
  cmsgType : ℤ
  ipiIfindex : ℤ

/-- The interfaces of the system: the names `SIOCGIFNAME` gives, and the addresses `SIOCGIFADDR`
gives, in network order. -/
structure Interfaces where
  name : ℤ → Option String
  address : String → Option UInt32

/-- `extract_interface_info`. The result of `SIOCGIFADDR` is not tested: where it fails, the
address is that of the `ifreq` before, zero. -/
def extractInterfaceInfo (host : ByteOrder) (sys : Interfaces) :
    List ControlMessage → Except Fault (UInt32 × String)
  | [] => .error (.runtimeError "")
  | message :: rest =>
    if message.cmsgLevel ≠ IPPROTO_IP ∨ message.cmsgType ≠ IP_PKTINFO then
      extractInterfaceInfo host sys rest
    else
      match sys.name message.ipiIfindex with
      | none => .error (.runtimeError "")
      | some ifaceName => .ok (ntohl host ((sys.address ifaceName).getD 0), ifaceName)

/-- What `recvmsg` gives, with the interfaces at that time. -/
inductive Reception
  | wouldBlock
  | failed
  | message (data : RawData) (control : List ControlMessage) (sys : Interfaces)

/-- What `handle_epollin` makes of it. -/
def Reception.received (host : ByteOrder) : Reception → Received
  | wouldBlock => .wouldBlock
  | failed => .failed
  | message data control sys => .packet data (extractInterfaceInfo host sys control)

structure Input where
  uninit : DhcpDatagram
  env : Env
  reception : Reception

/-- The daemon behind a socket that finds out the interface itself. -/
def gateway (host : ByteOrder) (cfg : SubnetConfiguration) (serverIp : UInt32) :
    Observer LeaseTable Input where
  handleEpollin leases input :=
    (daemon host cfg serverIp).handleEpollin leases
      ⟨input.uninit, input.env, input.reception.received host⟩

/-! ### The control messages -/

/-- The packet came in on this interface: the first `IP_PKTINFO` says so. -/
def CameIn (sys : Interfaces) (control : List ControlMessage) (ifaceName : String) : Prop :=
  ∃ before message after, control = before ++ message :: after ∧
    (∀ m ∈ before, m.cmsgLevel ≠ IPPROTO_IP ∨ m.cmsgType ≠ IP_PKTINFO) ∧
    (message.cmsgLevel = IPPROTO_IP ∧ message.cmsgType = IP_PKTINFO) ∧
    sys.name message.ipiIfindex = some ifaceName

/-- The address of an interface as it stands in a packet, or four zeros. -/
def identifier (host : ByteOrder) (sys : Interfaces) (ifaceName : String) : List UInt8 :=
  toByteArray (ntohl host ((sys.address ifaceName).getD 0)).toBitVec

lemma extractInterfaceInfo_eq_ok {host : ByteOrder} {sys : Interfaces}
    {control : List ControlMessage} {info : UInt32 × String}
    (h : extractInterfaceInfo host sys control = .ok info) :
    CameIn sys control info.2 ∧ toByteArray info.1.toBitVec = identifier host sys info.2 := by
  induction control with
  | nil => cases h
  | cons message rest ih =>
    rw [extractInterfaceInfo] at h
    split_ifs at h with hskip
    · obtain ⟨⟨before, m, after, rfl, hbefore, hm, hn⟩, hid⟩ := ih h
      refine ⟨⟨message :: before, m, after, rfl, fun x hx => ?_, hm, hn⟩, hid⟩
      rcases List.mem_cons.mp hx with rfl | hx
      · exact hskip
      · exact hbefore x hx
    · simp only [not_or, not_not] at hskip
      split at h
      · cases h
      · rename_i ifaceName hn
        obtain rfl := Except.ok.inj h
        exact ⟨⟨[], message, rest, rfl, by simp, hskip, hn⟩, rfl⟩

/-! ### The replies -/

variable {host : ByteOrder} {cfg : SubnetConfiguration} {env : Env} {d : DhcpDatagram}
  {leases : LeaseTable}

/-- A reply that assigns an address. -/
def Assigning (reply : DhcpDatagram) : Prop :=
  HasType reply DHCP_TYPE_OFFER ∨ HasType reply DHCP_TYPE_ACK

instance (reply : DhcpDatagram) : Decidable (Assigning reply) :=
  inferInstanceAs (Decidable (_ ∨ _))

lemma serverIdentifier_of_replied (hcfg : Config.Served host cfg) {dest : SockaddrIn}
    {reply : DhcpDatagram} {left : LeaseTable} (h : Replied host cfg env d leases dest reply left)
    (hty : Assigning reply) :
    reply.options.lookup SERVER_IDENTIFIER = some (toByteArray d.recvAddr.toBitVec) := by
  cases h with
  | offer hm hlen hw ho hd =>
    simp only [offerReply, offerOptions]
    rw [lookup_setLeaseTime (by decide), lookup_setRequestedOptions_of_mem (by simp),
      Finmap.lookup_insert]
  | nak hm hd =>
    rcases hty with hty | hty
    · exact absurd hty (hasType_nak.not_of_ne (by decide))
    · exact absurd hty (hasType_nak.not_of_ne (by decide))
  | ack hm hl hr hs hd =>
    simp only [Daemon.ack, ackOptions]
    rw [lookup_setLeaseTime (by decide), Finmap.lookup_insert]
  | inform hm hd =>
    have hopt := hcfg.messageType_notMem
    rcases hty with hty | hty
    · exact absurd hty (not_hasType_informReply hopt _)
    · exact absurd hty (not_hasType_informReply hopt _)

/-- The request a reply answers, and the interface that it came in on. -/
structure Answers (host : ByteOrder) (reply : DhcpDatagram) (data : RawData) (sys : Interfaces)
    (control : List ControlMessage) (ifaceName : String) : Prop where
  echoes : Skeleton host data.bytes reply
  cameIn : CameIn sys control ifaceName
  serverIdentifier : reply.options.lookup SERVER_IDENTIFIER = some (identifier host sys ifaceName)

lemma answers_of_mem (hcfg : Config.Served host cfg) {serverIp : UInt32} {input : Input}
    {e : SockaddrIn × DhcpDatagram}
    (he : e ∈ ((gateway host cfg serverIp).handleEpollin leases input).2.2)
    (hty : Assigning e.2) :
    ∃ data control sys ifaceName, input.reception = .message data control sys ∧
      Answers host e.2 data sys control ifaceName := by
  obtain ⟨uninit, env, reception⟩ := input
  cases reception with
  | wouldBlock => cases he
  | failed => cases he
  | message data control sys =>
    simp only [gateway, daemon, Reception.received, handleEpollin, caught_enqueued] at he
    cases hi : extractInterfaceInfo host sys control with
    | error fault =>
      rw [hi, receive] at he
      cases hd : fromBuffer host uninit data.bytes <;> rw [hd] at he <;> cases he
    | ok info =>
      obtain ⟨hcame, hid⟩ := extractInterfaceInfo_eq_ok hi
      rw [hi, receive] at he
      cases hd : fromBuffer host uninit data.bytes with
      | error fault =>
        rw [hd] at he
        cases he
      | ok d =>
        rw [hd] at he
        -- only a packet that was decoded, on a known interface, is answered
        have hr := replied he
        have hident := serverIdentifier_of_replied hcfg hr hty
        obtain ⟨⟨options, hreply⟩, -⟩ := skeleton_of_replied hr
        have hs := skeleton_of_fromBuffer hd
        refine ⟨data, control, sys, info.2, rfl, ?_, hcame, hident.trans (congrArg some hid)⟩
        rw [hreply]
        exact ⟨hs.hwaddrType, hs.hwaddrLen, hs.transactionId, hs.flags, hs.hwAddr⟩

lemma handleEpollin_of_mem_replies {σ ι : Type} {O : Observer σ ι} {s : State (SocketState σ)}
    {answer : Answer ι Output} {reply : SockaddrIn × DhcpDatagram}
    (h : reply ∈ (action O s (.proceed answer)).replies) :
    reply ∈ (O.handleEpollin s.subject.observer answer.input).2.2 := by
  unfold action at h
  cases hpc : s.pc with
  | input epollout => simpa [hpc] using h
  | drain wouldBlock =>
    cases wouldBlock with
    | true => simp [hpc] at h
    | false =>
      cases hq : s.subject.sendQueue with
      | nil => simp [hpc, hq] at h
      | cons front rest => cases hr : answer.output.result <;> simp [hpc, hq, hr, transmission] at h
  | blocked =>
    cases hw : answer.epollWait with
    | ready epollin epollout => cases epollout <;> simp [hpc, hw] at h
    | _ => simp [hpc, hw] at h
  | _ => simp [hpc] at h

/-- **Replies name the interface.** In every run of `poll_loop`, with requests on any interfaces
and whatever becomes of their names and addresses in between: each OFFER and ACK that has left the
queue or is still in it answers a packet that was received, and names the server by the address
that the interface of this packet had then, in network order on every host; by 0.0.0.0 if it
had none. -/
theorem replies_name_interface (host : ByteOrder) (cfg : SubnetConfiguration)
    (hcfg : Config.Served host cfg) (serverIp : UInt32) (lastSignal : Option Signal)
    (leases : LeaseTable) (es : List (Event Input Output)) :
    let O := gateway host cfg serverIp
    let s := run (step (socket host O)) (start lastSignal ⟨[], leases⟩) es
    let history := outs (step (socket host O)) (action O) (start lastSignal ⟨[], leases⟩) es
    ∀ reply ∈ history.flatMap Action.settled ++ s.subject.sendQueue, Assigning reply.2 →
      ∃ answer data control sys ifaceName, .proceed answer ∈ es ∧
        answer.input.reception = .message data control sys ∧
        Answers host reply.2 data sys control ifaceName := by
  intro O s history reply hreply hty
  rw [run_queue host O rfl es] at hreply
  obtain ⟨a, ha, hmem⟩ := List.mem_flatMap.mp hreply
  obtain ⟨p, e, hp, rfl⟩ := exists_of_mem_outs ha
  have he : e ∈ es := hp.subset (by simp)
  cases e with
  | signal signum => cases hmem
  | proceed answer =>
    obtain ⟨data, control, sys, ifaceName, hr, h⟩ :=
      answers_of_mem hcfg (handleEpollin_of_mem_replies hmem) hty
    exact ⟨answer, data, control, sys, ifaceName, he, hr, h⟩

def twoInterfaces : Interfaces where
  name index := if index = 1 then some "eth0" else if index = 2 then some "eth1" else none
  address ifaceName := if ifaceName = "eth0" then some 0x010a007f else none

def discover : RawData :=
  ⟨[1, 1, 6, 0] ++ List.replicate 24 0 ++ [7] ++ List.replicate 211 0 ++
    [DHCP_MESSAGE_TYPE, 1, DHCP_TYPE_DISCOVER, OPTIONS_END] ++ List.replicate 332 0, by
    simp only [List.length_append, List.length_replicate, List.length_cons, List.length_nil]
    rfl⟩

def receiving (index : ℤ) : List (Event Input Output) :=
  let next (epollWait : WaitResult) (reception : Reception) : Event Input Output :=
    .proceed ⟨epollWait, ⟨.blank, at100, reception⟩, ⟨[], .sent⟩⟩
  List.replicate 4 (next .interrupted .wouldBlock) ++ [next (.ready true false) .wouldBlock,
    next .interrupted (.message discover [⟨1, 1, 0⟩, ⟨IPPROTO_IP, IP_PKTINFO, index⟩]
      twoInterfaces)]

/-- On the interface without an address the server calls itself 0.0.0.0. -/
theorem replies_name_interface_unaddressed :
    let O := gateway .little Config.exampleConfig 0
    let s := run (step (socket .little O)) (start none ⟨[], .empty⟩) (receiving 2)
    (∃ reply ∈ s.subject.sendQueue, Assigning reply.2 ∧
      reply.2.options.lookup SERVER_IDENTIFIER = some [0, 0, 0, 0]) ∧
    ∀ reply ∈ s.subject.sendQueue, Assigning reply.2 →
      ∃ answer data control sys ifaceName, .proceed answer ∈ receiving 2 ∧
        answer.input.reception = .message data control sys ∧
        Answers .little reply.2 data sys control ifaceName := by
  dsimp only
  refine ⟨by decide +kernel, fun reply hreply => ?_⟩
  refine replies_name_interface .little Config.exampleConfig
    (Or.inr Config.accepted_exampleConfig) 0 none .empty (receiving 2) reply ?_
  rw [List.mem_append]
  exact Or.inr hreply

end TinyDhcpd.Interface
