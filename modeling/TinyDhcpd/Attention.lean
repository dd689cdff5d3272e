import TinyDhcpd.Header
import TinyDhcpd.Refinement

/-!
What of a packet the daemon pays attention to.

Of the header, the handlers read the message itself and who sent it; of the options, the type of
the message, the address that is requested and the parameter request list. The cookie, the seconds,
the addresses of servers and relays and the names go unread, and of the other options only the
lengths are looked at, while the list is parsed. Among these are the identifier of the server a
REQUEST is meant for, the identifier of the client and the lease time it asks for.
-/

namespace TinyDhcpd.Attention

open Bytes OptionTag DhcpDatagram Daemon Receive Transmit Epoll Socket Effect Run

/-- The options of a request that are looked at. -/
def attended : List OptionTag := [REQUESTED_IP_ADDRESS, DHCP_MESSAGE_TYPE, PARAMETER_REQUEST_LIST]

/-! ### Datagrams -/

structure Alike (d d' : DhcpDatagram) : Prop where
  opcode : d.opcode = d'.opcode
  hwaddrType : d.hwaddrType = d'.hwaddrType
  hwaddrLen : d.hwaddrLen = d'.hwaddrLen
  transactionId : d.transactionId = d'.transactionId
  flags : d.flags = d'.flags
  clientIp : d.clientIp = d'.clientIp
  recvAddr : d.recvAddr = d'.recvAddr
  hwAddr : d.hwAddr = d'.hwAddr
  options : ∀ tag ∈ attended, d.options.lookup tag = d'.options.lookup tag

section

variable {host : ByteOrder} {cfg : SubnetConfiguration} {env : Env} {d d' : DhcpDatagram}
  {leases : LeaseTable}

lemma Alike.requested (h : Alike d d') :
    d.options.lookup REQUESTED_IP_ADDRESS = d'.options.lookup REQUESTED_IP_ADDRESS :=
  h.options _ (by simp [attended])

lemma Alike.messageType (h : Alike d d') :
    d.options.lookup DHCP_MESSAGE_TYPE = d'.options.lookup DHCP_MESSAGE_TYPE :=
  h.options _ (by simp [attended])

lemma Alike.skeleton (h : Alike d d') :
    createSkeletonReplyDatagram d = createSkeletonReplyDatagram d' := by
  simp only [createSkeletonReplyDatagram, h.hwaddrType, h.hwaddrLen, h.transactionId, h.flags,
    h.hwAddr]

lemma Alike.setRequestedOptions (h : Alike d d') (options : Options) :
    setRequestedOptions cfg d options = setRequestedOptions cfg d' options := by
  have hlist := h.options PARAMETER_REQUEST_LIST (by simp [attended])
  simp only [Daemon.setRequestedOptions, hlist]

lemma Alike.replyDestination (h : Alike d d') (address : UInt32) :
    getReplyDestination host cfg env d address = getReplyDestination host cfg env d' address := by
  simp only [getReplyDestination, h.flags, h.hwaddrLen, h.hwAddr, h.recvAddr]

lemma Alike.handleDiscovery (h : Alike d d') :
    handleDiscovery host cfg env d leases = handleDiscovery host cfg env d' leases := by
  have hmac : requestHwaddr d = requestHwaddr d' := by
    simp only [requestHwaddr, clientMac, h.hwaddrLen, h.hwAddr]
  have hwanted (leases : LeaseTable) :
      wantedAddress host cfg env d leases = wantedAddress host cfg env d' leases := by
    simp only [wantedAddress, h.requested, h.hwAddr, h.clientIp]
  simp only [Daemon.handleDiscovery, offerOptions, hmac, hwanted, h.hwAddr, h.replyDestination,
    h.skeleton, h.setRequestedOptions, h.recvAddr]

lemma Alike.handleRequest (h : Alike d d') :
    handleRequest host cfg env d leases = handleRequest host cfg env d' leases := by
  have haddr : requestedAddress d = requestedAddress d' := by
    simp only [requestedAddress, h.requested, h.clientIp]
  simp only [Daemon.handleRequest, haddr, h.hwAddr, h.replyDestination, nak, Daemon.ack, ackOptions,
    h.skeleton, h.setRequestedOptions, h.recvAddr]

lemma Alike.handleRecv (h : Alike d d') :
    handleRecv host cfg env d leases = handleRecv host cfg env d' leases := by
  simp only [Daemon.handleRecv, h.hwaddrLen, h.opcode, h.messageType, h.handleDiscovery,
    h.handleRequest, handleRelease, handleInform, handleDecline, h.hwAddr, h.replyDestination,
    h.clientIp, h.skeleton, h.setRequestedOptions, h.requested]

end

/-! ### Packets -/

def readOptions (buffer : List UInt8) : Except Fault (List (Option (List UInt8))) :=
  (parseOptions (buffer.drop 240)).map fun options => attended.map options.lookup

/-- The packets agree in what is read of them. For the options this means that both lists are
parsed, with the same values for the three, or both are rejected with the same exception. -/
structure Agree (B B' : List UInt8) : Prop where
  message : B.take 3 = B'.take 3
  transactionId : (B.drop 4).take 4 = (B'.drop 4).take 4
  flags : (B.drop 10).take 2 = (B'.drop 10).take 2
  clientIp : (B.drop 12).take 4 = (B'.drop 12).take 4
  hwAddr : (B.drop 28).take 15 = (B'.drop 28).take 15
  options : readOptions B = readOptions B'

lemma readNumber_congr {w : ℕ} {bytes bytes' : List UInt8} (hlen : w / 8 ≤ bytes.length)
    (hlen' : w / 8 ≤ bytes'.length) (h : bytes.take (w / 8) = bytes'.take (w / 8)) :
    readNumber w bytes = readNumber w bytes' := by
  rw [← List.take_append_drop (w / 8) bytes, ← List.take_append_drop (w / 8) bytes',
    readNumber_append (by simp [hlen]), readNumber_append (by simp [hlen']), h]

lemma getD_congr {B B' : List UInt8} {n i : ℕ} (hi : i < n) (h : B.take n = B'.take n) :
    B.getD i 0 = B'.getD i 0 := by
  have hget := congrArg (fun l => l[i]?) h
  simp only [List.getElem?_take_of_lt hi] at hget
  rw [List.getD_eq_getElem?_getD, List.getD_eq_getElem?_getD, hget]

/-- What is decoded of one packet, next to what is decoded of the other. -/
inductive Decoded : Except Fault DhcpDatagram → Except Fault DhcpDatagram → Prop
  | rejected (fault : Fault) : Decoded (.error fault) (.error fault)
  | accepted {d d' : DhcpDatagram} (h : ∀ serverIp serverIp' info,
      Alike (delivered serverIp info d) (delivered serverIp' info d')) :
    Decoded (.ok d) (.ok d')

lemma decoded (host : ByteOrder) {data data' : RawData} (h : Agree data.bytes data'.bytes)
    {uninit uninit' : DhcpDatagram}
    (hu : uninit.hwAddr.bytes.drop 15 = uninit'.hwAddr.bytes.drop 15) :
    Decoded (fromBuffer host uninit data.bytes) (fromBuffer host uninit' data'.bytes) := by
  obtain ⟨B, hB⟩ := data
  obtain ⟨B', hB'⟩ := data'
  have hlen : B.length = 576 := hB
  have hlen' : B'.length = 576 := hB'
  have hopt := h.options
  unfold fromBuffer
  rw [if_neg (by simp only; omega), if_neg (by simp only; omega)]
  unfold readOptions at hopt
  cases hp : parseOptions (B.drop 240) with
  | error fault =>
    cases hp' : parseOptions (B'.drop 240) with
    | error fault' =>
      rw [hp, hp'] at hopt
      obtain rfl := Except.error.inj hopt
      exact .rejected fault
    | ok options' =>
      rw [hp, hp'] at hopt
      cases hopt
  | ok options =>
    cases hp' : parseOptions (B'.drop 240) with
    | error fault' =>
      rw [hp, hp'] at hopt
      cases hopt
    | ok options' =>
      rw [hp, hp'] at hopt
      have hlookup := List.map_inj_left.mp (Except.ok.inj hopt)
      refine .accepted fun serverIp serverIp' info => ?_
      constructor
      case opcode => exact getD_congr (by omega) h.message
      case hwaddrType => exact getD_congr (by omega) h.message
      case hwaddrLen => exact getD_congr (by omega) h.message
      case transactionId =>
        have hn := readNumber_congr (w := 32) (by simp; omega) (by simp; omega) h.transactionId
        simp only [delivered, hn]
      case flags =>
        have hn := readNumber_congr (w := 16) (by simp; omega) (by simp; omega) h.flags
        simp only [delivered, hn]
      case clientIp =>
        have hn := readNumber_congr (w := 32) (by simp; omega) (by simp; omega) h.clientIp
        simp only [delivered, hn]
      case recvAddr => rfl
      case hwAddr =>
        have h15 : ((B'.drop 28).take 15).length = 15 :=
          Header.length_take_fifteen (by rw [List.length_drop]; omega)
        have hkey : uninit.hwAddr.overwrite ((B'.drop 28).take 15) =
            uninit'.hwAddr.overwrite ((B'.drop 28).take 15) := by
          rw [Header.overwrite_eq_iff h15, Header.bytes_overwrite _ h15, List.take_left' h15,
            List.drop_left' h15]
          exact ⟨rfl, hu⟩
        simp only [delivered, h.hwAddr, hkey]
      case options => exact hlookup

/-- The arrivals differ in what is not read at most. The last byte of the hardware address is not
copied from the packet, so `uninit` supplies it. -/
inductive SameRead : Arrival → Arrival → Prop
  | rest (uninit uninit' : DhcpDatagram) (env env' : Env) {received : Received}
    (h : ∀ data iface, received ≠ .packet data iface) :
    SameRead ⟨uninit, env, received⟩ ⟨uninit', env', received⟩
  | packet {uninit uninit' : DhcpDatagram} (env : Env) {data data' : RawData}
    (iface : Except Fault (UInt32 × String))
    (hu : uninit.hwAddr.bytes.drop 15 = uninit'.hwAddr.bytes.drop 15)
    (h : Agree data.bytes data'.bytes) :
    SameRead ⟨uninit, env, .packet data iface⟩ ⟨uninit', env, .packet data' iface⟩

lemma handleEpollin_of_sameRead (host : ByteOrder) (cfg : SubnetConfiguration)
    (serverIp serverIp' : UInt32) {a a' : Arrival} (h : SameRead a a') (leases : LeaseTable) :
    (daemon host cfg serverIp).handleEpollin leases a =
      (daemon host cfg serverIp').handleEpollin leases a' := by
  cases h with
  | rest uninit uninit' env env' hno =>
    rename_i received
    cases received with
    | wouldBlock => rfl
    | failed => rfl
    | packet data iface => exact absurd rfl (hno data iface)
  | packet env iface hu hB =>
    rename_i uninit uninit' data data'
    have hd := decoded host hB hu
    have hr : receive host cfg serverIp uninit env data iface leases =
        receive host cfg serverIp' uninit' env data' iface leases := by
      unfold receive
      generalize fromBuffer host uninit data.bytes = o at hd ⊢
      generalize fromBuffer host uninit' data'.bytes = o' at hd ⊢
      cases hd with
      | rejected fault => rfl
      | accepted halike =>
        cases iface with
        | error fault => rfl
        | ok info => exact (halike serverIp serverIp' info).handleRecv
    simp only [daemon, handleEpollin, hr]

/-! ### Runs of the loop -/

inductive SameEvent : Event Arrival Output → Event Arrival Output → Prop
  | signal (signum : Signal) : SameEvent (.signal signum) (.signal signum)
  | proceed (epollWait : WaitResult) {a a' : Arrival} (h : SameRead a a') (output : Output) :
    SameEvent (.proceed ⟨epollWait, a, output⟩) (.proceed ⟨epollWait, a', output⟩)

lemma step_of_sameEvent (host : ByteOrder) (cfg : SubnetConfiguration)
    (serverIp serverIp' : UInt32) (s t : State (SocketState LeaseTable))
    (e e' : Event Arrival Output) (hst : s = t) (h : SameEvent e e') :
    step (socket host (daemon host cfg serverIp)) s e =
        step (socket host (daemon host cfg serverIp')) t e' ∧
      action (daemon host cfg serverIp) s e = action (daemon host cfg serverIp') t e' := by
  subst hst
  cases h with
  | signal signum => exact ⟨rfl, rfl⟩
  | proceed epollWait ha output =>
    have hin := handleEpollin_of_sameRead host cfg serverIp serverIp' ha s.subject.observer
    constructor
    · cases hpc : s.pc with
      | input epollout => simp only [Epoll.step, Epoll.proceed, socket, hpc, hin]
      | drain wouldBlock =>
        simp only [Epoll.step, Epoll.proceed, hpc]
        rfl
      | _ => simp only [Epoll.step, Epoll.proceed, hpc]
    · simp only [action, hin]

/-- **What is not read cannot be seen.** Two runs of `poll_loop`, for sockets of any addresses,
with the same signals, clocks and results of the system calls, on packets that agree in the
message, its sender and what is made of the options: both lists are parsed and have the same values
for the three, or both are rejected alike; and with the same contents of the byte of the hardware
address that is not copied. The rest of the packets may differ. Then the loop goes through the same
states, has the same leases at every time and sends the same replies. In particular a REQUEST that
is meant for another server is answered like one for this server. -/
theorem unread_invisible (host : ByteOrder) (cfg : SubnetConfiguration)
    (serverIp serverIp' : UInt32) (s : State (SocketState LeaseTable))
    {es es' : List (Event Arrival Output)} (h : List.Forall₂ SameEvent es es') :
    run (step (socket host (daemon host cfg serverIp))) s es =
        run (step (socket host (daemon host cfg serverIp'))) s es' ∧
      outs (step (socket host (daemon host cfg serverIp))) (action (daemon host cfg serverIp)) s
          es =
        outs (step (socket host (daemon host cfg serverIp'))) (action (daemon host cfg serverIp'))
          s es' := by
  obtain ⟨hrun, houts⟩ := lockstep (R := Eq) (O := Eq)
    (step_of_sameEvent host cfg serverIp serverIp') (rfl : s = s) h
  exact ⟨hrun, List.forall₂_eq_eq_eq ▸ houts⟩

/-- A REQUEST for an address, and what else it holds: the relay agent, the cookie and the
identifier of the server. -/
def request (relay cookie server : UInt32) : RawData :=
  ⟨[1, 1, 6, 0] ++ List.replicate 20 0 ++ toByteArray relay.toBitVec ++ [7] ++
    List.replicate 207 0 ++ toByteArray cookie.toBitVec ++
    [DHCP_MESSAGE_TYPE, 1, DHCP_TYPE_REQUEST, REQUESTED_IP_ADDRESS, 4] ++
    toByteArray (0x7f000a14 : UInt32).toBitVec ++ [SERVER_IDENTIFIER, 4] ++
    toByteArray server.toBitVec ++ [OPTIONS_END] ++ List.replicate 320 0, by
    simp only [List.length_append, List.length_replicate, length_toByteArray, List.length_cons,
      List.length_nil]
    rfl⟩

/-- It has been received. -/
def taking (data : RawData) : List (Event Arrival Output) :=
  [proceeding .interrupted (.packet data (.ok (0x7f000a01, "eth0")))]

/-- One REQUEST is for this server, the other for one behind a relay, and has no cookie. -/
theorem unread_invisible_elsewhere :
    let O := daemon .little Config.exampleConfig 0
    let s : State (SocketState LeaseTable) :=
      { start none ⟨[], .empty⟩ with pc := .input true }
    run (step (socket .little O)) s (taking (request 0 0x63825363 0x7f000a01)) =
      run (step (socket .little O)) s (taking (request 0x0a000001 0 0x0a000002)) := by
  intro O s
  have hagree : Agree (request 0 0x63825363 0x7f000a01).bytes
      (request 0x0a000001 0 0x0a000002).bytes := by
    constructor <;> decide +kernel
  exact (unread_invisible .little Config.exampleConfig 0 0 s
    (.cons (.proceed _ (.packet _ _ rfl hagree) _) .nil)).1

end TinyDhcpd.Attention
