import TinyDhcpd.Config
import TinyDhcpd.OrdMap
import TinyDhcpd.Run

/-!
The daemon: its lease table and the handlers of the five kinds of messages.

A handler is a function of the lease table, the packet and what it sees of its surroundings.
Its outcome is how it ended, the table it left and the replies it enqueued; what was done
before an exception stays done. An access outside of an array has no defined outcome in C++
and is a fault of its own kind, `outOfBounds`.
-/

namespace TinyDhcpd

open Bytes OptionTag

/-- The value of a lease table: an address in host order and the time it is held until. -/
structure Lease where
  addr : UInt32
  expiry : UInt64
  deriving DecidableEq

/-- `_active_leases`. -/
abbrev LeaseTable := OrdMap HwAddr Lease

/-- A destination in network order; the family is always `AF_INET`. -/
structure SockaddrIn where
  sinPort : UInt16
  sinAddr : UInt32
  deriving DecidableEq

/-- The surroundings of one call of `handle_recv`: the readings of `get_current_time` in
`update_leases`, for the remaining lease time and for the new expiry, in the order they are
taken, and the broadcast address the interface reports. The clock counts seconds since the
epoch in a signed number of 64 bits, and the system does not set it before the epoch. -/
structure Env where
  purge : UInt64
  now : UInt64
  stamp : UInt64
  brdaddr : Option UInt32
  purge_le_now : purge ≤ now
  now_le_stamp : now ≤ stamp
  stamp_lt : stamp.toNat < 2 ^ 63

lemma Env.purge_le_stamp (env : Env) : env.purge ≤ env.stamp :=
  UInt64.le_trans env.purge_le_now env.now_le_stamp

lemma Env.toNat_stamp_add (env : Env) {n : UInt64} (hn : n.toNat < 2 ^ 32) :
    (env.stamp + n).toNat = env.stamp.toNat + n.toNat := by
  have h := env.stamp_lt
  rw [UInt64.toNat_add]
  omega

/-- What a handler has done when it is left. -/
structure Outcome where
  result : Except Fault Unit
  leases : LeaseTable
  enqueued : List (SockaddrIn × DhcpDatagram)

namespace Outcome

def ret (leases : LeaseTable) : Outcome := ⟨.ok (), leases, []⟩

def throw (fault : Fault) (leases : LeaseTable) : Outcome := ⟨.error fault, leases, []⟩

/-- `enqueue_datagram` at the destination that was determined for it. -/
def enqueue (leases : LeaseTable) (destination : Except Fault SockaddrIn)
    (reply : DhcpDatagram) : Outcome :=
  match destination with
  | .error fault => .throw fault leases
  | .ok address => ⟨.ok (), leases, [(address, reply)]⟩

/-- No access outside of an array. -/
def Defined (o : Outcome) : Prop := ∀ i, o.result ≠ .error (.outOfBounds i)

instance (o : Outcome) : Decidable o.Defined :=
  match h : o.result with
  | .error (.outOfBounds i) => .isFalse fun hd => hd i h
  | .ok _ => .isTrue fun i hi => by rw [h] at hi; cases hi
  | .error (.invalidArgument _) => .isTrue fun i hi => by rw [h] at hi; cases hi
  | .error .outOfRange => .isTrue fun i hi => by rw [h] at hi; cases hi
  | .error (.runtimeError _) => .isTrue fun i hi => by rw [h] at hi; cases hi

end Outcome

namespace Daemon

def DHCP_TYPE_DISCOVER : UInt8 := 1
def DHCP_TYPE_OFFER : UInt8 := 2
def DHCP_TYPE_REQUEST : UInt8 := 3
def DHCP_TYPE_DECLINE : UInt8 := 4
def DHCP_TYPE_ACK : UInt8 := 5
def DHCP_TYPE_NAK : UInt8 := 6
def DHCP_TYPE_RELEASE : UInt8 := 7
def DHCP_TYPE_INFORM : UInt8 := 8

def DHCP_CLIENT_PORT : UInt16 := 68
def INADDR_ANY : UInt32 := 0
def UINT64_MAX : UInt64 := 0xffffffffffffffff

variable (host : ByteOrder) (cfg : SubnetConfiguration)

/-- `update_leases`: the iteration erases what has expired at the time it reads. -/
def updateLeases (time : UInt64) (leases : LeaseTable) : LeaseTable :=
  leases.filter fun e => ¬ e.2.expiry ≤ time

def createSkeletonReplyDatagram (request : DhcpDatagram) : DhcpDatagram where
  opcode := 2
  hwaddrType := request.hwaddrType
  hwaddrLen := request.hwaddrLen
  transactionId := request.transactionId
  secsPassed := 0
  flags := request.flags
  clientIp := INADDR_ANY
  assignedIp := INADDR_ANY
  serverIp := INADDR_ANY
  relayAgentIp := INADDR_ANY
  recvAddr := 0
  recvIface := ""
  hwAddr := request.hwAddr
  options := ∅

/-- One round of `set_requested_options`: a tag without a value, and one the reply has
already, are skipped. -/
def setRequestedOption (options : Options) (tag : OptionTag) : Options :=
  match cfg.definedOptions.lookup tag with
  | none => options
  | some value => if tag ∈ options then options else options.insert tag value

/-- `set_requested_options`, on the options of the reply. -/
def setRequestedOptions (request : DhcpDatagram) (options : Options) : Options :=
  match request.options.lookup PARAMETER_REQUEST_LIST with
  | none => options
  | some tags => tags.foldl (setRequestedOption cfg) options

/-- The lease time of the configuration, unless the reply has one. -/
def setLeaseTime (options : Options) : Options :=
  if LEASE_TIME ∈ options then options
  else options.insert LEASE_TIME (toByteArray cfg.leaseTimeSeconds.toBitVec)

/-- `get_reply_destination`. A reply that can go out as unicast puts the hardware address
into the ARP cache of the system, through a field of 14 bytes. -/
def getReplyDestination (env : Env) (request : DhcpDatagram) (unicastAddress : UInt32) :
    Except Fault SockaddrIn :=
  if request.flags &&& 0x8000 ≠ 0 ∨ request.hwaddrLen = 0 ∨
      request.hwAddr.bytes.all (· = 0) ∨ unicastAddress = INADDR_ANY then
    match env.brdaddr with
    | none => .ok ⟨htons host DHCP_CLIENT_PORT, request.recvAddr ||| ~~~cfg.netmask⟩
    | some address => .ok ⟨htons host DHCP_CLIENT_PORT, address⟩
  else if 14 < request.hwaddrLen then .error (.outOfBounds 14)
  else .ok ⟨htons host DHCP_CLIENT_PORT, unicastAddress⟩

/-! ### DISCOVER -/

/-- The MAC address a DISCOVER is looked up by: `_hwaddr_len` bytes, filled up with zeros. -/
def clientMac (datagram : DhcpDatagram) : EtherAddr :=
  ⟨(datagram.hwAddr.bytes.take datagram.hwaddrLen.toNat ++ List.replicate 6 0).take 6, by simp⟩

/-- The copy of `_hwaddr_len` bytes into the six of a zeroed `ether_addr`. -/
def requestHwaddr (datagram : DhcpDatagram) : Except Fault EtherAddr :=
  if 6 < datagram.hwaddrLen then .error (.outOfBounds 6) else .ok (clientMac datagram)

/-- The address the client is known to want, or its `ciaddr`, and the options this puts into
the reply. -/
def wantedAddress (env : Env) (datagram : DhcpDatagram) (leases : LeaseTable) :
    Except Fault (UInt32 × Options) :=
  match datagram.options.lookup REQUESTED_IP_ADDRESS with
  | some bytes => do
    let requested := UInt32.ofBitVec (← toNumber 32 bytes)
    if ntohl host cfg.rangeStart ≤ requested ∧ requested ≤ ntohl host cfg.rangeEnd ∧
        (leases.find? datagram.hwAddr).map Lease.addr = some requested then
      return (requested, ∅)
    else return (datagram.clientIp, ∅)
  | none =>
    if datagram.clientIp ≠ INADDR_ANY then
      match leases.find? datagram.hwAddr with
      | none => .error .outOfRange
      | some lease =>
        let remaining := (lease.expiry - env.now).toUInt32
        .ok (datagram.clientIp, (∅ : Options).insert LEASE_TIME (toByteArray remaining.toBitVec))
    else .ok (datagram.clientIp, ∅)

/-- The search for a free address. Both ends of its body leave the loop over the leases, so
it looks at the first of them only. -/
def searchRange (offer rangeEnd : UInt32) : List (HwAddr × Lease) → Option UInt32
  | [] => some offer
  | entry :: _ =>
    let offer := if offer = entry.2.addr then offer + 1 else offer
    if rangeEnd ≤ offer then none else some offer

/-- The address that is offered: the one that is wanted, if there is one, else the reserved
one, else one from the range. -/
def offerAddress (hwaddr : EtherAddr) (wanted : UInt32) (leases : LeaseTable) : Option UInt32 :=
  if wanted = INADDR_ANY then
    match cfg.fixedHosts.lookup hwaddr with
    | none => searchRange (ntohl host cfg.rangeStart) (ntohl host cfg.rangeEnd) leases.entries
    | some reserved => some (ntohl host reserved)
  else some wanted

def offerOptions (datagram : DhcpDatagram) (options : Options) : Options :=
  setLeaseTime cfg (setRequestedOptions cfg datagram
    ((options.insert DHCP_MESSAGE_TYPE [DHCP_TYPE_OFFER]).insert SERVER_IDENTIFIER
      (toByteArray datagram.recvAddr.toBitVec)))

def handleDiscovery (env : Env) (datagram : DhcpDatagram) (leases : LeaseTable) : Outcome :=
  match requestHwaddr datagram with
  | .error fault => .throw fault leases
  | .ok hwaddr =>
    let leases := updateLeases env.purge leases
    match wantedAddress host cfg env datagram leases with
    | .error fault => .throw fault leases
    | .ok (wanted, options) =>
      match offerAddress host cfg hwaddr wanted leases with
      | none => .ret leases
      | some offer =>
        .enqueue (leases.insert datagram.hwAddr ⟨offer, env.stamp + 10⟩)
          (getReplyDestination host cfg env datagram (htonl host offer))
          { createSkeletonReplyDatagram datagram with
            assignedIp := offer
            options := offerOptions cfg datagram options }

/-! ### REQUEST -/

/-- The address a REQUEST is about: option 50, or the `ciaddr` without it. -/
def requestedAddress (datagram : DhcpDatagram) : Except Fault UInt32 :=
  match datagram.options.lookup REQUESTED_IP_ADDRESS with
  | some bytes => do return UInt32.ofBitVec (← toNumber 32 bytes)
  | none => .ok datagram.clientIp

/-- The test for an address of the configured subnet. -/
def inSubnet (address : UInt32) : Bool :=
  htonl host address &&& cfg.netmask = cfg.subnetAddress &&& cfg.netmask

def ackOptions (datagram : DhcpDatagram) : Options :=
  setLeaseTime cfg ((setRequestedOptions cfg datagram
    ((∅ : Options).insert DHCP_MESSAGE_TYPE [DHCP_TYPE_ACK])).insert SERVER_IDENTIFIER
      (toByteArray datagram.recvAddr.toBitVec))

def nak (datagram : DhcpDatagram) : DhcpDatagram :=
  { createSkeletonReplyDatagram datagram with
    options := (∅ : Options).insert DHCP_MESSAGE_TYPE [DHCP_TYPE_NAK] }

def ack (datagram : DhcpDatagram) (address : UInt32) : DhcpDatagram :=
  { createSkeletonReplyDatagram datagram with
    assignedIp := address
    options := ackOptions cfg datagram }

def handleRequest (env : Env) (datagram : DhcpDatagram) (leases : LeaseTable) : Outcome :=
  match requestedAddress datagram with
  | .error fault => .throw fault leases
  | .ok requested =>
    let destination := getReplyDestination host cfg env datagram INADDR_ANY
    if ¬ inSubnet host cfg requested then .enqueue leases destination (nak datagram)
    else
      let leases := updateLeases env.purge leases
      match leases.find? datagram.hwAddr with
      | some lease =>
        if lease.addr = requested then
          .enqueue (leases.insert datagram.hwAddr
            ⟨requested, env.stamp + cfg.leaseTimeSeconds.toUInt64⟩) destination
            (ack cfg datagram requested)
        else .enqueue leases destination (nak datagram)
      | none => .enqueue leases destination (nak datagram)

/-! ### RELEASE, INFORM, DECLINE and the dispatch -/

def handleRelease (datagram : DhcpDatagram) (leases : LeaseTable) : Outcome :=
  .ret (leases.erase datagram.hwAddr)

def handleInform (env : Env) (datagram : DhcpDatagram) (leases : LeaseTable) : Outcome :=
  .enqueue leases (getReplyDestination host cfg env datagram datagram.clientIp)
    { createSkeletonReplyDatagram datagram with
      options := (setRequestedOptions cfg datagram ∅).erase LEASE_TIME }

/-- A declined address is kept under the all-zero key, and never expires. -/
def handleDecline (datagram : DhcpDatagram) (leases : LeaseTable) : Outcome :=
  match datagram.options.lookup REQUESTED_IP_ADDRESS with
  | none => .throw .outOfRange leases
  | some bytes =>
    match toNumber 32 bytes with
    | .error fault => .throw fault leases
    | .ok declined => .ret (leases.insert HwAddr.zero ⟨.ofBitVec declined, UINT64_MAX⟩)

/-- `handle_recv`. The first thing it does is to print `_hwaddr_len` bytes of the hardware
address, whatever the packet is. -/
def handleRecv (env : Env) (datagram : DhcpDatagram) (leases : LeaseTable) : Outcome :=
  if 16 < datagram.hwaddrLen then .throw (.outOfBounds 16) leases
  else if datagram.opcode ≠ 1 then .ret leases
  else
    match (datagram.options.lookup DHCP_MESSAGE_TYPE).getD [] with
    | [] => .throw .outOfRange leases
    | messageType :: _ =>
      if messageType = DHCP_TYPE_DISCOVER then handleDiscovery host cfg env datagram leases
      else if messageType = DHCP_TYPE_REQUEST then handleRequest host cfg env datagram leases
      else if messageType = DHCP_TYPE_RELEASE then handleRelease datagram leases
      else if messageType = DHCP_TYPE_INFORM then handleInform host cfg env datagram leases
      else if messageType = DHCP_TYPE_DECLINE then handleDecline datagram leases
      else .ret leases

/-! ### Runs -/

structure Event where
  env : Env
  datagram : DhcpDatagram

/-- The lease table between two packets, and the last reading of the clock. -/
structure State where
  leases : LeaseTable
  clock : UInt64

def init : State := ⟨.empty, 0⟩

def handle (s : State) (ev : Event) : Outcome := handleRecv host cfg ev.env ev.datagram s.leases

/-- One packet. An exception does not end the run: the table it leaves is the next one. -/
def step (s : State) (ev : Event) : State := ⟨(handle host cfg s ev).leases, ev.env.stamp⟩

/-- The clock does not go back. -/
def Timely (s : State) (ev : Event) : Prop := s.clock ≤ ev.env.purge

instance (s : State) (ev : Event) : Decidable (Timely s ev) := inferInstanceAs (Decidable (_ ≤ _))

/-- A step of an execution: the clock does not go back, and the behaviour is defined. -/
def Proper (s : State) (ev : Event) : Prop := Timely s ev ∧ (handle host cfg s ev).Defined

instance (s : State) (ev : Event) : Decidable (Proper host cfg s ev) :=
  inferInstanceAs (Decidable (_ ∧ _))

/-! ### Packets for examples -/

/-- Surroundings in which the clock stands still and the broadcast address is not known. -/
def still (time : UInt64) (h : time.toNat < 2 ^ 63) : Env :=
  ⟨time, time, time, none, UInt64.le_refl time, UInt64.le_refl time, h⟩

def at100 : Env := still 100 (by decide)

/-- The hardware address of a client, told apart by its first byte. -/
def client (n : UInt8) : HwAddr := ⟨n :: List.replicate 15 0, by simp⟩

/-- A request of a type with no option but the type and an address for option 50. -/
def message (type : UInt8) (key : HwAddr) (requested : Option UInt32) : DhcpDatagram :=
  { DhcpDatagram.blank with
    opcode := 1
    hwaddrLen := 6
    hwAddr := key
    options :=
      let typed := (∅ : Options).insert DHCP_MESSAGE_TYPE [type]
      requested.elim typed fun addr =>
        typed.insert REQUESTED_IP_ADDRESS (toByteArray addr.toBitVec) }

end Daemon

end TinyDhcpd
