import Mathlib.Data.Finmap
import Mathlib.Data.List.Lex
import TinyDhcpd.Bytes

/-!
DHCP packets: the decoded datagram, its wire format and the two parsers.

A packet is a fixed header of 240 bytes and an options area. The options area is a sequence
of pad bytes and of items, a tag followed by a length byte and that many bytes of value; it
ends at the first tag `OPTIONS_END`.
-/

namespace TinyDhcpd

open Bytes

/-- `enum struct OptionTag : uint8_t`. The underlying type is fixed and bytes off the wire
are cast to it, so every byte is a tag. -/
abbrev OptionTag := UInt8

namespace OptionTag

def PAD : OptionTag := 0
def SUBNET_MASK : OptionTag := 1
def TIME_OFFSET : OptionTag := 2
def ROUTERS : OptionTag := 3
def DNS_SERVER : OptionTag := 6
def REQUESTED_IP_ADDRESS : OptionTag := 50
def LEASE_TIME : OptionTag := 51
def DHCP_MESSAGE_TYPE : OptionTag := 53
def SERVER_IDENTIFIER : OptionTag := 54
def PARAMETER_REQUEST_LIST : OptionTag := 55
def OPTIONS_END : OptionTag := 255

end OptionTag

/-- The options of a packet, `std::unordered_map<OptionTag, std::vector<uint8_t>>`. -/
abbrev Options := Finmap fun _ : OptionTag => List UInt8

lemma lookup_insert_cases {α β : Type} [DecidableEq α] {m : Finmap fun _ : α => β} {a a' : α}
    {b b' : β} (h : (m.insert a b).lookup a' = some b') :
    a' = a ∧ b' = b ∨ a' ≠ a ∧ m.lookup a' = some b' := by
  by_cases ha : a' = a
  · rw [ha, Finmap.lookup_insert, Option.some.injEq] at h
    exact Or.inl ⟨ha, h.symm⟩
  · rw [Finmap.lookup_insert_of_ne _ ha] at h
    exact Or.inr ⟨ha, h⟩

/-- `std::array<uint8_t, 16>`: the hardware address field of a packet, and a lease key. -/
structure HwAddr where
  bytes : List UInt8
  length_eq : bytes.length = 16
  deriving DecidableEq

/-- `struct ether_addr`: the six octets of a MAC address. -/
structure EtherAddr where
  octets : List UInt8
  length_eq : octets.length = 6
  deriving DecidableEq

namespace HwAddr

lemma toNat_bytes_injective : Function.Injective fun a : HwAddr => a.bytes.map UInt8.toNat := by
  rintro ⟨a, ha⟩ ⟨b, hb⟩ h
  have : a = b := List.map_injective_iff.mpr (fun x y => UInt8.toNat_inj.mp) h
  subst this; rfl

/-- `operator<` of `std::array`: lexicographic, byte by byte. -/
instance : LinearOrder HwAddr := LinearOrder.lift' _ toNat_bytes_injective

def zero : HwAddr := ⟨List.replicate 16 0, by simp⟩

lemma not_lt_replicate_zero (l : List ℕ) : ¬ l < List.replicate l.length 0 := by
  induction l with
  | nil => simp
  | cons a l ih =>
    rw [List.length_cons, List.replicate_succ, List.cons_lt_cons_iff]
    rintro (h | ⟨-, h⟩)
    · exact Nat.not_lt_zero a h
    · exact ih h

lemma zero_le (a : HwAddr) : zero ≤ a := by
  have h := not_lt_replicate_zero (a.bytes.map UInt8.toNat)
  rw [List.length_map, a.length_eq] at h
  refine not_lt.mp fun hlt => h ?_
  simpa [zero] using (show a.bytes.map UInt8.toNat < zero.bytes.map UInt8.toNat from hlt)

/-- `std::copy` onto the front of the array; what it does not reach keeps its contents. -/
def overwrite (old : HwAddr) (bytes : List UInt8) : HwAddr :=
  ⟨(bytes ++ old.bytes.drop bytes.length).take 16, by simp [old.length_eq]; omega⟩

def set (a : HwAddr) (index : ℕ) (byte : UInt8) : HwAddr :=
  ⟨a.bytes.set index byte, by rw [List.length_set, a.length_eq]⟩

def mac (a : HwAddr) : EtherAddr := ⟨a.bytes.take 6, by simp [a.length_eq]⟩

end HwAddr

structure DhcpDatagram where
  opcode : UInt8
  hwaddrType : UInt8
  hwaddrLen : UInt8
  transactionId : UInt32
  secsPassed : UInt16
  flags : UInt16
  clientIp : UInt32
  assignedIp : UInt32
  serverIp : UInt32
  relayAgentIp : UInt32
  recvAddr : UInt32
  recvIface : String
  hwAddr : HwAddr
  options : Options
  deriving DecidableEq

namespace DhcpDatagram

open OptionTag

def blank : DhcpDatagram := ⟨0, 0, 0, 0, 0, 0, 0, 0, 0, 0, 0, "", .zero, ∅⟩

/-- `predefined_option_lengths`. -/
def predefinedOptionLengths (tag : OptionTag) : Option UInt8 :=
  if tag = PAD then some 0
  else if tag = DHCP_MESSAGE_TYPE then some 1
  else if tag = SUBNET_MASK then some 4
  else if tag = TIME_OFFSET then some 4
  else if tag = REQUESTED_IP_ADDRESS then some 4
  else if tag = OPTIONS_END then some 0
  else none

/-- The tag has a predefined length and it is not this one. -/
def IllegalLength (tag : OptionTag) (length : UInt8) : Prop :=
  ∃ legal ∈ predefinedOptionLengths tag, legal ≠ length

instance (tag : OptionTag) (length : UInt8) : Decidable (IllegalLength tag length) :=
  match h : predefinedOptionLengths tag with
  | none => .isFalse (by simp [IllegalLength, h])
  | some legal => decidable_of_iff (legal ≠ length) (by simp [IllegalLength, h])

def lengthMessage (tag : OptionTag) (length : UInt8) : String :=
  "Invalid option length! Tag: " ++ toString tag.toNat ++ " | Legal length: " ++
    toString ((predefinedOptionLengths tag).getD 0).toNat ++ " | Actual length: " ++
    toString length.toNat

/-- The loop of `parse_options`, on the bytes from `options_buffer` to the end of a buffer
of `n` bytes. The test of the loop compares `options_buffer` with `options_buffer +
buffer_size`, an address that moves along with it, so it never ends the loop. -/
def parseLoop (n : ℕ) (bytes : List UInt8) (parsed : Options) : Except Fault Options :=
  match bytes with
  | [] => .error (.outOfBounds n)
  | tag :: bytes =>
    if predefinedOptionLengths tag = some 0 then
      if tag = OPTIONS_END then .ok parsed else parseLoop n bytes parsed
    else
      match bytes with
      | [] => .error (.outOfBounds n)
      | length :: bytes =>
        if IllegalLength tag length then .error (.invalidArgument (lengthMessage tag length))
        else if bytes.length < length.toNat then .error (.outOfBounds n)
        else parseLoop n (bytes.drop length.toNat)
          (parsed.insert tag (bytes.take length.toNat))
termination_by bytes.length
decreasing_by
  · simp only [List.length_cons]
    omega
  · simp only [List.length_cons, List.length_drop]
    omega

/-- `parse_options` on a buffer of the given bytes. -/
def parseOptions (buffer : List UInt8) : Except Fault Options :=
  if 0 < buffer.length then parseLoop buffer.length buffer ∅ else .ok ∅

def DHCP_MAGIC_COOKIE : UInt32 := 0x63825363

/-- `from_buffer`. The object it fills starts out with indeterminate contents `uninit`; the
copy of the hardware address stops one byte short, at `SERVER_HOSTNAME_OFFSET - 1`. A wrong
magic cookie is only logged. -/
def fromBuffer (host : ByteOrder) (uninit : DhcpDatagram) (buffer : List UInt8) :
    Except Fault DhcpDatagram :=
  if buffer.length < 240 then .error (.outOfBounds buffer.length)
  else do
    let options ← parseOptions (buffer.drop 240)
    return { uninit with
      opcode := buffer.getD 0 0
      hwaddrType := buffer.getD 1 0
      hwaddrLen := buffer.getD 2 0
      transactionId := ntohl host ⟨readNumber 32 (buffer.drop 4)⟩
      secsPassed := ntohs host ⟨readNumber 16 (buffer.drop 8)⟩
      flags := ⟨readNumber 16 (buffer.drop 10)⟩
      clientIp := ⟨readNumber 32 (buffer.drop 12)⟩
      assignedIp := ⟨readNumber 32 (buffer.drop 16)⟩
      serverIp := ⟨readNumber 32 (buffer.drop 20)⟩
      hwAddr := uninit.hwAddr.overwrite ((buffer.drop 28).take 15)
      options := options }

lemma of_fromBuffer_eq_ok {host : ByteOrder} {uninit d : DhcpDatagram} {buffer : List UInt8}
    (h : fromBuffer host uninit buffer = .ok d) :
    240 ≤ buffer.length ∧ parseOptions (buffer.drop 240) = .ok d.options ∧
      d.opcode = buffer.getD 0 0 ∧
      d.hwAddr = uninit.hwAddr.overwrite ((buffer.drop 28).take 15) := by
  unfold fromBuffer at h
  split_ifs at h with hlen
  cases hp : parseOptions (buffer.drop 240) with
  | error fault =>
    rw [hp] at h
    cases h
  | ok options =>
    rw [hp] at h
    obtain rfl := Except.ok.inj h
    exact ⟨by omega, rfl, rfl, rfl⟩

/-- One option on the wire; the size is narrowed to a byte. -/
def encodeOption (entry : (_ : OptionTag) × List UInt8) : List UInt8 :=
  entry.1 :: UInt8.ofNat entry.2.length :: entry.2

/-- The options area, for the entries in the order an iteration over the map visits them. -/
def encodeOptions (entries : List ((_ : OptionTag) × List UInt8)) : List UInt8 :=
  entries.flatMap encodeOption ++ [OPTIONS_END]

/-- The 240 bytes before the options. -/
def encodeHeader (host : ByteOrder) (d : DhcpDatagram) : List UInt8 :=
  [d.opcode, d.hwaddrType, d.hwaddrLen, 0] ++
    toByteArray (htonl host d.transactionId).toBitVec ++
    toByteArray (htons host d.secsPassed).toBitVec ++
    toByteArray d.flags.toBitVec ++ toByteArray d.clientIp.toBitVec ++
    toByteArray d.assignedIp.toBitVec ++ toByteArray d.serverIp.toBitVec ++
    toByteArray d.relayAgentIp.toBitVec ++ d.hwAddr.bytes ++ List.replicate 192 0 ++
    toByteArray DHCP_MAGIC_COOKIE.toBitVec

/-- The entries are those of the map, in some order: one an iteration may visit them in. -/
def Iterates (entries : List ((_ : OptionTag) × List UInt8)) (m : Options) : Prop :=
  (entries : Multiset _) = m.entries

/-- `to_byte_vector`, when the iteration over `_options` visits `entries`. -/
def toByteVector (host : ByteOrder) (d : DhcpDatagram)
    (entries : List ((_ : OptionTag) × List UInt8)) : List UInt8 :=
  encodeHeader host d ++ encodeOptions entries

lemma length_encodeHeader (host : ByteOrder) (d : DhcpDatagram) :
    (encodeHeader host d).length = 240 := by
  simp only [encodeHeader, List.length_append, List.length_cons, List.length_nil,
    length_toByteArray, List.length_replicate, d.hwAddr.length_eq]

end DhcpDatagram

end TinyDhcpd
