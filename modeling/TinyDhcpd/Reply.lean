import TinyDhcpd.Handlers

/-!
The message types of replies.

A DISCOVER is answered by an OFFER and a REQUEST by an ACK or a NAK; their handlers set the
type before the requested options are filled in, so that no configuration can change it. The
handler of INFORM sets no type at all.
-/

namespace TinyDhcpd.Reply

open Bytes OptionTag Daemon

/-- The message types a message may be answered with. -/
def replyTypes (type : UInt8) : List UInt8 :=
  if type = DHCP_TYPE_DISCOVER then [DHCP_TYPE_OFFER]
  else if type = DHCP_TYPE_REQUEST then [DHCP_TYPE_ACK, DHCP_TYPE_NAK]
  else if type = DHCP_TYPE_INFORM then [DHCP_TYPE_ACK]
  else []

/-- There is at most one reply, a reply of a type that fits the packet, and none to packets
that take no answer. -/
structure Typed (d : DhcpDatagram) (replies : List (SockaddrIn × DhcpDatagram)) : Prop where
  atMostOne : replies.length ≤ 1
  unanswered : d.opcode ≠ 1 ∨ IsMessage d DHCP_TYPE_RELEASE ∨ IsMessage d DHCP_TYPE_DECLINE →
    replies = []
  opcode : ∀ e ∈ replies, e.2.opcode = 2
  type : ∀ e ∈ replies, ∃ t, IsMessage d t ∧ ∃ type ∈ replyTypes t, HasType e.2 type

/-- The condition on the packet: it is no INFORM, or it asks for a message type and the
configuration defines that of an ACK. -/
def TypeKnown (cfg : SubnetConfiguration) (d : DhcpDatagram) : Prop :=
  IsMessage d DHCP_TYPE_INFORM → DHCP_MESSAGE_TYPE ∈ requestList d ∧
    cfg.definedOptions.lookup DHCP_MESSAGE_TYPE = some [DHCP_TYPE_ACK]

variable {host : ByteOrder} {cfg : SubnetConfiguration} {env : Env} {d : DhcpDatagram}
  {leases : LeaseTable}

lemma typed_nil (d : DhcpDatagram) : Typed d [] where
  atMostOne := by simp
  unanswered _ := rfl
  opcode := by simp
  type := by simp

lemma typed_singleton_iff {t : UInt8} (hm : IsMessage d t) (hne : replyTypes t ≠ [])
    (dest : SockaddrIn) {reply : DhcpDatagram} (hop : reply.opcode = 2) :
    Typed d [(dest, reply)] ↔ ∃ type ∈ replyTypes t, HasType reply type := by
  constructor
  · intro h
    obtain ⟨t', hm', htype⟩ := h.type _ (List.mem_singleton.mpr rfl)
    rwa [← hm.unique hm'] at htype
  · intro htype
    refine ⟨by simp, ?_, ?_, ?_⟩
    · rintro (hc | hc | hc)
      · exact absurd hm.1 hc
      · exact absurd (hm.unique hc ▸ by decide) hne
      · exact absurd (hm.unique hc ▸ by decide) hne
    · intro e he
      rw [List.mem_singleton.mp he]
      exact hop
    · intro e he
      rw [List.mem_singleton.mp he]
      exact ⟨t, hm, htype⟩

lemma typeKnown_of_message {t : UInt8} (hm : IsMessage d t) (hne : t ≠ DHCP_TYPE_INFORM) :
    TypeKnown cfg d := fun hc => absurd hc (hm.not_of_ne hne)

/-! ### The handlers -/

lemma typed_discovery (hm : IsMessage d DHCP_TYPE_DISCOVER) :
    Typed d (handleDiscovery host cfg env d leases).enqueued := by
  have h := discovered host cfg env d leases
  generalize handleDiscovery host cfg env d leases = o at h ⊢
  cases h with
  | overflow hlen => exact typed_nil d
  | refused hlen ha => exact typed_nil d
  | exhausted hlen ha ho => exact typed_nil d
  | offered hlen ha ho dest options =>
    refine (typed_singleton_iff hm (by decide) dest rfl).mpr ⟨DHCP_TYPE_OFFER, by decide, ?_⟩
    exact hasType_offerReply _ _

lemma typed_request (hm : IsMessage d DHCP_TYPE_REQUEST) :
    Typed d (handleRequest host cfg env d leases).enqueued := by
  have hnak (dest : SockaddrIn) : Typed d [(dest, nak d)] :=
    (typed_singleton_iff hm (by decide) dest rfl).mpr ⟨DHCP_TYPE_NAK, by decide, hasType_nak⟩
  have h := requested host cfg env d leases
  generalize handleRequest host cfg env d leases = o at h ⊢
  cases h with
  | malformed hr => exact typed_nil d
  | foreign hr hs dest => exact hnak dest
  | refused hr hs hl dest => exact hnak dest
  | granted hr hs hl hla dest =>
    refine (typed_singleton_iff hm (by decide) dest rfl).mpr ⟨DHCP_TYPE_ACK, by decide, ?_⟩
    exact hasType_ack _

lemma typed_inform_iff (hm : IsMessage d DHCP_TYPE_INFORM)
    (hok : (handleInform host cfg env d leases).result = .ok ()) :
    Typed d (handleInform host cfg env d leases).enqueued ↔ TypeKnown cfg d := by
  have h := informed host cfg env d leases
  generalize handleInform host cfg env d leases = o at h hok ⊢
  cases h with
  | overflow h => cases hok
  | replied h =>
    have hknown : TypeKnown cfg d ↔ DHCP_MESSAGE_TYPE ∈ requestList d ∧
        cfg.definedOptions.lookup DHCP_MESSAGE_TYPE = some [DHCP_TYPE_ACK] :=
      ⟨fun hc => hc hm, fun hc _ => hc⟩
    rw [typed_singleton_iff hm (by decide) _ rfl, hknown]
    have hack : replyTypes DHCP_TYPE_INFORM = [DHCP_TYPE_ACK] := by decide
    simp only [hack, List.mem_singleton, exists_eq_left, HasType, messageType_informReply]
    split_ifs with hmem
    · exact (and_iff_right hmem).symm
    · exact iff_of_false (by simp) fun hc => hmem hc.1

/-- **Replies are typed** exactly if the packet is no INFORM, whatever the configuration; for
an INFORM the configuration would have to define the message type of an ACK. -/
theorem typed_iff (host : ByteOrder) (cfg : SubnetConfiguration) (env : Env) (d : DhcpDatagram)
    (leases : LeaseTable) (hok : (handleRecv host cfg env d leases).result = .ok ()) :
    Typed d (handleRecv host cfg env d leases).enqueued ↔ TypeKnown cfg d := by
  have h := handled host cfg env d leases
  generalize handleRecv host cfg env d leases = o at h hok ⊢
  cases h with
  | overread h => cases hok
  | ignored hop => exact iff_of_true (typed_nil d) fun hm => absurd hm.1 hop
  | untyped hop hn => cases hok
  | unknown hm hu =>
    refine iff_of_true (typed_nil d) (typeKnown_of_message hm fun ht => hu ?_)
    rw [ht]
    decide
  | discover hm => exact iff_of_true (typed_discovery hm) (typeKnown_of_message hm (by decide))
  | request hm => exact iff_of_true (typed_request hm) (typeKnown_of_message hm (by decide))
  | release hm => exact iff_of_true (typed_nil d) (typeKnown_of_message hm (by decide))
  | inform hm => exact typed_inform_iff hm hok
  | decline hm =>
    rw [enqueued_decline]
    exact iff_of_true (typed_nil d) (typeKnown_of_message hm (by decide))

def informing : DhcpDatagram := message DHCP_TYPE_INFORM (client 1) none

theorem typed_iff_informing :
    Typed informing (handleRecv .little Config.exampleConfig at100 informing .empty).enqueued ↔
      TypeKnown Config.exampleConfig informing :=
  typed_iff .little Config.exampleConfig at100 informing .empty (by decide +kernel)

/-- The reply to it has no message type. -/
theorem inform_reply_untyped :
    Config.Accepted .little Config.exampleConfig ∧
      (handleRecv .little Config.exampleConfig at100 informing .empty).result = .ok () ∧
      IsMessage informing DHCP_TYPE_INFORM ∧
      ¬ Typed informing
        (handleRecv .little Config.exampleConfig at100 informing .empty).enqueued := by
  refine ⟨Config.accepted_exampleConfig, by decide +kernel, by decide +kernel, fun h => ?_⟩
  have hreply : ∃ e ∈ (handleRecv .little Config.exampleConfig at100 informing .empty).enqueued,
      e.2.options.lookup DHCP_MESSAGE_TYPE = none := by decide +kernel
  obtain ⟨e, he, hnone⟩ := hreply
  obtain ⟨t, -, type, -, hty⟩ := h.type e he
  rw [HasType, hnone] at hty
  cases hty

end TinyDhcpd.Reply
