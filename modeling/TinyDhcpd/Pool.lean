import TinyDhcpd.Daemon
import TinyDhcpd.Mask

/-!
The range of addresses that is given out, against the subnet that requests are tested for.

`check_net_range` looks at the two ends of the range in network order, `handle_discovery` counts
from one to the other in host order, and `handle_request` tests an address after converting it
back. With a netmask of leading ones the three agree on everything between the ends. That the
ends are in order is not checked anywhere.
-/

namespace TinyDhcpd.Pool

open Bytes Config Daemon Mask

/-- The netmask is made of ones followed by zeros. -/
def Contiguous (host : ByteOrder) (cfg : SubnetConfiguration) : Prop :=
  ∃ k ≤ 32, (ntohl host cfg.netmask).toNat = highBits 32 k

variable {host : ByteOrder} {cfg : SubnetConfiguration}

lemma htonl_injective (host : ByteOrder) {a b : UInt32} (h : htonl host a = htonl host b) :
    a = b := by
  rw [← ntohl_htonl host a, h, ntohl_htonl]

lemma inSubnet_iff (address : UInt32) :
    inSubnet host cfg address = true ↔
      address &&& ntohl host cfg.netmask = ntohl host (cfg.subnetAddress &&& cfg.netmask) := by
  have hmask : htonl host (address &&& ntohl host cfg.netmask) =
      htonl host address &&& cfg.netmask := by rw [htonl_and, htonl_ntohl]
  have hnet : htonl host (ntohl host (cfg.subnetAddress &&& cfg.netmask)) =
      cfg.subnetAddress &&& cfg.netmask := htonl_ntohl _ _
  rw [inSubnet, decide_eq_true_iff]
  constructor
  · intro h
    refine htonl_injective host ?_
    rw [hmask, hnet, h]
  · intro h
    rw [← hmask, h, hnet]

lemma inSubnet_of_masked {address : UInt32}
    (h : address &&& cfg.netmask = cfg.subnetAddress &&& cfg.netmask) :
    inSubnet host cfg (ntohl host address) = true := by
  rw [inSubnet, htonl_ntohl]
  exact decide_eq_true h

lemma inSubnet_of_between (hc : Contiguous host cfg) {first address last : UInt32}
    (hf : inSubnet host cfg first = true) (hl : inSubnet host cfg last = true)
    (h1 : first ≤ address) (h2 : address ≤ last) : inSubnet host cfg address = true := by
  obtain ⟨k, hk, hmask⟩ := hc
  rw [inSubnet_iff] at hf hl ⊢
  have heq : first.toNat &&& highBits 32 k = last.toNat &&& highBits 32 k := by
    rw [← hmask, ← UInt32.toNat_and, ← UInt32.toNat_and, hf, hl]
  have hbetween := and_highBits_of_between hk last.toNat_lt heq
    (UInt32.le_iff_toNat_le.mp h1) (UInt32.le_iff_toNat_le.mp h2)
  rw [← hl]
  refine UInt32.toNat_inj.mp ?_
  rw [UInt32.toNat_and, UInt32.toNat_and, hmask, hbetween]

/-- **An accepted range lies in the subnet**: its ends, and every address between them, pass the
test of `handle_request`. -/
theorem range_inSubnet (host : ByteOrder) (cfg : SubnetConfiguration) (hc : Contiguous host cfg)
    (hok : checkNetRange cfg = .ok ()) :
    inSubnet host cfg (ntohl host cfg.rangeStart) = true ∧
      inSubnet host cfg (ntohl host cfg.rangeEnd) = true ∧
      ∀ address, ntohl host cfg.rangeStart ≤ address → address ≤ ntohl host cfg.rangeEnd →
        inSubnet host cfg address = true := by
  obtain ⟨hstart, hend⟩ := checkNetRange_eq_ok.mp hok
  have hs : inSubnet host cfg (ntohl host cfg.rangeStart) = true := inSubnet_of_masked hstart
  have he : inSubnet host cfg (ntohl host cfg.rangeEnd) = true := inSubnet_of_masked hend
  exact ⟨hs, he, fun _ h1 h2 => inSubnet_of_between hc hs he h1 h2⟩

lemma contiguous_exampleConfig : Contiguous .little exampleConfig :=
  ⟨16, by omega, by decide +kernel⟩

theorem range_inSubnet_exampleConfig :
    inSubnet .little exampleConfig 0x7f000a0a = true ∧
      inSubnet .little exampleConfig 0x7f000abe = true ∧
      ∀ address, ntohl .little exampleConfig.rangeStart ≤ address →
        address ≤ ntohl .little exampleConfig.rangeEnd →
          inSubnet .little exampleConfig address = true :=
  range_inSubnet .little exampleConfig contiguous_exampleConfig (by decide +kernel)

/-- The example with the ends of its range exchanged is accepted too. -/
def reversed : SubnetConfiguration :=
  { exampleConfig with
    rangeStart := exampleConfig.rangeEnd
    rangeEnd := exampleConfig.rangeStart }

theorem reversed_range_accepted :
    Contiguous .little reversed ∧ checkNetRange reversed = .ok () ∧
      ¬ ntohl .little reversed.rangeStart ≤ ntohl .little reversed.rangeEnd :=
  ⟨contiguous_exampleConfig, by decide +kernel, by decide +kernel⟩

end TinyDhcpd.Pool
