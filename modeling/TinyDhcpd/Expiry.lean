import TinyDhcpd.LeaseFile

/-!
Expired leases have no influence.

The purge is lazy: only DISCOVER and a REQUEST for an address of the subnet start with one,
and expired entries stay in the table until then. Two tables that differ in expired entries
only are nevertheless indistinguishable: in every run they lead to the same replies, the same
exceptions and the same lease file.
-/

namespace TinyDhcpd.Expiry

open Bytes OptionTag Daemon LeaseFile Run

/-- The tables agree on the entries that are alive at the time. -/
def Agree (time : UInt64) (a b : LeaseTable) : Prop :=
  ∀ key lease, time < lease.expiry → (a.find? key = some lease ↔ b.find? key = some lease)

variable {host : ByteOrder} {cfg : SubnetConfiguration} {env : Env} {d : DhcpDatagram}
  {time time' : UInt64} {a b : LeaseTable}

lemma Agree.later (h : Agree time a b) (ht : time ≤ time') : Agree time' a b :=
  fun key lease he => h key lease (by grind)

lemma Agree.updateLeases_eq (h : Agree time a b) (ht : time ≤ time') :
    updateLeases time' a = updateLeases time' b := by
  refine OrdMap.ext_find? fun key => Option.ext fun lease => ?_
  rw [find?_updateLeases_eq_some, find?_updateLeases_eq_some]
  exact and_congr_left fun he => h key lease (by grind)

lemma Agree.of_eq (h : a = b) : Agree time a b := fun _ _ _ => by rw [h]

lemma Agree.erase (h : Agree time a b) (key : HwAddr) : Agree time (a.erase key) (b.erase key) := by
  intro k lease he
  rw [OrdMap.find?_erase, OrdMap.find?_erase]
  split_ifs
  · exact Iff.rfl
  · exact h k lease he

lemma Agree.insert (h : Agree time a b) (key : HwAddr) (lease : Lease) :
    Agree time (a.insert key lease) (b.insert key lease) := by
  intro k l he
  rw [OrdMap.find?_insert, OrdMap.find?_insert]
  split_ifs
  · exact Iff.rfl
  · exact h k l he

/-! ### One packet -/

/-- The outcomes look the same from outside, and leave tables that agree. -/
structure Alike (time : UInt64) (o o' : Outcome) : Prop where
  result : o.result = o'.result
  enqueued : o.enqueued = o'.enqueued
  leases : Agree time o.leases o'.leases

lemma Alike.of_eq {o o' : Outcome} (h : o = o') : Alike time o o' :=
  ⟨by rw [h], by rw [h], .of_eq (by rw [h])⟩

lemma Alike.ret (h : Agree time a b) : Alike time (.ret a) (.ret b) := ⟨rfl, rfl, h⟩

lemma Alike.throw (h : Agree time a b) (fault : Fault) :
    Alike time (.throw fault a) (.throw fault b) := ⟨rfl, rfl, h⟩

lemma Alike.enqueue (h : Agree time a b) (destination : Except Fault SockaddrIn)
    (reply : DhcpDatagram) :
    Alike time (.enqueue a destination reply) (.enqueue b destination reply) := by
  cases destination with
  | error fault => exact .throw h fault
  | ok address => exact ⟨rfl, rfl, h⟩

lemma alike_discovery (h : Agree time a b)
    (hp : updateLeases env.purge a = updateLeases env.purge b) :
    Alike time (handleDiscovery host cfg env d a) (handleDiscovery host cfg env d b) := by
  unfold handleDiscovery
  cases requestHwaddr d with
  | error fault => exact .throw h fault
  | ok hwaddr => exact .of_eq (by simp only [hp])

lemma alike_request (h : Agree time a b)
    (hp : updateLeases env.purge a = updateLeases env.purge b) :
    Alike time (handleRequest host cfg env d a) (handleRequest host cfg env d b) := by
  unfold handleRequest
  cases requestedAddress d with
  | error fault => exact .throw h fault
  | ok requested =>
    by_cases hs : inSubnet host cfg requested = true
    · exact .of_eq (by simp only [if_neg (not_not.mpr hs), hp])
    · simp only [if_pos hs]
      exact .enqueue h _ _

lemma alike_decline (h : Agree time a b) : Alike time (handleDecline d a) (handleDecline d b) := by
  unfold handleDecline
  cases d.options.lookup REQUESTED_IP_ADDRESS with
  | none => exact .throw h _
  | some bytes =>
    simp only
    cases toNumber 32 bytes with
    | error fault => exact .throw h _
    | ok declined => exact .ret (h.insert _ _)

/-- **One packet** on tables that agree. -/
theorem alike_handleRecv (h : Agree time a b) (ht : time ≤ env.purge) :
    Alike env.stamp (handleRecv host cfg env d a) (handleRecv host cfg env d b) := by
  have hnow : Agree env.stamp a b :=
    h.later (UInt64.le_trans ht env.purge_le_stamp)
  have hp : updateLeases env.purge a = updateLeases env.purge b := h.updateLeases_eq ht
  unfold handleRecv
  split_ifs with hlen hop
  · exact .throw hnow _
  · exact .ret hnow
  cases (d.options.lookup DHCP_MESSAGE_TYPE).getD [] with
  | nil => exact .throw hnow _
  | cons messageType rest =>
    simp only
    split_ifs
    · exact alike_discovery hnow hp
    · exact alike_request hnow hp
    · exact .ret (hnow.erase _)
    · exact .enqueue hnow _ _
    · exact alike_decline hnow
    · exact .ret hnow

/-! ### Runs -/

/-- What a packet does that can be seen from outside: how it ended and the replies. -/
def observe (host : ByteOrder) (cfg : SubnetConfiguration) (s : State) (ev : Event) :
    Except Fault Unit × List (SockaddrIn × DhcpDatagram) :=
  ((handle host cfg s ev).result, (handle host cfg s ev).enqueued)

/-- The same clock, and tables that agree at its time. -/
def Similar (s t : State) : Prop := s.clock = t.clock ∧ Agree s.clock s.leases t.leases

lemma similar_step (host : ByteOrder) (cfg : SubnetConfiguration) (s t : State) (ev : Event)
    (hst : Similar s t) (ht : Timely s ev) :
    Similar (step host cfg s ev) (step host cfg t ev) ∧
      observe host cfg s ev = observe host cfg t ev := by
  have h : Alike ev.env.stamp (handle host cfg s ev) (handle host cfg t ev) :=
    alike_handleRecv hst.2 ht
  exact ⟨⟨rfl, h.leases⟩, Prod.ext h.result h.enqueued⟩

/-- **Expired entries never influence behaviour.** Runs from tables that agree on what is
alive put out the same, end in tables that agree and write the same file. -/
theorem expired_leases_unobservable (host : ByteOrder) (cfg : SubnetConfiguration)
    (t₀ : UInt64) (a b : LeaseTable) (es : List Event) (hab : Agree t₀ a b)
    (h : Meets (step host cfg) Timely ⟨a, t₀⟩ es) :
    outs (step host cfg) (observe host cfg) ⟨a, t₀⟩ es =
        outs (step host cfg) (observe host cfg) ⟨b, t₀⟩ es ∧
      Agree (run (step host cfg) ⟨a, t₀⟩ es).clock (run (step host cfg) ⟨a, t₀⟩ es).leases
        (run (step host cfg) ⟨b, t₀⟩ es).leases ∧
      ∀ time, (run (step host cfg) ⟨a, t₀⟩ es).clock ≤ time →
        writeLeases host time (run (step host cfg) ⟨a, t₀⟩ es).leases =
          writeLeases host time (run (step host cfg) ⟨b, t₀⟩ es).leases := by
  have hinit : Similar ⟨a, t₀⟩ ⟨b, t₀⟩ := ⟨rfl, hab⟩
  obtain ⟨⟨-, hagree⟩, hout⟩ := simulation (similar_step host cfg) hinit h
  refine ⟨hout, hagree, fun time ht => ?_⟩
  rw [writeLeases, writeLeases, hagree.updateLeases_eq ht]

/-- A table whose only lease has expired at 100. -/
def stale : LeaseTable := OrdMap.empty.insert (client 1) ⟨0x7f000a0a, 100⟩

def latecomer : Event := ⟨at100, message DHCP_TYPE_DISCOVER (client 2) none⟩

theorem expired_leases_unobservable_stale :
    outs (step .little Config.exampleConfig) (observe .little Config.exampleConfig) ⟨stale, 100⟩
        [latecomer] =
      outs (step .little Config.exampleConfig) (observe .little Config.exampleConfig)
        ⟨OrdMap.empty, 100⟩ [latecomer] := by
  have hab : Agree 100 stale .empty := by
    intro key lease he
    rw [stale, OrdMap.find?_insert]
    split_ifs
    · refine iff_of_false (fun hc => ?_) (by simp)
      rw [← Option.some.inj hc] at he
      exact absurd he (by decide)
    · exact Iff.rfl
  exact (expired_leases_unobservable .little Config.exampleConfig 100 stale .empty [latecomer] hab
    (by decide +kernel)).1

end TinyDhcpd.Expiry
