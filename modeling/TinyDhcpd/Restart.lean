import TinyDhcpd.Expiry
import TinyDhcpd.Refinement
import TinyDhcpd.TornFile

/-!
The program over its lives.

The daemon loads its leases when it starts, keeps them in memory while it runs and writes them
when the loop has returned. In between it can be restarted any number of times, it can be killed,
a packet can bring it down, and the file may not be written to its end. Of an orderly restart the
clients see nothing at all, apart from the packets that come while there is no daemon; what is lost
otherwise is what has happened since the last time the leases were written.
-/

namespace TinyDhcpd.Restart

open Bytes Daemon Receive LeaseFile TornFile Refinement Expiry Run

/-- The program: the leases of the daemon while it runs, the contents of the lease file, and the
last time that was read. A file that does not exist is an empty one. -/
structure Program where
  daemon : Option LeaseTable
  file : List Char
  clock : UInt64

/-- What happens to the program. `cut` is a stop at which only the first characters of the file
get written. -/
inductive Happening
  | start (time : UInt64) (uninit : ℕ → HwAddr)
  | packet (ev : Daemon.Event)
  | stop (time : UInt64)
  | cut (time : UInt64) (written : ℕ)
  | kill

instance (host : ByteOrder) (cfg : SubnetConfiguration) (s : Daemon.State) (ev : Daemon.Event) :
    Decidable (Survives host cfg s ev) :=
  decidable_of_iff _ (caught_result _)

variable (host : ByteOrder) (cfg : SubnetConfiguration)

/-- The life goes on. An exception out of `load_leases` or `handle_epollin` ends the program, and
the file stays as it is. -/
def step (p : Program) (h : Happening) : Program :=
  match p.daemon with
  | none =>
    match h with
    | .start time uninit =>
      match loadLeases host uninit time p.file .empty with
      | .ok leases => { p with daemon := some leases, clock := time }
      | .error _ => { p with clock := time }
    | _ => p
  | some leases =>
    match h with
    | .start _ _ => p
    | .packet ev =>
      { p with
        daemon :=
          if Survives host cfg ⟨leases, p.clock⟩ ev then
            some (handle host cfg ⟨leases, p.clock⟩ ev).leases
          else none
        clock := ev.env.stamp }
    | .stop time => ⟨none, writeLeases host time leases, time⟩
    | .cut time written => ⟨none, (writeLeases host time leases).take written, time⟩
    | .kill => { p with daemon := none }

/-- A running daemon gets to see a packet. -/
def seen (p : Program) : Happening → List Daemon.Event
  | .packet ev => if p.daemon.isSome then [ev] else []
  | _ => []

/-- The replies it enqueues. -/
def answers (p : Program) : Happening → List (SockaddrIn × DhcpDatagram)
  | .packet ev => p.daemon.elim [] fun leases => (handle host cfg ⟨leases, p.clock⟩ ev).enqueued
  | _ => []

def Timely (p : Program) : Happening → Prop
  | .start time _ => p.clock ≤ time
  | .packet ev => p.clock ≤ ev.env.purge
  | .stop time => p.clock ≤ time
  | .cut time _ => p.clock ≤ time
  | .kill => True

/-- Nothing gets in the way of the program: the daemon gets over the packets, and it is stopped
by a signal that it has noticed. -/
def Orderly (p : Program) : Happening → Prop
  | .packet ev => ∀ leases ∈ p.daemon, Survives host cfg ⟨leases, p.clock⟩ ev
  | .cut _ _ => False
  | .kill => False
  | _ => True

instance (p : Program) : (e : Happening) → Decidable (Timely p e)
  | .start _ _ => inferInstanceAs (Decidable (_ ≤ _))
  | .packet _ => inferInstanceAs (Decidable (_ ≤ _))
  | .stop _ => inferInstanceAs (Decidable (_ ≤ _))
  | .cut _ _ => inferInstanceAs (Decidable (_ ≤ _))
  | .kill => .isTrue trivial

instance (p : Program) : (e : Happening) → Decidable (Orderly host cfg p e)
  | .packet ev =>
    inferInstanceAs (Decidable (∀ leases ∈ p.daemon, Survives host cfg ⟨leases, p.clock⟩ ev))
  | .cut _ _ => .isFalse id
  | .kill => .isFalse id
  | .start _ _ => .isTrue trivial
  | .stop _ => .isTrue trivial

/-! ### Orderly restarts -/

/-- The daemon that was never stopped has the same live leases: as the running daemon, or as the
one whose leases are in the file. -/
structure Continues (p : Program) (t : State) : Prop where
  clock : t.clock ≤ p.clock
  running : ∀ leases ∈ p.daemon, Agree p.clock leases t.leases
  stopped : p.daemon = none → ∃ t₀ leases, t₀ ≤ p.clock ∧ p.file = writeLeases host t₀ leases ∧
    Agree t₀ leases t.leases

variable {host cfg} {p : Program} {t : State}

lemma agree_trans {time : UInt64} {a b c : LeaseTable} (h : Agree time a b) (h' : Agree time b c) :
    Agree time a c :=
  fun key lease he => (h key lease he).trans (h' key lease he)

lemma agree_loaded {t₀ t₁ : UInt64} (h : t₀ ≤ t₁) (leases : LeaseTable) :
    Agree t₁ (loaded t₁ (updateLeases t₀ leases).entries) leases := by
  intro key lease he
  rw [find?_loaded (updateLeases t₀ leases).sorted, ← OrdMap.find?_eq_some,
    find?_updateLeases_eq_some]
  have hlive : t₀ < lease.expiry := UInt64.lt_of_le_of_lt h he
  exact ⟨fun hl => hl.1.1, fun hl => ⟨⟨hl, hlive⟩, UInt64.le_of_lt he⟩⟩

lemma Continues.start (h : Continues host p t) {time : UInt64} (ht : p.clock ≤ time)
    (uninit : ℕ → HwAddr) (hd : p.daemon = none) :
    Continues host (step host cfg p (.start time uninit)) t := by
  obtain ⟨t₀, leases, ht₀, hfile, hagree⟩ := h.stopped hd
  have hle : t₀ ≤ time := UInt64.le_trans ht₀ ht
  have hload : loadLeases host uninit time p.file .empty =
      .ok (loaded time (updateLeases t₀ leases).entries) := by
    rw [hfile]
    exact loadLeases_text host uninit time _
  simp only [step, hd, hload]
  refine ⟨UInt64.le_trans h.clock ht, fun table htable => ?_, by simp⟩
  cases htable
  exact agree_trans (agree_loaded hle leases) (hagree.later hle)

lemma continues_step (p : Program) (t : State) (e : Happening) (h : Continues host p t)
    (ht : Timely p e ∧ Orderly host cfg p e) :
    Continues host (step host cfg p e) (run (Daemon.step host cfg) t (seen p e)) ∧
      answers host cfg p e =
        (outs (Daemon.step host cfg) (replies host cfg) t (seen p e)).flatten := by
  cases hd : p.daemon with
  | none =>
    cases e with
    | start time uninit => exact ⟨h.start ht.1 uninit hd, rfl⟩
    | packet ev =>
      simp only [step, seen, answers, hd]
      exact ⟨h, rfl⟩
    | stop time | cut time written | kill =>
      simp only [step, hd]
      exact ⟨h, rfl⟩
  | some leases =>
    have hagree := h.running leases hd
    cases e with
    | start time uninit =>
      simp only [step, hd]
      exact ⟨h, rfl⟩
    | packet ev =>
      have hs : Survives host cfg ⟨leases, p.clock⟩ ev := ht.2 leases hd
      have halike : Alike ev.env.stamp (handle host cfg ⟨leases, p.clock⟩ ev)
          (handle host cfg t ev) := alike_handleRecv hagree ht.1
      simp only [step, seen, answers, hd, if_pos hs, Option.isSome_some, Option.elim, if_true]
      refine ⟨⟨UInt64.le_refl _, fun table htable => ?_, by simp⟩, ?_⟩
      · cases htable
        exact halike.leases
      · simpa [outs, replies] using halike.enqueued
    | stop time =>
      simp only [step, hd]
      exact ⟨⟨UInt64.le_trans h.clock ht.1, by simp, fun _ =>
        ⟨time, leases, UInt64.le_refl _, rfl, hagree.later ht.1⟩⟩, rfl⟩
    | cut time written => exact ht.2.elim
    | kill => exact ht.2.elim

lemma continues_init (host : ByteOrder) (leases : LeaseTable) (file : List Char)
    (clock : UInt64) : Continues host ⟨some leases, file, clock⟩ ⟨leases, clock⟩ where
  clock := UInt64.le_refl _
  running table htable := .of_eq (Option.some.inj htable).symm
  stopped h := by cases h

lemma meets_seen (p : Program) (t : State) (e : Happening) (h : Continues host p t)
    (ht : Timely p e ∧ Orderly host cfg p e) :
    Continues host (step host cfg p e) (run (Daemon.step host cfg) t (seen p e)) ∧
      Meets (Daemon.step host cfg)
        (fun s ev => Daemon.Timely s ev ∧ Survives host cfg s ev) t (seen p e) := by
  refine ⟨(continues_step p t e h ht).1, ?_⟩
  cases e with
  | packet ev =>
    cases hd : p.daemon with
    | none =>
      simp only [seen, hd]
      trivial
    | some leases =>
      have hs : Survives host cfg ⟨leases, p.clock⟩ ev := ht.2 leases hd
      have halike : Alike ev.env.stamp (handle host cfg ⟨leases, p.clock⟩ ev)
          (handle host cfg t ev) := alike_handleRecv (h.running leases hd) ht.1
      rw [Survives, halike.result] at hs
      simp only [seen, hd, Option.isSome_some, if_true]
      exact ⟨⟨UInt64.le_trans h.clock ht.1, hs⟩, trivial⟩
  | start time uninit | stop time | cut time written | kill => trivial

/-- **Restarts are invisible.** In orderly lives, where the leases are written at every stop and no
packet ends the program, and however often it is stopped and started again: the replies to the
packets it gets to see, which are those that arrive while it runs, are those of a daemon that was
never stopped and gets the same packets, and its leases are those of that daemon, up to some that
have expired. -/
theorem restarts_invisible (host : ByteOrder) (cfg : SubnetConfiguration) (leases : LeaseTable)
    (file : List Char) (clock : UInt64) (hs : List Happening)
    (h : Meets (step host cfg) (fun p e => Timely p e ∧ Orderly host cfg p e)
      ⟨some leases, file, clock⟩ hs) :
    let p := run (step host cfg) ⟨some leases, file, clock⟩ hs
    let packets := (outs (step host cfg) seen ⟨some leases, file, clock⟩ hs).flatten
    let t := run (Daemon.step host cfg) ⟨leases, clock⟩ packets
    (outs (step host cfg) (answers host cfg) ⟨some leases, file, clock⟩ hs).flatten =
        (outs (Daemon.step host cfg) (replies host cfg) ⟨leases, clock⟩ packets).flatten ∧
      ∀ table ∈ p.daemon, Agree p.clock table t.leases := by
  intro p packets t
  obtain ⟨hc, ho⟩ := refinement continues_step (continues_init host leases file clock) h
  exact ⟨ho, hc.running⟩

/-- A client renews its lease, the program is restarted, and the client renews it again. -/
def renewals : List Happening :=
  [.packet ⟨at100, message DHCP_TYPE_REQUEST (client 1) (some 0x7f000a0a)⟩, .stop 150,
    .start 160 fun _ => .zero,
    .packet ⟨still 200 (by decide), message DHCP_TYPE_REQUEST (client 1) (some 0x7f000a0a)⟩]

lemma meets_renewals : Meets (step .little Config.exampleConfig)
    (fun p e => Timely p e ∧ Orderly .little Config.exampleConfig p e)
    ⟨some saved, [], 100⟩ renewals := by
  decide +kernel

theorem restarts_invisible_renewals :
    let first : Program := ⟨some saved, [], 100⟩
    let packets := (outs (step .little Config.exampleConfig) seen first renewals).flatten
    (outs (step .little Config.exampleConfig) (answers .little Config.exampleConfig) first
        renewals).flatten =
      (outs (Daemon.step .little Config.exampleConfig) (replies .little Config.exampleConfig)
        ⟨saved, 100⟩ packets).flatten :=
  (restarts_invisible .little Config.exampleConfig saved [] 100 renewals meets_renewals).1

/-! ### What survives -/

/-- The table that is written when the daemon is stopped, be it to the end of the file or not. -/
def saves (p : Program) : Happening → List LeaseTable
  | .stop time => p.daemon.toList.map (updateLeases time)
  | .cut time _ => p.daemon.toList.map (updateLeases time)
  | _ => []

lemma prefix_step {past : List (List LeaseTable)} (e : Happening)
    (h : p.file <+: text host (past.flatten.getLastD .empty).entries) :
    (step host cfg p e).file <+:
      text host ((past ++ [saves p e]).flatten.getLastD .empty).entries := by
  rw [List.flatten_append, List.flatten_singleton]
  cases hd : p.daemon with
  | none =>
    have hnone : saves p e = [] := by cases e <;> simp [saves, hd]
    rw [hnone, List.append_nil]
    cases e with
    | start time uninit =>
      simp only [step, hd]
      split <;> exact h
    | packet ev | stop time | cut time written | kill => simpa only [step, hd] using h
  | some leases =>
    cases e with
    | start time uninit | packet ev | kill => simpa [step, saves, hd] using h
    | stop time => simp [step, saves, hd, text, writeLeases]
    | cut time written =>
      simp only [step, saves, hd, Option.toList_some, List.map_cons, List.map_nil,
        List.getLastD_concat]
      exact List.take_prefix _ _

/-- **The program always starts again.** In every run of lives that begins without a lease file,
with orderly stops, files that are cut off, kills and exceptions in any order, the leases of a
stopped program load without an exception at every time from 256 seconds after the epoch on; what
is loaded is within the table that was written last, and has not expired. -/
theorem starts_again (host : ByteOrder) (cfg : SubnetConfiguration) (hs : List Happening)
    (time : UInt64) (uninit : ℕ → HwAddr) (htime : 255 < time) :
    let p := run (step host cfg) ⟨none, [], 0⟩ hs
    let saved := (outs (step host cfg) saves ⟨none, [], 0⟩ hs).flatten
    p.daemon = none → ∃ table, (step host cfg p (.start time uninit)).daemon = some table ∧
      Within (saved.getLastD .empty) table ∧
      ∀ key lease, table.find? key = some lease → time ≤ lease.expiry := by
  intro p saved hd
  have hfile : p.file <+: text host (saved.getLastD .empty).entries :=
    invariant_outs saves (I := fun past p =>
      p.file <+: text host (past.flatten.getLastD .empty).entries)
      (fun past p e h _ => prefix_step e h) List.prefix_rfl (meets_true _ _)
  obtain ⟨table, hload, hfrom⟩ := exists_loadedFrom uninit htime hfile
  refine ⟨table, ?_, hfrom.within, hfrom.live⟩
  simp only [step, hd, hload]

/-- An offer is made, and the file is cut off when the program is stopped. -/
def cutOff : List Happening :=
  [.start 100 fun _ => .zero, .packet ⟨at100, message DHCP_TYPE_DISCOVER (client 1) none⟩,
    .cut 105 48]

theorem starts_again_cutOff :
    let p := run (step .little Config.exampleConfig) ⟨none, [], 0⟩ cutOff
    p.daemon = none ∧
      ∃ table, (step .little Config.exampleConfig p (.start 300 fun _ => .zero)).daemon =
        some table := by
  have hd : (run (step .little Config.exampleConfig) ⟨none, [], 0⟩ cutOff).daemon = none := by
    decide +kernel
  obtain ⟨table, htable, -⟩ := starts_again .little Config.exampleConfig cutOff 300
    (fun _ => .zero) (by decide) hd
  exact ⟨hd, table, htable⟩

/-! ### A tenant -/

/-- Among the packets, those of the tenant of an address are requests for it, each before its lease
is over. -/
def RenewsInTime (cfg : SubnetConfiguration) (key : HwAddr) (addr : UInt32) :
    UInt64 → List Daemon.Event → Prop
  | _, [] => True
  | expiry, ev :: es =>
    if ev.datagram.hwAddr = key then
      IsMessage ev.datagram DHCP_TYPE_REQUEST ∧ requestedAddress ev.datagram = .ok addr ∧
        ev.env.purge < expiry ∧
        RenewsInTime cfg key addr (ev.env.stamp + cfg.leaseTimeSeconds.toUInt64) es
    else RenewsInTime cfg key addr expiry es

instance decidableRenewsInTime (cfg : SubnetConfiguration) (key : HwAddr) (addr : UInt32) :
    (expiry : UInt64) → (es : List Daemon.Event) → Decidable (RenewsInTime cfg key addr expiry es)
  | _, [] => .isTrue trivial
  | expiry, ev :: es =>
    have := decidableRenewsInTime cfg key addr expiry es
    have := decidableRenewsInTime cfg key addr
      (ev.env.stamp + cfg.leaseTimeSeconds.toUInt64) es
    if h : ev.datagram.hwAddr = key then decidable_of_iff' _ (iff_of_eq (if_pos h))
    else decidable_of_iff' _ (iff_of_eq (if_neg h))

/-- The packets of others leave the lease of a client alone, until it is over. -/
lemma find?_of_other (host : ByteOrder) (cfg : SubnetConfiguration) {key : HwAddr}
    (hz : key ≠ HwAddr.zero) {ev : Daemon.Event} (hk : ev.datagram.hwAddr ≠ key) (s : State) :
    (handle host cfg s ev).leases.find? key = s.leases.find? key ∨
      (handle host cfg s ev).leases.find? key =
        (updateLeases ev.env.purge s.leases).find? key := by
  unfold handle
  have h := handled host cfg ev.env ev.datagram s.leases
  generalize handleRecv host cfg ev.env ev.datagram s.leases = o at h ⊢
  cases h with
  | overread _ | ignored _ | untyped _ _ | unknown _ _ => exact Or.inl rfl
  | discover _ =>
    have h := discovered host cfg ev.env ev.datagram s.leases
    generalize handleDiscovery host cfg ev.env ev.datagram s.leases = o at h ⊢
    cases h with
    | overflow _ => exact Or.inl rfl
    | refused _ _ => exact Or.inr rfl
    | exhausted _ _ _ => exact Or.inr rfl
    | offered _ _ _ dest options => exact Or.inr (OrdMap.find?_insert_of_ne _ _ hk.symm)
  | request _ =>
    have h := requested host cfg ev.env ev.datagram s.leases
    generalize handleRequest host cfg ev.env ev.datagram s.leases = o at h ⊢
    cases h with
    | malformed _ => exact Or.inl rfl
    | foreign _ _ _ => exact Or.inl rfl
    | refused _ _ _ _ => exact Or.inr rfl
    | granted _ _ _ _ _ => exact Or.inr (OrdMap.find?_insert_of_ne _ _ hk.symm)
  | release _ =>
    refine Or.inl ?_
    show (s.leases.erase ev.datagram.hwAddr).find? key = _
    rw [OrdMap.find?_erase, if_neg hk.symm]
  | inform _ =>
    have h := informed host cfg ev.env ev.datagram s.leases
    generalize handleInform host cfg ev.env ev.datagram s.leases = o at h ⊢
    cases h <;> exact Or.inl rfl
  | decline _ =>
    -- a declined address goes to the key of zeros
    have h := declined ev.datagram s.leases
    generalize handleDecline ev.datagram s.leases = o at h ⊢
    cases h with
    | failed _ _ => exact Or.inl rfl
    | banned _ => exact Or.inl (OrdMap.find?_insert_of_ne _ _ hz)

lemma hwAddr_of_enqueued {s : State} {ev : Daemon.Event} {e : SockaddrIn × DhcpDatagram}
    (he : e ∈ (handle host cfg s ev).enqueued) : e.2.hwAddr = ev.datagram.hwAddr := by
  have h := Answer.replied he
  generalize (handleRecv host cfg ev.env ev.datagram s.leases).leases = left at h
  obtain ⟨dest, reply⟩ := e
  cases h <;> rfl

lemma renewed {key : HwAddr} {addr : UInt32} {expiry : UInt64} {s : State} {ev : Daemon.Event}
    (hsub : inSubnet host cfg addr = true) (hs : Survives host cfg s ev)
    (hm : IsMessage ev.datagram DHCP_TYPE_REQUEST) (hr : requestedAddress ev.datagram = .ok addr)
    (hk : ev.datagram.hwAddr = key) (hl : s.leases.find? key = some ⟨addr, expiry⟩)
    (hp : ev.env.purge < expiry) :
    (handle host cfg s ev).leases.find? key =
        some ⟨addr, ev.env.stamp + cfg.leaseTimeSeconds.toUInt64⟩ ∧
      (handle host cfg s ev).enqueued.map Prod.snd = [ack cfg ev.datagram addr] := by
  have hlen : ¬ 16 < ev.datagram.hwaddrLen := by
    intro hlen
    rw [Survives, handle, handleRecv, if_pos hlen] at hs
    simp [Caught, Outcome.throw] at hs
  have hlive : (updateLeases ev.env.purge s.leases).find? ev.datagram.hwAddr =
      some ⟨addr, expiry⟩ := by
    rw [find?_updateLeases_eq_some, hk]
    exact ⟨hl, hp⟩
  have hhandle : handle host cfg s ev =
      handleRequest host cfg ev.env ev.datagram s.leases := handleRecv_of_message hlen hm
  rw [hhandle]
  have h := requested host cfg ev.env ev.datagram s.leases
  generalize handleRequest host cfg ev.env ev.datagram s.leases = o at h ⊢
  cases h with
  | malformed hr' => simp [hr] at hr'
  | foreign hr' hs' dest =>
    cases hr.symm.trans hr'
    simp [hsub] at hs'
  | refused hr' _ hrefused dest =>
    -- the address is the one of the live lease
    cases hr.symm.trans hr'
    exact absurd rfl (hrefused _ hlive)
  | granted hr' _ _ _ dest =>
    cases hr.symm.trans hr'
    rw [← hk]
    exact ⟨OrdMap.find?_insert_self _ _ _, rfl⟩

/-- After the packet of another client the lease is as it was, or its time is over. -/
lemma lease_of_other {key : HwAddr} {lease : Lease} (hz : key ≠ HwAddr.zero) {s : State}
    {ev : Daemon.Event} (hk : ev.datagram.hwAddr ≠ key) (ht : Daemon.Timely s ev)
    (hl : s.leases.find? key = some lease ∨ lease.expiry ≤ s.clock) :
    (Daemon.step host cfg s ev).leases.find? key = some lease ∨
      lease.expiry ≤ (Daemon.step host cfg s ev).clock := by
  rcases hl with hl | hover
  · rcases find?_of_other host cfg hz hk s with hsame | hpurged
    · exact Or.inl (hsame.trans hl)
    · by_cases hp : ev.env.purge < lease.expiry
      · exact Or.inl (hpurged.trans (find?_updateLeases_eq_some.mpr ⟨hl, hp⟩))
      · exact Or.inr (UInt64.le_trans (UInt64.not_lt.mp hp) ev.env.purge_le_stamp)
  · have hclock : s.clock ≤ ev.env.stamp := UInt64.le_trans ht ev.env.purge_le_stamp
    exact Or.inr (UInt64.le_trans hover hclock)

/-- **One tenant, any other clients.** While the tenant renews its lease in time, each of its
requests is confirmed. -/
lemma renewed_run {key : HwAddr} {addr : UInt32} (hz : key ≠ HwAddr.zero)
    (hsub : inSubnet host cfg addr = true) {expiry : UInt64} {s : State}
    {es : List Daemon.Event} (hrenew : RenewsInTime cfg key addr expiry es)
    (hl : s.leases.find? key = some ⟨addr, expiry⟩ ∨ expiry ≤ s.clock)
    (h : Meets (Daemon.step host cfg)
      (fun s ev => Daemon.Timely s ev ∧ Survives host cfg s ev) s es) :
    ((outs (Daemon.step host cfg) (replies host cfg) s es).flatten.map Prod.snd).filter
        (fun reply => reply.hwAddr = key) =
      (es.filter fun ev => ev.datagram.hwAddr = key).map fun ev => ack cfg ev.datagram addr := by
  -- the expiry changes with every request, the state with every packet
  induction es generalizing expiry s with
  | nil => rfl
  | cons ev es ih =>
    obtain ⟨⟨ht, hs⟩, hrest⟩ := h
    rw [outs, List.flatten_cons, List.map_append, List.filter_append]
    by_cases hk : ev.datagram.hwAddr = key
    · rw [RenewsInTime, if_pos hk] at hrenew
      obtain ⟨hm, hr, hp, hrenew⟩ := hrenew
      -- the request comes in time, so the lease cannot be over
      have hheld : s.leases.find? key = some ⟨addr, expiry⟩ := by
        refine hl.resolve_right fun hover => ?_
        exact UInt64.not_lt.mpr (UInt64.le_trans hover ht) hp
      obtain ⟨hnext, hreply⟩ := renewed hsub hs hm hr hk hheld hp
      have hone : ((replies host cfg s ev).map Prod.snd).filter (fun reply => reply.hwAddr = key) =
          [ack cfg ev.datagram addr] := by
        rw [replies, hreply]
        exact List.filter_cons_of_pos (decide_eq_true hk)
      rw [List.filter_cons_of_pos (by simpa using hk), List.map_cons, hone,
        ih hrenew (Or.inl hnext) hrest, List.singleton_append]
    · rw [RenewsInTime, if_neg hk] at hrenew
      have hnone : ((replies host cfg s ev).map Prod.snd).filter (fun reply => reply.hwAddr = key) =
          [] := by
        rw [List.filter_eq_nil_iff]
        intro reply hreply
        obtain ⟨e, he, rfl⟩ := List.mem_map.mp hreply
        simpa [hwAddr_of_enqueued he] using hk
      rw [List.filter_cons_of_neg (by simpa using hk), hnone, List.nil_append]
      exact ih hrenew (lease_of_other hz hk ht hl) hrest

lemma acked_lives {leases : LeaseTable} {file : List Char} {clock : UInt64} {hs : List Happening}
    (h : Meets (step host cfg) (fun p e => Timely p e ∧ Orderly host cfg p e)
      ⟨some leases, file, clock⟩ hs) {key : HwAddr} {addr : UInt32} {expiry : UInt64}
    (hz : key ≠ HwAddr.zero) (hsub : inSubnet host cfg addr = true)
    (hl : leases.find? key = some ⟨addr, expiry⟩)
    (hrenew : RenewsInTime cfg key addr expiry
      (outs (step host cfg) seen ⟨some leases, file, clock⟩ hs).flatten) :
    ((outs (step host cfg) (answers host cfg) ⟨some leases, file, clock⟩ hs).flatten.map
        Prod.snd).filter (fun reply => reply.hwAddr = key) =
      ((outs (step host cfg) seen ⟨some leases, file, clock⟩ hs).flatten.filter
        fun ev => ev.datagram.hwAddr = key).map fun ev => ack cfg ev.datagram addr := by
  have hinit := continues_init host leases file clock
  have hmeets := refinement_meets meets_seen hinit h
  rw [(refinement continues_step hinit h).2]
  exact renewed_run hz hsub hrenew (Or.inl hl) hmeets

/-- **A tenant keeps its address.** A client whose hardware address is not zero has a lease for an
address of the subnet. In orderly lives (all stops write the leases, and no packet of anybody ends
the program), if what a running daemon gets from this client are requests for the address, each
before the lease is over, then exactly one reply is enqueued for each of them, and that is an ACK
of the address: whatever else the daemon gets from other clients, and however often it is stopped
and started again. -/
theorem tenant_keeps_address (host : ByteOrder) (cfg : SubnetConfiguration) (leases : LeaseTable)
    (file : List Char) (clock : UInt64) (hs : List Happening)
    (h : Meets (step host cfg) (fun p e => Timely p e ∧ Orderly host cfg p e)
      ⟨some leases, file, clock⟩ hs) (key : HwAddr) (addr : UInt32) (expiry : UInt64)
    (hz : key ≠ HwAddr.zero) (hsub : inSubnet host cfg addr = true)
    (hl : leases.find? key = some ⟨addr, expiry⟩)
    (hrenew : RenewsInTime cfg key addr expiry
      (outs (step host cfg) seen ⟨some leases, file, clock⟩ hs).flatten) :
    ((outs (step host cfg) (answers host cfg) ⟨some leases, file, clock⟩ hs).flatten.map
        Prod.snd).filter (fun reply => reply.hwAddr = key) =
      ((outs (step host cfg) seen ⟨some leases, file, clock⟩ hs).flatten.filter
        fun ev => ev.datagram.hwAddr = key).map fun ev => ack cfg ev.datagram addr :=
  acked_lives h hz hsub hl hrenew

theorem tenant_keeps_address_renewals :
    let first : Program := ⟨some saved, [], 100⟩
    let packets := (outs (step .little Config.exampleConfig) seen first renewals).flatten
    packets.length = 2 ∧
      ((outs (step .little Config.exampleConfig) (answers .little Config.exampleConfig) first
          renewals).flatten.map Prod.snd).filter (fun reply => reply.hwAddr = client 1) =
        (packets.filter fun ev => ev.datagram.hwAddr = client 1).map fun ev =>
          ack Config.exampleConfig ev.datagram 0x7f000a0a :=
  ⟨by decide +kernel, tenant_keeps_address .little Config.exampleConfig saved [] 100 renewals
    meets_renewals (client 1) 0x7f000a0a 5000 (by decide) (by decide +kernel) (by decide +kernel)
    (by decide +kernel)⟩

/-! ### A newcomer -/

lemma offered_lease {s : State} {ev : Daemon.Event} {e : SockaddrIn × DhcpDatagram}
    (hm : IsMessage ev.datagram DHCP_TYPE_DISCOVER) (he : e ∈ (handle host cfg s ev).enqueued) :
    (handle host cfg s ev).enqueued = [e] ∧ (handle host cfg s ev).leases.find? ev.datagram.hwAddr =
      some ⟨e.2.assignedIp, ev.env.stamp + 10⟩ := by
  have hhandle : handle host cfg s ev = handleDiscovery host cfg ev.env ev.datagram s.leases :=
    handleRecv_of_message (length_of_enqueued he) hm
  rw [hhandle] at he ⊢
  have h := discovered host cfg ev.env ev.datagram s.leases
  generalize handleDiscovery host cfg ev.env ev.datagram s.leases = o at h he ⊢
  cases h with
  | overflow _ | refused _ _ | exhausted _ _ _ => cases he
  | offered _ _ _ dest options =>
    obtain rfl := List.mem_singleton.mp he
    exact ⟨rfl, OrdMap.find?_insert_self _ _ _⟩

/-- **From the offer on.** A client whose hardware address is not zero is offered an address of the
subnet. In orderly lives, if what a running daemon gets from it afterwards are requests for the
address, the first within ten seconds and each before its lease is over, then exactly one reply is
enqueued for each of its packets: the offer, and then ACKs of the address. This is so whatever else
the daemon gets from other clients, short of a packet that ends it, and however often it is stopped
and started again. -/
theorem newcomer_gets_address (host : ByteOrder) (cfg : SubnetConfiguration) (leases : LeaseTable)
    (file : List Char) (clock : UInt64) (discover : Daemon.Event) (hs : List Happening)
    (h : Meets (step host cfg) (fun p e => Timely p e ∧ Orderly host cfg p e)
      ⟨some leases, file, clock⟩ (.packet discover :: hs))
    (hz : discover.datagram.hwAddr ≠ HwAddr.zero)
    (hm : IsMessage discover.datagram DHCP_TYPE_DISCOVER) (offer : SockaddrIn × DhcpDatagram)
    (hoffer : offer ∈ answers host cfg ⟨some leases, file, clock⟩ (.packet discover))
    (hsub : inSubnet host cfg offer.2.assignedIp = true)
    (hrenew : RenewsInTime cfg discover.datagram.hwAddr offer.2.assignedIp
      (discover.env.stamp + 10) (outs (step host cfg) seen
        (step host cfg ⟨some leases, file, clock⟩ (.packet discover)) hs).flatten) :
    let all := Happening.packet discover :: hs
    let later := (outs (step host cfg) seen
      (step host cfg ⟨some leases, file, clock⟩ (.packet discover)) hs).flatten
    ((outs (step host cfg) (answers host cfg) ⟨some leases, file, clock⟩ all).flatten.map
        Prod.snd).filter (fun reply => reply.hwAddr = discover.datagram.hwAddr) =
      offer.2 :: (later.filter fun ev => ev.datagram.hwAddr = discover.datagram.hwAddr).map
        fun ev => ack cfg ev.datagram offer.2.assignedIp := by
  intro all later
  obtain ⟨honly, hlease⟩ := offered_lease hm hoffer
  have hnext : step host cfg ⟨some leases, file, clock⟩ (.packet discover) =
      ⟨some (handle host cfg ⟨leases, clock⟩ discover).leases, file, discover.env.stamp⟩ := by
    simp only [step, if_pos (h.1.2 leases rfl)]
  have hkey : offer.2.hwAddr = discover.datagram.hwAddr := hwAddr_of_enqueued hoffer
  have hfirst : answers host cfg ⟨some leases, file, clock⟩ (.packet discover) = [offer] := honly
  have hrest := h.2
  simp only [later, all, outs, List.flatten_cons, hfirst]
  rw [hnext] at hrest hrenew ⊢
  rw [List.map_append, List.filter_append, acked_lives hrest hz hsub hlease hrenew]
  simp [hkey]

/-- A client discovers the server, -/
def discovering : Daemon.Event := ⟨at100, message DHCP_TYPE_DISCOVER (client 1) none⟩

/-- another one does, the program is restarted, and the first one requests its address. -/
def joining : List Happening :=
  [.packet ⟨still 101 (by decide), message DHCP_TYPE_DISCOVER (client 2) none⟩, .stop 102,
    .start 103 fun _ => .zero,
    .packet ⟨still 104 (by decide), message DHCP_TYPE_REQUEST (client 1) (some 0x7f000a0a)⟩]

lemma answers_discovering :
    answers .little Config.exampleConfig ⟨some .empty, [], 100⟩ (.packet discovering) ≠ [] := by
  decide +kernel

theorem newcomer_gets_address_joining :
    let first : Program := ⟨some .empty, [], 100⟩
    let offer := (answers .little Config.exampleConfig first (.packet discovering)).head
      answers_discovering
    let later := (outs (step .little Config.exampleConfig) seen
      (step .little Config.exampleConfig first (.packet discovering)) joining).flatten
    later.length = 2 ∧
      ((outs (step .little Config.exampleConfig) (answers .little Config.exampleConfig) first
          (.packet discovering :: joining)).flatten.map Prod.snd).filter
            (fun reply => reply.hwAddr = client 1) =
        offer.2 :: (later.filter fun ev => ev.datagram.hwAddr = client 1).map fun ev =>
          ack Config.exampleConfig ev.datagram offer.2.assignedIp :=
  ⟨by decide +kernel, newcomer_gets_address .little Config.exampleConfig .empty [] 100 discovering
    joining (by decide +kernel) (by decide) (by decide +kernel) _
    (List.head_mem answers_discovering) (by decide +kernel) (by decide +kernel)⟩

end TinyDhcpd.Restart
