import EdgeShield.Discovery.Engine
import Mathlib.Algebra.GroupWithZero.Nat

/-!
# The device table counts frames

After any run of the discovery engine from an empty table, the table is a tally of
the decoded frames.  A MAC has a record exactly when it was an endpoint of one of
them, and `Accounts` says what its counters, protocols, statistics and addresses
then are, as counts, sums and sets over the frames.  Every counter stops at
`u64Max`.

`Accounts.snoc` is the step: one more frame with `m` as an endpoint.  The source and
the destination block of `update_devices` are its two uses, with the byte count on
one side or the other.  None of the quantities in `Accounts` depends on the order of
the frames, so two runs over the same frames in different order end with the same
tally (`tally_run_perm`).
-/

namespace EdgeShield.Discovery

open EdgeShield.Lib EdgeShield.Common EdgeShield.Packet EdgeShield.Protocol EdgeShield.Storage
open EdgeShield.Common (Protocol)

/-! ### Frames and their endpoints -/

def packetSrc (p : DecodedPacket) : MacAddress := ⟨p.ethernet.source⟩
def packetDst (p : DecodedPacket) : MacAddress := ⟨p.ethernet.destination⟩

def decodedFrames (frames : List Frame) : List DecodedPacket :=
  frames.filterMap fun f => Except.toOption (decodePacket f.buf)

def involves (m : MacAddress) (p : DecodedPacket) : Bool := packetSrc p = m || packetDst p = m

def sentBy (m : MacAddress) (p : DecodedPacket) : Bool := packetSrc p = m

/-- `m` is the destination, and not the source as well. -/
def receivedBy (m : MacAddress) (p : DecodedPacket) : Bool := packetDst p = m && packetSrc p ≠ m

def totalBytes (ps : List DecodedPacket) : Nat := (ps.map fun p => p.raw.raw.length).sum

/-- The tally of the packets `ps` for the MAC `m`, as the record `d` shows it. -/
structure Accounts (ps : List DecodedPacket) (m : MacAddress) (d : Device) : Prop where
  packetCount : d.packetCount = min u64Max (ps.countP (involves m))
  bytesSent : d.bytesSent = min u64Max (totalBytes (ps.filter (sentBy m)))
  bytesReceived : d.bytesReceived = min u64Max (totalBytes (ps.filter (receivedBy m)))
  protocols : d.protocols = ((ps.filter (involves m)).map classify).toFinset
  protocolStats : ∀ q, d.protocolStats.lookup q =
    if q ∈ d.protocols then
      some (min u64Max (ps.countP fun p => involves m p && decide (classify p = q)))
    else none
  ips : ∀ ip, ip ∈ d.ips ↔ ∃ p ∈ ps, involves m p ∧ ip ∈ packetIps p

/-! ### One more frame -/

theorem totalBytes_filter_snoc (f : DecodedPacket → Bool) (ps : List DecodedPacket)
    (p : DecodedPacket) :
    totalBytes ((ps ++ [p]).filter f) =
      totalBytes (ps.filter f) + if f p then p.raw.raw.length else 0 := by
  rw [totalBytes, totalBytes, List.filter_append, List.map_append, List.sum_append]
  cases h : f p <;> simp [h]

theorem saturatingAdd_filter_snoc {n : Nat} {f : DecodedPacket → Bool} {ps : List DecodedPacket}
    (h : n = min u64Max (totalBytes (ps.filter f))) (p : DecodedPacket) :
    saturatingAdd n (if f p then p.raw.raw.length else 0) =
      min u64Max (totalBytes ((ps ++ [p]).filter f)) := by
  rw [h, saturatingAdd_min, totalBytes_filter_snoc]

theorem Accounts.of_unseen {ps : List DecodedPacket} {m : MacAddress}
    (h : ∀ p ∈ ps, involves m p = false) (ouiMap : Nat → Option String) (now : Timestamp) :
    Accounts ps m (newDevice ouiMap m now) := by
  have hinv : ps.filter (involves m) = [] :=
    List.filter_eq_nil_iff.mpr fun p hp => by simp [h p hp]
  have hsent : ps.filter (sentBy m) = [] := by
    refine List.filter_eq_nil_iff.mpr fun p hp hs => ?_
    have := h p hp
    simp_all [involves, sentBy]
  have hrecv : ps.filter (receivedBy m) = [] := by
    refine List.filter_eq_nil_iff.mpr fun p hp hr => ?_
    have := h p hp
    simp_all [involves, receivedBy]
  have hcount : ps.countP (involves m) = 0 :=
    List.countP_eq_zero.mpr fun p hp => by simp [h p hp]
  constructor
  · rw [hcount]; rfl
  · rw [hsent]; rfl
  · rw [hrecv]; rfl
  · rw [hinv]; rfl
  · intro q; rfl
  · intro ip
    refine ⟨fun hip => absurd hip (Finset.notMem_empty ip), ?_⟩
    rintro ⟨p, hp, hi, _⟩
    rw [h p hp] at hi
    cases hi

theorem Accounts.snoc_of_not_involves {ps : List DecodedPacket} {m : MacAddress} {d : Device}
    {p : DecodedPacket} (h : Accounts ps m d) (hp : involves m p = false) :
    Accounts (ps ++ [p]) m d := by
  have hsent : sentBy m p = false := by simp_all [involves, sentBy]
  have hrecv : receivedBy m p = false := by simp_all [involves, receivedBy]
  constructor
  · rw [List.countP_append, List.countP_singleton, hp]
    exact h.packetCount
  · rw [totalBytes_filter_snoc, hsent]
    exact h.bytesSent
  · rw [totalBytes_filter_snoc, hrecv]
    exact h.bytesReceived
  · rw [List.filter_append, List.filter_singleton, hp]
    simpa using h.protocols
  · intro q
    rw [List.countP_append, List.countP_singleton, hp]
    exact h.protocolStats q
  · intro ip
    rw [h.ips]
    simp [hp]

/-- **One more frame with `m` as an endpoint.** -/
theorem Accounts.snoc {ps : List DecodedPacket} {m : MacAddress} {d d' : Device}
    {p : DecodedPacket} (h : Accounts ps m d) (hp : involves m p = true)
    (hcount : d'.packetCount = saturatingAdd d.packetCount 1)
    (hsent : d'.bytesSent =
      saturatingAdd d.bytesSent (if sentBy m p then p.raw.raw.length else 0))
    (hrecv : d'.bytesReceived =
      saturatingAdd d.bytesReceived (if receivedBy m p then p.raw.raw.length else 0))
    (hprot : d'.protocols = insert (classify p) d.protocols)
    (hstats : d'.protocolStats = d.protocolStats.bump (classify p))
    (hips : d'.ips = d.ips ∪ packetIps p) : Accounts (ps ++ [p]) m d' := by
  constructor
  · rw [hcount, h.packetCount, saturatingAdd_min, List.countP_append, List.countP_singleton,
      if_pos hp]
  · rw [hsent, saturatingAdd_filter_snoc h.bytesSent]
  · rw [hrecv, saturatingAdd_filter_snoc h.bytesReceived]
  · rw [hprot, h.protocols, List.filter_append, List.filter_singleton, hp]
    ext q
    simp
  · intro q
    rw [hstats, ProtocolStats.lookup_bump, hprot, List.countP_append, List.countP_singleton, hp,
      Bool.true_and]
    by_cases hq : q = classify p
    · -- the old count is `0` where there was no entry, because no frame had this protocol
      have hold : (d.protocolStats.lookup (classify p)).getD 0 =
          min u64Max (ps.countP fun r => involves m r && decide (classify r = classify p)) := by
        rw [h.protocolStats]
        split
        · rfl
        · next hn =>
          have hzero : (ps.countP fun r => involves m r && decide (classify r = classify p)) = 0 := by
            refine List.countP_eq_zero.mpr fun r hr hc => hn ?_
            rw [Bool.and_eq_true, decide_eq_true_eq] at hc
            rw [h.protocols, List.mem_toFinset, ← hc.2]
            exact List.mem_map_of_mem (List.mem_filter.mpr ⟨hr, hc.1⟩)
          rw [hzero]
          rfl
      rw [if_pos hq, if_pos (by rw [hq]; exact Finset.mem_insert_self _ _), hq, hold,
        saturatingAdd_min]
      simp
    · rw [if_neg hq, h.protocolStats]
      simp only [Finset.mem_insert, hq, false_or, Ne.symm hq, decide_false, Bool.false_eq_true,
        if_false, Nat.add_zero]
  · intro ip
    rw [hips, Finset.mem_union, h.ips]
    constructor
    · rintro (⟨r, hr, hi, hm⟩ | hm)
      · exact ⟨r, List.mem_append_left _ hr, hi, hm⟩
      · exact ⟨p, List.mem_append_right _ (List.mem_singleton.mpr rfl), hp, hm⟩
    · rintro ⟨r, hr, hi, hm⟩
      rcases List.mem_append.mp hr with hr | hr
      · exact Or.inl ⟨r, hr, hi, hm⟩
      · rw [List.mem_singleton.mp hr] at hm
        exact Or.inr hm

theorem Accounts.bytesSent_le {ps : List DecodedPacket} {m : MacAddress} {d : Device}
    (h : Accounts ps m d) : saturatingAdd d.bytesSent 0 = d.bytesSent := by
  rw [h.bytesSent, saturatingAdd_min, Nat.add_zero]

theorem Accounts.bytesReceived_le {ps : List DecodedPacket} {m : MacAddress} {d : Device}
    (h : Accounts ps m d) : saturatingAdd d.bytesReceived 0 = d.bytesReceived := by
  rw [h.bytesReceived, saturatingAdd_min, Nat.add_zero]

theorem Accounts.sourceRecord {ps : List DecodedPacket} {d : Device} {x : Sighting}
    (h : Accounts ps x.srcMac d) (hx : x.protocol = classify x.packet) (now : Timestamp) :
    Accounts (ps ++ [x.packet]) x.srcMac (sourceRecord x now d) := by
  have hsent : sentBy x.srcMac x.packet = true := decide_eq_true rfl
  have hrecv : receivedBy x.srcMac x.packet = false := by
    simp [receivedBy, packetSrc, Sighting.srcMac]
  rw [sourceRecord_eq, hx]
  refine h.snoc (by rw [involves, Bool.or_eq_true]; exact Or.inl hsent) rfl ?_ ?_ rfl rfl rfl
  · rw [if_pos hsent]
    rfl
  · rw [hrecv]
    exact h.bytesReceived_le.symm

theorem Accounts.destinationRecord {ps : List DecodedPacket} {d : Device} {x : Sighting}
    (h : Accounts ps x.dstMac d) (hx : x.protocol = classify x.packet)
    (hne : x.srcMac ≠ x.dstMac) (now : Timestamp) :
    Accounts (ps ++ [x.packet]) x.dstMac (destinationRecord x now d) := by
  have hsent : sentBy x.dstMac x.packet = false := decide_eq_false hne
  have hdst : packetDst x.packet = x.dstMac := rfl
  have hrecv : receivedBy x.dstMac x.packet = true := by
    rw [receivedBy, Bool.and_eq_true]
    exact ⟨decide_eq_true hdst, decide_eq_true hne⟩
  rw [destinationRecord_eq, hx]
  refine h.snoc ?_ rfl ?_ ?_ rfl rfl rfl
  · rw [involves, Bool.or_eq_true]
    exact Or.inr (decide_eq_true hdst)
  · rw [hsent]
    exact h.bytesSent_le.symm
  · rw [if_pos hrecv]
    rfl

/-! ### Runs -/

def Tallies (ps : List DecodedPacket) (s : MemoryStore) : Prop :=
  ∀ m, ((∃ d, s.get m = some d) ↔ ∃ p ∈ ps, involves m p) ∧
    ∀ d, s.get m = some d → Accounts ps m d

theorem Tallies.accounts_getD {ps : List DecodedPacket} {s : MemoryStore} (h : Tallies ps s)
    (m : MacAddress) (ouiMap : Nat → Option String) (now : Timestamp) :
    Accounts ps m ((s.get m).getD (newDevice ouiMap m now)) := by
  cases hg : s.get m with
  | some d => exact (h m).2 d hg
  | none =>
    refine Accounts.of_unseen (fun p hp => ?_) ouiMap now
    by_contra hi
    obtain ⟨d, hd⟩ := (h m).1.mpr ⟨p, hp, by simpa using hi⟩
    rw [hg] at hd
    cases hd

theorem Tallies.updateDevices {ps : List DecodedPacket} {s : MemoryStore} (h : Tallies ps s)
    (ouiMap : Nat → Option String) {x : Sighting} (hx : x.protocol = classify x.packet)
    (clock : ClockReads) :
    Tallies (ps ++ [x.packet]) (updateDevices ouiMap s x clock).1 := by
  intro m
  have hsnoc : (∃ p ∈ ps ++ [x.packet], involves m p) ↔
      (∃ p ∈ ps, involves m p) ∨ involves m x.packet := by
    simp [or_and_right, exists_or]
  rw [get_updateDevices, hsnoc]
  by_cases hs : m = x.srcMac
  · subst hs
    have hinv : involves x.srcMac x.packet = true := by
      rw [involves, Bool.or_eq_true]
      exact Or.inl (decide_eq_true rfl)
    simp only [if_pos, Option.some.injEq, hinv, or_true, exists_eq', true_and]
    rintro d rfl
    exact (h.accounts_getD _ ouiMap clock.newSource).sourceRecord hx clock.packet
  by_cases hd : m = x.dstMac
  · subst hd
    have hinv : involves x.dstMac x.packet = true := by
      rw [involves, Bool.or_eq_true]
      exact Or.inr (decide_eq_true rfl)
    simp only [if_neg hs, if_pos, Option.some.injEq, hinv, or_true, exists_eq', true_and]
    rintro d rfl
    exact (h.accounts_getD _ ouiMap clock.newDestination).destinationRecord hx (Ne.symm hs)
      clock.packet
  · have hinv : involves m x.packet = false := by
      rw [involves, Bool.or_eq_false_iff]
      exact ⟨decide_eq_false (Ne.symm hs), decide_eq_false (Ne.symm hd)⟩
    simp only [if_neg hs, if_neg hd, hinv, Bool.false_eq_true, or_false]
    exact ⟨(h m).1, fun d hg => ((h m).2 d hg).snoc_of_not_involves hinv⟩

theorem decodedFrames_snoc (frames : List Frame) (f : Frame) :
    decodedFrames (frames ++ [f]) =
      decodedFrames frames ++ (Except.toOption (decodePacket f.buf)).toList := by
  rw [decodedFrames, List.filterMap_append, List.filterMap_cons]
  cases Except.toOption (decodePacket f.buf) <;> rfl

theorem tallies_run {ouiMap : Nat → Option String} {frames : List Frame} {s : MemoryStore}
    {outs : List (List DiscoveryEvent)}
    (h : (discovery ouiMap).run .new frames = some (s, outs)) :
    Tallies (decodedFrames frames) s := by
  refine (discovery ouiMap).run_induction (P := fun frames _ s => Tallies (decodedFrames frames) s)
    ?_ ?_ h
  · intro m
    simp [decodedFrames]
  · intro frames outs s f s' evs _ ih hstep
    rw [decodedFrames_snoc]
    rcases (discovery_step ouiMap).mp hstep with ⟨hs, rfl, _⟩ | ⟨x, hs, hu⟩
    · obtain ⟨e, he⟩ := sight_eq_none hs
      rw [he]
      simpa [Except.toOption, Run.err] using ih
    · obtain ⟨hdec, hx⟩ := sight_eq_some hs
      rw [hdec, show s' = (Discovery.updateDevices ouiMap s x f.clock).1 from by rw [hu]]
      exact ih.updateDevices ouiMap hx f.clock

/-! ### The order of the frames -/

/-- The fields of a record that the tally determines. -/
structure Tally where
  packetCount : Nat
  bytesSent : Nat
  bytesReceived : Nat
  protocols : Finset Protocol
  protocolStats : ProtocolStats
  ips : Finset IpAddr

def tallyOf (d : Device) : Tally :=
  ⟨d.packetCount, d.bytesSent, d.bytesReceived, d.protocols, d.protocolStats, d.ips⟩

theorem Accounts.tallyOf_eq {ps ps' : List DecodedPacket} {m : MacAddress} {d d' : Device}
    (hperm : ps.Perm ps') (h : Accounts ps m d) (h' : Accounts ps' m d') :
    tallyOf d = tallyOf d' := by
  have hbytes : ∀ f : DecodedPacket → Bool,
      totalBytes (ps.filter f) = totalBytes (ps'.filter f) :=
    fun f => ((hperm.filter f).map _).sum_eq
  have hprot : d.protocols = d'.protocols := by
    rw [h.protocols, h'.protocols]
    exact List.toFinset_eq_of_perm _ _ ((hperm.filter _).map _)
  have hstats : d.protocolStats = d'.protocolStats := by
    refine Finmap.ext_lookup fun q => ?_
    rw [h.protocolStats, h'.protocolStats, hprot, hperm.countP_eq]
  have hips : d.ips = d'.ips := by
    ext ip
    rw [h.ips, h'.ips]
    exact exists_congr fun p => and_congr_left fun _ => hperm.mem_iff
  simp only [tallyOf, h.packetCount, h'.packetCount, h.bytesSent, h'.bytesSent, h.bytesReceived,
    h'.bytesReceived, hbytes, hperm.countP_eq, hprot, hstats, hips]

theorem run_isSome_iff {ouiMap : Nat → Option String} {frames : List Frame} :
    ∀ {s : MemoryStore}, (∃ r, (discovery ouiMap).run s frames = some r) ↔
      ∀ f ∈ frames, ∃ r, sight f.buf = .ok r := by
  induction frames with
  | nil => intro s; simp
  | cons f frames ih =>
    intro s
    rw [List.forall_mem_cons]
    constructor
    · rintro ⟨⟨t, outs⟩, h⟩
      obtain ⟨s', evs, outs', hs, hr, _⟩ := (discovery ouiMap).run_cons.mp h
      refine ⟨?_, ih.mp ⟨_, hr⟩⟩
      rcases (discovery_step ouiMap).mp hs with ⟨hn, _⟩ | ⟨x, hx, _⟩
      · exact ⟨_, hn⟩
      · exact ⟨_, hx⟩
    · rintro ⟨⟨r, hr⟩, hrest⟩
      have hstep : ∃ s' evs, (discovery ouiMap).step s f = some (s', evs) := by
        cases r with
        | none => exact ⟨s, [], (discovery_step ouiMap).mpr (Or.inl ⟨hr, rfl, rfl⟩)⟩
        | some x => exact ⟨_, _, (discovery_step ouiMap).mpr (Or.inr ⟨x, hr, rfl⟩)⟩
      obtain ⟨s', evs, hs⟩ := hstep
      obtain ⟨⟨t, outs⟩, h⟩ := (ih (s := s')).mpr hrest
      exact ⟨_, (discovery ouiMap).run_cons.mpr ⟨s', evs, outs, hs, h, rfl⟩⟩

theorem tally_run_perm {ouiMap : Nat → Option String} {frames frames' : List Frame}
    {s : MemoryStore} {outs : List (List DiscoveryEvent)}
    (h : (discovery ouiMap).run .new frames = some (s, outs)) (hperm : frames'.Perm frames) :
    ∃ s' outs', (discovery ouiMap).run .new frames' = some (s', outs') ∧
      ∀ m, (s'.get m).map tallyOf = (s.get m).map tallyOf := by
  have hrun : ∃ r, (discovery ouiMap).run .new frames' = some r :=
    run_isSome_iff.mpr fun f hf => run_isSome_iff.mp ⟨_, h⟩ f (hperm.mem_iff.mp hf)
  obtain ⟨⟨s', outs'⟩, h'⟩ := hrun
  refine ⟨s', outs', h', fun m => ?_⟩
  have hps : (decodedFrames frames').Perm (decodedFrames frames) := hperm.filterMap _
  have ht := tallies_run h
  have ht' := tallies_run h'
  have hmem : (∃ d, s'.get m = some d) ↔ ∃ d, s.get m = some d := by
    rw [(ht' m).1, (ht m).1]
    exact exists_congr fun p => and_congr_left fun _ => hps.mem_iff
  cases hg' : s'.get m with
  | some d' =>
    obtain ⟨d, hg⟩ := hmem.mp ⟨d', hg'⟩
    rw [hg, Option.map_some, Option.map_some,
      Accounts.tallyOf_eq hps ((ht' m).2 d' hg') ((ht m).2 d hg)]
  | none =>
    cases hg : s.get m with
    | none => rfl
    | some d =>
      obtain ⟨d', hd'⟩ := hmem.mpr ⟨d, hg⟩
      rw [hg'] at hd'
      cases hd'

theorem step_of_err {ouiMap : Nat → Option String} {s : MemoryStore} {f : Frame} {e : PacketError}
    (h : decodePacket f.buf = .err e) : (discovery ouiMap).step s f = some (s, []) := by
  refine (discovery_step ouiMap).mpr (Or.inl ⟨?_, rfl, rfl⟩)
  rw [sight, h]
  rfl

/-- **The device table after a run** is the tally of the decoded frames, whatever
their order; frames that do not decode leave it alone. -/
theorem device_table_accounts {ouiMap : Nat → Option String} {frames : List Frame}
    {s : MemoryStore} {outs : List (List DiscoveryEvent)}
    (h : (discovery ouiMap).run .new frames = some (s, outs)) :
    (∀ m, ((∃ d, s.get m = some d) ↔ ∃ p ∈ decodedFrames frames, involves m p) ∧
      ∀ d, s.get m = some d → Accounts (decodedFrames frames) m d) ∧
    (∀ frames', frames'.Perm frames → ∃ s' outs',
      (discovery ouiMap).run .new frames' = some (s', outs') ∧
        ∀ m, (s'.get m).map tallyOf = (s.get m).map tallyOf) ∧
    ∀ t f e, decodePacket f.buf = .err e → (discovery ouiMap).step t f = some (t, []) :=
  ⟨tallies_run h, fun _ hperm => tally_run_perm h hperm, fun _ _ _ he => step_of_err he⟩

/-- An ARP broadcast from `00:11:22:33:44:55`. -/
def arpFrame : Frame where
  buf := ⟨[0xff, 0xff, 0xff, 0xff, 0xff, 0xff, 0x00, 0x11, 0x22, 0x33, 0x44, 0x55, 8, 6], 14⟩
  clock := ⟨⟨0⟩, ⟨1⟩, ⟨2⟩⟩

theorem device_table_accounts_arp :
    ∃ s outs d, (discovery fun _ => none).run .new [arpFrame, arpFrame] = some (s, outs) ∧
      s.get (.ofBytes 0x00 0x11 0x22 0x33 0x44 0x55) = some d ∧
      d.packetCount = 2 ∧ d.bytesSent = 28 ∧ d.protocols = {.arp} := by
  obtain ⟨⟨s, outs⟩, h⟩ := Option.isSome_iff_exists.mp
    (by decide : ((discovery fun _ => none).run .new [arpFrame, arpFrame]).isSome = true)
  have ht := (device_table_accounts h).1 (.ofBytes 0x00 0x11 0x22 0x33 0x44 0x55)
  obtain ⟨d, hd⟩ := ht.1.mpr (by decide)
  have ha := ht.2 d hd
  refine ⟨s, outs, d, h, hd, ?_, ?_, ?_⟩
  · rw [ha.packetCount]; decide +kernel
  · rw [ha.bytesSent]; decide +kernel
  · rw [ha.protocols]; decide +kernel

end EdgeShield.Discovery
