import EdgeShield.Discovery.ChangeLog

/-!
# The times of a record

A record has two times: `firstSeen`, read from the clock inside `Device::new`, and
`lastSeen`, the time of the packet, which `process_packet` has read before.  So a
record starts with a `firstSeen` that is not older than its `lastSeen`, and younger
as soon as the clock ticks between the two reads.

With a clock that never goes back (`ClockMonotone`) `lastSeen` never goes back
either.  That `firstSeen` is not after `lastSeen` holds in exactly the runs where each
record is created in the same instant as its packet is timed (`SameInstant`).
-/

namespace EdgeShield.Discovery

open EdgeShield.Lib EdgeShield.Common EdgeShield.Packet EdgeShield.Protocol EdgeShield.Storage
open EdgeShield.Common (Protocol)

/-- The clock reads of the frames, in order.  A read that is not made can stand at the
value of the one before it. -/
def clockReads (frames : List Frame) : List Int :=
  frames.flatMap fun f =>
    [f.clock.packet.nanos, f.clock.newSource.nanos, f.clock.newDestination.nanos]

def ClockMonotone (frames : List Frame) : Prop := (clockReads frames).Pairwise (· ≤ ·)

instance (frames : List Frame) : Decidable (ClockMonotone frames) :=
  inferInstanceAs (Decidable (List.Pairwise _ _))

def TimesOrdered (s : MemoryStore) : Prop :=
  ∀ m d, s.get m = some d → d.firstSeen.nanos ≤ d.lastSeen.nanos

/-- No record of `s` is gone in `s'` or was last seen earlier there. -/
def LastSeenKept (s s' : MemoryStore) : Prop :=
  ∀ m d, s.get m = some d → ∃ d', s'.get m = some d' ∧ d.lastSeen.nanos ≤ d'.lastSeen.nanos

section Run

variable (ouiMap : Nat → Option String)

/-- In every state of the run over the frames the times are ordered, and from each
state to each later one they do not go back. -/
def TimesKept (frames : List Frame) : Prop :=
  (∀ pre post s outs, frames = pre ++ post → (discovery ouiMap).run .new pre = some (s, outs) →
    TimesOrdered s) ∧
  ∀ pre mid post s outs s' outs', frames = pre ++ mid ++ post →
    (discovery ouiMap).run .new pre = some (s, outs) →
    (discovery ouiMap).run s mid = some (s', outs') → LastSeenKept s s'

/-- An endpoint that gets a record gets it in the instant of its packet. -/
def SameInstant (s : MemoryStore) (f : Frame) : Prop :=
  ∀ x, sight f.buf = .ok (some x) →
    (s.get x.srcMac = none → f.clock.newSource = f.clock.packet) ∧
    (x.dstMac ≠ x.srcMac → s.get x.dstMac = none → f.clock.newDestination = f.clock.packet)

variable {ouiMap}

/-! ### The reads of a frame -/

theorem clockReads_append (fs gs : List Frame) :
    clockReads (fs ++ gs) = clockReads fs ++ clockReads gs := List.flatMap_append

theorem ClockMonotone.append {fs gs : List Frame} (h : ClockMonotone (fs ++ gs)) :
    ClockMonotone fs ∧ ClockMonotone gs := by
  rw [ClockMonotone, clockReads_append, List.pairwise_append] at h
  exact ⟨h.1, h.2.1⟩

theorem ClockMonotone.packet_le {fs gs : List Frame} (h : ClockMonotone (fs ++ gs)) {f g : Frame}
    (hf : f ∈ fs) (hg : g ∈ gs) : f.clock.packet.nanos ≤ g.clock.packet.nanos := by
  rw [ClockMonotone, clockReads_append, List.pairwise_append] at h
  exact h.2.2 _ (List.mem_flatMap.mpr ⟨f, hf, List.mem_cons_self⟩) _
    (List.mem_flatMap.mpr ⟨g, hg, List.mem_cons_self⟩)

theorem ClockMonotone.reads {fs gs : List Frame} {f : Frame} (h : ClockMonotone (fs ++ f :: gs)) :
    f.clock.packet.nanos ≤ f.clock.newSource.nanos ∧
      f.clock.packet.nanos ≤ f.clock.newDestination.nanos := by
  have hf := h.append.2
  simp only [ClockMonotone, clockReads, List.flatMap_cons, List.cons_append,
    List.pairwise_cons] at hf
  exact ⟨hf.1 _ (by simp), hf.1 _ (by simp)⟩

/-! ### One frame -/

/-- A record after a frame: it is the old one, or the frame shows its MAC, and then it
was last seen with the frame and first seen as before, or now. -/
theorem record_step {s s' : MemoryStore} {f : Frame} {evs : List DiscoveryEvent}
    (hs : (discovery ouiMap).step s f = some (s', evs)) {m : MacAddress} {d' : Device}
    (hd' : s'.get m = some d') :
    s.get m = some d' ∨
    (d'.lastSeen = f.clock.packet ∧ ∃ x, sight f.buf = .ok (some x) ∧
      ((∃ d, s.get m = some d ∧ d'.firstSeen = d.firstSeen) ∨
        s.get m = none ∧ m = x.srcMac ∧ d'.firstSeen = f.clock.newSource ∨
        s.get m = none ∧ m ≠ x.srcMac ∧ m = x.dstMac ∧ d'.firstSeen = f.clock.newDestination)) := by
  cases macStep_of_step ouiMap hs m with
  | absent _ hget _ =>
    rw [hget] at hd'
    exact .inl hd'
  | source x hx hsrc hget _ =>
    subst hsrc
    rw [hget] at hd'
    cases hd'
    refine .inr ⟨by rw [sourceRecord_eq], x, hx, ?_⟩
    rw [sourceRecord_eq, oldSource]
    cases hg : s.get x.srcMac with
    | some d => exact .inl ⟨d, rfl, rfl⟩
    | none => exact .inr (.inl ⟨rfl, rfl, rfl⟩)
  | destination x hx hsrc hdst hget _ =>
    subst hdst
    rw [hget] at hd'
    cases hd'
    refine .inr ⟨by rw [destinationRecord_eq], x, hx, ?_⟩
    rw [destinationRecord_eq, oldDestination]
    cases hg : s.get x.dstMac with
    | some d => exact .inl ⟨d, rfl, rfl⟩
    | none => exact .inr (.inr ⟨rfl, hsrc, rfl, rfl⟩)

theorem lastSeen_step {s s' : MemoryStore} {f : Frame} {evs : List DiscoveryEvent}
    (hs : (discovery ouiMap).step s f = some (s', evs)) {m : MacAddress} {d : Device}
    (hd : s.get m = some d) :
    ∃ d', s'.get m = some d' ∧ (d'.lastSeen = d.lastSeen ∨ d'.lastSeen = f.clock.packet) := by
  obtain ⟨d', hd', _⟩ := reports_iff_changed hs hd
  refine ⟨d', hd', ?_⟩
  rcases record_step hs hd' with h | ⟨h, _⟩
  · rw [hd] at h
    cases h
    exact .inl rfl
  · exact .inr h

/-! ### Runs -/

theorem lastSeen_run {frames : List Frame} {s : MemoryStore} {outs : List (List DiscoveryEvent)}
    (h : (discovery ouiMap).run .new frames = some (s, outs)) :
    ∀ m d, s.get m = some d → ∃ f ∈ frames, d.lastSeen = f.clock.packet := by
  refine (discovery ouiMap).run_induction
    (P := fun frames _ s => ∀ m d, s.get m = some d → ∃ f ∈ frames, d.lastSeen = f.clock.packet)
    ?_ ?_ h
  · intro m d hd
    rw [MemoryStore.get_new] at hd
    cases hd
  · intro frames outs s f s' evs _ ih hs m d' hd'
    rcases record_step hs hd' with hd | ⟨hlast, _⟩
    · obtain ⟨g, hg, hl⟩ := ih m d' hd
      exact ⟨g, List.mem_append_left _ hg, hl⟩
    · exact ⟨f, List.mem_concat_self, hlast⟩

/-- **`lastSeen` never goes back**, from any reachable table on. -/
theorem lastSeenKept_run {pre mid : List Frame} {s s' : MemoryStore}
    {outs outs' : List (List DiscoveryEvent)} (hclock : ClockMonotone (pre ++ mid))
    (h : (discovery ouiMap).run .new pre = some (s, outs))
    (h' : (discovery ouiMap).run s mid = some (s', outs')) : LastSeenKept s s' := by
  refine (discovery ouiMap).run_induction
    (P := fun mid _ s' => ClockMonotone (pre ++ mid) → LastSeenKept s s') ?_ ?_ h' hclock
  · intro _ m d hd
    exact ⟨d, hd, le_refl _⟩
  · intro mid outs' s₁ f s₂ evs hr ih hs hclock m d hd
    rw [← List.append_assoc] at hclock
    obtain ⟨d₁, hd₁, hle⟩ := ih hclock.append.1 m d hd
    obtain ⟨d₂, hd₂, hlast⟩ := lastSeen_step hs hd₁
    refine ⟨d₂, hd₂, ?_⟩
    rcases hlast with hlast | hlast
    · rw [hlast]
      exact hle
    · obtain ⟨g, hg, hl⟩ :=
        lastSeen_run ((discovery ouiMap).run_append.mpr ⟨s, outs, outs', h, hr, rfl⟩) m d₁ hd₁
      rw [hl] at hle
      rw [hlast]
      exact hle.trans (hclock.packet_le hg (List.mem_singleton_self f))

theorem timesOrdered_run {frames : List Frame} {s : MemoryStore}
    {outs : List (List DiscoveryEvent)} (hclock : ClockMonotone frames)
    (h : (discovery ouiMap).run .new frames = some (s, outs))
    (hok : (discovery ouiMap).Meets SameInstant .new frames) : TimesOrdered s := by
  refine (discovery ouiMap).run_induction_of_meets
    (P := fun frames _ s => ClockMonotone frames → TimesOrdered s) ?_ ?_ h hok hclock
  · intro _ m d hd
    rw [MemoryStore.get_new] at hd
    cases hd
  · intro frames outs s f s' evs hr ih hsame hs hclock m d' hd'
    have hold := ih hclock.append.1
    rcases record_step hs hd' with hd | ⟨hlast, x, hx, hcase⟩
    · exact hold m d' hd
    obtain ⟨hsrc, hdst⟩ := hsame x hx
    rcases hcase with ⟨d, hd, hfirst⟩ | ⟨hnew, rfl, hfirst⟩ | ⟨hnew, hne, rfl, hfirst⟩
    · obtain ⟨g, hg, hl⟩ := lastSeen_run hr m d hd
      have hle := hold m d hd
      rw [hl] at hle
      rw [hfirst, hlast]
      exact hle.trans (hclock.packet_le hg (List.mem_singleton_self f))
    · rw [hfirst, hlast, hsrc hnew]
    · rw [hfirst, hlast, hdst hne hnew]

theorem sameInstant_of_timesOrdered {s s' : MemoryStore} {f : Frame} {evs : List DiscoveryEvent}
    (hs : (discovery ouiMap).step s f = some (s', evs)) (hord : TimesOrdered s')
    (hsrc : f.clock.packet.nanos ≤ f.clock.newSource.nanos)
    (hdst : f.clock.packet.nanos ≤ f.clock.newDestination.nanos) : SameInstant s f := by
  intro x hx
  rcases (discovery_step ouiMap).mp hs with ⟨hnone, _⟩ | ⟨y, hy, hu⟩
  · rw [hx] at hnone
    cases hnone
  rw [hx] at hy
  cases hy
  have hget := get_updateDevices ouiMap s x f.clock
  rw [hu] at hget
  have hnanos : ∀ t t' : Timestamp, t.nanos ≤ t'.nanos → t'.nanos ≤ t.nanos → t = t' :=
    fun t t' h h' => congrArg Timestamp.mk (le_antisymm h h')
  constructor
  · intro hnew
    have hle := hord x.srcMac _ (by rw [hget, if_pos rfl])
    rw [sourceRecord_eq, oldSource, hnew] at hle
    exact hnanos _ _ hle hsrc
  · intro hne hnew
    have hle := hord x.dstMac _ (by rw [hget, if_neg hne, if_pos rfl])
    rw [destinationRecord_eq, oldDestination, hnew] at hle
    exact hnanos _ _ hle hdst

/-- **When the times of the records are in order.**  With a clock that never goes
back, a run keeps the times exactly when it creates every record in the instant of its
packet. -/
theorem timesKept_iff_sameInstant {frames : List Frame} {s : MemoryStore}
    {outs : List (List DiscoveryEvent)} (hclock : ClockMonotone frames)
    (h : (discovery ouiMap).run .new frames = some (s, outs)) :
    TimesKept ouiMap frames ↔ (discovery ouiMap).Meets SameInstant .new frames := by
  constructor
  · rintro ⟨hord, _⟩
    refine (discovery ouiMap).meets_iff.mpr ?_
    rintro pre f post s₁ outs₁ rfl h₁
    obtain ⟨s₁', _, _, h₁', h₂, _⟩ := (discovery ouiMap).run_append.mp h
    rw [h₁] at h₁'
    cases h₁'
    obtain ⟨s₂, evs, _, hs, _, _⟩ := (discovery ouiMap).run_cons.mp h₂
    have hpre : (discovery ouiMap).run .new (pre ++ [f]) = some (s₂, outs₁ ++ [evs]) :=
      (discovery ouiMap).run_snoc.mpr ⟨s₁, outs₁, evs, h₁, hs, rfl⟩
    obtain ⟨hsrc, hdst⟩ := hclock.reads
    exact sameInstant_of_timesOrdered hs (hord _ post _ _ (by simp) hpre) hsrc hdst
  · intro hok
    constructor
    · rintro pre post s₁ outs₁ rfl h₁
      exact timesOrdered_run hclock.append.1 h₁ (((discovery ouiMap).meets_append h₁).mp hok).1
    · rintro pre mid post s₁ outs₁ s₂ outs₂ rfl h₁ h₂
      exact lastSeenKept_run hclock.append.1 h₁ h₂

end Run

/-- A frame whose three clock reads all return the same time. -/
def frozenFrame : Frame :=
  { bareFrame (8, 6) with clock := ⟨⟨7⟩, ⟨7⟩, ⟨7⟩⟩ }

theorem timesKept_of_frozenFrame :
    TimesKept (fun _ => none) [frozenFrame, frozenFrame] := by
  obtain ⟨⟨s, outs⟩, h⟩ := Option.isSome_iff_exists.mp
    (by decide : ((discovery fun _ => none).run .new [frozenFrame, frozenFrame]).isSome = true)
  refine (timesKept_iff_sameInstant (by decide) h).mpr ?_
  refine (discovery fun _ => none).meets_iff.mpr ?_
  rintro pre f post s₁ outs₁ he _ x _
  have hf : f = frozenFrame := by
    have hmem : f ∈ [frozenFrame, frozenFrame] := he ▸ List.mem_append_right _ List.mem_cons_self
    simpa using hmem
  rw [hf]
  exact ⟨fun _ => rfl, fun _ _ => rfl⟩

/-- **The clock ticks between the two reads**, and the record of the sender is first
seen after it is last seen. -/
theorem timesKept_broken_by_tick :
    ClockMonotone [bareFrame (8, 6)] ∧ ¬TimesKept (fun _ => none) [bareFrame (8, 6)] := by
  refine ⟨by decide, fun hkept => ?_⟩
  obtain ⟨⟨s, outs⟩, h⟩ := Option.isSome_iff_exists.mp
    (by decide : ((discovery fun _ => none).run .new [bareFrame (8, 6)]).isSome = true)
  have hview : ((discovery fun _ => none).run .new [bareFrame (8, 6)]).bind (fun r =>
      (r.1.get (.ofBytes 0x00 0x11 0x22 0x33 0x44 0x55)).map fun d =>
        (d.firstSeen.nanos, d.lastSeen.nanos)) = some (1, 0) := by decide +kernel
  rw [h, Option.bind_some] at hview
  obtain ⟨d, hd, htimes⟩ := Option.map_eq_some_iff.mp hview
  obtain ⟨hfirst, hlast⟩ := Prod.mk.inj htimes
  have hle := hkept.1 _ [] s outs (List.append_nil _).symm h _ d hd
  omega

end EdgeShield.Discovery
