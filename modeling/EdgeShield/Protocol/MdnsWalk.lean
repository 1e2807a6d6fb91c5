import Mathlib.Order.Interval.Finset.Nat
import EdgeShield.Protocol.MdnsName

/-!
# The record walk of an mDNS message

`parse_mdns` on hostile bytes.  Each record that parses ends after it begins and inside
the payload (`parseRecord_cases`), so the walk over the three sections moves forward with
every record, whatever counts the header announces.  `walkSectionsTraced` is the walk
together with the offsets at which it calls `parse_record`; forgetting the offsets gives
back `walkSections`, and the offsets rise strictly up to the end of the payload.

`parseMdns_safe` collects what holds for every payload.
-/

namespace EdgeShield.Protocol

open EdgeShield.Lib

variable {payload : List UInt8}

/-! ### Records and questions -/

theorem u16At_of_lt {i : Nat} (h : i + 1 < payload.length) : ∃ n, u16At payload i = .ok n := by
  rw [u16At, index_eq_ok.mpr (List.getElem?_eq_getElem (by omega : i < payload.length)),
    Run.ok_bind, index_eq_ok.mpr (List.getElem?_eq_getElem h)]
  exact ⟨_, rfl⟩

theorem readNameInternal_bounds (payload : List UInt8) (offset : Nat) (collect : Bool) :
    readNameInternal payload offset collect = Run.none ∨
      ∃ e name, readNameInternal payload offset collect = .ok (e, name) ∧
        offset < e ∧ e ≤ payload.length := by
  rcases readNameInternal_cases payload offset collect with
    hnone | ⟨hops, e, rest, name, hwire, _, _, hok⟩
  · exact .inl hnone
  · exact .inr ⟨e, name, hok, hwire.lt_le⟩

/-- **One record**: it does not parse, or it ends after it begins and inside the
payload. -/
theorem parseRecord_cases (payload : List UInt8) (offset : Nat) :
    parseRecord payload offset = Run.none ∨
      ∃ record, parseRecord payload offset = .ok record ∧
        offset < record.nextOffset ∧ record.nextOffset ≤ payload.length := by
  rw [parseRecord]
  rcases readNameInternal_bounds payload offset true with hnone | ⟨e, name, hok, hlt, hle⟩
  · rw [readName, hnone]
    exact .inl rfl
  rw [readName, hok, Run.ok_bind]
  by_cases hshort : payload.length < e + 10
  · exact .inl (if_pos hshort)
  obtain ⟨recordType, htype⟩ := u16At_of_lt (by omega : e + 1 < payload.length)
  obtain ⟨rdlength, hrdlength⟩ := u16At_of_lt (by omega : e + 8 + 1 < payload.length)
  simp only [if_neg hshort, htype, Run.ok_bind, hrdlength]
  by_cases hcut : payload.length < e + 10 + rdlength
  · exact .inl (if_pos hcut)
  rw [if_neg hcut, slice_of_le (by omega) (by omega), Run.ok_bind]
  have hnext : offset < e + 10 + rdlength ∧ e + 10 + rdlength ≤ payload.length := by omega
  split
  · rcases readNameInternal_bounds payload (e + 10) true with hnone | ⟨e', name', hok', _⟩
    · rw [readName, hnone]
      exact .inl rfl
    · rw [readName, hok']
      exact .inr ⟨_, rfl, hnext⟩
  · split
    · rcases readNameInternal_bounds payload (e + 10 + 6) true with hnone | ⟨e', name', hok', _⟩
      · rw [readName, hnone]
        exact .inl rfl
      · rw [readName, hok']
        exact .inr ⟨_, rfl, hnext⟩
    · exact .inr ⟨_, rfl, hnext⟩

theorem skipQuestions_cases (payload : List UInt8) (qdcount : Nat) :
    ∀ {offset : Nat}, offset ≤ payload.length →
      skipQuestions payload qdcount offset = Run.none ∨
        ∃ e, skipQuestions payload qdcount offset = .ok e ∧ offset ≤ e ∧ e ≤ payload.length := by
  induction qdcount with
  | zero =>
    intro offset hle
    exact .inr ⟨offset, rfl, le_refl offset, hle⟩
  | succ qdcount ih =>
    intro offset _
    rw [skipQuestions, skipName]
    rcases readNameInternal_bounds payload offset false with hnone | ⟨e, name, hok, hlt, _⟩
    · rw [hnone]
      exact .inl rfl
    rw [hok, Run.ok_bind]
    by_cases hcut : payload.length < e + 4
    · exact .inl (if_pos hcut)
    · simp only [if_neg hcut]
      rcases ih (by omega : e + 4 ≤ payload.length) with hnone | ⟨e', hok', hge, hle⟩
      · exact .inl hnone
      · exact .inr ⟨e', hok', by omega, hle⟩

/-! ### The walk with its steps -/

/-- `walkSection`, with the offsets at which it calls `parse_record`. -/
def walkSectionTraced (payload : List UInt8) :
    Nat → Nat → MdnsInfo → Run Unit (Walk × List Nat)
  | 0, offset, info => return (.next offset info, [])
  | count + 1, offset, info => do
    match ← Run.toOption (parseRecord payload offset) with
    | none => return (.stop info, [offset])
    | some record =>
      let (walk, steps) ←
        walkSectionTraced payload count record.nextOffset (info.addRecord record)
      return (walk, offset :: steps)

def walkSectionsTraced (payload : List UInt8) :
    List Nat → Nat → MdnsInfo → Run Unit (Walk × List Nat)
  | [], offset, info => return (.next offset info, [])
  | count :: counts, offset, info => do
    match ← walkSectionTraced payload count offset info with
    | (.next offset info, steps) =>
      let (walk, steps') ← walkSectionsTraced payload counts offset info
      return (walk, steps ++ steps')
    | (.stop info, steps) => return (.stop info, steps)

/-- Where the walk may still go: to the end of the payload, and one step beyond it when
the next record does not parse. -/
def Walk.position (payload : List UInt8) : Walk → Nat
  | next offset _ => offset
  | stop _ => payload.length + 1

/-- The steps rise strictly, from `offset` on and below `last`. -/
structure StepsBetween (offset last : Nat) (steps : List Nat) : Prop where
  rising : steps.Pairwise (· < ·)
  bounds : ∀ step ∈ steps, offset ≤ step ∧ step < last

theorem StepsBetween.nil (offset last : Nat) : StepsBetween offset last [] :=
  ⟨.nil, fun _ h => absurd h List.not_mem_nil⟩

theorem StepsBetween.append {offset mid last : Nat} {steps steps' : List Nat}
    (h : StepsBetween offset mid steps) (h' : StepsBetween mid last steps') (hle : offset ≤ mid)
    (hle' : mid ≤ last) : StepsBetween offset last (steps ++ steps') := by
  refine ⟨List.pairwise_append.mpr ⟨h.rising, h'.rising, fun a ha b hb => ?_⟩, fun step hs => ?_⟩
  · exact lt_of_lt_of_le (h.bounds a ha).2 (h'.bounds b hb).1
  · rcases List.mem_append.mp hs with hs | hs
    · obtain ⟨hlo, hhi⟩ := h.bounds step hs
      omega
    · obtain ⟨hlo, hhi⟩ := h'.bounds step hs
      omega

theorem StepsBetween.singleton {offset last : Nat} (h : offset < last) :
    StepsBetween offset last [offset] := by
  refine ⟨List.pairwise_singleton _ _, fun step hs => ?_⟩
  rw [List.mem_singleton.mp hs]
  exact ⟨le_refl offset, h⟩

theorem StepsBetween.length_le {offset last : Nat} {steps : List Nat}
    (h : StepsBetween offset last steps) : steps.length ≤ last - offset := by
  have hsub : steps.toFinset ⊆ Finset.Ico offset last := by
    intro step hs
    exact Finset.mem_Ico.mpr (h.bounds step (List.mem_toFinset.mp hs))
  have hcard := Finset.card_le_card hsub
  rw [List.toFinset_card_of_nodup (h.rising.imp ne_of_lt), Nat.card_Ico] at hcard
  exact hcard

theorem walkSection_steps (payload : List UInt8) (count : Nat) :
    ∀ (offset : Nat) (info : MdnsInfo), offset ≤ payload.length →
      ∃ walk steps, walkSectionTraced payload count offset info = .ok (walk, steps) ∧
        walkSection payload count offset info = .ok walk ∧
        offset ≤ walk.position payload ∧ walk.position payload ≤ payload.length + 1 ∧
        (∀ next info', walk = .next next info' → next ≤ payload.length) ∧
        StepsBetween offset (walk.position payload) steps := by
  induction count with
  | zero =>
    intro offset info hle
    refine ⟨.next offset info, [], rfl, rfl, le_refl offset, ?_, ?_, .nil _ _⟩
    · simp only [Walk.position]
      omega
    · rintro next info' ⟨⟩
      exact hle
  | succ count ih =>
    intro offset info hle
    rw [walkSectionTraced, walkSection]
    rcases parseRecord_cases payload offset with hnone | ⟨record, hok, hlt, hnext⟩
    · rw [hnone]
      refine ⟨.stop info, [offset], rfl, rfl, ?_, le_refl _, ?_, .singleton ?_⟩
      · simp only [Walk.position]
        omega
      · rintro next info' ⟨⟩
      · simp only [Walk.position]
        omega
    · obtain ⟨walk, steps, htraced, hwalk, hge, hle', hmore, hsteps⟩ :=
        ih record.nextOffset (info.addRecord record) hnext
      rw [hok]
      simp only [Run.toOption, Run.ok_bind, htraced, hwalk]
      refine ⟨walk, offset :: steps, rfl, rfl, by omega, hle', hmore, ?_⟩
      exact (StepsBetween.singleton hlt).append hsteps (by omega) hge

/-- **The walk over the sections** is the traced walk without the offsets, and the
offsets rise strictly. -/
theorem walkSections_steps (payload : List UInt8) (counts : List Nat) :
    ∀ (offset : Nat) (info : MdnsInfo), offset ≤ payload.length →
      ∃ walk steps, walkSectionsTraced payload counts offset info = .ok (walk, steps) ∧
        walkSections payload counts offset info = .ok walk ∧
        StepsBetween offset (payload.length + 1) steps := by
  induction counts with
  | nil =>
    intro offset info _
    exact ⟨.next offset info, [], rfl, rfl, .nil _ _⟩
  | cons count counts ih =>
    intro offset info hle
    obtain ⟨walk, steps, htraced, hwalk, hge, hle', hmore, hsteps⟩ :=
      walkSection_steps payload count offset info hle
    rw [walkSectionsTraced, walkSections, htraced, hwalk]
    cases walk with
    | stop info' => exact ⟨.stop info', steps, rfl, rfl, hsteps⟩
    | next next info' =>
      obtain ⟨walk', steps', htraced', hwalk', hsteps'⟩ := ih next info' (hmore next info' rfl)
      simp only [Run.ok_bind, htraced', hwalk']
      exact ⟨walk', steps ++ steps', rfl, rfl, hsteps.append hsteps' hge hle'⟩

/-! ### Every payload -/

theorem parseMdns_returns (payload : List UInt8) :
    (∃ info, parseMdns payload = .ok info) ∨ parseMdns payload = Run.none := by
  rw [parseMdns]
  by_cases hshort : payload.length < 12
  · exact .inr (if_pos hshort)
  obtain ⟨qdcount, hqd⟩ := u16At_of_lt (by omega : 4 + 1 < payload.length)
  obtain ⟨ancount, han⟩ := u16At_of_lt (by omega : 6 + 1 < payload.length)
  obtain ⟨nscount, hns⟩ := u16At_of_lt (by omega : 8 + 1 < payload.length)
  obtain ⟨arcount, har⟩ := u16At_of_lt (by omega : 10 + 1 < payload.length)
  simp only [if_neg hshort, hqd, han, hns, har, Run.ok_bind]
  rcases skipQuestions_cases payload qdcount (by omega : 12 ≤ payload.length) with
    hnone | ⟨offset, hok, _, hle⟩
  · rw [hnone]
    exact .inr rfl
  obtain ⟨walk, _, _, hwalk, _⟩ :=
    walkSections_steps payload [ancount, nscount, arcount] offset ⟨none, none, none⟩ hle
  rw [hok, Run.ok_bind, hwalk, Run.ok_bind]
  cases walk with
  | stop info =>
    simp only
    split
    · exact .inl ⟨info, rfl⟩
    · exact .inr rfl
  | next offset' info =>
    simp only
    split
    · exact .inr rfl
    · exact .inl ⟨info, rfl⟩

/-- **`parse_mdns` on hostile input.**  It returns `Some` or `None` for every payload and
never panics; a name and a record that are read lie inside the payload, after the offset
they were read at; and behind any questions, the walk takes no more record steps than
the payload has bytes, whatever counts are announced. -/
theorem parseMdns_safe (payload : List UInt8) :
    ((∃ info, parseMdns payload = .ok info) ∨ parseMdns payload = Run.none) ∧
    (∀ offset collect, readNameInternal payload offset collect ≠ Run.panic ∧
      ∀ e name, readNameInternal payload offset collect = .ok (e, name) →
        offset < e ∧ e ≤ payload.length) ∧
    (∀ offset record, parseRecord payload offset = .ok record →
      offset < record.nextOffset ∧ record.nextOffset ≤ payload.length) ∧
    ∀ qdcount counts offset info, 12 ≤ payload.length →
      skipQuestions payload qdcount 12 = .ok offset →
      ∃ walk steps, walkSectionsTraced payload counts offset info = .ok (walk, steps) ∧
        walkSections payload counts offset info = .ok walk ∧
        steps.Pairwise (· < ·) ∧ steps.length ≤ payload.length := by
  refine ⟨parseMdns_returns payload, fun offset collect => ?_, fun offset record h => ?_, ?_⟩
  · rcases readNameInternal_bounds payload offset collect with hnone | ⟨e, name, hok, hbounds⟩
    · rw [hnone]
      exact ⟨fun h => (by cases h), fun e name h => (by cases h)⟩
    · rw [hok]
      refine ⟨fun h => (by cases h), fun e' name' h => ?_⟩
      cases h
      exact hbounds
  · rcases parseRecord_cases payload offset with hnone | ⟨record', hok, hbounds⟩
    · rw [hnone] at h
      cases h
    · rw [hok] at h
      cases h
      exact hbounds
  · intro qdcount counts offset info hlen hskip
    rcases skipQuestions_cases payload qdcount hlen with hnone | ⟨offset', hok, hge, hle⟩
    · rw [hnone] at hskip
      cases hskip
    rw [hok] at hskip
    cases hskip
    obtain ⟨walk, steps, htraced, hwalk, hsteps⟩ :=
      walkSections_steps payload counts offset info hle
    refine ⟨walk, steps, htraced, hwalk, hsteps.rising, ?_⟩
    have := hsteps.length_le
    omega

end EdgeShield.Protocol
