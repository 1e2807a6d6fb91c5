import EdgeShield.Lib.Machine
import EdgeShield.Api.Auth

/-!
# The brute-force bound

Runs of `AuthState::check`, each call at one instant.  The machine `authChecks` answers a
call with its result and logs both, so that a property of a run is one of its log.

The limiter keeps only some of the failures it has seen: it drops those that left the
window, it forgets all of them when it blocks, and it takes no notice of calls while the
block lasts.  `Tracks` says what it still knows of the whole history: each failure is
among the timestamps it kept, or lies a window or a block back (`Remembers`), and a block was
started by the failure that filled the window.  From this follow both directions of
`bruteForce_bound`.

Instants go on without end here.  Where the end of a block is past the last instant of the
platform, the code panics instead of answering; `authChecks_of_answered` in the next module says
that its runs without a panic are the runs of `authChecks`.
-/

namespace EdgeShield.Api

open EdgeShield.Lib EdgeShield.Common

structure AuthCall where
  method : Method
  path : String
  authHeader : Option String
  clientIp : Option IpAddr
  now : Nat

structure Answer where
  call : AuthCall
  result : Except AuthError Permission

/-- Checks one after the other, each at one instant. -/
def authChecks (sha256 : List UInt8 → Vector UInt8 32) : Machine AuthState AuthCall Answer where
  step auth c :=
    let (result, auth) := auth.check sha256 c.method c.path c.authHeader c.clientIp c.now c.now
    some (auth, ⟨c, result⟩)

def Answer.failure? (ip : IpAddr) (a : Answer) : Option Nat :=
  if a.call.clientIp = some ip ∧ a.result = .error .invalidKey then some a.call.now else none

def failureTimes (ip : IpAddr) (log : List Answer) : List Nat := log.filterMap (Answer.failure? ip)

theorem failureTimes_snoc (ip : IpAddr) (log : List Answer) (a : Answer) :
    failureTimes ip (log ++ [a]) = failureTimes ip log ++ (a.failure? ip).toList := by
  rw [failureTimes, List.filterMap_append, failureTimes]
  cases h : a.failure? ip with
  | none => rw [List.filterMap_cons_none h, List.filterMap_nil, Option.toList_none]
  | some t => rw [List.filterMap_cons_some h, List.filterMap_nil, Option.toList_some]

/-! ### The entry of an address -/

namespace RateLimiter

/-- The most failures in a window. -/
def limit (limiter : RateLimiter) : Nat := limiter.maxFailures.toNat

def window (limiter : RateLimiter) : Nat := fromSecs limiter.windowSeconds

def block (limiter : RateLimiter) : Nat := fromSecs limiter.blockSeconds

/-- The entry of an address; before its first failure, an empty one. -/
def entry (limiter : RateLimiter) (ip : IpAddr) : FailureEntry :=
  (limiter.failures.lookup ip).getD .empty

theorem isBlocked_eq {limiter : RateLimiter} (h : 0 < limiter.limit) (ip : IpAddr) (now : Nat) :
    limiter.isBlocked ip now = (limiter.entry ip).isBlocked now := by
  have hne : limiter.maxFailures ≠ 0 := fun h0 => by
    rw [limit, h0] at h
    exact absurd h (by decide)
  rw [isBlocked, if_neg hne, entry]
  cases limiter.failures.lookup ip with
  | none => rfl
  | some e => rfl

theorem entry_recordFailure {limiter : RateLimiter} (h : 0 < limiter.limit) (ip : IpAddr)
    (now : Nat) (ip' : IpAddr) :
    (limiter.recordFailure ip now).entry ip' =
      if ip' = ip then limiter.addFailure (limiter.entry ip) now else limiter.entry ip' := by
  have hne : limiter.maxFailures ≠ 0 := fun h0 => by
    rw [limit, h0] at h
    exact absurd h (by decide)
  rw [recordFailure, if_neg hne]
  split
  · next hip => rw [hip, entry, AList.lookup_insert, Option.getD_some, entry]
  · next hip => rw [entry, AList.lookup_insert_ne hip, entry]

theorem params_recordFailure (limiter : RateLimiter) (ip : IpAddr) (now : Nat) :
    (limiter.recordFailure ip now).limit = limiter.limit ∧
      (limiter.recordFailure ip now).window = limiter.window ∧
      (limiter.recordFailure ip now).block = limiter.block := by
  rw [recordFailure]
  split
  · exact ⟨rfl, rfl, rfl⟩
  · exact ⟨rfl, rfl, rfl⟩

/-- A failure of an address that is not blocked: it joins those still in the window, and
where that fills the window, the block begins.  The length of a list this short is not cut
by the cast to 32 bits. -/
theorem addFailure_of_short {limiter : RateLimiter} {e : FailureEntry} {now : Nat}
    (hblocked : e.isBlocked now = false) (hshort : e.timestamps.length < limiter.limit) :
    limiter.addFailure e now =
      if limiter.limit ≤
          (e.timestamps.filter fun t => now - t < limiter.window).length + 1 then
        ⟨[], some (now + limiter.block)⟩
      else ⟨e.timestamps.filter (fun t => now - t < limiter.window) ++ [now], none⟩ := by
  have hlt : limiter.limit < 2 ^ 32 := limiter.maxFailures.toNat_lt
  have hfilter := List.length_filter_le (fun t => decide (now - t < limiter.window)) e.timestamps
  have hmod : (e.timestamps.filter (fun t => now - t < limiter.window) ++ [now]).length % 2 ^ 32 =
      (e.timestamps.filter fun t => now - t < limiter.window).length + 1 := by
    rw [List.length_append, List.length_singleton]
    exact Nat.mod_eq_of_lt (by omega)
  rw [addFailure, if_neg (by rw [hblocked]; exact Bool.false_ne_true)]
  show (if limiter.limit ≤
    (e.timestamps.filter (fun t => now - t < limiter.window) ++ [now]).length % 2 ^ 32 then _
    else _) = _
  rw [hmod]
  rfl

end RateLimiter

/-! ### One check -/

section Runs

variable {sha256 : List UInt8 → Vector UInt8 32}

theorem extractBearerToken_eq_error {authHeader : Option String} {e : AuthError}
    (h : extractBearerToken authHeader = .error e) : e = .missingHeader ∨ e = .malformedHeader := by
  cases authHeader with
  | none =>
    cases h
    exact .inl rfl
  | some header =>
    rw [extractBearerToken] at h
    split at h
    · cases h
      exact .inr rfl
    · split at h
      · cases h
        exact .inr rfl
      · cases h

theorem verifyToken_eq_error {auth : AuthState} (hon : auth.isEnabled = true) {token : String}
    {e : AuthError} (h : auth.verifyToken sha256 token = .error e) : e = .invalidKey := by
  obtain ⟨readHash, hread⟩ := Option.isSome_iff_exists.mp hon
  simp only [AuthState.verifyToken, hread] at h
  split at h
  · cases h
  · split at h
    · cases h
    · cases h
      rfl

/-- **The kinds of check**: a failed attempt of a client that is not blocked is recorded,
and any other check leaves the limiter alone; a client is turned away for its rate exactly
when it is blocked. -/
theorem authChecks_step {auth auth' : AuthState} {c : AuthCall} {a : Answer}
    (h : (authChecks sha256).step auth c = some (auth', a)) :
    a.call = c ∧
      (a.result = .error .rateLimited ↔
        auth.isEnabled = true ∧ auth.isBlocked c.clientIp c.now = true) ∧
      ((a.result = .error .invalidKey ∧ auth.isBlocked c.clientIp c.now = false ∧
          auth' = auth.recordFailure c.clientIp c.now) ∨
        (a.result ≠ .error .invalidKey ∧ auth' = auth)) := by
  simp only [authChecks, AuthState.check] at h
  split at h
  · next hoff =>
    cases h
    refine ⟨rfl, ⟨fun h => (by cases h), fun h => absurd h.1 hoff⟩, .inr ⟨?_, rfl⟩⟩
    exact fun h => by cases h
  next hon =>
  rw [not_not] at hon
  split at h
  · next hblocked =>
    cases h
    exact ⟨rfl, ⟨fun _ => ⟨hon, hblocked⟩, fun _ => rfl⟩, .inr ⟨fun h => (by cases h), rfl⟩⟩
  next hfree =>
  have hnot : ¬(auth.isEnabled = true ∧ auth.isBlocked c.clientIp c.now = true) :=
    fun h => hfree h.2
  rw [Bool.not_eq_true] at hfree
  cases htoken : extractBearerToken c.authHeader with
  | error e =>
    rw [htoken] at h
    cases h
    rcases extractBearerToken_eq_error htoken with rfl | rfl
    · exact ⟨rfl, ⟨fun h => (by cases h), fun h => absurd h hnot⟩, .inr ⟨fun h => (by cases h), rfl⟩⟩
    · exact ⟨rfl, ⟨fun h => (by cases h), fun h => absurd h hnot⟩, .inr ⟨fun h => (by cases h), rfl⟩⟩
  | ok token =>
    simp only [htoken] at h
    cases hverify : auth.verifyToken sha256 token with
    | error e =>
      rw [hverify] at h
      cases h
      rw [verifyToken_eq_error hon hverify]
      exact ⟨rfl, ⟨fun h => (by cases h), fun h => absurd h hnot⟩, .inl ⟨rfl, hfree, rfl⟩⟩
    | ok granted =>
      rw [hverify] at h
      simp only at h
      split at h
      · cases h
        exact ⟨rfl, ⟨fun h => (by cases h), fun h => absurd h hnot⟩, .inr ⟨fun h => (by cases h), rfl⟩⟩
      · cases h
        exact ⟨rfl, ⟨fun h => (by cases h), fun h => absurd h hnot⟩, .inr ⟨fun h => (by cases h), rfl⟩⟩

/-- The numbers of the limiter and the keys stay as they are. -/
structure SameSetup (auth auth' : AuthState) : Prop where
  read : auth'.readKeyHash = auth.readKeyHash
  admin : auth'.adminKeyHash = auth.adminKeyHash
  limit : auth'.rateLimiter.limit = auth.rateLimiter.limit
  window : auth'.rateLimiter.window = auth.rateLimiter.window
  block : auth'.rateLimiter.block = auth.rateLimiter.block

theorem SameSetup.refl (auth : AuthState) : SameSetup auth auth := ⟨rfl, rfl, rfl, rfl, rfl⟩

theorem SameSetup.trans {auth auth' auth'' : AuthState} (h : SameSetup auth auth')
    (h' : SameSetup auth' auth'') : SameSetup auth auth'' :=
  ⟨h'.read.trans h.read, h'.admin.trans h.admin, h'.limit.trans h.limit,
    h'.window.trans h.window, h'.block.trans h.block⟩

theorem SameSetup.isEnabled {auth auth' : AuthState} (h : SameSetup auth auth') :
    auth'.isEnabled = auth.isEnabled := by
  rw [AuthState.isEnabled, AuthState.isEnabled, h.read]

theorem SameSetup.limit_pos {auth auth' : AuthState} (h : SameSetup auth auth')
    (hlimit : 0 < auth.rateLimiter.limit) : 0 < auth'.rateLimiter.limit := by
  rw [h.limit]
  exact hlimit

theorem sameSetup_recordFailure (auth : AuthState) (clientIp : Option IpAddr) (now : Nat) :
    SameSetup auth (auth.recordFailure clientIp now) := by
  cases clientIp with
  | none => exact .refl auth
  | some ip =>
    obtain ⟨hlimit, hwindow, hblock⟩ := auth.rateLimiter.params_recordFailure ip now
    exact ⟨rfl, rfl, hlimit, hwindow, hblock⟩

theorem sameSetup_step {auth auth' : AuthState} {c : AuthCall} {a : Answer}
    (h : (authChecks sha256).step auth c = some (auth', a)) : SameSetup auth auth' := by
  rcases (authChecks_step h).2.2 with ⟨_, _, rfl⟩ | ⟨_, rfl⟩
  · exact sameSetup_recordFailure auth _ _
  · exact .refl _

def AuthState.entry (auth : AuthState) (ip : IpAddr) : FailureEntry := auth.rateLimiter.entry ip

/-- **What a check does to an entry**: a failed attempt from its address is added, and
nothing else changes it. -/
theorem entry_step {auth auth' : AuthState} {c : AuthCall} {a : Answer}
    (hlimit : 0 < auth.rateLimiter.limit)
    (h : (authChecks sha256).step auth c = some (auth', a)) (ip : IpAddr) :
    (a.failure? ip = some c.now ∧ (auth.entry ip).isBlocked c.now = false ∧
        auth'.entry ip = auth.rateLimiter.addFailure (auth.entry ip) c.now) ∨
      (a.failure? ip = none ∧ auth'.entry ip = auth.entry ip) := by
  obtain ⟨hcall, _, hcase⟩ := authChecks_step h
  rw [Answer.failure?, hcall]
  rcases hcase with ⟨hresult, hfree, rfl⟩ | ⟨hresult, rfl⟩
  · cases hip : c.clientIp with
    | none => exact .inr ⟨if_neg fun h => (by cases h.1), rfl⟩
    | some ip' =>
      have hentry := auth.rateLimiter.entry_recordFailure hlimit ip' c.now ip
      by_cases hsame : ip = ip'
      · subst hsame
        rw [hip] at hfree
        refine .inl ⟨if_pos ⟨rfl, hresult⟩, ?_, ?_⟩
        · exact (RateLimiter.isBlocked_eq hlimit ip c.now).symm.trans hfree
        · exact hentry.trans (if_pos rfl)
      · refine .inr ⟨if_neg fun h => hsame (Option.some.inj h.1).symm, ?_⟩
        exact hentry.trans (if_neg hsame)
  · exact .inr ⟨if_neg fun h => hresult h.2, rfl⟩

/-! ### What an entry knows of the past -/

/-- What the entry of an address has kept at `now` of all its failures so far. -/
structure Remembers (reach : Nat) (limiter : RateLimiter) (e : FailureEntry) (failures : List Nat)
    (now : Nat) : Prop where
  /-- A failure that was not kept lies `reach` back, or the block that follows it still
  lasts. -/
  kept : ∃ old, failures.Perm (old ++ e.timestamps) ∧ ∀ t ∈ old,
    t + reach ≤ now ∨ ∃ deadline, e.blockedUntil = some deadline ∧ t + limiter.block ≤ deadline
  short : e.timestamps.length < limiter.limit
  past : ∀ t ∈ failures, t ≤ now

/-- What the entry of an address knows at `now` of all its failures so far. -/
structure Tracks (limiter : RateLimiter) (e : FailureEntry) (failures : List Nat) (now : Nat) :
    Prop extends Remembers (min limiter.window limiter.block) limiter e failures now where
  /-- A block was started by the last failure, which filled the window. -/
  blocked : ∀ deadline, e.blockedUntil = some deadline →
    ∃ u, failures.getLast? = some u ∧ deadline = u + limiter.block ∧
      limiter.limit ≤ (failures.filter fun t => u < t + limiter.window ∧ t ≤ u).length

theorem Remembers.mono {reach : Nat} {limiter : RateLimiter} {e : FailureEntry}
    {failures : List Nat} {now now' : Nat} (h : Remembers reach limiter e failures now)
    (hle : now ≤ now') : Remembers reach limiter e failures now' := by
  obtain ⟨old, hold, hback⟩ := h.kept
  refine ⟨⟨old, hold, fun t ht => ?_⟩, h.short, fun t ht => (h.past t ht).trans hle⟩
  exact (hback t ht).imp (fun h => h.trans hle) id

theorem Tracks.mono {limiter : RateLimiter} {e : FailureEntry} {failures : List Nat}
    {now now' : Nat} (h : Tracks limiter e failures now) (hle : now ≤ now') :
    Tracks limiter e failures now' := ⟨h.toRemembers.mono hle, h.blocked⟩

theorem remembers_empty (reach : Nat) {limiter : RateLimiter} (hlimit : 0 < limiter.limit)
    (now : Nat) : Remembers reach limiter .empty [] now :=
  ⟨⟨[], .nil, fun _ ht => absurd ht List.not_mem_nil⟩, hlimit, fun _ ht => absurd ht List.not_mem_nil⟩

theorem tracks_empty {limiter : RateLimiter} (hlimit : 0 < limiter.limit) (now : Nat) :
    Tracks limiter .empty [] now := ⟨remembers_empty _ hlimit now, fun _ hd => (by cases hd)⟩

theorem isBlocked_eq_false {e : FailureEntry} {now : Nat} :
    e.isBlocked now = false ↔ ∀ deadline, e.blockedUntil = some deadline → deadline ≤ now := by
  rw [FailureEntry.isBlocked]
  cases e.blockedUntil with
  | none => simp
  | some deadline => simp

theorem isBlocked_eq_true {e : FailureEntry} {now : Nat} :
    e.isBlocked now = true ↔ ∃ deadline, e.blockedUntil = some deadline ∧ now < deadline := by
  rw [FailureEntry.isBlocked]
  cases e.blockedUntil with
  | none => simp
  | some deadline => simp

/-- Failures that were not kept are out of reach once the address is not blocked. -/
theorem Remembers.old_back {reach : Nat} {limiter : RateLimiter} {e : FailureEntry}
    {failures : List Nat} {now : Nat} (h : Remembers reach limiter e failures now)
    (hapart : ∀ deadline, e.blockedUntil = some deadline →
      deadline + reach ≤ now + limiter.block) :
    ∃ old, failures.Perm (old ++ e.timestamps) ∧ ∀ t ∈ old, t + reach ≤ now := by
  obtain ⟨old, hold, hback⟩ := h.kept
  refine ⟨old, hold, fun t ht => ?_⟩
  rcases hback t ht with hle | ⟨deadline, hd, hle⟩
  · exact hle
  · have hend := hapart deadline hd
    omega

theorem apart_of_free {limiter : RateLimiter} {e : FailureEntry} {reach now : Nat}
    (hreach : reach ≤ limiter.block) (hfree : e.isBlocked now = false) :
    ∀ deadline, e.blockedUntil = some deadline → deadline + reach ≤ now + limiter.block := by
  intro deadline hd
  have hend := isBlocked_eq_false.mp hfree deadline hd
  omega

theorem length_inWindow {limiter : RateLimiter} {e : FailureEntry} {failures old : List Nat}
    {now : Nat} (hold : failures.Perm (old ++ e.timestamps)) (hpast : ∀ t ∈ failures, t ≤ now) :
    (failures.filter fun t => now < t + limiter.window).length =
      (old.filter fun t => now < t + limiter.window).length +
        (e.timestamps.filter fun t => now - t < limiter.window).length := by
  have hkept : e.timestamps.filter (fun t => now < t + limiter.window) =
      e.timestamps.filter fun t => now - t < limiter.window := by
    refine List.filter_congr fun t ht => ?_
    have hle : t ≤ now := hpast t (hold.symm.subset (List.mem_append_right _ ht))
    exact decide_eq_decide.mpr (by omega)
  rw [(hold.filter _).length_eq, List.filter_append, List.length_append, hkept]

/-- **A failure keeps the entry in step with the past.** -/
theorem Remembers.addFailure {reach : Nat} {limiter : RateLimiter} {e : FailureEntry}
    {failures : List Nat} {now : Nat} (hlimit : 0 < limiter.limit) (hreach : reach ≤ limiter.window)
    (h : Remembers reach limiter e failures now) (hfree : e.isBlocked now = false)
    (hapart : ∀ deadline, e.blockedUntil = some deadline →
      deadline + reach ≤ now + limiter.block) :
    Remembers reach limiter (limiter.addFailure e now) (failures ++ [now]) now := by
  obtain ⟨old, hold, hback⟩ := h.old_back hapart
  have hpast : ∀ t ∈ failures ++ [now], t ≤ now := by
    intro t ht
    rcases List.mem_append.mp ht with ht | ht
    · exact h.past t ht
    · exact (List.mem_singleton.mp ht).le
  rw [RateLimiter.addFailure_of_short hfree h.short]
  split
  · next hfull =>
    refine ⟨⟨failures ++ [now], ?_, fun t ht => .inr ⟨_, rfl, ?_⟩⟩, hlimit, hpast⟩
    · rw [List.append_nil]
    · have := hpast t ht
      omega
  · next hroom =>
    have hsplit := List.filter_append_perm (fun t => decide (now - t < limiter.window)) e.timestamps
    refine ⟨⟨old ++ e.timestamps.filter (fun t => !decide (now - t < limiter.window)), ?_,
      fun t ht => .inl ?_⟩, ?_, hpast⟩
    · rw [← List.append_assoc]
      refine List.Perm.append_right [now] (hold.trans ?_)
      rw [List.append_assoc]
      exact (hsplit.symm.trans List.perm_append_comm).append_left old
    · rcases List.mem_append.mp ht with ht | ht
      · exact hback t ht
      · have hdropped := (List.mem_filter.mp ht).2
        have hle := h.past t (hold.symm.subset (List.mem_append_right _ (List.mem_filter.mp ht).1))
        simp only [Bool.not_eq_true', decide_eq_false_iff_not] at hdropped
        omega
    · rw [List.length_append, List.length_singleton]
      omega

theorem Tracks.addFailure {limiter : RateLimiter} {e : FailureEntry} {failures : List Nat}
    {now : Nat} (hlimit : 0 < limiter.limit) (hwindow : 0 < limiter.window)
    (h : Tracks limiter e failures now) (hfree : e.isBlocked now = false) :
    Tracks limiter (limiter.addFailure e now) (failures ++ [now]) now := by
  refine ⟨h.toRemembers.addFailure hlimit (Nat.min_le_left _ _) hfree
    (apart_of_free (Nat.min_le_right _ _) hfree), ?_⟩
  rw [RateLimiter.addFailure_of_short hfree h.short]
  split
  · next hfull =>
    intro deadline hd
    cases hd
    refine ⟨now, List.getLast?_concat, rfl, ?_⟩
    -- the timestamps that are left are among the failures in the window
    obtain ⟨old, hold, -⟩ := h.kept
    have hcount := @length_inWindow limiter e failures old now hold h.past
    have hle : failures.filter (fun t => now < t + limiter.window ∧ t ≤ now) =
        failures.filter fun t => now < t + limiter.window := by
      refine List.filter_congr fun t ht => ?_
      exact decide_eq_decide.mpr (and_iff_left (h.past t ht))
    rw [List.filter_append, List.length_append, hle,
      List.filter_cons_of_pos (by simpa using hwindow), List.filter_nil, List.length_singleton]
    omega
  · intro deadline hd
    cases hd

theorem Tracks.of_same {auth auth' : AuthState} (hsame : SameSetup auth auth') {e : FailureEntry}
    {failures : List Nat} {now : Nat} (h : Tracks auth.rateLimiter e failures now) :
    Tracks auth'.rateLimiter e failures now := by
  obtain ⟨⟨hkept, hshort, hpast⟩, hblocked⟩ := h
  rw [← hsame.window, ← hsame.block] at hkept
  rw [← hsame.limit] at hshort
  rw [← hsame.block, ← hsame.limit, ← hsame.window] at hblocked
  exact ⟨⟨hkept, hshort, hpast⟩, hblocked⟩

theorem tracks_step {auth auth' : AuthState} {c : AuthCall} {a : Answer} {ip : IpAddr}
    {log : List Answer} (hlimit : 0 < auth.rateLimiter.limit) (hwindow : 0 < auth.rateLimiter.window)
    (h : Tracks auth.rateLimiter (auth.entry ip) (failureTimes ip log) c.now)
    (hs : (authChecks sha256).step auth c = some (auth', a)) :
    Tracks auth'.rateLimiter (auth'.entry ip) (failureTimes ip (log ++ [a])) c.now := by
  rw [failureTimes_snoc]
  refine Tracks.of_same (sameSetup_step hs) ?_
  rcases entry_step hlimit hs ip with ⟨hfail, hfree, hentry⟩ | ⟨hfail, hentry⟩
  · rw [hfail, hentry]
    exact h.addFailure hlimit hwindow hfree
  · rw [hfail, hentry, Option.toList_none, List.append_nil]
    exact h

/-! ### Runs -/

def InOrder (calls : List AuthCall) : Prop := calls.Pairwise fun c c' => c.now ≤ c'.now

def AuthState.Fresh (auth : AuthState) : Prop := auth.rateLimiter.failures = ∅

variable {start : AuthState}

theorem sameSetup_run {calls : List AuthCall} {auth : AuthState} {log : List Answer}
    (h : (authChecks sha256).run start calls = some (auth, log)) : SameSetup start auth := by
  refine (authChecks sha256).run_induction (P := fun _ _ auth => SameSetup start auth)
    (.refl start) ?_ h
  intro _ _ auth c auth' a _ ih hs
  exact ih.trans (sameSetup_step hs)

theorem tracks_run (hfresh : start.Fresh) (hlimit : 0 < start.rateLimiter.limit)
    (hwindow : 0 < start.rateLimiter.window) (ip : IpAddr) {calls : List AuthCall}
    {auth : AuthState} {log : List Answer}
    (h : (authChecks sha256).run start calls = some (auth, log)) :
    InOrder calls → ∀ now, (∀ c ∈ calls, c.now ≤ now) →
      Tracks auth.rateLimiter (auth.entry ip) (failureTimes ip log) now := by
  refine (authChecks sha256).run_induction (P := fun calls log auth =>
    InOrder calls → ∀ now, (∀ c ∈ calls, c.now ≤ now) →
      Tracks auth.rateLimiter (auth.entry ip) (failureTimes ip log) now) ?_ ?_ h
  · intro _ now _
    have hentry : start.entry ip = .empty := by
      rw [AuthState.entry, RateLimiter.entry, hfresh, AList.lookup_empty]
      rfl
    rw [hentry]
    exact tracks_empty hlimit now
  · intro calls log auth c auth' a hr ih hs horder now hnow
    obtain ⟨horder₁, _, hlast⟩ := List.pairwise_append.mp horder
    have hsame := sameSetup_run hr
    have hbefore := ih horder₁ c.now fun c' hc' => hlast c' hc' c (List.mem_singleton_self c)
    have hlimit' := hsame.limit_pos hlimit
    have hwindow' : 0 < auth.rateLimiter.window := by rw [hsame.window]; exact hwindow
    refine (tracks_step hlimit' hwindow' hbefore hs).mono ?_
    exact hnow c List.mem_concat_self

/-- The failures in the half-open interval of length `len` from `first` on. -/
def failuresIn (failures : List Nat) (first len : Nat) : List Nat :=
  failures.filter fun t => first ≤ t ∧ t < first + len

/-- At most `limit` failures fall into an interval no longer than window and block. -/
def Bounded (limiter : RateLimiter) (failures : List Nat) : Prop :=
  ∀ first len, len ≤ min limiter.window limiter.block →
    (failuresIn failures first len).length ≤ limiter.limit

/-- A failure that the limiter lets happen does not break the bound: what it forgot is out
of reach of every such interval, and what it kept is short. -/
theorem Bounded.snoc {limiter : RateLimiter} {e : FailureEntry} {failures : List Nat} {now : Nat}
    (h : Bounded limiter failures) (htracks : Tracks limiter e failures now)
    (hfree : e.isBlocked now = false) : Bounded limiter (failures ++ [now]) := by
  intro first len hlen
  have hbound := h first len hlen
  rw [failuresIn, List.filter_append, List.length_append]
  by_cases hin : first ≤ now ∧ now < first + len
  · obtain ⟨old, hold, hback⟩ :=
      htracks.toRemembers.old_back (apart_of_free (Nat.min_le_right _ _) hfree)
    have hnone : old.filter (fun t => first ≤ t ∧ t < first + len) = [] := by
      refine List.filter_eq_nil_iff.mpr fun t ht hmem => ?_
      have hfar := hback t ht
      have hnear := of_decide_eq_true hmem
      omega
    have hfew := List.length_filter_le
      (fun t => decide (first ≤ t ∧ t < first + len)) e.timestamps
    have hshort := htracks.short
    rw [(hold.filter _).length_eq, List.filter_append, hnone, List.nil_append,
      List.filter_cons_of_pos (by simpa using hin), List.filter_nil, List.length_singleton]
    omega
  · rw [List.filter_cons_of_neg (by simpa using hin), List.filter_nil, List.length_nil]
    exact hbound

theorem Bounded.of_same {auth auth' : AuthState} (hsame : SameSetup auth auth')
    {failures : List Nat} (h : Bounded auth.rateLimiter failures) :
    Bounded auth'.rateLimiter failures := by
  rw [Bounded, hsame.window, hsame.block, hsame.limit]
  exact h

theorem bounded_run (hfresh : start.Fresh) (hlimit : 0 < start.rateLimiter.limit)
    (hwindow : 0 < start.rateLimiter.window) (ip : IpAddr) {calls : List AuthCall}
    {auth : AuthState} {log : List Answer} (horder : InOrder calls)
    (h : (authChecks sha256).run start calls = some (auth, log)) :
    Bounded start.rateLimiter (failureTimes ip log) := by
  refine (authChecks sha256).run_induction (P := fun calls log _ =>
    InOrder calls → Bounded start.rateLimiter (failureTimes ip log)) ?_ ?_ h horder
  · intro _ first len _
    exact Nat.zero_le _
  · intro calls log auth c auth' a hr ih hs horder
    obtain ⟨horder₁, _, hlast⟩ := List.pairwise_append.mp horder
    have hsame := sameSetup_run hr
    have hbefore := tracks_run hfresh hlimit hwindow ip hr horder₁ c.now
      fun c' hc' => hlast c' hc' c (List.mem_singleton_self c)
    rw [failureTimes_snoc]
    have hlimit' := hsame.limit_pos hlimit
    rcases entry_step hlimit' hs ip with ⟨hfail, hfree, _⟩ | ⟨hfail, _⟩
    · rw [hfail]
      have hbound := ((ih horder₁).of_same hsame).snoc hbefore hfree
      rw [Bounded, hsame.window, hsame.block, hsame.limit] at hbound
      exact hbound
    · rw [hfail, Option.toList_none, List.append_nil]
      exact ih horder₁

theorem exists_of_getLast_failureTimes {ip : IpAddr} {log : List Answer} {u : Nat}
    (h : (failureTimes ip log).getLast? = some u) :
    ∃ pre b mid, log = pre ++ b :: mid ∧ b.call.clientIp = some ip ∧
      b.result = .error .invalidKey ∧ b.call.now = u ∧
      failureTimes ip (pre ++ [b]) = failureTimes ip log := by
  induction log using List.reverseRecOn with
  | nil => cases h
  | append_singleton log a ih =>
    by_cases hfail : a.call.clientIp = some ip ∧ a.result = .error .invalidKey
    · rw [failureTimes_snoc, Answer.failure?, if_pos hfail, Option.toList_some,
        List.getLast?_concat] at h
      exact ⟨log, a, [], rfl, hfail.1, hfail.2, Option.some.inj h, rfl⟩
    · have hsnoc : failureTimes ip (log ++ [a]) = failureTimes ip log := by
        rw [failureTimes_snoc, Answer.failure?, if_neg hfail, Option.toList_none, List.append_nil]
      rw [hsnoc] at h
      obtain ⟨pre, b, mid, rfl, hip, hresult, hnow, htimes⟩ := ih h
      refine ⟨pre, b, mid ++ [a], ?_, hip, hresult, hnow, htimes.trans hsnoc.symm⟩
      rw [List.append_assoc, List.cons_append]

/-- A client is turned away for its rate only after a failure that filled the window, as
long as the block lasts. -/
def RightlyLimited (ip : IpAddr) (limit window block : Nat) (pre : List Answer) (a : Answer) :
    Prop :=
  a.call.clientIp = some ip → a.result = .error .rateLimited →
    ∃ pre₁ b mid, pre = pre₁ ++ b :: mid ∧ b.call.clientIp = some ip ∧
      b.result = .error .invalidKey ∧ a.call.now < b.call.now + block ∧
      limit ≤ ((failureTimes ip (pre₁ ++ [b])).filter fun t =>
        b.call.now < t + window ∧ t ≤ b.call.now).length

theorem rightlyLimited_step {auth auth' : AuthState} {c : AuthCall} {a : Answer} {ip : IpAddr}
    {log : List Answer} (hlimit : 0 < auth.rateLimiter.limit)
    (h : Tracks auth.rateLimiter (auth.entry ip) (failureTimes ip log) c.now)
    (hs : (authChecks sha256).step auth c = some (auth', a)) :
    RightlyLimited ip auth.rateLimiter.limit auth.rateLimiter.window auth.rateLimiter.block
      log a := by
  intro hip hresult
  obtain ⟨hcall, hlimited, _⟩ := authChecks_step hs
  have hblocked := (hlimited.mp hresult).2
  rw [hcall] at hip
  rw [hip, AuthState.isBlocked, RateLimiter.isBlocked_eq hlimit] at hblocked
  obtain ⟨deadline, hdeadline, hlt⟩ := isBlocked_eq_true.mp hblocked
  obtain ⟨u, hlast, rfl, hfull⟩ := h.blocked deadline hdeadline
  obtain ⟨pre, b, mid, rfl, hbip, hbresult, rfl, htimes⟩ := exists_of_getLast_failureTimes hlast
  refine ⟨pre, b, mid, rfl, hbip, hbresult, ?_, ?_⟩
  · rw [hcall]
    exact hlt
  · rw [htimes]
    exact hfull

theorem rightlyLimited_run (hfresh : start.Fresh) (hlimit : 0 < start.rateLimiter.limit)
    (hwindow : 0 < start.rateLimiter.window) (ip : IpAddr) {calls : List AuthCall}
    {auth : AuthState} {log : List Answer} (horder : InOrder calls)
    (h : (authChecks sha256).run start calls = some (auth, log)) :
    ∀ pre a, pre ++ [a] <+: log → RightlyLimited ip start.rateLimiter.limit
      start.rateLimiter.window start.rateLimiter.block pre a := by
  refine (authChecks sha256).run_induction (P := fun calls log _ => InOrder calls →
    ∀ pre a, pre ++ [a] <+: log → RightlyLimited ip start.rateLimiter.limit
      start.rateLimiter.window start.rateLimiter.block pre a) ?_ ?_ h horder
  · intro _ pre a hpre
    exact absurd (List.prefix_nil.mp hpre) (by simp)
  · intro calls log auth c auth' a hr ih hs horder pre b hpre
    obtain ⟨horder₁, _, hlast⟩ := List.pairwise_append.mp horder
    rcases List.prefix_concat_iff.mp hpre with heq | hpre
    · obtain ⟨rfl, hb⟩ := List.append_inj' heq rfl
      cases hb
      have hsame := sameSetup_run hr
      have hlimit' := hsame.limit_pos hlimit
      have hbefore := tracks_run hfresh hlimit hwindow ip hr horder₁ c.now
        fun c' hc' => hlast c' hc' c (List.mem_singleton_self c)
      have hright := rightlyLimited_step hlimit' hbefore hs
      rw [hsame.limit, hsame.window, hsame.block] at hright
      exact hright
    · exact ih horder₁ pre b hpre

/-- **The brute-force bound.**  Along calls in the order of their instants, and for every
address: in a half-open interval no longer than window and block, at most `maxFailures`
of its calls are answered with an invalid key; and a call is turned away for its rate only
if an earlier failure of the address, less than a block back, was the one that filled the
window. -/
theorem bruteForce_bound (readKeyHash adminKeyHash : Option (Vector UInt8 32))
    {maxFailures : UInt32} {windowSeconds : UInt64} (blockSeconds : UInt64)
    (hlimit : 0 < maxFailures) (hwindow : 0 < windowSeconds) {calls : List AuthCall}
    {auth : AuthState} {log : List Answer} (horder : InOrder calls)
    (h : (authChecks sha256).run
      ⟨readKeyHash, adminKeyHash, .new maxFailures windowSeconds blockSeconds⟩ calls =
        some (auth, log)) (ip : IpAddr) :
    (∀ first len, len ≤ min (fromSecs windowSeconds) (fromSecs blockSeconds) →
      (failuresIn (failureTimes ip log) first len).length ≤ maxFailures.toNat) ∧
    ∀ pre a, pre ++ [a] <+: log → RightlyLimited ip maxFailures.toNat (fromSecs windowSeconds)
      (fromSecs blockSeconds) pre a := by
  have hlimit' : 0 < (RateLimiter.new maxFailures windowSeconds blockSeconds).limit :=
    UInt32.lt_iff_toNat_lt.mp hlimit
  have hwindow' : 0 < (RateLimiter.new maxFailures windowSeconds blockSeconds).window :=
    Nat.mul_pos (UInt64.lt_iff_toNat_lt.mp hwindow) (by decide)
  have hfresh : AuthState.Fresh
      ⟨readKeyHash, adminKeyHash, .new maxFailures windowSeconds blockSeconds⟩ := rfl
  exact ⟨bounded_run hfresh hlimit' hwindow' ip horder h,
    rightlyLimited_run hfresh hlimit' hwindow' ip horder h⟩

end Runs

/-- A call from `10.0.0.1` with the token `a`. -/
def guess (now : Nat) : AuthCall :=
  ⟨⟨"GET"⟩, "/devices", some "Bearer a", some (.ofOctets 10 0 0 1), now⟩

theorem bruteForce_bound_two_guesses :
    ∃ auth log, (authChecks sha256OfA).run ⟨some (.replicate 32 0), none, .new 1 60 60⟩
        [guess 0, guess 1] = some (auth, log) ∧
      log.map Answer.result = [.error .invalidKey, .error .rateLimited] ∧
      (failuresIn (failureTimes (.ofOctets 10 0 0 1) log) 0 2).length ≤ 1 := by
  have hview : ((authChecks sha256OfA).run ⟨some (.replicate 32 0), none, .new 1 60 60⟩
      [guess 0, guess 1]).map (fun r => r.2.map Answer.result) =
        some [.error .invalidKey, .error .rateLimited] := by decide +kernel
  obtain ⟨⟨auth, log⟩, h, hresults⟩ := Option.map_eq_some_iff.mp hview
  have horder : InOrder [guess 0, guess 1] := List.pairwise_pair.mpr (Nat.zero_le 1)
  refine ⟨auth, log, h, hresults, ?_⟩
  exact (bruteForce_bound _ _ 60 (by decide) (by decide) horder h _).1 0 2 (by decide)

end EdgeShield.Api
