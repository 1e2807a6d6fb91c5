import EdgeShield.Api.RateLimit

/-!
# The end of a block

`record_failure` of `crates/api/src/auth.rs` computes the end of a block as
`now + Duration::from_secs(self.block_seconds)`, and `+` on an `Instant` panics where the sum
is past the last instant of the platform.  `RateLimiter.recordFailure` counts on without end;
`recordFailureOn latest` is the same function where `latest` is the last instant.  By the time
of the panic the old block is cleared and the failure is filed, and so they stay.

`run_of_room` says that the two do the same, without a panic, in every run in which each block
that begins has an end, and `fine_iff_room` that there is a panic in every other run.  With a
duration that no instant has room for, no address is ever blocked (`never_blocked`).

`checkOn` is `AuthState::check` with this limiter, and what the server runs.  By
`checkOn_cases` it answers as `check` does, or it panics at a wrong key that fills the window.  A
run in which no check panics is a run of `authChecks` (`authChecks_of_answered`), and these are
the runs in which each block that begins has an end (`answered_iff_room`).
-/

namespace EdgeShield.Api

open EdgeShield.Lib EdgeShield.Common

/-- The last `Instant` on Linux, which counts up to `i64::MAX` seconds. -/
def linuxLatest : Nat := 2 ^ 63 * 1000000000 - 1

def instantAdd (latest now duration : Nat) : Run Empty Nat :=
  if now + duration ≤ latest then .ok (now + duration) else .panic

theorem instantAdd_of_le {latest now duration : Nat} (h : now + duration ≤ latest) :
    instantAdd latest now duration = .ok (now + duration) := if_pos h

theorem instantAdd_of_lt {latest now duration : Nat} (h : latest < now + duration) :
    instantAdd latest now duration = .panic := if_neg (Nat.not_le.mpr h)

namespace RateLimiter

/-- The failures of an entry that are still in the window, and the new one. -/
def filed (limiter : RateLimiter) (entry : FailureEntry) (now : Nat) : List Nat :=
  entry.timestamps.filter (fun t => now - t < fromSecs limiter.windowSeconds) ++ [now]

def addFailureOn (latest : Nat) (limiter : RateLimiter) (entry : FailureEntry) (now : Nat) :
    Run Empty Unit × FailureEntry :=
  if entry.isBlocked now then (.ok (), entry)
  else
    let timestamps := limiter.filed entry now
    -- `len() as u32`
    if limiter.maxFailures.toNat ≤ timestamps.length % 2 ^ 32 then
      match instantAdd latest now (fromSecs limiter.blockSeconds) with
      | .ok deadline => (.ok (), ⟨[], some deadline⟩)
      | .error fault => (.error fault, ⟨timestamps, none⟩)
    else (.ok (), ⟨timestamps, none⟩)

/-- `record_failure` where `latest` is the last instant. -/
def recordFailureOn (latest : Nat) (limiter : RateLimiter) (ip : IpAddr) (now : Nat) :
    Run Empty Unit × RateLimiter :=
  if limiter.maxFailures = 0 then (.ok (), limiter)
  else
    let entry := (limiter.failures.lookup ip).getD .empty
    let (result, entry) := limiter.addFailureOn latest entry now
    (result, { limiter with failures := limiter.failures.insert ip entry })

/-- A failure from `ip` fills the window, and a block begins. -/
def Fills (limiter : RateLimiter) (ip : IpAddr) (now : Nat) : Prop :=
  limiter.maxFailures ≠ 0 ∧ (limiter.entry ip).isBlocked now = false ∧
    limiter.maxFailures.toNat ≤ (limiter.filed (limiter.entry ip) now).length % 2 ^ 32

instance (limiter : RateLimiter) (ip : IpAddr) (now : Nat) : Decidable (limiter.Fills ip now) :=
  inferInstanceAs (Decidable (_ ∧ _))

/-- A block that begins has an end. -/
def HasRoom (latest : Nat) (limiter : RateLimiter) (ip : IpAddr) (now : Nat) : Prop :=
  limiter.Fills ip now → now + limiter.block ≤ latest

/-! ### One failure -/

variable {latest : Nat} {limiter : RateLimiter}

theorem addFailureOn_of_le {entry : FailureEntry} {now : Nat}
    (h : entry.isBlocked now = false →
      limiter.maxFailures.toNat ≤ (limiter.filed entry now).length % 2 ^ 32 →
      now + limiter.block ≤ latest) :
    limiter.addFailureOn latest entry now = (.ok (), limiter.addFailure entry now) := by
  rw [addFailureOn, addFailure]
  by_cases hblocked : entry.isBlocked now = true
  · rw [if_pos hblocked, if_pos hblocked]
  · rw [if_neg hblocked, if_neg hblocked]
    show (if limiter.maxFailures.toNat ≤ (limiter.filed entry now).length % 2 ^ 32 then _ else _) =
      (_, if limiter.maxFailures.toNat ≤ (limiter.filed entry now).length % 2 ^ 32 then _ else _)
    by_cases hfull : limiter.maxFailures.toNat ≤ (limiter.filed entry now).length % 2 ^ 32
    · have hroom : now + fromSecs limiter.blockSeconds ≤ latest :=
        h (Bool.eq_false_iff.mpr hblocked) hfull
      rw [if_pos hfull, if_pos hfull, instantAdd_of_le hroom]
    · rw [if_neg hfull, if_neg hfull]
      rfl

/-- **With room**, a failure is recorded as if instants had no end. -/
theorem recordFailureOn_of_hasRoom {ip : IpAddr} {now : Nat}
    (h : limiter.HasRoom latest ip now) :
    limiter.recordFailureOn latest ip now = (.ok (), limiter.recordFailure ip now) := by
  rw [recordFailureOn, recordFailure]
  by_cases hoff : limiter.maxFailures = 0
  · rw [if_pos hoff, if_pos hoff]
  · have hadd := addFailureOn_of_le fun hfree hfull => h ⟨hoff, hfree, hfull⟩
    rw [if_neg hoff, if_neg hoff]
    rw [entry] at hadd
    simp only [hadd]

/-- **Without room** there is a panic; the failure is filed, and the address is not blocked. -/
theorem recordFailureOn_of_fills {ip : IpAddr} {now : Nat} (hfills : limiter.Fills ip now)
    (hlate : latest < now + limiter.block) :
    limiter.recordFailureOn latest ip now =
      (.panic, { limiter with
        failures := limiter.failures.insert ip ⟨limiter.filed (limiter.entry ip) now, none⟩ }) := by
  obtain ⟨hon, hfree, hfull⟩ := hfills
  have hadd : limiter.addFailureOn latest (limiter.entry ip) now =
      (.panic, ⟨limiter.filed (limiter.entry ip) now, none⟩) := by
    have hlate' : latest < now + fromSecs limiter.blockSeconds := hlate
    rw [addFailureOn, if_neg (by rw [hfree]; exact Bool.false_ne_true)]
    show (if limiter.maxFailures.toNat ≤ (limiter.filed (limiter.entry ip) now).length % 2 ^ 32
      then _ else _) = _
    rw [if_pos hfull, instantAdd_of_lt hlate']
    rfl
  rw [recordFailureOn, if_neg hon]
  rw [entry] at hadd ⊢
  simp only [hadd]

theorem recordFailureOn_ok_iff {ip : IpAddr} {now : Nat} :
    (limiter.recordFailureOn latest ip now).1 = .ok () ↔ limiter.HasRoom latest ip now := by
  constructor
  · intro h hfills
    by_contra hlate
    rw [recordFailureOn_of_fills hfills (by omega)] at h
    cases h
  · intro h
    rw [recordFailureOn_of_hasRoom h]

end RateLimiter

/-! ### Runs -/

/-- A call of `record_failure`, at the instant `now`. -/
structure Failure where
  ip : IpAddr
  now : Nat
  deriving DecidableEq

/-- Calls of `record_failure` one after the other, each with how it ends. -/
def failureCalls (latest : Nat) : Machine RateLimiter Failure (Run Empty Unit) where
  step limiter f :=
    let (result, limiter) := limiter.recordFailureOn latest f.ip f.now
    some (limiter, result)

def AllHaveRoom (latest : Nat) (limiter : RateLimiter) (fs : List Failure) : Prop :=
  (failureCalls latest).Meets (fun l f => l.HasRoom latest f.ip f.now) limiter fs

section Runs

variable {latest : Nat} {limiter limiter' : RateLimiter} {fs : List Failure}
  {results : List (Run Empty Unit)}

/-- **The model without a last instant** says what happens in these runs. -/
theorem run_of_room (h : AllHaveRoom latest limiter fs) :
    (failureCalls latest).run limiter fs =
      some (fs.foldl (fun l f => l.recordFailure f.ip f.now) limiter, fs.map fun _ => .ok ()) := by
  induction fs generalizing limiter with
  | nil => rfl
  | cons f fs ih =>
    have hrecord := RateLimiter.recordFailureOn_of_hasRoom h.1
    have hstep : (failureCalls latest).step limiter f =
        some (limiter.recordFailure f.ip f.now, .ok ()) := by
      simp only [failureCalls, hrecord]
    have hrest := ih (h.2 _ _ hstep)
    exact (failureCalls latest).run_cons.mpr ⟨_, _, _, hstep, hrest, rfl⟩

theorem fine_iff_room (h : (failureCalls latest).run limiter fs = some (limiter', results)) :
    (∀ r ∈ results, r = .ok ()) ↔ AllHaveRoom latest limiter fs := by
  refine (failureCalls latest).forall_outputs_iff_meets ?_ h
  intro l f l' r hstep
  cases hstep
  exact RateLimiter.recordFailureOn_ok_iff

theorem block_recordFailureOn (latest : Nat) (limiter : RateLimiter) (ip : IpAddr) (now : Nat) :
    (limiter.recordFailureOn latest ip now).2.block = limiter.block := by
  rw [RateLimiter.recordFailureOn]
  split
  · rfl
  · rfl

theorem allHaveRoom_of_le (h : ∀ f ∈ fs, f.now + limiter.block ≤ latest) :
    AllHaveRoom latest limiter fs := by
  induction fs generalizing limiter with
  | nil => exact trivial
  | cons f fs ih =>
    obtain ⟨hf, hfs⟩ := List.forall_mem_cons.mp h
    refine ⟨fun _ => hf, fun limiter' r hstep => ih fun g hg => ?_⟩
    have hblock : limiter'.block = limiter.block := by
      cases hstep
      exact block_recordFailureOn latest limiter f.ip f.now
    rw [hblock]
    exact hfs g hg

/-! ### A block that never begins -/

theorem blockedUntil_addFailureOn {entry : FailureEntry} {now : Nat}
    (hlate : latest < now + limiter.block) (h : entry.blockedUntil = none) :
    (limiter.addFailureOn latest entry now).2.blockedUntil = none := by
  have hsum : instantAdd latest now (fromSecs limiter.blockSeconds) = .panic :=
    instantAdd_of_lt hlate
  rw [RateLimiter.addFailureOn]
  split
  · exact h
  · simp only [hsum]
    split
    · rfl
    · rfl

theorem blockedUntil_addFailure {ip : IpAddr} {now : Nat} (hon : limiter.maxFailures ≠ 0)
    (hroom : limiter.HasRoom latest ip now) (hlate : latest < now + limiter.block)
    (h : (limiter.entry ip).blockedUntil = none) :
    (limiter.addFailure (limiter.entry ip) now).blockedUntil = none := by
  have hadd := RateLimiter.addFailureOn_of_le fun hfree hfull => hroom ⟨hon, hfree, hfull⟩
  have hnone := blockedUntil_addFailureOn hlate h
  rw [hadd] at hnone
  exact hnone

theorem blockedUntil_recordFailureOn {ip ip' : IpAddr} {now : Nat}
    (hlate : latest < now + limiter.block) (h : ∀ ip, (limiter.entry ip).blockedUntil = none) :
    ((limiter.recordFailureOn latest ip now).2.entry ip').blockedUntil = none := by
  rw [RateLimiter.recordFailureOn]
  split
  · exact h ip'
  · have hadd := blockedUntil_addFailureOn hlate (h ip)
    by_cases hip : ip' = ip
    · subst hip
      rw [RateLimiter.entry, AList.lookup_insert]
      exact hadd
    · rw [RateLimiter.entry, AList.lookup_insert_ne hip]
      exact h ip'

/-- **No address is ever blocked** where no failure of the run has room for a block, whatever
the failures are. -/
theorem never_blocked (hlate : ∀ f ∈ fs, latest < f.now + limiter.block)
    (hnew : ∀ ip, (limiter.entry ip).blockedUntil = none)
    (h : (failureCalls latest).run limiter fs = some (limiter', results)) (ip : IpAddr) (now : Nat) :
    limiter'.isBlocked ip now = false := by
  have hinv : limiter'.block = limiter.block ∧ ∀ ip, (limiter'.entry ip).blockedUntil = none := by
    refine (failureCalls latest).run_induction (P := fun done _ l => (∀ f ∈ done, f ∈ fs) →
      l.block = limiter.block ∧ ∀ ip, (l.entry ip).blockedUntil = none) ?_ ?_ h fun f hf => hf
    · intro _
      exact ⟨rfl, hnew⟩
    · intro done _ l f l' _ _ ih hstep hsub
      obtain ⟨hblock, hfree⟩ := ih fun g hg => hsub g (List.mem_append_left _ hg)
      have hf := hlate f (hsub f (List.mem_append_right _ List.mem_cons_self))
      cases hstep
      refine ⟨(block_recordFailureOn latest l f.ip f.now).trans hblock, fun ip => ?_⟩
      exact blockedUntil_recordFailureOn (by rw [hblock]; exact hf) hfree
  rw [RateLimiter.isBlocked]
  split
  · rfl
  · have hentry := hinv.2 ip
    rw [RateLimiter.entry] at hentry
    cases hlookup : limiter'.failures.lookup ip with
    | none => rfl
    | some e =>
      rw [hlookup, Option.getD_some] at hentry
      simp only [FailureEntry.isBlocked, hentry]

end Runs

/-! ### Checks -/

namespace AuthState

def recordFailureOn (latest : Nat) (auth : AuthState) (clientIp : Option IpAddr) (now : Nat) :
    Run Empty Unit × AuthState :=
  match clientIp with
  | some ip =>
    let (recorded, limiter) := auth.rateLimiter.recordFailureOn latest ip now
    (recorded, { auth with rateLimiter := limiter })
  | none => (.ok (), auth)

def checkOn (latest : Nat) (sha256 : List UInt8 → Vector UInt8 32) (auth : AuthState)
    (method : Method) (_path : String) (authHeader : Option String) (clientIp : Option IpAddr)
    (now failedAt : Nat) : Run Empty (Except AuthError Permission) × AuthState :=
  if ¬auth.isEnabled then (.ok (.ok .admin), auth)
  else if auth.isBlocked clientIp now then (.ok (.error .rateLimited), auth)
  else
    let required := requiredPermission method
    match extractBearerToken authHeader with
    | .error e => (.ok (.error e), auth)
    | .ok token =>
      match auth.verifyToken sha256 token with
      | .error e =>
        let (recorded, auth) := auth.recordFailureOn latest clientIp failedAt
        (recorded.map fun _ => .error e, auth)
      | .ok granted =>
        if required = .admin ∧ granted = .read then (.ok (.error .insufficientPermission), auth)
        else (.ok (.ok granted), auth)

/-- The state after a failed attempt whose block has no end: it is filed, and that is all. -/
def fileFailure (auth : AuthState) (ip : IpAddr) (now : Nat) : AuthState :=
  { auth with rateLimiter := { auth.rateLimiter with
      failures := auth.rateLimiter.failures.insert ip
        ⟨auth.rateLimiter.filed (auth.rateLimiter.entry ip) now, none⟩ } }

end AuthState

theorem sameSetup_fileFailure (auth : AuthState) (ip : IpAddr) (now : Nat) :
    SameSetup auth (auth.fileFailure ip now) := ⟨rfl, rfl, rfl, rfl, rfl⟩

theorem entry_fileFailure (auth : AuthState) (ip : IpAddr) (now : Nat) (ip' : IpAddr) :
    (auth.fileFailure ip now).entry ip' =
      if ip' = ip then ⟨auth.rateLimiter.filed (auth.entry ip) now, none⟩ else auth.entry ip' := by
  rw [AuthState.entry, RateLimiter.entry, AuthState.fileFailure]
  split
  · next hip => rw [hip, AList.lookup_insert, Option.getD_some, AuthState.entry]
  · next hip => rw [AList.lookup_insert_ne hip, AuthState.entry, RateLimiter.entry]

theorem recordFailureOn_cases (latest : Nat) (auth : AuthState) (clientIp : Option IpAddr)
    (now : Nat) :
    ((∀ ip, clientIp = some ip → auth.rateLimiter.HasRoom latest ip now) ∧
        auth.recordFailureOn latest clientIp now = (.ok (), auth.recordFailure clientIp now)) ∨
      ∃ ip, clientIp = some ip ∧ auth.rateLimiter.Fills ip now ∧
        latest < now + auth.rateLimiter.block ∧
        auth.recordFailureOn latest clientIp now = (.panic, auth.fileFailure ip now) := by
  cases clientIp with
  | none => exact .inl ⟨fun ip hip => (by cases hip), rfl⟩
  | some ip =>
    rw [AuthState.recordFailureOn, AuthState.recordFailure]
    by_cases hroom : auth.rateLimiter.HasRoom latest ip now
    · rw [RateLimiter.recordFailureOn_of_hasRoom hroom]
      exact .inl ⟨fun ip' hip => Option.some.inj hip ▸ hroom, rfl⟩
    · obtain ⟨hfills, hlate⟩ := Classical.not_imp.mp hroom
      rw [Nat.not_le] at hlate
      rw [RateLimiter.recordFailureOn_of_fills hfills hlate]
      exact .inr ⟨ip, rfl, hfills, hlate, rfl⟩

/-- **How a check ends**: as if instants had no end, or in a panic at a wrong key that fills the
window. -/
theorem checkOn_cases (latest : Nat) (sha256 : List UInt8 → Vector UInt8 32) (auth : AuthState)
    (method : Method) (path : String) (authHeader : Option String) (clientIp : Option IpAddr)
    (now failedAt : Nat) :
    ((∀ ip, clientIp = some ip →
          (auth.check sha256 method path authHeader clientIp now failedAt).1 = .error .invalidKey →
          auth.rateLimiter.HasRoom latest ip failedAt) ∧
        auth.checkOn latest sha256 method path authHeader clientIp now failedAt =
          (.ok (auth.check sha256 method path authHeader clientIp now failedAt).1,
            (auth.check sha256 method path authHeader clientIp now failedAt).2)) ∨
      ∃ ip, clientIp = some ip ∧
        (auth.check sha256 method path authHeader clientIp now failedAt).1 = .error .invalidKey ∧
        auth.rateLimiter.Fills ip failedAt ∧ latest < failedAt + auth.rateLimiter.block ∧
        auth.checkOn latest sha256 method path authHeader clientIp now failedAt =
          (.panic, auth.fileFailure ip failedAt) := by
  by_cases hoff : ¬auth.isEnabled = true
  · rw [AuthState.checkOn, AuthState.check, if_pos hoff, if_pos hoff]
    exact .inl ⟨fun _ _ h => (by cases h), rfl⟩
  by_cases hblocked : auth.isBlocked clientIp now = true
  · rw [AuthState.checkOn, AuthState.check, if_neg hoff, if_neg hoff, if_pos hblocked,
      if_pos hblocked]
    exact .inl ⟨fun _ _ h => (by cases h), rfl⟩
  rw [AuthState.checkOn, AuthState.check, if_neg hoff, if_neg hoff, if_neg hblocked,
    if_neg hblocked]
  cases htoken : extractBearerToken authHeader with
  | error e =>
    rcases extractBearerToken_eq_error htoken with rfl | rfl
    · exact .inl ⟨fun _ _ h => (by cases h), rfl⟩
    · exact .inl ⟨fun _ _ h => (by cases h), rfl⟩
  | ok token =>
    cases hverify : auth.verifyToken sha256 token with
    | error e =>
      simp only [hverify]
      rw [not_not] at hoff
      rw [verifyToken_eq_error hoff hverify]
      rcases recordFailureOn_cases latest auth clientIp failedAt with
        ⟨hroom, hrecord⟩ | ⟨ip, hip, hfills, hlate, hrecord⟩
      · rw [hrecord]
        exact .inl ⟨fun ip hip _ => hroom ip hip, rfl⟩
      · rw [hrecord]
        exact .inr ⟨ip, hip, rfl, hfills, hlate, rfl⟩
    | ok granted =>
      simp only [hverify]
      split
      · exact .inl ⟨fun _ _ h => (by cases h), rfl⟩
      · exact .inl ⟨fun _ _ h => (by cases h), rfl⟩

/-! ### Runs of checks -/

/-- `authChecks` where `latest` is the last instant. -/
def authChecksOn (latest : Nat) (sha256 : List UInt8 → Vector UInt8 32) :
    Machine AuthState AuthCall (Run Empty (Except AuthError Permission)) where
  step auth c :=
    let (result, auth) :=
      auth.checkOn latest sha256 c.method c.path c.authHeader c.clientIp c.now c.now
    some (auth, result)

/-- A block that the check begins has an end. -/
def AuthCall.HasRoom (latest : Nat) (sha256 : List UInt8 → Vector UInt8 32) (auth : AuthState)
    (c : AuthCall) : Prop :=
  ∀ ip, c.clientIp = some ip →
    (auth.check sha256 c.method c.path c.authHeader c.clientIp c.now c.now).1 = .error .invalidKey →
    auth.rateLimiter.HasRoom latest ip c.now

section Checks

variable {latest : Nat} {sha256 : List UInt8 → Vector UInt8 32} {auth auth' : AuthState}
  {c : AuthCall} {calls : List AuthCall}
  {results : List (Run Empty (Except AuthError Permission))}

theorem authChecksOn_step {result : Run Empty (Except AuthError Permission)}
    (h : (authChecksOn latest sha256).step auth c = some (auth', result)) :
    (c.HasRoom latest sha256 auth ∧ ∃ a, (authChecks sha256).step auth c = some (auth', a) ∧
        result = .ok a.result) ∨
      (¬c.HasRoom latest sha256 auth ∧ result = .panic) := by
  rcases checkOn_cases latest sha256 auth c.method c.path c.authHeader c.clientIp c.now c.now with
    ⟨hroom, hcheck⟩ | ⟨ip, hip, hinvalid, hfills, hlate, hcheck⟩
  · simp only [authChecksOn, hcheck] at h
    cases h
    exact .inl ⟨hroom, _, rfl, rfl⟩
  · simp only [authChecksOn, hcheck] at h
    cases h
    exact .inr ⟨fun hroom => absurd (hroom ip hip hinvalid hfills) (Nat.not_le.mpr hlate), rfl⟩

/-- **A run without a panic** is one of the model without a last instant. -/
theorem authChecks_of_answered
    (h : (authChecksOn latest sha256).run auth calls = some (auth', results))
    (hanswered : ∀ result ∈ results, result ≠ .panic) :
    ∃ log, (authChecks sha256).run auth calls = some (auth', log) ∧
      results = log.map fun a => .ok a.result := by
  induction calls generalizing auth results with
  | nil =>
    cases h
    exact ⟨[], rfl, rfl⟩
  | cons c calls ih =>
    obtain ⟨auth₁, result, rest, hstep, hrun, rfl⟩ := (authChecksOn latest sha256).run_cons.mp h
    obtain ⟨hresult, hrest⟩ := List.forall_mem_cons.mp hanswered
    rcases authChecksOn_step hstep with ⟨-, a, hcheck, rfl⟩ | ⟨-, hpanic⟩
    · obtain ⟨log, hlog, rfl⟩ := ih hrun hrest
      exact ⟨a :: log, (authChecks sha256).run_cons.mpr ⟨_, _, _, hcheck, hlog, rfl⟩, rfl⟩
    · exact absurd hpanic hresult

/-- **When no check panics**: in the runs where each block that begins has an end. -/
theorem answered_iff_room
    (h : (authChecksOn latest sha256).run auth calls = some (auth', results)) :
    (∀ result ∈ results, result ≠ .panic) ↔
      (authChecksOn latest sha256).Meets (fun auth c => c.HasRoom latest sha256 auth) auth calls := by
  refine (authChecksOn latest sha256).forall_outputs_iff_meets ?_ h
  intro auth c auth' result hstep
  rcases authChecksOn_step hstep with ⟨hroom, a, -, rfl⟩ | ⟨hnone, rfl⟩
  · exact iff_of_true (fun hpanic => by cases hpanic) hroom
  · exact iff_of_false (fun hne => hne rfl) hnone

end Checks

end EdgeShield.Api
