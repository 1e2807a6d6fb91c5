import EdgeShield.Api.RateLimit

/-!
# One client's limit is its own

All clients share one table of failures.  `SameView` says that two states look the same to
one address: the keys, the numbers of the limiter, and the entry of this address.  A check
of this address answers alike in both and leads to such states again
(`SameView.check`), and a check of any other client changes nothing that the address sees
(`SameView.other`).  So the answers to one address are those of the run in which nobody else
calls (`rateLimit_independent`).
-/

namespace EdgeShield.Api

open EdgeShield.Lib EdgeShield.Common

variable {sha256 : List UInt8 → Vector UInt8 32}

/-- Two states that look the same to `ip`. -/
structure SameView (ip : IpAddr) (auth auth' : AuthState) : Prop where
  read : auth.readKeyHash = auth'.readKeyHash
  admin : auth.adminKeyHash = auth'.adminKeyHash
  maxFailures : auth.rateLimiter.maxFailures = auth'.rateLimiter.maxFailures
  windowSeconds : auth.rateLimiter.windowSeconds = auth'.rateLimiter.windowSeconds
  blockSeconds : auth.rateLimiter.blockSeconds = auth'.rateLimiter.blockSeconds
  entry : auth.rateLimiter.failures.lookup ip = auth'.rateLimiter.failures.lookup ip

namespace SameView

variable {ip : IpAddr} {auth auth' : AuthState}

theorem refl (ip : IpAddr) (auth : AuthState) : SameView ip auth auth :=
  ⟨rfl, rfl, rfl, rfl, rfl, rfl⟩

theorem isEnabled (h : SameView ip auth auth') : auth.isEnabled = auth'.isEnabled := by
  rw [AuthState.isEnabled, AuthState.isEnabled, h.read]

theorem isBlocked (h : SameView ip auth auth') (now : Nat) :
    auth.isBlocked (some ip) now = auth'.isBlocked (some ip) now := by
  simp only [AuthState.isBlocked, RateLimiter.isBlocked, h.maxFailures, h.entry]

theorem verifyToken (h : SameView ip auth auth') (token : String) :
    auth.verifyToken sha256 token = auth'.verifyToken sha256 token := by
  simp only [AuthState.verifyToken, h.read, h.admin]

theorem addFailure (h : SameView ip auth auth') (e : FailureEntry) (now : Nat) :
    auth.rateLimiter.addFailure e now = auth'.rateLimiter.addFailure e now := by
  simp only [RateLimiter.addFailure, h.maxFailures, h.windowSeconds, h.blockSeconds]

theorem recordFailure (h : SameView ip auth auth') (now : Nat) :
    SameView ip (auth.recordFailure (some ip) now) (auth'.recordFailure (some ip) now) := by
  by_cases hzero : auth.rateLimiter.maxFailures = 0
  · have hzero' : auth'.rateLimiter.maxFailures = 0 := h.maxFailures.symm.trans hzero
    simp only [AuthState.recordFailure, RateLimiter.recordFailure, if_pos hzero, if_pos hzero']
    exact h
  · have hzero' : auth'.rateLimiter.maxFailures ≠ 0 := fun h0 => hzero (h.maxFailures.trans h0)
    simp only [AuthState.recordFailure, RateLimiter.recordFailure, if_neg hzero, if_neg hzero']
    refine ⟨h.read, h.admin, h.maxFailures, h.windowSeconds, h.blockSeconds, ?_⟩
    rw [AList.lookup_insert, AList.lookup_insert, h.entry, h.addFailure]

theorem recordFailure_other (h : SameView ip auth auth') {clientIp : Option IpAddr}
    (hother : clientIp ≠ some ip) (now : Nat) :
    SameView ip (auth.recordFailure clientIp now) auth' := by
  cases clientIp with
  | none => exact h
  | some ip' =>
    have hne : ip ≠ ip' := fun he => hother (congrArg some he.symm)
    simp only [AuthState.recordFailure, RateLimiter.recordFailure]
    split
    · exact h
    · refine ⟨h.read, h.admin, h.maxFailures, h.windowSeconds, h.blockSeconds, ?_⟩
      rw [AList.lookup_insert_ne hne]
      exact h.entry

/-- **A check of the address** answers alike in both states. -/
theorem check (h : SameView ip auth auth') (method : Method) (path : String)
    (authHeader : Option String) (now failedAt : Nat) :
    (auth.check sha256 method path authHeader (some ip) now failedAt).1 =
        (auth'.check sha256 method path authHeader (some ip) now failedAt).1 ∧
      SameView ip (auth.check sha256 method path authHeader (some ip) now failedAt).2
        (auth'.check sha256 method path authHeader (some ip) now failedAt).2 := by
  simp only [AuthState.check, h.isEnabled, h.isBlocked now]
  split
  · exact ⟨rfl, h⟩
  split
  · exact ⟨rfl, h⟩
  cases extractBearerToken authHeader with
  | error e => exact ⟨rfl, h⟩
  | ok token =>
    simp only [h.verifyToken token]
    cases auth'.verifyToken sha256 token with
    | error e => exact ⟨rfl, h.recordFailure failedAt⟩
    | ok granted =>
      simp only
      split
      · exact ⟨rfl, h⟩
      · exact ⟨rfl, h⟩

/-- **A check of another client** is not seen. -/
theorem other (h : SameView ip auth auth') {c : AuthCall} (hother : c.clientIp ≠ some ip)
    {auth₁ : AuthState} {a : Answer}
    (hstep : (authChecks sha256).step auth c = some (auth₁, a)) : SameView ip auth₁ auth' := by
  rcases (authChecks_step hstep).2.2 with ⟨-, -, rfl⟩ | ⟨-, rfl⟩
  · exact h.recordFailure_other hother c.now
  · exact h

end SameView

def AuthCall.isFrom (ip : IpAddr) (c : AuthCall) : Bool := c.clientIp = some ip

def Answer.isTo (ip : IpAddr) (a : Answer) : Bool := a.call.isFrom ip

theorem exists_run (calls : List AuthCall) :
    ∀ auth, ∃ auth' log, (authChecks sha256).run auth calls = some (auth', log) := by
  induction calls with
  | nil =>
    intro auth
    exact ⟨auth, [], rfl⟩
  | cons c calls ih =>
    intro auth
    obtain ⟨⟨auth₁, a⟩, hstep⟩ : ∃ r, (authChecks sha256).step auth c = some r := ⟨_, rfl⟩
    obtain ⟨auth', log, hrun⟩ := ih auth₁
    exact ⟨auth', a :: log, (authChecks sha256).run_cons.mpr ⟨auth₁, a, log, hstep, hrun, rfl⟩⟩

/-- **The limit of one address is independent of all others**: the answers to its calls are
those of the run with these calls alone, from any state on. -/
theorem rateLimit_independent (ip : IpAddr) (auth : AuthState) (calls : List AuthCall) :
    ∃ auth₁ auth₂ log, (authChecks sha256).run auth calls = some (auth₁, log) ∧
      (authChecks sha256).run auth (calls.filter (AuthCall.isFrom ip)) =
        some (auth₂, log.filter (Answer.isTo ip)) := by
  have outputs : ∀ auth c auth' a, (authChecks sha256).step auth c = some (auth', a) →
      Answer.isTo ip a = AuthCall.isFrom ip c := by
    intro auth c auth' a hstep
    rw [Answer.isTo, (authChecks_step hstep).1]
  have consistent : ∀ auth auth' c auth₁ a, SameView ip auth auth' →
      AuthCall.isFrom ip c = true → (authChecks sha256).step auth c = some (auth₁, a) →
      ∃ auth₂, (authChecks sha256).step auth' c = some (auth₂, a) ∧ SameView ip auth₁ auth₂ := by
    intro auth auth' c auth₁ a hview hfrom hstep
    have hip : c.clientIp = some ip := of_decide_eq_true hfrom
    obtain ⟨hresult, hnext⟩ :=
      @SameView.check sha256 ip auth auth' hview c.method c.path c.authHeader c.now c.now
    simp only [authChecks, hip] at hstep ⊢
    cases hstep
    exact ⟨_, by rw [hresult], hnext⟩
  have respects : ∀ auth auth' c auth₁ a, SameView ip auth auth' →
      AuthCall.isFrom ip c = false → (authChecks sha256).step auth c = some (auth₁, a) →
      SameView ip auth₁ auth' := by
    intro auth auth' c auth₁ a hview hfrom hstep
    exact hview.other (of_decide_eq_false hfrom) hstep
  obtain ⟨auth₁, log, hrun⟩ := @exists_run sha256 calls auth
  obtain ⟨auth₂, hrun', -⟩ :=
    (authChecks sha256).unwinding outputs consistent respects (.refl ip auth) hrun
  exact ⟨auth₁, auth₂, log, hrun, hrun'⟩

end EdgeShield.Api
