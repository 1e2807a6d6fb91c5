import EdgeShield.Api.Integrity

/-!
# Who is locked out

The rate limit in runs of the API server.  The limiter sees the requests one by one as they
arrive, while others are in flight, so what an address has done is read off the run: the
arrivals that were refused because their key is none (`wrongKeys`).

`inStep_serverRun` is the invariant: what the limiter knows of an address is in step with these.
From it follows that a request with a key that allows it is refused in one case only, and that
this case is not of its own making (`lockedOut_of_refused`).
-/

namespace EdgeShield.Api

open EdgeShield.Lib EdgeShield.Common

variable {latest : Nat} {sha256 : List UInt8 → Vector UInt8 32}
  {parseIp : String → Option IpAddr} {hexDecode : String → Option (List UInt8)} {build : Build}
  {axum : Axum}
variable {σ ε ω : Type} {B : Backend σ ε} {change : ω → σ → σ} {logging : Bool}

/-- The instant of an arrival from `ip` that is refused because its key is none. -/
def wrongKey? (parseIp : String → Option IpAddr) (ip : IpAddr) :
    ServerAction ε ω × ServerEvent ω → Option Nat
  | (.arrive r now _, .refused _ .invalidKey _ _) =>
    if clientIp parseIp r.toRequest = some ip then some now else none
  | _ => none

def wrongKeys (parseIp : String → Option IpAddr) (ip : IpAddr)
    (log : List (ServerAction ε ω × ServerEvent ω)) : List Nat :=
  log.filterMap (wrongKey? parseIp ip)

/-- The last wrong key from `ip` filled the window, and lies less than a block back. -/
def LockedOut (parseIp : String → Option IpAddr) (limiter : RateLimiter) (ip : IpAddr)
    (log : List (ServerAction ε ω × ServerEvent ω)) (now : Nat) : Prop :=
  ∃ last, (wrongKeys parseIp ip log).getLast? = some last ∧ now < last + limiter.block ∧
    limiter.limit ≤ ((wrongKeys parseIp ip log).filter fun t =>
      last < t + limiter.window ∧ t ≤ last).length

theorem wrongKeys_snoc (ip : IpAddr) (log : List (ServerAction ε ω × ServerEvent ω))
    (x : ServerAction ε ω × ServerEvent ω) :
    wrongKeys parseIp ip (log ++ [x]) =
      wrongKeys parseIp ip log ++ (wrongKey? parseIp ip x).toList := by
  rw [wrongKeys, List.filterMap_append, wrongKeys]
  cases h : wrongKey? parseIp ip x with
  | none => rw [List.filterMap_cons_none h, List.filterMap_nil, Option.toList_none]
  | some t => rw [List.filterMap_cons_some h, List.filterMap_nil, Option.toList_some]

/-! ### One step -/

theorem sameSetup_serverStep {s s' : ServerState σ} {a : ServerAction ε ω} {o : ServerEvent ω}
    (h : ServerStep latest sha256 parseIp hexDecode build axum B change logging s a s' o) :
    SameSetup s.auth s'.auth := by
  cases h with
  | admitted hnext => exact sameSetup_of_authMiddleware hnext
  | lost hpanic => exact sameSetup_of_authMiddleware hpanic
  | refused hrefusal => exact sameSetup_of_authMiddleware hrefusal
  | _ => exact .refl s.auth

/-- **What an arrival does to an entry**: a wrong key from its address is added to it, or the
middleware panics at it, and nothing else changes it. -/
theorem entry_authMiddleware (latest : Nat) {auth : AuthState} (hlimit : 0 < auth.rateLimiter.limit)
    (request : Request) (now : Nat) (ip : IpAddr) :
    ((authMiddleware latest sha256 parseIp auth request now).1 = .ok (.refused .invalidKey) ∧
        clientIp parseIp request = some ip ∧ (auth.entry ip).isBlocked now = false ∧
        auth.rateLimiter.HasRoom latest ip now ∧
        (authMiddleware latest sha256 parseIp auth request now).2.entry ip =
          auth.rateLimiter.addFailure (auth.entry ip) now) ∨
      ((authMiddleware latest sha256 parseIp auth request now).1 = .panic ∧
        latest < now + auth.rateLimiter.block ∧
        ((authMiddleware latest sha256 parseIp auth request now).2.entry ip).blockedUntil = none) ∨
      (¬((authMiddleware latest sha256 parseIp auth request now).1 = .ok (.refused .invalidKey) ∧
          clientIp parseIp request = some ip) ∧
        (authMiddleware latest sha256 parseIp auth request now).2.entry ip = auth.entry ip) := by
  by_cases hpath : request.path = "/health"
  · rw [authMiddleware, if_pos hpath]
    exact .inr (.inr ⟨fun h => (by cases h.1), rfl⟩)
  rcases authMiddleware_cases latest sha256 parseIp auth hpath now with
    ⟨auth', result, hstep, -, hroom, hanswer⟩ | ⟨ip', hip', -, -, hlate, hanswer⟩
  · rw [hanswer, Except.ok.injEq, Response.of_eq_refused]
    rcases entry_step hlimit hstep ip with ⟨hfail, hfree, hentry⟩ | ⟨hfail, hentry⟩
    · obtain ⟨⟨hip, hresult⟩, -⟩ := Option.ite_none_right_eq_some.mp hfail
      exact .inl ⟨hresult, hip, hfree, hroom ip hip hresult, hentry⟩
    · refine .inr (.inr ⟨fun hwrong => ?_, hentry⟩)
      rw [Answer.failure?, if_pos ⟨hwrong.2, hwrong.1⟩] at hfail
      cases hfail
  · rw [hanswer]
    have hentry := entry_fileFailure auth ip' now ip
    by_cases hip : ip = ip'
    · rw [if_pos hip] at hentry
      exact .inr (.inl ⟨rfl, hlate, congrArg FailureEntry.blockedUntil hentry⟩)
    · rw [if_neg hip] at hentry
      exact .inr (.inr ⟨fun h => (by cases h.1), hentry⟩)

/-- **What a step does to an entry.** -/
theorem entry_serverStep {s s' : ServerState σ} {a : ServerAction ε ω} {o : ServerEvent ω}
    (hlimit : 0 < s.auth.rateLimiter.limit) (ip : IpAddr)
    (h : ServerStep latest sha256 parseIp hexDecode build axum B change logging s a s' o) :
    (∃ r now durationMs, a = .arrive r now durationMs ∧ wrongKey? parseIp ip (a, o) = some now ∧
        (s.auth.entry ip).isBlocked now = false ∧ s.auth.rateLimiter.HasRoom latest ip now ∧
        s'.auth.entry ip = s.auth.rateLimiter.addFailure (s.auth.entry ip) now) ∨
      (∃ r now durationMs, a = .arrive r now durationMs ∧ wrongKey? parseIp ip (a, o) = none ∧
        latest < now + s.auth.rateLimiter.block ∧ (s'.auth.entry ip).blockedUntil = none) ∨
      (wrongKey? parseIp ip (a, o) = none ∧ s'.auth.entry ip = s.auth.entry ip) := by
  cases h with
  | @admitted r now durationMs auth hnext =>
    have hentry := @entry_authMiddleware sha256 parseIp latest s.auth hlimit r.toRequest now ip
    rw [hnext] at hentry
    rcases hentry with ⟨hresponse, -⟩ | ⟨hpanic, -⟩ | ⟨-, hentry⟩
    · cases hresponse
    · cases hpanic
    · exact .inr (.inr ⟨rfl, hentry⟩)
  | @lost r now durationMs auth hpanic =>
    have hentry := @entry_authMiddleware sha256 parseIp latest s.auth hlimit r.toRequest now ip
    rw [hpanic] at hentry
    rcases hentry with ⟨hresponse, -⟩ | ⟨-, hlate, hnone⟩ | ⟨-, hentry⟩
    · cases hresponse
    · exact .inr (.inl ⟨r, now, durationMs, rfl, rfl, hlate, hnone⟩)
    · exact .inr (.inr ⟨rfl, hentry⟩)
  | @refused r now durationMs auth e hrefusal =>
    have hentry := @entry_authMiddleware sha256 parseIp latest s.auth hlimit r.toRequest now ip
    rw [hrefusal] at hentry
    rcases hentry with ⟨hresponse, hip, hfree, hroom, hentry⟩ | ⟨hpanic, -⟩ | ⟨hnot, hentry⟩
    · cases hresponse
      exact .inl ⟨r, now, durationMs, rfl, if_pos hip, hfree, hroom, hentry⟩
    · cases hpanic
    · refine .inr (.inr ⟨?_, hentry⟩)
      cases e with
      | invalidKey => exact if_neg fun hip => hnot ⟨rfl, hip⟩
      | _ => rfl
  | _ => exact .inr (.inr ⟨rfl, rfl⟩)

/-! ### The entry and the past -/

/-- The entry of an address tracks its wrong keys; or the clock is so near its end that no block
begins any more, and the address is not blocked. -/
def InStep (latest : Nat) (limiter : RateLimiter) (e : FailureEntry) (failures : List Nat)
    (now : Nat) : Prop :=
  Tracks limiter e failures now ∨ (e.blockedUntil = none ∧ latest < now + limiter.block)

theorem InStep.mono {limiter : RateLimiter} {e : FailureEntry} {failures : List Nat}
    {now now' : Nat} (h : InStep latest limiter e failures now) (hle : now ≤ now') :
    InStep latest limiter e failures now' :=
  h.imp (fun h => h.mono hle) fun h => ⟨h.1, h.2.trans_le (Nat.add_le_add_right hle _)⟩

theorem InStep.of_same {auth auth' : AuthState} (hsame : SameSetup auth auth') {e : FailureEntry}
    {failures : List Nat} {now : Nat} (h : InStep latest auth.rateLimiter e failures now) :
    InStep latest auth'.rateLimiter e failures now := by
  rw [InStep, hsame.block]
  exact h.imp (fun h => h.of_same hsame) id

theorem InStep.addFailure {limiter : RateLimiter} {ip : IpAddr} {failures : List Nat} {now : Nat}
    (hlimit : 0 < limiter.limit) (hwindow : 0 < limiter.window)
    (h : InStep latest limiter (limiter.entry ip) failures now)
    (hfree : (limiter.entry ip).isBlocked now = false) (hroom : limiter.HasRoom latest ip now) :
    InStep latest limiter (limiter.addFailure (limiter.entry ip) now) (failures ++ [now]) now := by
  rcases h with h | ⟨hnone, hlate⟩
  · exact .inl (h.addFailure hlimit hwindow hfree)
  · have hon : limiter.maxFailures ≠ 0 := fun h0 => by
      rw [RateLimiter.limit, h0] at hlimit
      exact absurd hlimit (by decide)
    exact .inr ⟨blockedUntil_addFailure hon hroom hlate hnone, hlate⟩

theorem lockedOut_of_isBlocked {limiter : RateLimiter} {e : FailureEntry} {ip : IpAddr}
    {log : List (ServerAction ε ω × ServerEvent ω)} {now now' : Nat}
    (h : InStep latest limiter e (wrongKeys parseIp ip log) now')
    (hblocked : e.isBlocked now = true) : LockedOut parseIp limiter ip log now := by
  obtain ⟨deadline, hdeadline, hlt⟩ := isBlocked_eq_true.mp hblocked
  rcases h with h | ⟨hnone, -⟩
  · obtain ⟨last, hlast, rfl, hfull⟩ := h.blocked deadline hdeadline
    exact ⟨last, hlast, hlt, hfull⟩
  · rw [hnone] at hdeadline
    cases hdeadline

/-! ### Runs -/

/-- The requests arrive in the order of their instants. -/
def ArriveInOrder (acts : List (ServerAction ε ω)) : Prop :=
  (arrivals acts).Pairwise fun x y => x.2 ≤ y.2

theorem arrivals_append (acts acts' : List (ServerAction ε ω)) :
    arrivals (acts ++ acts') = arrivals acts ++ arrivals acts' := by
  rw [arrivals, List.filterMap_append]
  rfl

theorem sameSetup_serverRun {s₀ s : ServerState σ} {acts : List (ServerAction ε ω)}
    {outs : List (ServerEvent ω)}
    (h : (server latest sha256 parseIp hexDecode build axum B change logging).run s₀ acts =
      some (s, outs)) :
    SameSetup s₀.auth s.auth := by
  refine (server latest sha256 parseIp hexDecode build axum B change logging).run_induction
    (P := fun _ _ s => SameSetup s₀.auth s.auth) (.refl s₀.auth) ?_ h
  intro _ _ s a s' o _ ih hs
  exact ih.trans (sameSetup_serverStep (serverStep_cases hs))

/-- **The limiter is in step with the run**: its entry of an address tracks the wrong keys from
there, for as long as blocks begin. -/
theorem inStep_serverRun {s₀ s : ServerState σ} (hfresh : s₀.auth.Fresh)
    (hlimit : 0 < s₀.auth.rateLimiter.limit) (hwindow : 0 < s₀.auth.rateLimiter.window)
    (ip : IpAddr) {acts : List (ServerAction ε ω)} {outs : List (ServerEvent ω)}
    (h : (server latest sha256 parseIp hexDecode build axum B change logging).run s₀ acts =
      some (s, outs)) :
    ArriveInOrder acts → ∀ now, (∀ x ∈ arrivals acts, x.2 ≤ now) →
      InStep latest s.auth.rateLimiter (s.auth.entry ip) (wrongKeys parseIp ip (acts.zip outs))
        now := by
  refine (server latest sha256 parseIp hexDecode build axum B change logging).run_induction
    (P := fun acts outs s => ArriveInOrder acts → ∀ now, (∀ x ∈ arrivals acts, x.2 ≤ now) →
      InStep latest s.auth.rateLimiter (s.auth.entry ip) (wrongKeys parseIp ip (acts.zip outs))
        now) ?_ ?_ h
  · intro _ now _
    have hentry : s₀.auth.entry ip = .empty := by
      rw [AuthState.entry, RateLimiter.entry, hfresh, AList.lookup_empty]
      rfl
    rw [hentry]
    exact .inl (tracks_empty hlimit now)
  · intro acts outs s a s' o hr ih hs horder now hnow
    rw [ArriveInOrder, arrivals_append] at horder
    obtain ⟨hbefore, -, hlast⟩ := List.pairwise_append.mp horder
    have hsame := sameSetup_serverRun hr
    have hlimit' := hsame.limit_pos hlimit
    have hwindow' : 0 < s.auth.rateLimiter.window := by rw [hsame.window]; exact hwindow
    rw [List.zip_append (Machine.length_of_run _ hr).symm, List.zip_cons_cons, List.zip_nil_right,
      wrongKeys_snoc]
    refine InStep.of_same (sameSetup_serverStep (serverStep_cases hs)) ?_
    rcases entry_serverStep hlimit' ip (serverStep_cases hs) with
      ⟨r, arrival, durationMs, rfl, hwrong, hfree, hroom, hentry⟩ |
      ⟨r, arrival, durationMs, rfl, hwrong, hlate, hnone⟩ | ⟨hwrong, hentry⟩
    · have hstep := ih hbefore arrival fun x hx => hlast x hx (r, arrival) (by simp [arrivals])
      rw [hwrong, hentry]
      refine InStep.mono (hstep.addFailure hlimit' hwindow' hfree hroom) ?_
      exact hnow (r, arrival) (by simp [arrivals])
    · have hle : arrival ≤ now := hnow (r, arrival) (by simp [arrivals])
      exact .inr ⟨hnone, hlate.trans_le (Nat.add_le_add_right hle _)⟩
    · rw [hwrong, hentry, Option.toList_none, List.append_nil]
      refine ih hbefore now fun x hx => hnow x ?_
      rw [arrivals_append]
      exact List.mem_append_left _ hx

/-! ### Requests with a key -/

theorem refused_with_key {auth auth' : AuthState} {request : Request} {now : Nat} {e : AuthError}
    (h : authMiddleware latest sha256 parseIp auth request now = (.ok (.refused e), auth'))
    {readHash : Vector UInt8 32} (hread : auth.readKeyHash = some readHash)
    (hdistinct : auth.adminKeyHash ≠ some readHash)
    (hkey : Authorized sha256 readHash auth.adminKeyHash request.method request.authorization) :
    e = .rateLimited ∧ auth.isBlocked (clientIp parseIp request) now = true := by
  have hpath : request.path ≠ "/health" := by
    intro hpath
    rw [authMiddleware, if_pos hpath] at h
    cases h
  rcases authMiddleware_cases latest sha256 parseIp auth hpath now with
    ⟨auth'', result, hstep, hcheck, -, hanswer⟩ | ⟨ip, -, -, -, -, hanswer⟩
  swap
  · cases congrArg Prod.fst (hanswer.symm.trans h)
  have hresult : result = .error e := Response.of_eq_refused.mp
    (Except.ok.inj (congrArg Prod.fst (hanswer.symm.trans h)))
  have hblocked : auth.isBlocked (clientIp parseIp request) now = true := by
    by_contra hfree
    rw [Bool.not_eq_true] at hfree
    obtain ⟨granted, hgranted⟩ := (check_ok_iff hread hdistinct sha256 request.method request.path
      request.authorization now hfree).mpr hkey
    rw [hcheck, hresult] at hgranted
    cases hgranted
  have henabled := AuthState.isEnabled_of_read hread
  have hlimited := (authChecks_step hstep).2.1.mpr ⟨henabled, hblocked⟩
  rw [hresult] at hlimited
  cases hlimited
  exact ⟨rfl, hblocked⟩

theorem LockedOut.of_same {auth auth' : AuthState} (hsame : SameSetup auth auth') {ip : IpAddr}
    {log : List (ServerAction ε ω × ServerEvent ω)} {now : Nat}
    (h : LockedOut parseIp auth'.rateLimiter ip log now) :
    LockedOut parseIp auth.rateLimiter ip log now := by
  rw [LockedOut, ← hsame.limit, ← hsame.window, ← hsame.block]
  exact h

theorem step_of_prefix {s₀ s : ServerState σ} {acts : List (ServerAction ε ω)}
    {outs : List (ServerEvent ω)}
    (h : (server latest sha256 parseIp hexDecode build axum B change logging).run s₀ acts =
      some (s, outs))
    {before : List (ServerAction ε ω × ServerEvent ω)} {a : ServerAction ε ω} {o : ServerEvent ω}
    (hlog : before ++ [(a, o)] <+: acts.zip outs) :
    ∃ acts₁ outs₁ acts₂ s₁ s₂, acts = acts₁ ++ a :: acts₂ ∧ before = acts₁.zip outs₁ ∧
      (server latest sha256 parseIp hexDecode build axum B change logging).run s₀ acts₁ =
        some (s₁, outs₁) ∧
      ServerStep latest sha256 parseIp hexDecode build axum B change logging s₁ a s₂ o := by
  have hlength := Machine.length_of_run _ h
  obtain ⟨after, hsplit⟩ := hlog
  rw [List.append_assoc, List.singleton_append] at hsplit
  have hacts : acts = before.map Prod.fst ++ a :: after.map Prod.fst := by
    have := congrArg (List.map Prod.fst) hsplit
    rw [List.map_fst_zip (le_of_eq hlength.symm), List.map_append, List.map_cons] at this
    exact this.symm
  have houts : outs = before.map Prod.snd ++ o :: after.map Prod.snd := by
    have := congrArg (List.map Prod.snd) hsplit
    rw [List.map_snd_zip (le_of_eq hlength), List.map_append, List.map_cons] at this
    exact this.symm
  have hrun := h
  rw [hacts] at hrun
  obtain ⟨s₁, outs₁, outs₂, h₁, h₂, hjoin⟩ := Machine.run_append _ |>.mp hrun
  obtain ⟨s₂, o', outs₃, hs, -, rfl⟩ := Machine.run_cons _ |>.mp h₂
  have hlength₁ := Machine.length_of_run _ h₁
  rw [houts] at hjoin
  obtain ⟨houts₁, hrest⟩ := List.append_inj hjoin (by
    rw [List.length_map, hlength₁, List.length_map])
  obtain ⟨rfl, -⟩ := List.cons.inj hrest
  refine ⟨before.map Prod.fst, outs₁, after.map Prod.fst, s₁, s₂, hacts, ?_, h₁,
    serverStep_cases hs⟩
  rw [← houts₁]
  exact List.zip_of_prod rfl rfl

/-- **A key opens.**  In a run in which the requests arrive in the order of their instants, a
request with a key that allows it is refused only if its address is locked out for the wrong keys
that came from there. -/
theorem lockedOut_of_refused {start : AuthState} {readHash : Vector UInt8 32}
    (hread : start.readKeyHash = some readHash) (hdistinct : start.adminKeyHash ≠ some readHash)
    (hfresh : start.Fresh) (hlimit : 0 < start.rateLimiter.limit)
    (hwindow : 0 < start.rateLimiter.window) {stores : σ} {s : ServerState σ}
    {acts : List (ServerAction ε ω)} {outs : List (ServerEvent ω)}
    (h : (server latest sha256 parseIp hexDecode build axum B change logging).run
      (.start start stores) acts =
      some (s, outs)) (horder : ArriveInOrder acts)
    {before : List (ServerAction ε ω × ServerEvent ω)} {r r' : Incoming}
    {now durationMs durationMs' : Nat} {e : AuthError} {reply : Reply}
    (hlog : before ++ [(.arrive r now durationMs, .refused r' e reply durationMs')] <+:
      acts.zip outs)
    (hkey : Authorized sha256 readHash start.adminKeyHash r.method r.authorization) :
    e = .rateLimited ∧ ∃ ip, clientIp parseIp r.toRequest = some ip ∧
      LockedOut parseIp start.rateLimiter ip before now := by
  obtain ⟨acts₁, outs₁, acts₂, s₁, s₂, rfl, rfl, hrun, hstep⟩ := step_of_prefix h hlog
  have hsame : SameSetup start s₁.auth := sameSetup_serverRun hrun
  rw [ArriveInOrder, arrivals_append] at horder
  obtain ⟨hbefore, -, hlast⟩ := List.pairwise_append.mp horder
  have hlimit₀ : 0 < (ServerState.start start stores).auth.rateLimiter.limit := hlimit
  have hwindow₀ : 0 < (ServerState.start start stores).auth.rateLimiter.window := hwindow
  cases hstep with
  | refused hrefusal =>
    obtain ⟨he, hblocked⟩ := refused_with_key hrefusal (hsame.read.trans hread)
      (by rw [hsame.admin]; exact hdistinct) (by rw [hsame.admin]; exact hkey)
    refine ⟨he, ?_⟩
    cases hip : clientIp parseIp r.toRequest with
    | none =>
      rw [hip] at hblocked
      cases hblocked
    | some ip =>
      have hlimit' := hsame.limit_pos hlimit
      rw [hip, AuthState.isBlocked, RateLimiter.isBlocked_eq hlimit'] at hblocked
      have hstep := inStep_serverRun hfresh hlimit₀ hwindow₀ ip hrun hbefore now
        fun x hx => hlast x hx (r, now) (by simp [arrivals])
      exact ⟨ip, rfl, (lockedOut_of_isBlocked hstep hblocked).of_same hsame⟩

end EdgeShield.Api
