import EdgeShield.Api.BlockTime

/-!
# The served API and its peers

`auth_middleware` and `serve`.  The address under which the limiter counts a request is
the first entry of its `X-Forwarded-For` header, where that is an address, and otherwise
the one that the `ConnectInfo` extension of the server gives.  That extension is there
only when the application is served through a make-service with connect info, and `serve`
uses a plain one, with TLS and without (`serveMakeService`).

So a peer that sends no such header is counted nowhere, and one that changes it is counted
anew each time.  `peerRateLimited_of_oneAddress` says what else it takes.  The limiter forgets
the failures of an address when it blocks it, so that none may be recorded less than a window
after a block has begun; it does not look at tokens presented during a block, which do not extend
it; and the clock has to have an instant at which each block ends, as the middleware panics where
it has none.  Where all this is kept to, a peer whose requests resolve to one address is
rate-limited as documented, whatever the other peers do that are counted under the same address.
`limitedRun_of_run` is about the attempts that are looked at, whatever else is presented.

Addresses are parsed by the standard library; `parseIp` is a parameter.
-/

namespace EdgeShield.Api

open EdgeShield.Lib EdgeShield.Common

/-- A request as the middleware sees it: the two headers where they are there and
readable, and the extension. -/
structure Request where
  method : Method
  path : String
  authorization : Option String
  forwardedFor : Option String
  connectInfo : Option IpAddr

inductive Response where
  /-- The request goes on to its route. -/
  | next
  | refused (e : AuthError)
  deriving DecidableEq, Repr

/-- How an application is served. -/
inductive MakeService where
  | plain
  | withConnectInfo

def MakeService.connectInfo (peer : IpAddr) : MakeService → Option IpAddr
  | plain => none
  | withConnectInfo => some peer

/-- What `serve` starts: `app.into_make_service()` with TLS, `axum::serve(listener, app)`
without. -/
def serveMakeService (tls : Option ApiTlsConfig) : MakeService :=
  match tls with
  | some _ => .plain
  | none => .plain

/-- `s.split(',').next()`. -/
def firstEntry (s : String) : String := String.ofList (s.toList.takeWhile fun c => c ≠ ',')

section Middleware

variable (latest : Nat) (sha256 : List UInt8 → Vector UInt8 32)
  (parseIp : String → Option IpAddr)

def clientIp (request : Request) : Option IpAddr :=
  (request.forwardedFor.bind fun s => parseIp (trim (firstEntry s))).or request.connectInfo

def authMiddleware (auth : AuthState) (request : Request) (now : Nat) :
    Run Empty Response × AuthState :=
  if request.path = "/health" then (.ok .next, auth)
  else
    match auth.checkOn latest sha256 request.method request.path request.authorization
      (clientIp parseIp request) now now with
    | (.ok (.ok _), auth) => (.ok .next, auth)
    | (.ok (.error e), auth) => (.ok (.refused e), auth)
    | (.error fault, auth) => (.error fault, auth)

structure PeerRequest where
  peer : IpAddr
  method : Method
  path : String
  authorization : Option String
  forwardedFor : Option String
  now : Nat
  deriving DecidableEq

/-- A request and its answer; there is none where the middleware panics. -/
structure Exchange where
  request : PeerRequest
  response : Run Empty Response
  deriving DecidableEq

def Exchange.now (x : Exchange) : Nat := x.request.now

def PeerRequest.received (tls : Option ApiTlsConfig) (r : PeerRequest) : Request where
  method := r.method
  path := r.path
  authorization := r.authorization
  forwardedFor := r.forwardedFor
  connectInfo := (serveMakeService tls).connectInfo r.peer

/-- The served API, with the requests of all peers. -/
def servedApi (tls : Option ApiTlsConfig) : Machine AuthState PeerRequest Exchange where
  step auth r :=
    let (response, auth) := authMiddleware latest sha256 parseIp auth (r.received tls) r.now
    some (auth, ⟨r, response⟩)

end Middleware

/-! ### The limiter on one sequence of attempts -/

section Attempts

variable {α : Type} (failed : α → Bool) (time : α → Nat)

def failuresOf (xs : List α) : List Nat := (xs.filter failed).map time

/-- With `x`, as many attempts have failed within the window as the limit allows; `before` are
those that came earlier. -/
def Reaches (limiter : RateLimiter) (before : List α) (x : α) : Prop :=
  failed x = true ∧ limiter.limit ≤ ((failuresOf failed time before).filter fun t =>
    time x < t + limiter.window).length + 1

/-- What the entry of an address knows at `now` of its attempts: its failures as far as the
window reaches back, and the block that a full window began, for as long as no attempt has come
after its end. -/
structure Follows (limiter : RateLimiter) (xs : List α) (e : FailureEntry) (now : Nat) :
    Prop extends Remembers limiter.window limiter e (failuresOf failed time xs) now where
  blocks : ∀ pre x mid, xs = pre ++ x :: mid → Reaches failed time limiter pre x →
    (∀ y ∈ mid, time y < time x + limiter.block) → e.blockedUntil = some (time x + limiter.block)

variable {failed time} {limiter : RateLimiter}

theorem failuresOf_snoc (xs : List α) (x : α) : failuresOf failed time (xs ++ [x]) =
    failuresOf failed time xs ++ if failed x then [time x] else [] := by
  rw [failuresOf, List.filter_append, List.map_append, failuresOf]
  split
  · next hx => rw [List.filter_cons_of_pos hx, List.filter_nil, List.map_singleton]
  · next hx => rw [List.filter_cons_of_neg hx, List.filter_nil, List.map_nil]

theorem Reaches.mono {failed' : α → Bool} {before : List α} {x : α}
    (h : Reaches failed time limiter before x)
    (himp : ∀ y ∈ before ++ [x], failed y = true → failed' y = true) :
    Reaches failed' time limiter before x := by
  refine ⟨himp x List.mem_concat_self h.1, h.2.trans (Nat.succ_le_succ ?_)⟩
  have hsub : (failuresOf failed time before).Sublist (failuresOf failed' time before) := by
    have hfilter : before.filter failed = (before.filter failed').filter failed := by
      rw [List.filter_filter]
      refine List.filter_congr fun y hy => ?_
      cases hfailed : failed y with
      | false => rw [Bool.false_and]
      | true => rw [Bool.true_and, himp y (List.mem_append_left _ hy) hfailed]
    rw [failuresOf, hfilter]
    exact (List.filter_sublist).map time
  exact (hsub.filter _).length_le

theorem follows_empty (hlimit : 0 < limiter.limit) (now : Nat) :
    Follows failed time limiter [] .empty now :=
  ⟨remembers_empty _ hlimit now, fun _ _ _ h => absurd h.symm
    (List.append_ne_nil_of_right_ne_nil _ (List.cons_ne_nil _ _))⟩

theorem Follows.mono {xs : List α} {e : FailureEntry} {now now' : Nat}
    (h : Follows failed time limiter xs e now) (hle : now ≤ now') :
    Follows failed time limiter xs e now' := ⟨h.toRemembers.mono hle, h.blocks⟩

theorem snoc_eq_append_cons {xs pre mid : List α} {x y : α} (h : xs ++ [y] = pre ++ x :: mid) :
    (pre = xs ∧ x = y ∧ mid = []) ∨ ∃ mid', mid = mid' ++ [y] ∧ xs = pre ++ x :: mid' := by
  induction mid using List.reverseRecOn with
  | nil =>
    obtain ⟨hpre, hx⟩ := List.append_inj' h rfl
    cases hx
    exact .inl ⟨hpre.symm, rfl, rfl⟩
  | append_singleton mid z _ =>
    rw [← List.cons_append, ← List.append_assoc] at h
    obtain ⟨hxs, hz⟩ := List.append_inj' h rfl
    cases hz
    exact .inr ⟨mid, rfl, hxs⟩

theorem mem_append_cons {xs ys : List α} {x y : α} (h : y ∈ xs ++ [x]) : y ∈ xs ++ x :: ys := by
  rw [← List.singleton_append, ← List.append_assoc]
  exact List.mem_append_left _ h

theorem Follows.skip {xs : List α} {e : FailureEntry} {now : Nat}
    (h : Follows failed time limiter xs e now) {x : α} (hx : failed x = false) :
    Follows failed time limiter (xs ++ [x]) e now := by
  refine ⟨?_, fun pre y mid hsplit hreach hmid => ?_⟩
  · rw [failuresOf_snoc, hx, if_neg Bool.false_ne_true, List.append_nil]
    exact h.toRemembers
  · rcases snoc_eq_append_cons hsplit with ⟨_, rfl, _⟩ | ⟨mid', rfl, hxs⟩
    · rw [hreach.1] at hx
      cases hx
    · exact h.blocks pre y mid' hxs hreach fun z hz => hmid z (List.mem_append_left _ hz)

/-- A failure that reaches the limit fills the window of the entry: none of the failures that
count has been dropped. -/
theorem Follows.full_of_reaches {xs : List α} {e : FailureEntry} {x : α}
    (h : Follows failed time limiter xs e (time x))
    (hapart : ∀ deadline, e.blockedUntil = some deadline →
      deadline + limiter.window ≤ time x + limiter.block)
    (hreach : Reaches failed time limiter xs x) :
    limiter.limit ≤ (e.timestamps.filter fun t => time x - t < limiter.window).length + 1 := by
  obtain ⟨old, hold, hback⟩ := h.old_back hapart
  have hcount := @length_inWindow limiter e _ old (time x) hold h.past
  have hnone : old.filter (fun t => time x < t + limiter.window) = [] := by
    refine List.filter_eq_nil_iff.mpr fun t ht hmem => ?_
    have hfar := hback t ht
    have hnear := of_decide_eq_true hmem
    omega
  rw [hnone, List.length_nil, Nat.zero_add] at hcount
  rw [← hcount]
  exact hreach.2

/-- **A failure of an address that is not blocked**, when the last block began a window ago: it
is counted, and where it fills the window the block begins. -/
theorem Follows.add (hlimit : 0 < limiter.limit) {xs : List α} {e : FailureEntry} {x : α}
    (h : Follows failed time limiter xs e (time x)) (hx : failed x = true)
    (hfree : e.isBlocked (time x) = false)
    (hapart : ∀ deadline, e.blockedUntil = some deadline →
      deadline + limiter.window ≤ time x + limiter.block) :
    Follows failed time limiter (xs ++ [x]) (limiter.addFailure e (time x)) (time x) := by
  refine ⟨?_, fun pre y mid hsplit hreach hmid => ?_⟩
  · rw [failuresOf_snoc, if_pos hx]
    exact h.addFailure hlimit le_rfl hfree hapart
  · rcases snoc_eq_append_cons hsplit with ⟨rfl, rfl, _⟩ | ⟨mid', rfl, hxs⟩
    · rw [RateLimiter.addFailure_of_short hfree h.short, if_pos (h.full_of_reaches hapart hreach)]
    · -- a block that a full window began before `x` has ended
      have hblocked := h.blocks pre y mid' hxs hreach fun z hz =>
        hmid z (List.mem_append_left _ hz)
      have hend := isBlocked_eq_false.mp hfree _ hblocked
      have hlt := hmid x List.mem_concat_self
      omega

end Attempts

/-! ### One request -/

section Served

variable {latest : Nat} {sha256 : List UInt8 → Vector UInt8 32} {parseIp : String → Option IpAddr}
  {tls : Option ApiTlsConfig}

/-- The request presents a token that is no key. -/
def presentsInvalid (sha256 : List UInt8 → Vector UInt8 32) (auth : AuthState)
    (r : PeerRequest) : Bool :=
  match extractBearerToken r.authorization with
  | .ok token => auth.verifyToken sha256 token = .error .invalidKey
  | .error _ => false

/-- It does so where tokens are looked at. -/
def guesses (sha256 : List UInt8 → Vector UInt8 32) (auth : AuthState) (r : PeerRequest) : Bool :=
  r.path ≠ "/health" && presentsInvalid sha256 auth r

theorem guesses_iff {auth : AuthState} {r : PeerRequest} :
    guesses sha256 auth r = true ↔ r.path ≠ "/health" ∧ presentsInvalid sha256 auth r = true := by
  rw [guesses, Bool.and_eq_true, decide_eq_true_eq]

def PeerRequest.countedAs (parseIp : String → Option IpAddr) (tls : Option ApiTlsConfig)
    (r : PeerRequest) : Option IpAddr := clientIp parseIp (r.received tls)

theorem check_eq_invalidKey_iff {auth : AuthState} (henabled : auth.isEnabled = true)
    {r : PeerRequest} (hpath : r.path ≠ "/health") {clientIp : Option IpAddr} {now : Nat}
    (hfree : auth.isBlocked clientIp now = false) :
    (auth.check sha256 r.method r.path r.authorization clientIp now now).1 =
        .error .invalidKey ↔ guesses sha256 auth r = true := by
  simp only [AuthState.check, henabled, not_true_eq_false, if_false, hfree, Bool.false_eq_true,
    guesses, presentsInvalid, hpath, ne_eq, not_false_eq_true, decide_true, Bool.true_and]
  cases htoken : extractBearerToken r.authorization with
  | error e =>
    simp only [Bool.false_eq_true, iff_false]
    rcases extractBearerToken_eq_error htoken with rfl | rfl
    · exact fun h => (by cases h)
    · exact fun h => (by cases h)
  | ok token =>
    simp only [decide_eq_true_eq]
    cases auth.verifyToken sha256 token with
    | error e => simp
    | ok granted =>
      simp only [reduceCtorEq, iff_false]
      split
      · exact fun h => (by cases h)
      · exact fun h => (by cases h)

def Request.call (parseIp : String → Option IpAddr) (request : Request) (now : Nat) : AuthCall :=
  ⟨request.method, request.path, request.authorization, clientIp parseIp request, now⟩

def Response.of : Except AuthError Permission → Response
  | .ok _ => .next
  | .error e => .refused e

theorem Response.of_eq_refused {result : Except AuthError Permission} {e : AuthError} :
    Response.of result = .refused e ↔ result = .error e := by
  cases result with
  | ok granted => exact iff_of_false (fun h => by cases h) (fun h => by cases h)
  | error e' =>
    constructor
    · intro h
      cases h
      rfl
    · intro h
      cases h
      rfl

/-- **How the middleware ends**: it answers what the check says, or panics at a wrong key that
fills the window. -/
theorem authMiddleware_cases (latest : Nat) (sha256 : List UInt8 → Vector UInt8 32)
    (parseIp : String → Option IpAddr) (auth : AuthState) {request : Request}
    (hpath : request.path ≠ "/health") (now : Nat) :
    (∃ auth' result,
      (authChecks sha256).step auth (request.call parseIp now) =
        some (auth', ⟨request.call parseIp now, result⟩) ∧
      (auth.check sha256 request.method request.path request.authorization
        (clientIp parseIp request) now now).1 = result ∧
      (∀ ip, clientIp parseIp request = some ip → result = .error .invalidKey →
        auth.rateLimiter.HasRoom latest ip now) ∧
      authMiddleware latest sha256 parseIp auth request now = (.ok (.of result), auth')) ∨
    ∃ ip, clientIp parseIp request = some ip ∧
      (auth.check sha256 request.method request.path request.authorization
        (clientIp parseIp request) now now).1 = .error .invalidKey ∧
      auth.rateLimiter.Fills ip now ∧ latest < now + auth.rateLimiter.block ∧
      authMiddleware latest sha256 parseIp auth request now = (.panic, auth.fileFailure ip now) := by
  rw [authMiddleware, if_neg hpath]
  rcases checkOn_cases latest sha256 auth request.method request.path request.authorization
    (clientIp parseIp request) now now with
    ⟨hroom, hcheck⟩ | ⟨ip, hip, hwrong, hfills, hlate, hcheck⟩
  · rw [hcheck]
    simp only [authChecks, Request.call]
    revert hroom
    cases auth.check sha256 request.method request.path request.authorization
      (clientIp parseIp request) now now with
    | mk result auth' =>
      intro hroom
      refine .inl ⟨auth', result, rfl, rfl, hroom, ?_⟩
      cases result with
      | ok granted => rfl
      | error e => rfl
  · refine .inr ⟨ip, hip, hwrong, hfills, hlate, ?_⟩
    rw [hcheck]
    rfl

theorem sameSetup_authMiddleware (latest : Nat) (auth : AuthState) (request : Request)
    (now : Nat) : SameSetup auth (authMiddleware latest sha256 parseIp auth request now).2 := by
  by_cases hpath : request.path = "/health"
  · rw [authMiddleware, if_pos hpath]
    exact .refl auth
  · rcases authMiddleware_cases latest sha256 parseIp auth hpath now with
      ⟨auth', result, hstep, -, -, hanswer⟩ | ⟨ip, -, -, -, -, hanswer⟩
    · rw [hanswer]
      exact sameSetup_step hstep
    · rw [hanswer]
      exact sameSetup_fileFailure auth ip now

theorem sameSetup_of_authMiddleware {auth auth' : AuthState} {request : Request} {now : Nat}
    {result : Run Empty Response}
    (h : authMiddleware latest sha256 parseIp auth request now = (result, auth')) :
    SameSetup auth auth' := by
  have hsame := @sameSetup_authMiddleware sha256 parseIp latest auth request now
  rwa [h] at hsame

theorem invalidKey_iff_of_free {auth : AuthState} (hlimit : 0 < auth.rateLimiter.limit)
    (henabled : auth.isEnabled = true) {r : PeerRequest} (hpath : r.path ≠ "/health") {ip : IpAddr}
    (hip : r.countedAs parseIp tls = some ip) (hfree : (auth.entry ip).isBlocked r.now = false) :
    (auth.check sha256 r.method r.path r.authorization (clientIp parseIp (r.received tls)) r.now
      r.now).1 = .error .invalidKey ↔ guesses sha256 auth r = true := by
  have hfree' : auth.isBlocked (clientIp parseIp (r.received tls)) r.now = false := by
    rw [PeerRequest.countedAs] at hip
    rw [hip]
    exact (RateLimiter.isBlocked_eq hlimit ip r.now).trans hfree
  exact check_eq_invalidKey_iff henabled hpath hfree'

/-- **A request, and the entry of an address.**  Where a block of the address that begins with it
has an end: a request that counts there is turned away for its rate exactly when the entry is
blocked, and its token is added when it is no key; no other request changes the entry. -/
theorem servedApi_step {auth auth' : AuthState} {r : PeerRequest} {x : Exchange} {ip : IpAddr}
    (hlimit : 0 < auth.rateLimiter.limit) (henabled : auth.isEnabled = true)
    (hroom : r.countedAs parseIp tls = some ip → guesses sha256 auth r = true →
      auth.rateLimiter.HasRoom latest ip r.now)
    (hs : (servedApi latest sha256 parseIp tls).step auth r = some (auth', x)) :
    x.request = r ∧ SameSetup auth auth' ∧
      (r.countedAs parseIp tls = some ip →
        (x.response = .ok (.refused .rateLimited) ↔
          r.path ≠ "/health" ∧ (auth.entry ip).isBlocked r.now = true)) ∧
      auth'.entry ip =
        if r.countedAs parseIp tls = some ip ∧ guesses sha256 auth r = true then
          auth.rateLimiter.addFailure (auth.entry ip) r.now
        else auth.entry ip := by
  have hpair := Prod.mk.inj (Option.some.inj hs)
  have hauth' : (authMiddleware latest sha256 parseIp auth (r.received tls) r.now).2 = auth' :=
    hpair.1
  have hx : ⟨r, (authMiddleware latest sha256 parseIp auth (r.received tls) r.now).1⟩ = x := hpair.2
  rw [← hx, ← hauth']
  by_cases hpath : r.path = "/health"
  · have hinvalid : ¬guesses sha256 auth r = true := fun h =>
      (guesses_iff.mp h).1 hpath
    have hskip : authMiddleware latest sha256 parseIp auth (r.received tls) r.now =
        (.ok .next, auth) := if_pos hpath
    rw [hskip, if_neg fun h => hinvalid h.2]
    exact ⟨rfl, .refl auth, fun _ => iff_of_false (fun h => (by cases h)) (fun h => h.1 hpath), rfl⟩
  rcases @authMiddleware_cases latest sha256 parseIp auth (r.received tls) hpath r.now
    with ⟨auth'', result, hstep, hcheck, -, hanswer⟩ | ⟨ip', hip', hwrong, hfills, hlate, hanswer⟩
  · rw [hanswer]
    refine ⟨rfl, sameSetup_step hstep, fun hip => ?_, ?_⟩
    · obtain ⟨_, hlimited, _⟩ := authChecks_step hstep
      have hcall : ((r.received tls).call parseIp r.now).clientIp = some ip := hip
      rw [hcall] at hlimited
      simp only [AuthState.isBlocked, RateLimiter.isBlocked_eq hlimit] at hlimited
      rw [Except.ok.injEq, Response.of_eq_refused]
      exact hlimited.trans (and_congr_left fun _ => iff_of_true henabled hpath)
    · rcases entry_step hlimit hstep ip with ⟨hfail, hfree, hentry⟩ | ⟨hfail, hentry⟩
      · obtain ⟨⟨hip, hresult⟩, -⟩ := Option.ite_none_right_eq_some.mp hfail
        have hinvalid := (invalidKey_iff_of_free hlimit henabled hpath hip hfree).mp
          (hcheck.trans hresult)
        rw [if_pos ⟨hip, hinvalid⟩]
        exact hentry
      · split
        · next hcounts =>
          -- the address is blocked, and its entry stays as it is
          have hblocked : (auth.entry ip).isBlocked r.now = true := by
            by_contra hfree
            rw [Bool.not_eq_true] at hfree
            have hresult := (invalidKey_iff_of_free hlimit henabled hpath hcounts.1 hfree).mpr
              hcounts.2
            rw [Answer.failure?, if_pos ⟨hcounts.1, hcheck.symm.trans hresult⟩] at hfail
            cases hfail
          rw [hentry, RateLimiter.addFailure, if_pos hblocked]
        · exact hentry
  · have hother : ip ≠ ip' := by
      rintro rfl
      have hinvalid := (invalidKey_iff_of_free hlimit henabled hpath hip' hfills.2.1).mp hwrong
      exact absurd (hroom hip' hinvalid hfills) (Nat.not_le.mpr hlate)
    rw [hanswer]
    refine ⟨rfl, sameSetup_fileFailure auth ip' r.now, fun hip => ?_, ?_⟩
    · exact absurd (Option.some.inj (hip.symm.trans hip')) hother
    · rw [if_neg fun h => hother (Option.some.inj (h.1.symm.trans hip'))]
      exact (entry_fileFailure auth ip' r.now ip).trans (if_neg hother)

/-- A failed attempt, by the keys of `auth`: the token is no key, and the request was not turned
away before it was looked at. -/
def Exchange.failed (sha256 : List UInt8 → Vector UInt8 32) (auth : AuthState) (x : Exchange) :
    Bool := guesses sha256 auth x.request && x.response ≠ .ok (.refused .rateLimited)

/-- An attempt of the peer with an invalid token, looked at or not. -/
def Exchange.invalidBy (sha256 : List UInt8 → Vector UInt8 32) (auth : AuthState) (peer : IpAddr)
    (x : Exchange) : Bool := x.request.peer = peer && presentsInvalid sha256 auth x.request

def Exchange.failedBy (sha256 : List UInt8 → Vector UInt8 32) (auth : AuthState) (peer : IpAddr)
    (x : Exchange) : Bool := x.request.peer = peer && x.failed sha256 auth

def Exchange.failedAs (sha256 : List UInt8 → Vector UInt8 32) (parseIp : String → Option IpAddr)
    (tls : Option ApiTlsConfig) (auth : AuthState) (ip : IpAddr) (x : Exchange) : Bool :=
  x.request.countedAs parseIp tls = some ip && x.failed sha256 auth

theorem presentsInvalid_of_same {auth auth' : AuthState} (hsame : SameSetup auth auth')
    (r : PeerRequest) : presentsInvalid sha256 auth' r = presentsInvalid sha256 auth r := by
  have hverify : ∀ token, auth'.verifyToken sha256 token = auth.verifyToken sha256 token := by
    intro token
    rw [AuthState.verifyToken, hsame.read, hsame.admin]
    rfl
  simp only [presentsInvalid, hverify]

theorem guesses_of_same {auth auth' : AuthState} (hsame : SameSetup auth auth')
    (r : PeerRequest) : guesses sha256 auth' r = guesses sha256 auth r := by
  rw [guesses, guesses, presentsInvalid_of_same hsame]

theorem addFailure_of_same {auth auth' : AuthState} (hsame : SameSetup auth auth')
    (e : FailureEntry) (now : Nat) :
    auth'.rateLimiter.addFailure e now = auth.rateLimiter.addFailure e now := by
  have hlimit : auth'.rateLimiter.maxFailures.toNat = auth.rateLimiter.maxFailures.toNat :=
    hsame.limit
  have hwindow : fromSecs auth'.rateLimiter.windowSeconds =
      fromSecs auth.rateLimiter.windowSeconds := hsame.window
  have hblock : fromSecs auth'.rateLimiter.blockSeconds =
      fromSecs auth.rateLimiter.blockSeconds := hsame.block
  rw [RateLimiter.addFailure, RateLimiter.addFailure, hlimit, hwindow, hblock]

/-! ### A peer that is counted under one address -/

/-- Once as many attempts within the window count as the limit allows, each further request of the
peer for anything but `/health` is turned away for its rate, as long as the block lasts. -/
def RateLimitedAfter (counts : Exchange → Bool) (limiter : RateLimiter) (peer : IpAddr)
    (log : List Exchange) : Prop :=
  ∀ pre r mid s, pre ++ r :: (mid ++ [s]) <+: log → Reaches counts Exchange.now limiter pre r →
    s.request.peer = peer → s.request.path ≠ "/health" → s.now < r.now + limiter.block →
    s.response = .ok (.refused .rateLimited)

/-- **The peer is rate-limited**, once as many of its requests within the window have presented an
invalid token as the limit allows. -/
def PeerRateLimited (sha256 : List UInt8 → Vector UInt8 32) (start : AuthState) (peer : IpAddr)
    (log : List Exchange) : Prop :=
  RateLimitedAfter (Exchange.invalidBy sha256 start peer) start.rateLimiter peer log

/-- The limiter keeps what it has to know of the address under which the peer is counted. -/
structure OneAddress (latest : Nat) (sha256 : List UInt8 → Vector UInt8 32)
    (parseIp : String → Option IpAddr) (tls : Option ApiTlsConfig) (peer ip : IpAddr)
    (auth : AuthState) (r : PeerRequest) : Prop where
  /-- The peer is counted under one address. -/
  counted : r.peer = peer → r.path ≠ "/health" → r.countedAs parseIp tls = some ip
  /-- A block of the address that begins has an end. -/
  room : r.countedAs parseIp tls = some ip → guesses sha256 auth r = true →
    auth.rateLimiter.HasRoom latest ip r.now
  /-- No failure of the address is recorded less than a window after the beginning of its last
  block. -/
  apart : r.countedAs parseIp tls = some ip → guesses sha256 auth r = true →
    ∀ deadline, (auth.entry ip).blockedUntil = some deadline → deadline ≤ r.now →
      deadline + auth.rateLimiter.window ≤ r.now + auth.rateLimiter.block

/-- Each invalid token of the peer is looked at: none is presented to `/health`, or while the
address is blocked. -/
def LookedAt (sha256 : List UInt8 → Vector UInt8 32) (peer ip : IpAddr) (auth : AuthState)
    (r : PeerRequest) : Prop :=
  r.peer = peer → presentsInvalid sha256 auth r = true →
    r.path ≠ "/health" ∧ (auth.entry ip).isBlocked r.now = false

instance (sha256 : List UInt8 → Vector UInt8 32) (peer ip : IpAddr) (auth : AuthState)
    (r : PeerRequest) : Decidable (LookedAt sha256 peer ip auth r) :=
  inferInstanceAs (Decidable (_ → _ → _ ∧ _))

/-- What the requests have to keep to. -/
structure KeepsTo (latest : Nat) (sha256 : List UInt8 → Vector UInt8 32)
    (parseIp : String → Option IpAddr) (tls : Option ApiTlsConfig) (peer ip : IpAddr)
    (auth : AuthState) (r : PeerRequest) : Prop extends
    OneAddress latest sha256 parseIp tls peer ip auth r where
  looked : LookedAt sha256 peer ip auth r

variable {start : AuthState} {peer ip : IpAddr}

/-- **An exchange**: the entry goes on to follow the attempts of its address. -/
theorem Follows.exchange {auth auth' : AuthState} {log : List Exchange} {x : Exchange}
    (hsame : SameSetup start auth) (hlimit : 0 < start.rateLimiter.limit)
    (henabled : auth.isEnabled = true)
    (h : Follows (Exchange.failedAs sha256 parseIp tls start ip) Exchange.now start.rateLimiter log
      (auth.entry ip) x.now)
    (hkeeps : OneAddress latest sha256 parseIp tls peer ip auth x.request)
    (hs : (servedApi latest sha256 parseIp tls).step auth x.request = some (auth', x)) :
    Follows (Exchange.failedAs sha256 parseIp tls start ip) Exchange.now start.rateLimiter
      (log ++ [x]) (auth'.entry ip) x.now := by
  have hlimit' := hsame.limit_pos hlimit
  obtain ⟨-, -, hlimited, hentry⟩ := servedApi_step hlimit' henabled hkeeps.room hs
  rw [hentry]
  split
  · next hrecorded =>
    obtain ⟨hip, hinvalid⟩ := hrecorded
    rw [addFailure_of_same hsame]
    have hinvalid' : guesses sha256 start x.request = true := by
      rw [← guesses_of_same hsame]
      exact hinvalid
    cases hblocked : (auth.entry ip).isBlocked x.now with
    | true =>
      -- the token is not looked at, and the entry stays as it is
      have hresponse := (hlimited hip).mpr ⟨(guesses_iff.mp hinvalid).1, hblocked⟩
      have hentry : start.rateLimiter.addFailure (auth.entry ip) x.now = auth.entry ip :=
        if_pos hblocked
      rw [← Exchange.now, hentry]
      exact h.skip (by simp [Exchange.failedAs, Exchange.failed, hresponse])
    | false =>
      have hresponse : x.response ≠ .ok (.refused .rateLimited) := fun hr => by
        rw [Exchange.now, (((hlimited hip).mp hr).2)] at hblocked
        cases hblocked
      have hfailed : Exchange.failedAs sha256 parseIp tls start ip x = true := by
        simp [Exchange.failedAs, Exchange.failed, hip, hinvalid', hresponse]
      refine h.add hlimit hfailed hblocked fun deadline hd => ?_
      rw [← hsame.window, ← hsame.block]
      exact hkeeps.apart hip hinvalid deadline hd (isBlocked_eq_false.mp hblocked deadline hd)
  · next hother =>
    refine h.skip ?_
    by_contra hfailed
    simp only [Exchange.failedAs, Exchange.failed, Bool.not_eq_false, Bool.and_eq_true,
      decide_eq_true_eq, ← guesses_of_same hsame] at hfailed
    exact hother ⟨hfailed.1, hfailed.2.1⟩

def CountsAs (parseIp : String → Option IpAddr) (tls : Option ApiTlsConfig) (peer ip : IpAddr)
    (log : List Exchange) : Prop :=
  ∀ x ∈ log, x.request.peer = peer → x.request.path ≠ "/health" →
    x.request.countedAs parseIp tls = some ip

theorem RateLimitedAfter.snoc {log : List Exchange} {x : Exchange} {e : FailureEntry}
    (h : RateLimitedAfter (Exchange.failedBy sha256 start peer) start.rateLimiter peer log)
    (hfollows : Follows (Exchange.failedAs sha256 parseIp tls start ip) Exchange.now
      start.rateLimiter log e x.now)
    (hcounts : CountsAs parseIp tls peer ip log) (horder : ∀ y ∈ log, y.now ≤ x.now)
    (hx : x.request.peer = peer → x.request.path ≠ "/health" → e.isBlocked x.now = true →
      x.response = .ok (.refused .rateLimited)) :
    RateLimitedAfter (Exchange.failedBy sha256 start peer) start.rateLimiter peer
      (log ++ [x]) := by
  intro pre r mid s hsplit hreach hpeer hpath hlt
  have hassoc : pre ++ r :: (mid ++ [s]) = pre ++ r :: mid ++ [s] := by
    rw [List.append_assoc, List.cons_append]
  rcases List.prefix_concat_iff.mp hsplit with heq | hprefix
  · rw [hassoc] at heq
    obtain ⟨rfl, hs⟩ := List.append_inj' heq rfl
    cases hs
    -- a failure of the peer is one of its address
    have hreach' : Reaches (Exchange.failedAs sha256 parseIp tls start ip) Exchange.now
        start.rateLimiter pre r := by
      refine hreach.mono fun y hy hfailed => ?_
      simp only [Exchange.failedBy, Exchange.failed, Bool.and_eq_true, decide_eq_true_eq] at hfailed
      have hip := hcounts y (mem_append_cons hy) hfailed.1 ((guesses_iff.mp hfailed.2.1).1)
      simp [Exchange.failedAs, Exchange.failed, hip, hfailed.2]
    have hblocked := hfollows.blocks pre r mid rfl hreach' fun y hy =>
      lt_of_le_of_lt (horder y (List.mem_append_right _ (List.mem_cons_of_mem _ hy))) hlt
    refine hx hpeer hpath ?_
    rw [FailureEntry.isBlocked, hblocked]
    exact decide_eq_true hlt
  · exact h pre r mid s hprefix hreach hpeer hpath hlt

structure LimitedRun (sha256 : List UInt8 → Vector UInt8 32) (parseIp : String → Option IpAddr)
    (tls : Option ApiTlsConfig) (peer ip : IpAddr) (start : AuthState)
    (requests : List PeerRequest) (log : List Exchange) (auth : AuthState) : Prop where
  answered : log.map Exchange.request = requests
  setup : SameSetup start auth
  counts : CountsAs parseIp tls peer ip log
  follows : ∀ now, (∀ r ∈ requests, r.now ≤ now) →
    Follows (Exchange.failedAs sha256 parseIp tls start ip) Exchange.now start.rateLimiter log
      (auth.entry ip) now
  limited : RateLimitedAfter (Exchange.failedBy sha256 start peer) start.rateLimiter peer log

theorem LimitedRun.step {requests : List PeerRequest} {log : List Exchange} {auth auth' : AuthState}
    {r : PeerRequest} {x : Exchange} (hlimit : 0 < start.rateLimiter.limit)
    (henabled : start.isEnabled = true)
    (h : LimitedRun sha256 parseIp tls peer ip start requests log auth)
    (horder : ∀ r' ∈ requests, r'.now ≤ r.now)
    (hkeeps : OneAddress latest sha256 parseIp tls peer ip auth r)
    (hs : (servedApi latest sha256 parseIp tls).step auth r = some (auth', x)) :
    LimitedRun sha256 parseIp tls peer ip start (requests ++ [r]) (log ++ [x]) auth' := by
  have hlimit' := h.setup.limit_pos hlimit
  have henabled' := h.setup.isEnabled.trans henabled
  obtain ⟨rfl, hsame, hlimited, -⟩ := servedApi_step hlimit' henabled' hkeeps.room hs
  have hfollows := h.follows x.now horder
  have hbefore : ∀ y ∈ log, y.now ≤ x.now := by
    intro y hy
    refine horder y.request ?_
    rw [← h.answered]
    exact List.mem_map_of_mem hy
  refine ⟨?_, h.setup.trans hsame, ?_, fun now hnow => ?_, ?_⟩
  · rw [List.map_append, h.answered, List.map_singleton]
  · intro y hy hpeer hpath
    rcases List.mem_append.mp hy with hy | hy
    · exact h.counts y hy hpeer hpath
    · rw [List.mem_singleton.mp hy] at hpeer hpath ⊢
      exact hkeeps.counted hpeer hpath
  · exact (hfollows.exchange h.setup hlimit henabled' hkeeps hs).mono
      (hnow x.request List.mem_concat_self)
  · refine h.limited.snoc hfollows h.counts hbefore fun hpeer hpath hblocked => ?_
    exact (hlimited (hkeeps.counted hpeer hpath)).mpr ⟨hpath, hblocked⟩

theorem sameSetup_served {requests : List PeerRequest} {auth : AuthState} {log : List Exchange}
    (h : (servedApi latest sha256 parseIp tls).run start requests = some (auth, log)) :
    SameSetup start auth := by
  refine (servedApi latest sha256 parseIp tls).run_induction (P := fun _ _ auth =>
    SameSetup start auth) (.refl start) ?_ h
  intro _ _ auth r auth' x _ ih hs
  cases hs
  exact ih.trans (sameSetup_authMiddleware latest auth (r.received tls) r.now)

theorem limitedRun_of_run (hfresh : start.Fresh) (hlimit : 0 < start.rateLimiter.limit)
    (henabled : start.isEnabled = true) {requests : List PeerRequest} {auth : AuthState}
    {log : List Exchange} (horder : requests.Pairwise fun r r' => r.now ≤ r'.now)
    (hkeeps : (servedApi latest sha256 parseIp tls).Meets
      (OneAddress latest sha256 parseIp tls peer ip) start requests)
    (h : (servedApi latest sha256 parseIp tls).run start requests = some (auth, log)) :
    LimitedRun sha256 parseIp tls peer ip start requests log auth := by
  refine (servedApi latest sha256 parseIp tls).run_induction_of_meets (P := fun requests log auth =>
    requests.Pairwise (fun r r' => r.now ≤ r'.now) →
      LimitedRun sha256 parseIp tls peer ip start requests log auth) ?_ ?_ h hkeeps horder
  · intro _
    refine ⟨rfl, .refl start, fun x hx => absurd hx List.not_mem_nil, fun now _ => ?_,
      fun pre r mid s hsplit => ?_⟩
    · rw [AuthState.entry, RateLimiter.entry, hfresh, AList.lookup_empty]
      exact follows_empty hlimit now
    · exact absurd (List.prefix_nil.mp hsplit)
        (List.append_ne_nil_of_right_ne_nil _ (List.cons_ne_nil _ _))
  · intro requests log auth r auth' x _ ih hkeeps hs horder
    obtain ⟨horder', _, hlast⟩ := List.pairwise_append.mp horder
    exact (ih horder').step hlimit henabled
      (fun r' hr' => hlast r' hr' r (List.mem_singleton_self r)) hkeeps hs

theorem RateLimitedAfter.mono {counts counts' : Exchange → Bool} {limiter : RateLimiter}
    {log : List Exchange} (h : RateLimitedAfter counts' limiter peer log)
    (himp : ∀ x ∈ log, counts x = true → counts' x = true) :
    RateLimitedAfter counts limiter peer log := by
  intro pre r mid s hlog hreach
  refine h pre r mid s hlog (hreach.mono fun y hy => himp y (hlog.subset ?_))
  exact mem_append_cons hy

/-- Where each invalid token of the peer is looked at, each is a failed attempt. -/
theorem failedBy_of_invalidBy (hlimit : 0 < start.rateLimiter.limit)
    (henabled : start.isEnabled = true) {requests : List PeerRequest} {auth : AuthState}
    {log : List Exchange}
    (hkeeps : (servedApi latest sha256 parseIp tls).Meets
      (KeepsTo latest sha256 parseIp tls peer ip) start requests)
    (h : (servedApi latest sha256 parseIp tls).run start requests = some (auth, log)) :
    ∀ x ∈ log, x.invalidBy sha256 start peer = true → x.failedBy sha256 start peer = true := by
  refine ((servedApi latest sha256 parseIp tls).run_induction_of_meets (P := fun _ log auth =>
    SameSetup start auth ∧ ∀ x ∈ log, x.invalidBy sha256 start peer = true →
      x.failedBy sha256 start peer = true) ?_ ?_ h hkeeps).2
  · exact ⟨.refl start, fun x hx => absurd hx List.not_mem_nil⟩
  intro _ log auth r auth' x _ ih hkeeps hs
  obtain ⟨hsame, ih⟩ := ih
  have hlimit' := hsame.limit_pos hlimit
  have henabled' := hsame.isEnabled.trans henabled
  obtain ⟨rfl, hsame', hlimited, -⟩ := servedApi_step hlimit' henabled' hkeeps.room hs
  refine ⟨hsame.trans hsame', fun y hy hinvalid => ?_⟩
  rcases List.mem_append.mp hy with hy | hy
  · exact ih y hy hinvalid
  · rw [List.mem_singleton.mp hy] at hinvalid ⊢
    simp only [Exchange.invalidBy, Bool.and_eq_true, decide_eq_true_eq] at hinvalid
    obtain ⟨hpeer, hinvalid⟩ := hinvalid
    obtain ⟨hpath, hfree⟩ :=
      hkeeps.looked hpeer ((presentsInvalid_of_same hsame x.request).trans hinvalid)
    have hresponse : x.response ≠ .ok (.refused .rateLimited) := by
      intro hr
      rw [((hlimited (hkeeps.counted hpeer hpath)).mp hr).2] at hfree
      cases hfree
    simp [Exchange.failedBy, Exchange.failed, guesses, hpeer, hpath, hinvalid, hresponse]

/-- **The conditions, on the requests alone**: where no window is longer than a block and the
clock has an instant a block after each of them, it is enough that those of the peer are counted
under one address, and their tokens looked at. -/
theorem keepsTo_of_requests {requests : List PeerRequest}
    (hwindow : start.rateLimiter.window ≤ start.rateLimiter.block)
    (hroom : ∀ r ∈ requests, r.now + start.rateLimiter.block ≤ latest)
    (hcounts : ∀ r ∈ requests, r.peer = peer → r.path ≠ "/health" →
      r.countedAs parseIp tls = some ip)
    (hlooked : (servedApi latest sha256 parseIp tls).Meets (LookedAt sha256 peer ip) start
      requests) :
    (servedApi latest sha256 parseIp tls).Meets (KeepsTo latest sha256 parseIp tls peer ip) start
      requests := by
  refine (Machine.meets_iff _).mpr fun before r after auth log hsplit hrun => ?_
  have hr : r ∈ requests := by
    rw [hsplit]
    exact List.mem_append_right _ List.mem_cons_self
  have hsame : SameSetup start auth := sameSetup_served hrun
  refine ⟨⟨hcounts r hr, fun _ _ _ => ?_, fun _ _ deadline _ hend => ?_⟩,
    (Machine.meets_iff _).mp hlooked before r after auth log hsplit hrun⟩
  · rw [hsame.block]
    exact hroom r hr
  · rw [hsame.window, hsame.block]
    omega

end Served

/-- A file with the key `b`, and one failure allowed in a minute. -/
def strictText : String :=
  "interface = \"eth0\"\n\n[api.auth]\nread_key_hash = \"" ++
    "3e23e8160039594a33894f6564e1b1348bbd7a0088d42c4acb73eeaed59c009d" ++
    "\"\nmax_failures = 1\nwindow_seconds = 60\nblock_seconds = 300\n"

def strictConfig : Config :=
  { singleKeyConfig with
    api := ⟨some ⟨"3e23e8160039594a33894f6564e1b1348bbd7a0088d42c4acb73eeaed59c009d", none, 1, 60,
      300⟩, none, none⟩ }

theorem strictConfig_accepted : Config.fromStr plainToml strictText = .ok strictConfig := by
  decide +kernel

def strictStart : AuthState := .new decodeHex strictConfig.api.auth

/-- A request of the peer `10.0.0.host` with the token `a`. -/
def guessRequest (host : UInt8) (forwardedFor : Option String) (now : Nat) : PeerRequest :=
  ⟨.ofOctets 10 0 0 host, ⟨"GET"⟩, "/devices", some "Bearer a", forwardedFor, now⟩

/-- The same without a token. -/
def bareRequest (host : UInt8) (forwardedFor : Option String) (now : Nat) : PeerRequest :=
  { guessRequest host forwardedFor now with authorization := none }

def parseSeven (s : String) : Option IpAddr :=
  if s = "10.0.0.7" then some (.ofOctets 10 0 0 7) else none

abbrev strictApi : Machine AuthState PeerRequest Exchange :=
  servedApi linuxLatest sha256OfA parseSeven strictConfig.api.tls

/-- A guess of a peer that names one address in all its requests, between those of another; and
one more after the block. -/
def sharedGuesses : List PeerRequest :=
  [guessRequest 9 (some "10.0.0.7") 0, guessRequest 8 none 1, bareRequest 9 (some "10.0.0.7") 2,
    guessRequest 8 (some "10.0.0.7, 10.0.0.8") 3, guessRequest 9 (some "10.0.0.7") 300000000000,
    bareRequest 9 (some "10.0.0.7") 300000000001]

end EdgeShield.Api
