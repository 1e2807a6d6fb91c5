import Mathlib.Data.List.AList
import EdgeShield.Lib.Bytes
import EdgeShield.Lib.Text
import EdgeShield.Common.Types
import EdgeShield.Config.Toml

/-!
# Authentication of API requests

`crates/api/src/auth.rs`: Bearer tokens against the hashes of the configuration, with two
permissions and a rate limit for each client address.

Two functions come from other crates and are parameters: `sha256`, and `hexDecode`, which
returns `none` for its error.  `HexDecode` is what is documented of the latter: it accepts
the texts of an even number of hexadecimal digits, and gives one byte for two digits.

`check` reads the clock in `is_blocked` and once more in `record_failure`; both reads are
arguments.  An instant is a number of nanoseconds.

`AuthState::new` drops a hash that does not decode without a word, so everything rests on
the validator of the configuration: `new_of_acceptedAuth` says that no hash it lets pass
is dropped, and `check_ok_iff` that a check then grants exactly what is configured.
-/

namespace EdgeShield.Api

open EdgeShield.Lib EdgeShield.Common

inductive Permission where
  | read
  | admin
  deriving DecidableEq, Repr

inductive AuthError where
  | missingHeader
  | malformedHeader
  | invalidKey
  | insufficientPermission
  | noKeyConfigured
  | rateLimited
  deriving DecidableEq, Repr

/-- An HTTP method; there are others than the standard ones. -/
structure Method where
  asStr : String
  deriving DecidableEq, Repr

def fromSecs (seconds : UInt64) : Nat := seconds.toNat * 1000000000

/-! ### The rate limiter -/

/-- The recent failures of an address, and the end of its block. -/
structure FailureEntry where
  timestamps : List Nat
  blockedUntil : Option Nat
  deriving DecidableEq, Repr

def FailureEntry.empty : FailureEntry := ⟨[], none⟩

def FailureEntry.isBlocked (entry : FailureEntry) (now : Nat) : Bool :=
  match entry.blockedUntil with
  | some deadline => now < deadline
  | none => false

structure RateLimiter where
  maxFailures : UInt32
  windowSeconds : UInt64
  blockSeconds : UInt64
  failures : AList fun _ : IpAddr => FailureEntry

namespace RateLimiter

def new (maxFailures : UInt32) (windowSeconds blockSeconds : UInt64) : RateLimiter where
  maxFailures := maxFailures
  windowSeconds := windowSeconds
  blockSeconds := blockSeconds
  failures := ∅

def isBlocked (limiter : RateLimiter) (ip : IpAddr) (now : Nat) : Bool :=
  if limiter.maxFailures = 0 then false
  else
    match limiter.failures.lookup ip with
    | none => false
    | some entry => entry.isBlocked now

def addFailure (limiter : RateLimiter) (entry : FailureEntry) (now : Nat) : FailureEntry :=
  if entry.isBlocked now then entry
  else
    let timestamps :=
      entry.timestamps.filter (fun t => now - t < fromSecs limiter.windowSeconds) ++ [now]
    -- `len() as u32`
    if limiter.maxFailures.toNat ≤ timestamps.length % 2 ^ 32 then
      ⟨[], some (now + fromSecs limiter.blockSeconds)⟩
    else ⟨timestamps, none⟩

def recordFailure (limiter : RateLimiter) (ip : IpAddr) (now : Nat) : RateLimiter :=
  if limiter.maxFailures = 0 then limiter
  else
    let entry := (limiter.failures.lookup ip).getD .empty
    { limiter with failures := limiter.failures.insert ip (limiter.addFailure entry now) }

end RateLimiter

/-! ### Checking a request -/

structure AuthState where
  readKeyHash : Option (Vector UInt8 32)
  adminKeyHash : Option (Vector UInt8 32)
  rateLimiter : RateLimiter

/-- `<[u8; 32]>::try_from`. -/
def toHash (bytes : List UInt8) : Option (Vector UInt8 32) :=
  if h : bytes.length = 32 then some ⟨bytes.toArray, h⟩ else none

def requiredPermission (method : Method) : Permission :=
  if method.asStr ∈ ["POST", "DELETE", "PUT", "PATCH"] then .admin else .read

def extractBearerToken (authHeader : Option String) : Except AuthError String :=
  match authHeader with
  | none => .error .missingHeader
  | some header =>
    match (stripPrefix "Bearer " header).or (stripPrefix "bearer " header) with
    | none => .error .malformedHeader
    | some token => if token = "" then .error .malformedHeader else .ok token

section Check

variable (hexDecode : String → Option (List UInt8)) (sha256 : List UInt8 → Vector UInt8 32)

namespace AuthState

def new (authConfig : Option ApiAuthConfig) : AuthState :=
  match authConfig with
  | some cfg =>
    { readKeyHash := (hexDecode cfg.readKeyHash).bind toHash
      adminKeyHash := (cfg.adminKeyHash.bind hexDecode).bind toHash
      rateLimiter := .new cfg.maxFailures cfg.windowSeconds cfg.blockSeconds }
  | none =>
    { readKeyHash := none
      adminKeyHash := none
      rateLimiter := .new 0 0 0 }

def isEnabled (auth : AuthState) : Bool := auth.readKeyHash.isSome

def verifyToken (auth : AuthState) (token : String) : Except AuthError Permission :=
  let providedHash := sha256 (utf8Bytes token)
  match auth.readKeyHash with
  | none => .error .noKeyConfigured
  | some readHash =>
    if providedHash = readHash then
      .ok (if auth.adminKeyHash.isNone then .admin else .read)
    else if auth.adminKeyHash = some providedHash then .ok .admin
    else .error .invalidKey

def isBlocked (auth : AuthState) (clientIp : Option IpAddr) (now : Nat) : Bool :=
  match clientIp with
  | some ip => auth.rateLimiter.isBlocked ip now
  | none => false

def recordFailure (auth : AuthState) (clientIp : Option IpAddr) (now : Nat) : AuthState :=
  match clientIp with
  | some ip => { auth with rateLimiter := auth.rateLimiter.recordFailure ip now }
  | none => auth

/-- `AuthState::check`; `now` is the clock read of `is_blocked`, `failedAt` that of
`record_failure`. -/
def check (auth : AuthState) (method : Method) (_path : String) (authHeader : Option String)
    (clientIp : Option IpAddr) (now failedAt : Nat) : Except AuthError Permission × AuthState :=
  if ¬auth.isEnabled then (.ok .admin, auth)
  else if auth.isBlocked clientIp now then (.error .rateLimited, auth)
  else
    let required := requiredPermission method
    match extractBearerToken authHeader with
    | .error e => (.error e, auth)
    | .ok token =>
      match auth.verifyToken sha256 token with
      | .error e => (.error e, auth.recordFailure clientIp failedAt)
      | .ok granted =>
        if required = .admin ∧ granted = .read then (.error .insufficientPermission, auth)
        else (.ok granted, auth)

theorem isEnabled_of_read {auth : AuthState} {hash : Vector UInt8 32}
    (h : auth.readKeyHash = some hash) : auth.isEnabled = true := by
  rw [isEnabled, h]
  rfl

end AuthState

/-! ### What the configuration promises -/

/-- What `hex::decode` is documented to do. -/
structure HexDecode : Prop where
  accepts : ∀ s, (hexDecode s).isSome ↔ s.toList.all isAsciiHexdigit ∧ s.utf8ByteSize % 2 = 0
  halves : ∀ s bytes, hexDecode s = some bytes → bytes.length = s.utf8ByteSize / 2

variable {hexDecode sha256}

theorem toHash_of_isKeyHash (hex : HexDecode hexDecode) {hash : String}
    (h : isKeyHash hash = true) : ∃ bytes, (hexDecode hash).bind toHash = some bytes := by
  simp only [isKeyHash, Bool.and_eq_true, beq_iff_eq] at h
  obtain ⟨bytes, hbytes⟩ := Option.isSome_iff_exists.mp
    ((hex.accepts hash).mpr ⟨h.1, by rw [h.2]⟩)
  have hlen : bytes.length = 32 := by
    rw [hex.halves hash bytes hbytes, h.2]
  refine ⟨⟨bytes.toArray, hlen⟩, ?_⟩
  rw [hbytes, Option.bind_some, toHash, dif_pos hlen]

theorem toHash_eq_some {bytes : List UInt8} {hash : Vector UInt8 32} :
    toHash bytes = some hash ↔ bytes = hash.toList := by
  rw [toHash]
  constructor
  · intro h
    split at h
    · cases h
      rfl
    · cases h
  · rintro rfl
    rw [dif_pos hash.length_toList]
    rfl

/-- **No hash is dropped**: with an accepted configuration, the state holds the read hash
that is configured, and an admin hash exactly when one is configured. -/
theorem new_of_acceptedAuth (hex : HexDecode hexDecode) {cfg : ApiAuthConfig}
    (h : AcceptedAuth cfg) :
    ∃ readHash adminHash,
      (AuthState.new hexDecode (some cfg)).readKeyHash = some readHash ∧
      (AuthState.new hexDecode (some cfg)).adminKeyHash = adminHash ∧
      hexDecode cfg.readKeyHash = some readHash.toList ∧
      cfg.adminKeyHash.bind hexDecode = adminHash.map Vector.toList ∧
      (adminHash.isSome ↔ cfg.adminKeyHash.isSome) := by
  obtain ⟨readHash, hread⟩ := toHash_of_isKeyHash hex h.read
  obtain ⟨bytes, hbytes, hhash⟩ := Option.bind_eq_some_iff.mp hread
  rw [toHash_eq_some.mp hhash] at hbytes
  refine ⟨readHash, _, hread, rfl, hbytes, ?_⟩
  cases hadmin : cfg.adminKeyHash with
  | none => simp [AuthState.new, hadmin]
  | some adminText =>
    obtain ⟨adminHash, hadminHash⟩ := toHash_of_isKeyHash hex (h.admin adminText hadmin)
    obtain ⟨adminBytes, hadminBytes, hhash'⟩ := Option.bind_eq_some_iff.mp hadminHash
    rw [toHash_eq_some.mp hhash'] at hadminBytes
    have hstate : (AuthState.new hexDecode (some cfg)).adminKeyHash = some adminHash := by
      simp only [AuthState.new, hadmin, Option.bind_some]
      exact hadminHash
    rw [hstate, Option.bind_some, hadminBytes]
    exact ⟨rfl, Iff.rfl⟩

/-! ### What a check grants -/

theorem extractBearerToken_eq_ok {authHeader : Option String} {token : String} :
    extractBearerToken authHeader = .ok token ↔ token ≠ "" ∧
      (authHeader = some ("Bearer " ++ token) ∨ authHeader = some ("bearer " ++ token)) := by
  cases authHeader with
  | none => simp [extractBearerToken]
  | some header =>
    have hor : ∀ t, (stripPrefix "Bearer " header).or (stripPrefix "bearer " header) = some t ↔
        header = "Bearer " ++ t ∨ header = "bearer " ++ t := by
      intro t
      rw [Option.or_eq_some_iff, stripPrefix_eq_some, stripPrefix_eq_some]
      refine or_congr_right ⟨fun h => h.2, fun h => ⟨?_, h⟩⟩
      rw [Option.eq_none_iff_forall_ne_some]
      intro t' ht'
      rw [stripPrefix_eq_some, h] at ht'
      have hchars := congrArg String.toList ht'
      rw [String.toList_append, String.toList_append] at hchars
      exact absurd (List.cons.inj hchars).1 (by decide)
    rw [extractBearerToken, Option.some.injEq, Option.some.injEq, ← hor token]
    cases (stripPrefix "Bearer " header).or (stripPrefix "bearer " header) with
    | none => simp
    | some t =>
      simp only [Option.some.injEq]
      split
      · next ht =>
        refine ⟨fun h => (by cases h), fun h => ?_⟩
        rw [← h.2] at h
        exact absurd ht h.1
      · next ht =>
        rw [Except.ok.injEq]
        exact ⟨fun h => ⟨h ▸ ht, h⟩, fun h => h.2⟩

/-- What the configured keys allow: a token in the header whose hash is one of the two,
and for the writing methods the admin hash, or the read hash where there is no other. -/
def Authorized (sha256 : List UInt8 → Vector UInt8 32) (readHash : Vector UInt8 32)
    (adminHash : Option (Vector UInt8 32)) (method : Method) (authHeader : Option String) : Prop :=
  ∃ token, token ≠ "" ∧
    (authHeader = some ("Bearer " ++ token) ∨ authHeader = some ("bearer " ++ token)) ∧
    if method.asStr ∈ ["POST", "PUT", "PATCH", "DELETE"] then
      sha256 (utf8Bytes token) = adminHash.getD readHash
    else sha256 (utf8Bytes token) = readHash ∨ adminHash = some (sha256 (utf8Bytes token))

theorem requiredPermission_eq_admin {method : Method} :
    requiredPermission method = .admin ↔ method.asStr ∈ ["POST", "PUT", "PATCH", "DELETE"] := by
  rw [requiredPermission]
  have hmem : method.asStr ∈ ["POST", "DELETE", "PUT", "PATCH"] ↔
      method.asStr ∈ ["POST", "PUT", "PATCH", "DELETE"] := by
    simp only [List.mem_cons, List.not_mem_nil, or_false]
    tauto
  rw [← hmem]
  split
  · next h => simp [h]
  · next h => simp [h]

theorem verifyToken_allows {auth : AuthState} {readHash : Vector UInt8 32}
    (hread : auth.readKeyHash = some readHash) (hdistinct : auth.adminKeyHash ≠ some readHash)
    (method : Method) (token : String) :
    (∃ granted, auth.verifyToken sha256 token = .ok granted ∧
        ¬(requiredPermission method = .admin ∧ granted = .read)) ↔
      if method.asStr ∈ ["POST", "PUT", "PATCH", "DELETE"] then
        sha256 (utf8Bytes token) = auth.adminKeyHash.getD readHash
      else sha256 (utf8Bytes token) = readHash ∨
        auth.adminKeyHash = some (sha256 (utf8Bytes token)) := by
  rw [requiredPermission_eq_admin]
  simp only [AuthState.verifyToken, hread]
  by_cases hr : sha256 (utf8Bytes token) = readHash
  · rw [if_pos hr, hr]
    cases hadmin : auth.adminKeyHash with
    | none => simp
    | some adminHash =>
      rw [hadmin] at hdistinct
      have hne : readHash ≠ adminHash := fun h => hdistinct (by rw [h])
      simp [hne]
  · rw [if_neg hr]
    by_cases ha : auth.adminKeyHash = some (sha256 (utf8Bytes token))
    · rw [if_pos ha]
      simp [ha]
    · rw [if_neg ha]
      cases hadmin : auth.adminKeyHash with
      | none => simp [hr]
      | some adminHash =>
        rw [hadmin] at ha
        have hne : sha256 (utf8Bytes token) ≠ adminHash := fun h => ha (by rw [h])
        simp [hr, hne, Ne.symm hne]

/-- **What a check grants** to a client that is not blocked. -/
theorem check_ok_iff {auth : AuthState} {readHash : Vector UInt8 32}
    (hread : auth.readKeyHash = some readHash) (hdistinct : auth.adminKeyHash ≠ some readHash)
    (sha256 : List UInt8 → Vector UInt8 32) (method : Method) (path : String)
    (authHeader : Option String) {clientIp : Option IpAddr} {now : Nat} (failedAt : Nat)
    (hblocked : auth.isBlocked clientIp now = false) :
    (∃ granted, (auth.check sha256 method path authHeader clientIp now failedAt).1 = .ok granted) ↔
      Authorized sha256 readHash auth.adminKeyHash method authHeader := by
  have henabled := AuthState.isEnabled_of_read hread
  have hstep : Authorized sha256 readHash auth.adminKeyHash method authHeader ↔
      ∃ token, extractBearerToken authHeader = .ok token ∧
        ∃ granted, auth.verifyToken sha256 token = .ok granted ∧
          ¬(requiredPermission method = .admin ∧ granted = .read) := by
    refine exists_congr fun token => ?_
    rw [verifyToken_allows hread hdistinct, extractBearerToken_eq_ok, and_assoc]
  rw [hstep]
  simp only [AuthState.check, henabled, not_true_eq_false, if_false, hblocked, Bool.false_eq_true]
  cases extractBearerToken authHeader with
  | error e => simp
  | ok token =>
    simp only [Except.ok.injEq, exists_eq_left']
    cases auth.verifyToken sha256 token with
    | error e => simp
    | ok granted =>
      simp only [Except.ok.injEq, exists_eq_left']
      split
      · next h => simp [h]
      · next h => simp [h]

/-- **Authentication fails closed.**  For every configuration that is accepted with an
`[api.auth]` section, authentication is on, there is an admin hash exactly when one is
configured, and a client that is not blocked passes a check exactly with a token that the
configured keys allow, whatever the rate limiter has seen. -/
theorem check_grants_configured (hex : HexDecode hexDecode)
    {tomlFromStr : String → Except String Config} {content : String} {config : Config}
    (h : Config.fromStr tomlFromStr content = .ok config) {cfg : ApiAuthConfig}
    (hcfg : config.api.auth = some cfg)
    (hdistinct : ∀ adminKeyHash, cfg.adminKeyHash = some adminKeyHash →
      hexDecode cfg.readKeyHash ≠ hexDecode adminKeyHash) :
    (AuthState.new hexDecode config.api.auth).isEnabled = true ∧
    ((AuthState.new hexDecode config.api.auth).adminKeyHash.isSome ↔ cfg.adminKeyHash.isSome) ∧
    ∃ readHash adminHash, hexDecode cfg.readKeyHash = some readHash.toList ∧
      cfg.adminKeyHash.bind hexDecode = adminHash.map Vector.toList ∧
      ∀ limiter method path authHeader clientIp now failedAt,
        let auth := { AuthState.new hexDecode config.api.auth with rateLimiter := limiter }
        auth.isBlocked clientIp now = false →
          ((∃ granted,
              (auth.check sha256 method path authHeader clientIp now failedAt).1 = .ok granted) ↔
            Authorized sha256 readHash adminHash method authHeader) := by
  rw [hcfg]
  obtain ⟨readHash, adminHash, hread, hadmin, hreadText, hadminText, hsome⟩ :=
    new_of_acceptedAuth hex (acceptedAuth_of_fromStr h hcfg)
  refine ⟨AuthState.isEnabled_of_read hread, by rw [hadmin]; exact hsome, readHash, adminHash,
    hreadText, hadminText, ?_⟩
  intro limiter method path authHeader clientIp now failedAt auth hblocked
  have hne : adminHash ≠ some readHash := by
    rintro rfl
    obtain ⟨adminKeyHash, hkey⟩ := Option.isSome_iff_exists.mp (hsome.mp rfl)
    rw [hkey, Option.bind_some] at hadminText
    exact hdistinct adminKeyHash hkey (hreadText.trans hadminText.symm)
  have hadmin' : auth.adminKeyHash = adminHash := hadmin
  have hread' : auth.readKeyHash = some readHash := hread
  rw [check_ok_iff hread' (by rw [hadmin']; exact hne) sha256 method path authHeader failedAt
    hblocked, hadmin']

end Check

/-! ### A configuration with one key -/

def hexNibble (b : UInt8) : UInt8 :=
  if b ≤ 57 then b - 48 else if 97 ≤ b then b - 87 else b - 55

def hexPairs : List UInt8 → List UInt8
  | a :: b :: rest => (hexNibble a * 16 + hexNibble b) :: hexPairs rest
  | _ => []

def decodeHex (s : String) : Option (List UInt8) :=
  if s.toList.all isAsciiHexdigit ∧ s.utf8ByteSize % 2 = 0 then some (hexPairs (utf8Bytes s))
  else none

theorem length_hexPairs (bytes : List UInt8) : (hexPairs bytes).length = bytes.length / 2 := by
  induction bytes using hexPairs.induct with
  | case1 a b rest ih =>
    rw [hexPairs, List.length_cons, ih]
    simp only [List.length_cons]
    omega
  | case2 bytes h =>
    rcases bytes with _ | ⟨a, _ | ⟨b, rest⟩⟩
    · rfl
    · simp [hexPairs]
    · exact absurd rfl (h a b rest)

theorem hexDecode_decodeHex : HexDecode decodeHex := by
  refine ⟨fun s => ?_, fun s bytes h => ?_⟩
  · rw [decodeHex]
    split
    · next h => exact ⟨fun _ => h, fun _ => rfl⟩
    · next h => exact ⟨fun hn => absurd hn (by simp), fun hok => absurd hok h⟩
  · rw [decodeHex] at h
    split at h
    · cases h
      rw [length_hexPairs]
      rfl
    · cases h

structure HexDigits (digit : Nat → Char) : Prop where
  code : ∀ n : Fin 16, String.utf8EncodeChar (digit n) = [UInt8.ofNat (digit n).toNat]
  isHex : ∀ n : Fin 16, isAsciiHexdigit (digit n) = true
  nibble : ∀ n : Fin 16, hexNibble (UInt8.ofNat (digit n).toNat) = UInt8.ofNat n

theorem hexPairs_digits {digit : Nat → Char} (h : HexDigits digit) (bytes : List UInt8) :
    hexPairs (bytes.flatMap fun b => [UInt8.ofNat (digit (b.toNat / 16)).toNat,
      UInt8.ofNat (digit (b.toNat % 16)).toNat]) = bytes := by
  induction bytes with
  | nil => rfl
  | cons b bytes ih =>
    have hb := b.toNat_lt
    have hhigh := h.nibble ⟨b.toNat / 16, by omega⟩
    have hlow := h.nibble ⟨b.toNat % 16, by omega⟩
    have hvalue : UInt8.ofNat (b.toNat / 16) * 16 + UInt8.ofNat (b.toNat % 16) = b := by
      apply UInt8.toNat_inj.mp
      have h16 : (16 : UInt8).toNat = 16 := rfl
      rw [UInt8.toNat_add, UInt8.toNat_mul, UInt8.toNat_ofNat', UInt8.toNat_ofNat', h16]
      omega
    rw [List.flatMap_cons, List.cons_append, List.cons_append, List.nil_append, hexPairs, ih, hhigh,
      hlow, hvalue]

theorem decodeHex_digits {digit : Nat → Char} (h : HexDigits digit) (bytes : List UInt8) :
    decodeHex (String.ofList (bytes.flatMap fun b =>
      [digit (b.toNat / 16), digit (b.toNat % 16)])) = some bytes := by
  have hbytes : utf8Bytes (String.ofList (bytes.flatMap fun b =>
      [digit (b.toNat / 16), digit (b.toNat % 16)])) =
        bytes.flatMap fun b => [UInt8.ofNat (digit (b.toNat / 16)).toNat,
          UInt8.ofNat (digit (b.toNat % 16)).toNat] := by
    rw [utf8Bytes_ofList, List.flatMap_assoc]
    refine List.flatMap_congr fun b _ => ?_
    have hb := b.toNat_lt
    rw [List.flatMap_cons, List.flatMap_singleton, h.code ⟨b.toNat / 16, by omega⟩,
      h.code ⟨b.toNat % 16, by omega⟩]
    rfl
  have hdigits : (String.ofList (bytes.flatMap fun b =>
      [digit (b.toNat / 16), digit (b.toNat % 16)])).toList.all isAsciiHexdigit = true := by
    rw [String.toList_ofList, List.all_flatMap, List.all_eq_true]
    intro b _
    have hb := b.toNat_lt
    simp only [List.all_cons, List.all_nil, Bool.and_true, h.isHex ⟨b.toNat / 16, by omega⟩,
      h.isHex ⟨b.toNat % 16, by omega⟩]
  have heven : (String.ofList (bytes.flatMap fun b =>
      [digit (b.toNat / 16), digit (b.toNat % 16)])).utf8ByteSize % 2 = 0 := by
    show (utf8Bytes (String.ofList (bytes.flatMap fun b =>
      [digit (b.toNat / 16), digit (b.toNat % 16)]))).length % 2 = 0
    rw [hbytes, List.length_flatMap]
    simp
  rw [decodeHex, if_pos ⟨hdigits, heven⟩, hbytes, hexPairs_digits h]

/-- The SHA-256 of the key `a`. -/
def hashOfA : Vector UInt8 32 :=
  ⟨[0xca, 0x97, 0x81, 0x12, 0xca, 0x1b, 0xbd, 0xca, 0xfa, 0xc2, 0x31, 0xb3,
    0x9a, 0x23, 0xdc, 0x4d, 0xa7, 0x86, 0xef, 0xf8, 0x14, 0x7c, 0x4e, 0x72,
    0xb9, 0x80, 0x77, 0x85, 0xaf, 0xee, 0x48, 0xbb].toArray, rfl⟩

/-- SHA-256 as far as the key `a` goes. -/
def sha256OfA (bytes : List UInt8) : Vector UInt8 32 :=
  if bytes = utf8Bytes "a" then hashOfA else .replicate 32 0

/-- A file with the key `a` for everything. -/
def singleKeyText : String :=
  "interface = \"eth0\"\n\n[api.auth]\nread_key_hash = \"" ++
    "ca978112ca1bbdcafac231b39a23dc4da786eff8147c4e72b9807785afee48bb" ++ "\"\n"

def singleKeyConfig : Config where
  interface := "eth0"
  apiPort := 8080
  apiBindAddress := "0.0.0.0"
  api := ⟨some ⟨"ca978112ca1bbdcafac231b39a23dc4da786eff8147c4e72b9807785afee48bb",
    none, 10, 60, 300⟩, none, none⟩
  logLevel := "info"
  captureBuffer := 4096
  databasePath := ""
  mqtt := none
  ntfy := none
  webhook := none
  email := none
  rules := []
  scanner := ⟨60⟩
  storage := ⟨24, 90⟩

theorem singleKeyConfig_accepted :
    Config.fromStr plainToml singleKeyText = .ok singleKeyConfig := by
  decide +kernel

/-- In single-key mode the read key may write. -/
theorem check_grants_singleKey :
    ∃ granted, ((AuthState.new decodeHex singleKeyConfig.api.auth).check sha256OfA ⟨"POST"⟩
      "/alerts/1/acknowledge" (some "Bearer a") none 0 0).1 = .ok granted := by
  obtain ⟨_, _, readHash, adminHash, hread, hadmin, hcheck⟩ :=
    @check_grants_configured decodeHex sha256OfA hexDecode_decodeHex _ _ _ singleKeyConfig_accepted
      _ rfl (fun _ h => by cases h)
  refine (hcheck _ ⟨"POST"⟩ _ (some "Bearer a") none 0 0 rfl).mpr
    ⟨"a", by decide, .inl (by decide), ?_⟩
  have hnone : adminHash = none := Option.map_eq_none_iff.mp hadmin.symm
  have hhash : readHash.toList = hashOfA.toList := Option.some.inj
    (hread.symm.trans (by decide +kernel))
  rw [if_pos (by decide), hnone, Option.getD_none]
  exact (Vector.toList_inj.mp hhash).symm

end EdgeShield.Api
